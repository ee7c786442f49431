import ElmStyle.Text.Quoted

/-!
# UTF-8

Bytes to characters and back. Reading stops at the first sequence that cannot be completed: the
error holds the longest run of bytes that begins some character, its place, and what is wrong after
it. Overlong forms, surrogates and code points beyond the last plane are refused at the second byte.
Writing fails at the first lone surrogate.
-/
namespace ElmStyle.Text.Utf8

/-- The byte after the run that the error names. -/
inductive Fault where
  | startByte | continuationByte | endOfData
  deriving DecidableEq, Repr

structure Error where
  position : Nat
  bytes : List UInt8
  fault : Fault
  deriving DecidableEq, Repr

/-- The first lone surrogates of a text, which stand in a row at their place. -/
structure EncodeError where
  position : Nat
  codes : List Nat
  deriving DecidableEq, Repr

/-- What the first byte of a longer character announces: the bits it carries, and for every byte to
follow the least and the greatest it may be. -/
structure Lead where
  bits : Nat
  ranges : List (Nat × Nat)
  deriving DecidableEq, Repr

def continuation : Nat × Nat := (0x80, 0xBF)

/-- The announcement of a first byte at or above `0x80`; no character starts with the others. -/
def lead? (byte : Nat) : Option Lead :=
  if 0xC2 ≤ byte ∧ byte ≤ 0xDF then some ⟨byte - 0xC0, [continuation]⟩
  else if byte = 0xE0 then some ⟨0, [(0xA0, 0xBF), continuation]⟩
  else if byte = 0xED then some ⟨0xD, [(0x80, 0x9F), continuation]⟩
  else if 0xE1 ≤ byte ∧ byte ≤ 0xEF then some ⟨byte - 0xE0, [continuation, continuation]⟩
  else if byte = 0xF0 then some ⟨0, [(0x90, 0xBF), continuation, continuation]⟩
  else if byte = 0xF4 then some ⟨4, [(0x80, 0x8F), continuation, continuation]⟩
  else if 0xF1 ≤ byte ∧ byte ≤ 0xF3 then
    some ⟨byte - 0xF0, [continuation, continuation, continuation]⟩
  else none

/-- A character under way: the bytes seen, last first, and what is still announced. -/
structure Pending where
  seen : List UInt8
  lead : Lead
  deriving DecidableEq, Repr

/-- Read on from byte `position`, with the characters before it put in front by the caller. -/
def decodeFrom (position : Nat) (pending : Option Pending) : List UInt8 → Except Error (List Char)
  | [] => match pending with
    | none => .ok []
    | some p => .error ⟨position - p.seen.length, p.seen.reverse, .endOfData⟩
  | byte :: rest => match pending with
    | none =>
      if byte.toNat < 0x80 then
        (decodeFrom (position + 1) none rest).map (Char.ofNat byte.toNat :: ·)
      else match lead? byte.toNat with
        | none => .error ⟨position, [byte], .startByte⟩
        | some lead => decodeFrom (position + 1) (some ⟨[byte], lead⟩) rest
    | some p => match p.lead.ranges with
      | [] => .error ⟨position, [byte], .startByte⟩
      | (least, greatest) :: later =>
        if least ≤ byte.toNat ∧ byte.toNat ≤ greatest then
          let bits := p.lead.bits * 0x40 + (byte.toNat - 0x80)
          if later.isEmpty then
            (decodeFrom (position + 1) none rest).map (Char.ofNat bits :: ·)
          else decodeFrom (position + 1) (some ⟨byte :: p.seen, ⟨bits, later⟩⟩) rest
        else .error ⟨position - p.seen.length, p.seen.reverse, .continuationByte⟩

/-- The characters that the bytes encode. -/
def decode (bytes : List UInt8) : Except Error (List Char) :=
  decodeFrom 0 none bytes

/-- The first lone surrogates from the given position on. -/
def loneSurrogates? (position : Nat) : List Char → Option EncodeError
  | [] => none
  | c :: rest =>
    if (surrogate? c).isSome then
      some ⟨position, ((c :: rest).takeWhile (surrogate? · |>.isSome)).filterMap surrogate?⟩
    else loneSurrogates? (position + 1) rest

/-- Why a text cannot be encoded. -/
def encodeError? (s : String) : Option EncodeError := loneSurrogates? 0 s.toList

/-- The bytes of a text. -/
def encode (s : String) : Except EncodeError (List UInt8) :=
  match encodeError? s with
  | some error => .error error
  | none => .ok s.toUTF8.data.toList

def Fault.message : Fault → String
  | .startByte => "invalid start byte"
  | .continuationByte => "invalid continuation byte"
  | .endOfData => "unexpected end of data"

def Error.message (e : Error) : String :=
  let place := match e.bytes with
    | [byte] => s!"byte 0x{String.ofList (hexDigits 2 byte.toNat)} in position {e.position}"
    | bytes => s!"bytes in position {e.position}-{e.position + bytes.length - 1}"
  s!"'utf-8' codec can't decode {place}: {e.fault.message}"

def EncodeError.message (e : EncodeError) : String :=
  let place := match e.codes with
    | [code] => s!"character '{String.ofList (codePointEscape code)}' in position {e.position}"
    | codes => s!"characters in position {e.position}-{e.position + codes.length - 1}"
  s!"'utf-8' codec can't encode {place}: surrogates not allowed"

end ElmStyle.Text.Utf8
