import ElmStyle.Json.Value

/-!
# Reading JSON documents

`read` turns a document into a value or names the first fault and its place. Besides the standard's
forms, `NaN`, `Infinity` and `-Infinity` are numbers. The parts of the reader take the text that is
still unread and locate a fault by the length of the text unread at it; `read` turns that into an
offset from the start.

Half of a surrogate pair that an escape writes on its own is kept, as `Text.ofCodePoint` says. How
deep values are nested is not limited here.
-/
namespace ElmStyle.Json

/-- What is wrong at a place of a document. -/
inductive Fault where
  | byteOrderMark | expectingValue | extraData | expectingComma | expectingName | expectingColon
  | unterminatedString | controlCharacter | badEscape | badUnicodeEscape
  deriving DecidableEq, Repr

def Fault.message : Fault → String
  | .byteOrderMark => "Unexpected UTF-8 BOM (decode using utf-8-sig)"
  | .expectingValue => "Expecting value"
  | .extraData => "Extra data"
  | .expectingComma => "Expecting ',' delimiter"
  | .expectingName => "Expecting property name enclosed in double quotes"
  | .expectingColon => "Expecting ':' delimiter"
  | .unterminatedString => "Unterminated string starting at"
  | .controlCharacter => "Invalid control character at"
  | .badEscape => "Invalid \\escape"
  | .badUnicodeEscape => "Invalid \\uXXXX escape"

/-- A place of a document: lines and columns are counted from one, the offset from zero. -/
structure Place where
  offset : Nat
  line : Nat
  column : Nat
  deriving DecidableEq, Repr

/-- Why a document has no value. -/
inductive ReadError where
  | malformed (fault : Fault) (place : Place)
  | integerTooLong (digits : Nat)
  deriving DecidableEq, Repr

/-- The longest integer that is read, in digits. -/
def integerDigitLimit : Nat := 4300

def integerTooLongMessage (digits : Nat) : String :=
  s!"Exceeds the limit ({integerDigitLimit} digits) for integer string conversion: value has " ++
    s!"{digits} digits; use sys.set_int_max_str_digits() to increase the limit"

/-- A fault located by the length of the text that is unread at it. -/
inductive Stop where
  | malformed (fault : Fault) (unread : Nat)
  | integerTooLong (digits : Nat)
  deriving DecidableEq, Repr

/-- Stop with a fault at the start of the given text. -/
def stop {α : Type} (fault : Fault) (unread : List Char) : Except Stop α :=
  .error (.malformed fault unread.length)

def isSpace (c : Char) : Bool :=
  c == ' ' || c == '\t' || c == '\n' || c == '\r'

def skipSpace (cs : List Char) : List Char := cs.dropWhile isSpace

def hexValue? (c : Char) : Option Nat :=
  if c.isDigit then some (c.toNat - 0x30)
  else if 'a' ≤ c ∧ c ≤ 'f' then some (c.toNat - 0x57)
  else if 'A' ≤ c ∧ c ≤ 'F' then some (c.toNat - 0x37)
  else none

/-- The value of four hexadecimal digits. -/
def hex4? (a b c d : Char) : Option Nat := do
  let a ← hexValue? a
  let b ← hexValue? b
  let c ← hexValue? c
  let d ← hexValue? d
  return ((a * 16 + b) * 16 + c) * 16 + d

/-- The character that a pair of codes writes. -/
def pairChar (high low : Nat) : Char :=
  Char.ofNat (0x10000 + (high - 0xD800) * 0x400 + (low - 0xDC00))

/-- The character that a one-letter escape writes. -/
def escaped? (c : Char) : Option Char :=
  if c = Text.doubleQuote ∨ c = '\\' ∨ c = '/' then some c
  else if c = 'b' then some '\x08'
  else if c = 'f' then some '\x0c'
  else if c = 'n' then some '\n'
  else if c = 'r' then some '\r'
  else if c = 't' then some '\t'
  else none

/-- Put a character in front of the rest of a string. -/
def consChar (c : Char) (result : List Char × List Char) : List Char × List Char :=
  (c :: result.1, result.2)

/-- The characters of a string up to its closing quote, and the text after it. `opening` is the
length of the text unread at the opening quote. Four hexadecimal digits must be followed by more
text. -/
def readString (opening : Nat) : List Char → Except Stop (List Char × List Char)
  | [] => .error (.malformed .unterminatedString opening)
  | '\\' :: 'u' :: a :: b :: c :: d :: '\\' :: 'u' :: e :: f :: g :: h :: next :: rest =>
    match hex4? a b c d with
    | none => .error (.malformed .badUnicodeEscape (rest.length + 12))
    | some high => match hex4? e f g h with
      | none => .error (.malformed .badUnicodeEscape (rest.length + 6))
      | some low =>
        if Text.isHighSurrogate high && Text.isLowSurrogate low then
          (readString opening (next :: rest)).map (consChar (pairChar high low))
        else
          (readString opening ('\\' :: 'u' :: e :: f :: g :: h :: next :: rest)).map
            (consChar (Text.ofCodePoint high))
  | '\\' :: 'u' :: a :: b :: c :: d :: next :: rest =>
    match hex4? a b c d with
    | none => .error (.malformed .badUnicodeEscape (rest.length + 6))
    | some code => (readString opening (next :: rest)).map (consChar (Text.ofCodePoint code))
  | '\\' :: 'u' :: rest => .error (.malformed .badUnicodeEscape (rest.length + 1))
  | '\\' :: c :: rest => match escaped? c with
    | some value => (readString opening rest).map (consChar value)
    | none => .error (.malformed .badEscape (rest.length + 2))
  | c :: rest =>
    if c = Text.doubleQuote then .ok ([], rest)
    else if c = '\\' then .error (.malformed .unterminatedString opening)
    else if c.toNat < 0x20 then .error (.malformed .controlCharacter (rest.length + 1))
    else (readString opening rest).map (consChar c)

/-- The digits of a whole part: a single zero, or digits that start with another. -/
def splitWhole : List Char → List Char × List Char
  | '0' :: rest => (['0'], rest)
  | cs => cs.span Char.isDigit

/-- A point and at least one digit, if they are there. -/
def splitFraction : List Char → List Char × List Char
  | '.' :: rest =>
    match rest.span Char.isDigit with
    | ([], _) => ([], '.' :: rest)
    | (digits, after) => ('.' :: digits, after)
  | cs => ([], cs)

/-- An exponent mark, an optional sign and at least one digit, if they are there. -/
def splitExponent (cs : List Char) : List Char × List Char :=
  match cs with
  | [] => ([], [])
  | mark :: rest =>
    if mark.toLower = 'e' then
      let (sign, after) := match rest with
        | '+' :: after => (['+'], after)
        | '-' :: after => (['-'], after)
        | after => ([], after)
      match after.span Char.isDigit with
      | ([], _) => ([], cs)
      | (digits, beyond) => (mark :: sign ++ digits, beyond)
    else ([], cs)

/-- The number at the start of the text, which takes as much of it as it can. -/
def readNumber (cs : List Char) : Except Stop (Value × List Char) :=
  let (minus, unsigned) := match cs with
    | '-' :: rest => (['-'], rest)
    | rest => ([], rest)
  let (whole, rest) := splitWhole unsigned
  if whole = [] then stop .expectingValue cs
  else
    let (fraction, rest) := splitFraction rest
    let (exponent, rest) := splitExponent rest
    if fraction = [] ∧ exponent = [] then
      if integerDigitLimit < whole.length then .error (.integerTooLong whole.length)
      else
        let value : Int := Decimal.Numeral.digitsValue whole
        .ok (.integer (if minus = [] then value else -value), rest)
    else
      match Decimal.Numeral.bare? (minus ++ whole ++ fraction ++ exponent) with
      | some numeral => .ok (.number (Decimal.Binary64.ofNumeral numeral), rest)
      | none => stop .expectingValue cs

/-- The values that are written as words. -/
def wordValues : List (String × Value) := [
  ("null", .null), ("true", .bool true), ("false", .bool false), ("NaN", .number .nan),
  ("Infinity", .number (.infinite false)), ("-Infinity", .number (.infinite true))]

/-- A value written as a word, and the text after it. -/
def word? (cs : List Char) : Option (Value × List Char) :=
  wordValues.findSome? fun (word, value) =>
    if word.toList.isPrefixOf cs then some (value, cs.drop word.length) else none

mutual

/-- The value at the start of the text. `depth` bounds the nesting. -/
def readValue (depth : Nat) (cs : List Char) : Except Stop (Value × List Char) :=
  match depth with
  | 0 => stop .expectingValue cs
  | depth + 1 => match cs with
    | '[' :: rest =>
      match skipSpace rest with
      | ']' :: after => .ok (.array [], after)
      | first => (readItems depth [] first).map fun (items, after) => (.array items, after)
    | '\x7b' :: rest =>
      match skipSpace rest with
      | '\x7d' :: after => .ok (.object [], after)
      | first => (readMembers depth [] first).map fun (pairs, after) =>
          (.object (members pairs), after)
    | c :: rest =>
      if c = Text.doubleQuote then
        (readString cs.length rest).map fun (chars, after) => (.string (String.ofList chars), after)
      else match word? cs with
        | some result => .ok result
        | none => readNumber cs
    | [] => stop .expectingValue cs

/-- The items of a list from the one at the start of the text; `before` are those before it, last
first. -/
def readItems (depth : Nat) (before : List Value) (cs : List Char) :
    Except Stop (List Value × List Char) :=
  match depth with
  | 0 => stop .expectingValue cs
  | depth + 1 => do
    let (item, after) ← readValue depth cs
    match skipSpace after with
    | ']' :: rest => .ok ((item :: before).reverse, rest)
    | ',' :: rest => readItems depth (item :: before) (skipSpace rest)
    | rest => stop .expectingComma rest

/-- The members of an object from the one at the start of the text; `before` are those before it,
last first. -/
def readMembers (depth : Nat) (before : List (String × Value)) (cs : List Char) :
    Except Stop (List (String × Value) × List Char) :=
  match depth with
  | 0 => stop .expectingName cs
  | depth + 1 => match cs with
    | [] => stop .expectingName cs
    | c :: rest =>
      if c = Text.doubleQuote then do
        let (name, after) ← readString cs.length rest
        match skipSpace after with
        | ':' :: valueText =>
          let (value, after) ← readValue depth (skipSpace valueText)
          let member := (String.ofList name, value)
          match skipSpace after with
          | '\x7d' :: rest => .ok ((member :: before).reverse, rest)
          | ',' :: rest => readMembers depth (member :: before) (skipSpace rest)
          | rest => stop .expectingComma rest
        | rest => stop .expectingColon rest
      else stop .expectingName cs

end

/-- The place that has `text` before it. -/
def Place.after (text : List Char) : Place where
  offset := text.length
  line := 1 + text.count '\n'
  column := (text.reverse.takeWhile (· != '\n')).length + 1

def Stop.toError (document : List Char) : Stop → ReadError
  | .malformed fault unread =>
    .malformed fault (Place.after (document.take (document.length - unread)))
  | .integerTooLong digits => .integerTooLong digits

/-- The value of a whole document, with blanks around it. -/
def readDocument (cs : List Char) : Except Stop Value :=
  if cs.head? = some (Char.ofNat 0xFEFF) then stop .byteOrderMark cs
  else do
    let (value, after) ← readValue (2 * cs.length + 1) (skipSpace cs)
    match skipSpace after with
    | [] => .ok value
    | rest => stop .extraData rest

/-- The value that a document writes. -/
def read (document : String) : Except ReadError Value :=
  (readDocument document.toList).mapError (Stop.toError document.toList)

end ElmStyle.Json
