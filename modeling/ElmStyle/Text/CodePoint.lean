/-!
# Code points

How a code point is written by its number, and which characters stand for lone surrogates.

A JSON escape can write half of a surrogate pair on its own. The half is a code point and goes
through every step of a run as any other character does, but a text that holds one cannot be
encoded. `Char` has no room for such halves, so each is held as the character with the same last
four digits in plane 13, a plane of which Unicode has assigned no character. The code points
U+DD800 to U+DDFFF themselves are left out in return: a text with one of them is taken for a text
with a lone surrogate. Where texts are put in order, a half counts as the character that stands for
it.
-/
namespace ElmStyle.Text

/-- The lower-case hexadecimal digits of `n`, filled up with zeros to `width`. -/
def hexDigits (width n : Nat) : List Char :=
  let digits := Nat.toDigits 16 n
  List.replicate (width - digits.length) '0' ++ digits

/-- Two, four or eight hexadecimal digits, whichever is the first to hold the code point. -/
def codePointEscape (code : Nat) : List Char :=
  if code < 0x100 then '\\' :: 'x' :: hexDigits 2 code
  else if code < 0x10000 then '\\' :: 'u' :: hexDigits 4 code
  else '\\' :: 'U' :: hexDigits 8 code

/-- The first of a pair of codes that together write one character. -/
def isHighSurrogate (code : Nat) : Bool := 0xD800 ≤ code && code < 0xDC00

/-- The second of such a pair. -/
def isLowSurrogate (code : Nat) : Bool := 0xDC00 ≤ code && code < 0xE000

/-- The plane whose characters stand for lone surrogates. -/
def surrogatePlane : Nat := 0xD0000

/-- The character of a code point, also of half of a pair. -/
def ofCodePoint (code : Nat) : Char :=
  if isHighSurrogate code || isLowSurrogate code then Char.ofNat (surrogatePlane + code)
  else Char.ofNat code

/-- The half of a pair that a character stands for. -/
def surrogate? (c : Char) : Option Nat :=
  let code := c.toNat - surrogatePlane
  if surrogatePlane ≤ c.toNat && (isHighSurrogate code || isLowSurrogate code) then some code
  else none

/-- The code point of a character, also of one that stands for half of a pair. -/
def codePoint (c : Char) : Nat := (surrogate? c).getD c.toNat

/-- The text with lone surrogates written by their numbers, as on a stream that takes any text. -/
def escapeSurrogates (s : String) : String :=
  String.ofList <| s.toList.flatMap fun c => match surrogate? c with
    | some code => codePointEscape code
    | none => [c]

end ElmStyle.Text
