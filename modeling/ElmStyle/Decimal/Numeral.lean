import ElmStyle.Text.Blank
import ElmStyle.Text.DecimalDigit

/-!
# Numerals

The written forms of a number: blanks around it, a sign, digits of any script, single underscores
between digits, a fraction, an exponent; or an infinity or `nan` in any mix of cases. `read?` gives
the number that is meant, as digits and a power of ten, so nothing is rounded here.
-/
namespace ElmStyle.Decimal

/-- What a numeral denotes: `digits · 10 ^ exponent` with a sign, an infinity, or no number. -/
inductive Numeral where
  | nan
  | infinite (negative : Bool)
  | decimal (negative : Bool) (digits : Nat) (exponent : Int)
  deriving DecidableEq, Repr

namespace Numeral

/-- Digits of other scripts stand for the ASCII ones, and blanks of other scripts for the space. -/
def toAscii (c : Char) : Char :=
  if c.toNat < 0x80 then c
  else if Text.isBlank c then ' '
  else match Text.foreignDigit? c with
    | some value => Char.ofNat (0x30 + value)
    | none => c

/-- The blanks allowed around a numeral: the space, tabs and line breaks of ASCII. -/
def isMargin (c : Char) : Bool :=
  c == ' ' || (0x09 ≤ c.toNat && c.toNat ≤ 0x0D)

/-- Remove the underscores, each of which must stand between two digits. -/
def ungroup (afterDigit : Bool) : List Char → Option (List Char)
  | [] => some []
  | '_' :: d :: rest =>
    if afterDigit && d.isDigit then (ungroup true rest).map (d :: ·) else none
  | c :: rest => if c = '_' then none else (ungroup c.isDigit rest).map (c :: ·)

/-- The value of a row of digits. -/
def digitsValue (digits : List Char) : Nat :=
  digits.foldl (fun value c => 10 * value + (c.toNat - 0x30)) 0

/-- A sign, if there is one, and the rest. -/
def splitSign : List Char → Bool × List Char
  | '-' :: rest => (true, rest)
  | '+' :: rest => (false, rest)
  | rest => (false, rest)

/-- Nothing, or `e` with an optional sign and at least one digit. -/
def exponent? : List Char → Option Int
  | [] => some 0
  | c :: rest =>
    let (negative, digits) := splitSign rest
    if c.toLower = 'e' ∧ digits ≠ [] ∧ digits.all Char.isDigit then
      some (if negative then -(digitsValue digits : Int) else digitsValue digits)
    else none

/-- A fraction, if there is one, and the rest. -/
def splitFraction : List Char → List Char × List Char
  | '.' :: rest => rest.span Char.isDigit
  | rest => ([], rest)

/-- Digits with an optional fraction and exponent; one digit at least stands before the exponent. -/
def decimal? (negative : Bool) (cs : List Char) : Option Numeral :=
  let (whole, rest) := cs.span Char.isDigit
  let (fraction, rest) := splitFraction rest
  if whole = [] ∧ fraction = [] then none
  else (exponent? rest).map fun exponent =>
    .decimal negative (digitsValue (whole ++ fraction)) (exponent - fraction.length)

/-- A numeral without margins and underscores. -/
def bare? (cs : List Char) : Option Numeral :=
  let (negative, rest) := splitSign cs
  let word := String.ofList (rest.map Char.toLower)
  if word = "nan" then some .nan
  else if word = "inf" ∨ word = "infinity" then some (.infinite negative)
  else decimal? negative rest

/-- The number that the text writes, if it writes one. -/
def read? (s : String) : Option Numeral :=
  (ungroup false (Text.stripBy isMargin (s.toList.map toAscii))).bind bare?

end Numeral

end ElmStyle.Decimal
