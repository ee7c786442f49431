import ElmStyle.Decimal.Shortest
import ElmStyle.Text.Quoted

/-!
# The text of a number

Two formats share one layout of digits. The *compact* text writes a whole number as an integer with
all its digits and without a minus sign for zero. The *full* text always shows that the number is no
integer (`2.0`). Both write other numbers with the fewest digits that read back. `normalize` is
`format_number` of `twelm`.
-/
namespace ElmStyle.Decimal

/-- Where positional notation ends: the point stands at most three zeros before the first digit, and
at most sixteen places after it. -/
def isPositional (point : Int) : Bool := -4 < point && point ≤ 16

/-- The exponent of scientific notation: a sign and two digits at least. -/
def exponentText (exponent : Int) : String :=
  let digits := Nat.toDigits 10 exponent.natAbs
  (if exponent < 0 then "e-" else "e+") ++
    String.ofList (List.replicate (2 - digits.length) '0' ++ digits)

/-- Digits with the point after the first `point` of them. -/
def positionalText (digits : List Char) (point : Int) : String :=
  let places := point.toNat
  if point ≤ 0 then String.ofList ('0' :: '.' :: (List.replicate (-point).toNat '0' ++ digits))
  else if digits.length ≤ places then
    String.ofList (digits ++ List.replicate (places - digits.length) '0' ++ ['.', '0'])
  else String.ofList (digits.take places ++ '.' :: digits.drop places)

/-- One digit before the point, and the power of ten. -/
def scientificText (digits : List Char) (point : Int) : String :=
  let mantissa := match digits with
    | first :: second :: rest => first :: '.' :: second :: rest
    | short => short
  String.ofList mantissa ++ exponentText (point - 1)

/-- Digits without the zeros at their end. -/
def trimZeros (digits : List Char) : List Char :=
  (digits.reverse.dropWhile (· == '0')).reverse

namespace Scaled

/-- The text of a positive decimal. -/
def text (d : Scaled) : String :=
  let digits := Nat.toDigits 10 d.digits
  let point := (digits.length : Int) + d.exponent
  if isPositional point then positionalText (trimZeros digits) point
  else scientificText (trimZeros digits) point

end Scaled

namespace Binary64

def sign (negative : Bool) : String := if negative then "-" else ""

/-- Whole numbers as integers, others by the fewest digits that read back. -/
def compactText : Binary64 → String
  | .nan => "nan"
  | .infinite negative => sign negative ++ "inf"
  | .finite negative units =>
    if units % one = 0 then sign (negative && units != 0) ++ Nat.repr (units / one)
    else sign negative ++ (Scaled.shortest units).text

/-- Whole numbers keep a point or an exponent, and zero its sign. -/
def fullText : Binary64 → String
  | .nan => "nan"
  | .infinite negative => sign negative ++ "inf"
  | .finite negative units =>
    sign negative ++ (if units = 0 then "0.0" else (Scaled.shortest units).text)

end Binary64

/-- The text is no numeral. -/
structure NotANumber where
  text : String
  deriving DecidableEq, Repr

def NotANumber.message (e : NotANumber) : String :=
  s!"could not convert string to float: {Text.quoted e.text}"

/-- The compact text of the number that a numeral writes. -/
def normalize (s : String) : Except NotANumber String :=
  match Numeral.read? s with
  | some numeral => .ok (Binary64.ofNumeral numeral).compactText
  | none => .error ⟨s⟩

end ElmStyle.Decimal
