import ElmStyle.Decimal.Numeral

/-!
# Binary floating point with 53 significant bits

A finite number is a whole number of units of `2 ^ -1074`, the least positive number of the format,
so all rounding is done on natural numbers. A numeral goes to the nearest number with 53
significant bits, a tie to the even one, and from `2 ^ 1024` on to an infinity.
-/
namespace ElmStyle.Decimal

/-- A number of the format: a sign and a count of units. -/
inductive Binary64 where
  | nan
  | infinite (negative : Bool)
  | finite (negative : Bool) (units : Nat)
  deriving DecidableEq, Repr

namespace Binary64

/-- How many units make one: `2 ^ 1074`. -/
def one : Nat := Nat.pow 2 1074

/-- The units of `2 ^ 1024`, the first power of two that has no finite number. -/
def overflow : Nat := Nat.pow 2 2098

/-- The whole number nearest to `a / d`; a tie goes to the even one. -/
def roundEven (a d : Nat) : Nat :=
  let q := a / d
  let twice := 2 * (a % d)
  if twice < d then q else if d < twice then q + 1 else q + q % 2

/-- The whole number nearest to `a / d` among those with at most 53 significant bits. -/
def nearest (a d : Nat) : Nat :=
  let grain := Nat.pow 2 ((a / d).log2 - 52)
  roundEven a (d * grain) * grain

/-- The number nearest to the quotient `a / d`. -/
def ofQuotient (negative : Bool) (a d : Nat) : Binary64 :=
  let units := nearest (a * one) d
  if units < overflow then .finite negative units else .infinite negative

/-- The number nearest to `digits · 10 ^ exponent`. Powers that settle the answer by their size
alone, as `8 ^ k ≤ 10 ^ k`, are not computed. -/
def ofDecimal (negative : Bool) (digits : Nat) : Int → Binary64
  | .ofNat k =>
    if digits = 0 then .finite negative 0
    else if 1024 ≤ digits.log2 + 3 * k then .infinite negative
    else ofQuotient negative (digits * Nat.pow 10 k) 1
  | .negSucc k =>
    if digits.log2 + 1076 ≤ 3 * (k + 1) then .finite negative 0
    else ofQuotient negative digits (Nat.pow 10 (k + 1))

/-- The number nearest to what the numeral denotes. -/
def ofNumeral : Numeral → Binary64
  | .nan => .nan
  | .infinite negative => .infinite negative
  | .decimal negative digits exponent => ofDecimal negative digits exponent

end Binary64

end ElmStyle.Decimal
