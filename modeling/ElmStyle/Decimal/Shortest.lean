import ElmStyle.Decimal.Binary64

/-!
# The shortest decimal that reads back

Among the decimals that round to a given number, the one with the fewest digits; of two such, the
nearer; of two equally near, the one whose last digit is even. A count of units is the decimal
`units · 5 ^ 1074 / 10 ^ 1074`, so the neighbours with `n` digits are found by one division.
-/
namespace ElmStyle.Decimal

/-- The decimal `digits · 10 ^ exponent`. -/
structure Scaled where
  digits : Nat
  exponent : Int
  deriving DecidableEq, Repr

namespace Scaled

/-- The decimal that a count of units is exactly. -/
def ofUnits (units : Nat) : Scaled := ⟨units * Nat.pow 5 1074, -1074⟩

/-- The decimal rounds to the count of units. -/
def readsBack (units : Nat) (d : Scaled) : Bool :=
  Binary64.ofDecimal false d.digits d.exponent == .finite false units

/-- Both neighbours read back: the nearer one, where `low · step ≤ exact < (low + 1) · step`. -/
def nearer (exact low step : Nat) : Nat :=
  let twice := 2 * (exact % step)
  if twice < step then low else if step < twice then low + 1 else low + low % 2

/-- The best decimal that keeps all but `dropped` digits of the exact one and reads back. -/
def withDropped? (units dropped : Nat) : Option Scaled :=
  let exact := (ofUnits units).digits
  let step := Nat.pow 10 dropped
  let low := exact / step
  let keep (digits : Nat) : Scaled := ⟨digits, (dropped : Int) - 1074⟩
  match readsBack units (keep low), readsBack units (keep (low + 1)) with
  | true, true => some (keep (nearer exact low step))
  | true, false => some (keep low)
  | false, true => some (keep (low + 1))
  | false, false => none

/-- Seventeen digits always tell two numbers apart. -/
def enough : Nat := 17

/-- The shortest decimal that reads back as a positive count of units. -/
def shortest (units : Nat) : Scaled :=
  let exact := ofUnits units
  let length := (Nat.toDigits 10 exact.digits).length
  ((List.range enough).findSome? fun n => withDropped? units (length - (n + 1))).getD exact

end Scaled

end ElmStyle.Decimal
