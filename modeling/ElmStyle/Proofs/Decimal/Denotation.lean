import ElmStyle.Proofs.Decimal.Figures
import Mathlib.Algebra.Order.Field.Rat
import Mathlib.Tactic.FieldSimp
import Mathlib.Tactic.NormNum

/-!
# What a text of a number denotes

A digit counts by its place before or behind the point, and an exponent moves the point. This says
what the text of a number means without reading it in any order. The reader finds this number, so
that a text denotes one number at most.
-/
namespace ElmStyle.Decimal

/-- One digit at least. -/
def IsRow (digits : List Char) : Prop := digits ≠ [] ∧ ∀ c ∈ digits, c.isDigit

/-- The whole number that a row of digits writes. -/
def rowValue (digits : List Char) : Nat := Nat.ofDigitChars 10 digits 0

/-- Nothing, or a point and the digits of a fraction. -/
inductive FractionText : List Char → List Char → Prop
  | absent : FractionText [] []
  | places (row : List Char) (each : ∀ c ∈ row, c.isDigit) : FractionText ('.' :: row) row

/-- Nothing, or a power of ten with its sign. -/
inductive PowerText : List Char → Int → Prop
  | absent : PowerText [] 0
  | up (row : List Char) (isRow : IsRow row) : PowerText ('e' :: '+' :: row) (rowValue row)
  | down (row : List Char) (isRow : IsRow row) :
    PowerText ('e' :: '-' :: row) (-(rowValue row : Int))

/-- A text without a sign: a digit at least before or behind the point. -/
inductive Unsigned : List Char → ℚ → Prop
  | parts {whole fraction row power : List Char} {exponent : Int}
      (digits : ∀ c ∈ whole, c.isDigit) (isFraction : FractionText fraction row)
      (isPower : PowerText power exponent) (filled : whole ++ row ≠ []) :
      Unsigned (whole ++ (fraction ++ power))
        ((rowValue whole + rowValue row / 10 ^ row.length) * 10 ^ exponent)

/-- The text denotes the number. -/
inductive Denotes : List Char → ℚ → Prop
  | plain {text : List Char} {v : ℚ} (written : Unsigned text v) : Denotes text v
  | minus {text : List Char} {v : ℚ} (written : Unsigned text v) : Denotes ('-' :: text) (-v)

/-- The number of a sign and a magnitude. -/
def signed (negative : Bool) (v : ℚ) : ℚ := if negative then -v else v

theorem Unsigned.denotes {text : List Char} {v : ℚ} (written : Unsigned text v)
    (negative : Bool) : Denotes ((Binary64.sign negative).toList ++ text) (signed negative v) := by
  cases negative with
  | false => exact .plain written
  | true => exact .minus written

theorem Denotes.exists_unsigned {text : List Char} {v : ℚ} (denotes : Denotes text v) :
    ∃ negative body magnitude, text = (Binary64.sign negative).toList ++ body ∧
      v = signed negative magnitude ∧ Unsigned body magnitude := by
  cases denotes with
  | plain written => exact ⟨false, text, v, rfl, rfl, written⟩
  | @minus body magnitude written => exact ⟨true, body, magnitude, rfl, rfl, written⟩

/-! ## Rows -/

theorem digitsValue_eq (digits : List Char) : Numeral.digitsValue digits = rowValue digits := rfl

theorem rowValue_append (front back : List Char) :
    rowValue (front ++ back) = rowValue front * 10 ^ back.length + rowValue back := by
  rw [rowValue, Nat.ofDigitChars_append, Nat.ofDigitChars_eq_ofDigitChars_zero, Nat.mul_comm]
  rfl

/-- The digits before and behind the point as one row. -/
theorem placed_value (whole row : List Char) (exponent : Int) :
    ((rowValue whole : ℚ) + rowValue row / 10 ^ row.length) * 10 ^ exponent =
      rowValue (whole ++ row) * 10 ^ (exponent - row.length) := by
  rw [rowValue_append, zpow_sub₀ (by norm_num), zpow_natCast]
  push_cast
  field_simp

/-! ## Reading -/

namespace Numeral

theorem splitFraction_text {fraction row power : List Char} {exponent : Int}
    (isFraction : FractionText fraction row) (isPower : PowerText power exponent) :
    splitFraction (fraction ++ power) = (row, power) := by
  have stops : ∀ c, power.head? = some c → c.isDigit = false := by
    intro c first
    cases isPower <;> cases first <;> decide
  cases isFraction with
  | absent => cases isPower <;> rfl
  | places _ each => exact (Text.span_eq_iff _ _ _ _).mpr ⟨rfl, each, stops⟩

theorem exponent_text {power : List Char} {exponent : Int} (isPower : PowerText power exponent) :
    exponent? power = some exponent := by
  have lower : ('e').toLower = 'e' := by decide
  cases isPower with
  | absent => rfl
  | up row isRow =>
    simp [exponent?, splitSign, lower, isRow.1, List.all_eq_true.mpr isRow.2, digitsValue_eq]
  | down row isRow =>
    simp [exponent?, splitSign, lower, isRow.1, List.all_eq_true.mpr isRow.2, digitsValue_eq]

theorem decimal_text {whole fraction row power : List Char} {exponent : Int}
    (digits : ∀ c ∈ whole, c.isDigit) (isFraction : FractionText fraction row)
    (isPower : PowerText power exponent) (filled : whole ++ row ≠ []) (negative : Bool) :
    decimal? negative (whole ++ (fraction ++ power)) =
      some (.decimal negative (rowValue (whole ++ row)) (exponent - row.length)) := by
  have stops : ∀ c, (fraction ++ power).head? = some c → c.isDigit = false := by
    intro c first
    cases isFraction with
    | absent => cases isPower <;> cases first <;> decide
    | places => cases first; decide
  have spanned : (whole ++ (fraction ++ power)).span Char.isDigit = (whole, fraction ++ power) :=
    (Text.span_eq_iff _ _ _ _).mpr ⟨rfl, digits, stops⟩
  have other : ¬(whole = [] ∧ row = []) := by simpa using filled
  unfold decimal?
  rw [spanned]
  simp only [splitFraction_text isFraction isPower, if_neg other, exponent_text isPower,
    Option.map_some, digitsValue_eq]

end Numeral

theorem isSign_sign (negative : Bool) : IsSign (Binary64.sign negative).toList := by
  cases negative
  · exact .inl rfl
  · exact .inr rfl

theorem digit_plain (c : Char) (digit : c.isDigit) : isNumberChar c ∧ c.toLower ≠ 'n' :=
  Text.forall_char_below 128 (fun c => c.isDigit → isNumberChar c ∧ c.toLower ≠ 'n') (by decide)
    c (isDigit_ascii c digit) digit

theorem FractionText.chars {fraction row : List Char} (isFraction : FractionText fraction row) :
    ∀ c ∈ fraction, isNumberChar c ∧ c.toLower ≠ 'n' := by
  cases isFraction with
  | absent => simp
  | places _ each =>
    refine List.forall_mem_cons.mpr ⟨by decide, ?_⟩
    exact fun c member => digit_plain c (each c member)

theorem PowerText.chars {power : List Char} {exponent : Int} (isPower : PowerText power exponent) :
    ∀ c ∈ power, isNumberChar c ∧ c.toLower ≠ 'n' := by
  cases isPower with
  | absent => simp
  | up _ isRow =>
    refine List.forall_mem_cons.mpr ⟨by decide, List.forall_mem_cons.mpr ⟨by decide, ?_⟩⟩
    exact fun c member => digit_plain c (isRow.2 c member)
  | down _ isRow =>
    refine List.forall_mem_cons.mpr ⟨by decide, List.forall_mem_cons.mpr ⟨by decide, ?_⟩⟩
    exact fun c member => digit_plain c (isRow.2 c member)

/-- The characters of a text are those of numbers, and none of them is the `n` of the words that
stand for numbers. -/
theorem Unsigned.chars {text : List Char} {v : ℚ} (written : Unsigned text v) :
    ∀ c ∈ text, isNumberChar c ∧ c.toLower ≠ 'n' := by
  obtain ⟨digits, isFraction, isPower, -⟩ := written
  intro c member
  simp only [List.mem_append] at member
  rcases member with front | behind | power
  · exact digit_plain c (digits c front)
  · exact isFraction.chars c behind
  · exact isPower.chars c power

/-- A digit or the point comes first. -/
theorem Unsigned.signless {text : List Char} {v : ℚ} (written : Unsigned text v) :
    ∀ c, text.head? = some c → c ≠ '-' ∧ c ≠ '+' := by
  have plain : ∀ c, c.isDigit ∨ c = '.' → c ≠ '-' ∧ c ≠ '+' := fun c figure =>
    Text.forall_char_below 128 (fun c => c.isDigit ∨ c = '.' → c ≠ '-' ∧ c ≠ '+') (by decide)
      c (figure_ascii c figure) figure
  obtain @⟨whole, fraction, row, power, exponent, digits, isFraction, -, filled⟩ := written
  intro c first
  apply plain
  cases whole with
  | cons d rest =>
    rw [List.cons_append, List.head?_cons, Option.some_inj] at first
    exact .inl (first ▸ digits d (by simp))
  | nil =>
    cases isFraction with
    | absent => exact absurd rfl filled
    | places =>
      rw [List.nil_append, List.cons_append, List.head?_cons, Option.some_inj] at first
      exact .inr first.symm

theorem read_signed {text : List Char} {v : ℚ} (written : Unsigned text v) (negative : Bool) :
    Numeral.read? (String.ofList ((Binary64.sign negative).toList ++ text)) =
      Numeral.decimal? negative text := by
  have chars := written.chars
  have number : ∀ c ∈ (Binary64.sign negative).toList ++ text, isNumberChar c :=
    List.forall_mem_append.mpr ⟨sign_number negative, fun c member => (chars c member).1⟩
  have sign : decide ((Binary64.sign negative).toList = ['-']) = negative := by
    cases negative <;> decide
  rw [Numeral.read_number _ number, Numeral.bare_append _ text (isSign_sign negative)
    written.signless fun c member => (chars c member).2, sign]

/-- The reader finds the number that is denoted. -/
theorem Unsigned.read {text : List Char} {v : ℚ} (written : Unsigned text v) (negative : Bool) :
    ∃ (digits : Nat) (exponent : Int), digits * 10 ^ exponent = v ∧
      Numeral.read? (String.ofList ((Binary64.sign negative).toList ++ text)) =
        some (.decimal negative digits exponent) := by
  rw [read_signed written negative]
  obtain ⟨digits, isFraction, isPower, filled⟩ := written
  exact ⟨_, _, (placed_value _ _ _).symm,
    Numeral.decimal_text digits isFraction isPower filled negative⟩

/-- A text denotes one number at most. -/
theorem Denotes.unique {text : List Char} {v w : ℚ} (first : Denotes text v)
    (second : Denotes text w) : v = w := by
  obtain ⟨negative, body, magnitude, rfl, rfl, written⟩ := first.exists_unsigned
  obtain ⟨other, rest, size, same, rfl, again⟩ := second.exists_unsigned
  obtain ⟨digits, exponent, value, read⟩ := written.read negative
  obtain ⟨others, power, found, reread⟩ := again.read other
  rw [← same, read] at reread
  cases reread
  rw [← value, ← found]

end ElmStyle.Decimal
