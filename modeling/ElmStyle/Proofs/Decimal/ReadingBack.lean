import ElmStyle.Proofs.Decimal.Accuracy
import ElmStyle.Proofs.Decimal.NumberLiteral
import Mathlib.Data.Nat.Cast.Field

/-!
# Texts that read back

The compact text of a number shows the number itself, if it is whole, and else the shortest decimal
that rounds to it. Either way the text is read as the number that it was made from, except that a
zero has no sign any more. So the text of a number that has been read is its own compact text.
-/
namespace ElmStyle.Decimal

namespace Scaled

theorem ofUnits_quotient (units : Nat) :
    ((ofUnits units).digits : ℚ) * 10 ^ (ofUnits units).exponent = units / Binary64.one := by
  have filled : (Binary64.one : ℚ) ≠ 0 := Nat.cast_ne_zero.mpr Binary64.one_pos.ne'
  rw [eq_div_iff filled, Binary64.one_eq, Nat.cast_pow, Nat.cast_ofNat]
  exact ofUnits_value units

/-- The exact decimal, which stands in where no shorter one is found, reads back as well. -/
theorem shortest_reads_back {units : Nat} (number : Binary64.IsNumber units) (negative : Bool) :
    Binary64.ofDecimal negative (shortest units).digits (shortest units).exponent =
      .finite negative units := by
  rcases shortest_cases units with back | exact
  · exact Binary64.ofDecimal_signed (beq_iff_eq.mp back) negative
  · rw [exact]
    exact Binary64.ofDecimal_exact number (ofUnits_quotient units) negative

end Scaled

namespace Binary64

/-- The number that the compact text of a count of units shows. -/
def shown (units : Nat) : ℚ :=
  if units % one = 0 then (units / one : Nat) else (Scaled.shortest units).value

theorem shown_rounds {units digits : Nat} {exponent : Int} (number : IsNumber units)
    (value : (digits : ℚ) * 10 ^ exponent = shown units) (negative : Bool) :
    ofDecimal negative digits exponent = .finite negative units := by
  unfold shown at value
  split at value
  next whole =>
    rw [Nat.cast_div_charZero (Nat.dvd_of_mod_eq_zero whole)] at value
    exact ofDecimal_exact number value negative
  next =>
    rw [ofDecimal_congr value negative]
    exact Scaled.shortest_reads_back number negative

theorem sign_of_filled (negative : Bool) {units : Nat} (filled : units ≠ 0) :
    (negative && units != 0) = negative := by
  simp [filled]

/-- Only a number other than zero has a minus sign. -/
theorem compactText_shown (negative : Bool) (units : Nat) :
    ∃ body, (finite negative units).compactText = sign (negative && units != 0) ++ body ∧
      Unsigned body.toList (shown units) := by
  unfold compactText shown
  dsimp only
  split
  next => exact ⟨_, rfl, repr_unsigned _⟩
  next fraction =>
    have filled : units ≠ 0 := by
      rintro rfl
      exact fraction (Nat.zero_mod _)
    rw [sign_of_filled negative filled]
    exact ⟨_, rfl, Scaled.text_unsigned _ (Scaled.shortest_filled units filled)⟩

/-- The number with no sign before a zero. -/
def plainZero : Binary64 → Binary64
  | .finite negative units => .finite (negative && units != 0) units
  | x => x

theorem compactText_plainZero (x : Binary64) : x.plainZero.compactText = x.compactText := by
  cases x with
  | nan => rfl
  | infinite negative => rfl
  | finite negative units =>
    rcases Nat.eq_zero_or_pos units with rfl | positive
    · simp [plainZero, compactText]
    · rw [plainZero, sign_of_filled negative positive.ne']

theorem read_finite {units : Nat} (number : IsNumber units) (negative : Bool) :
    ∃ numeral, Numeral.read? (finite negative units).compactText = some numeral ∧
      ofNumeral numeral = (finite negative units).plainZero := by
  obtain ⟨body, text, written⟩ := compactText_shown negative units
  obtain ⟨digits, exponent, value, read⟩ := written.read (negative && units != 0)
  refine ⟨.decimal (negative && units != 0) digits exponent, ?_, shown_rounds number value _⟩
  rw [text, ← read, ← String.toList_append, String.ofList_toList]

theorem ofNumeral_isNumber {numeral : Numeral} {negative : Bool} {units : Nat}
    (rounded : ofNumeral numeral = .finite negative units) : IsNumber units := by
  cases numeral with
  | nan => cases rounded
  | infinite sign => cases rounded
  | decimal sign digits exponent => exact ofDecimal_isNumber rounded

/-- The compact text is read as the number that it was made from. -/
theorem read_compactText (given : Numeral) :
    ∃ numeral, Numeral.read? (ofNumeral given).compactText = some numeral ∧
      ofNumeral numeral = (ofNumeral given).plainZero := by
  cases rounded : ofNumeral given with
  | nan => exact ⟨.nan, by decide +kernel, rfl⟩
  | infinite negative => exact ⟨.infinite negative, by cases negative <;> decide +kernel, rfl⟩
  | finite negative units => exact read_finite (ofNumeral_isNumber rounded) negative

end Binary64

theorem normalize_eq_ok {s text : String} (success : normalize s = .ok text) :
    ∃ numeral, Numeral.read? s = some numeral ∧
      (Binary64.ofNumeral numeral).compactText = text := by
  unfold normalize at success
  split at success
  next numeral read => exact ⟨numeral, read, Except.ok.inj success⟩
  next => cases success

theorem normalize_read {s : String} {numeral : Numeral} (read : Numeral.read? s = some numeral) :
    normalize s = .ok (Binary64.ofNumeral numeral).compactText := by
  simp only [normalize, read]

/-- A compact text is its own compact text, since it is read as the number that was given. -/
theorem normalize_normalized (s text : String) (success : normalize s = .ok text) :
    normalize text = .ok text ∧
      ∃ given again, Numeral.read? s = some given ∧ Numeral.read? text = some again ∧
        Binary64.ofNumeral again = (Binary64.ofNumeral given).plainZero := by
  obtain ⟨given, read, rfl⟩ := normalize_eq_ok success
  obtain ⟨again, reread, same⟩ := Binary64.read_compactText given
  refine ⟨?_, given, again, read, reread, same⟩
  rw [normalize_read reread, same, Binary64.compactText_plainZero]

/-- Blanks around the numeral, a digit of another script, an underscore and an exponent. -/
theorem normalize_normalized_foreign :
    normalize " -٣_0e-7\n" = .ok "-3e-06" ∧ normalize "-3e-06" = .ok "-3e-06" := by
  have success : normalize " -٣_0e-7\n" = .ok "-3e-06" := by decide +kernel
  exact ⟨success, (normalize_normalized _ _ success).1⟩

end ElmStyle.Decimal
