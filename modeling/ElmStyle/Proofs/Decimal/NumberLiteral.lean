import ElmStyle.Proofs.Decimal.Layout
import ElmStyle.Proofs.Decimal.Rounding
import Mathlib.Algebra.Order.Field.Power
import Mathlib.Tactic.FieldSimp
import Mathlib.Tactic.Linarith
import Mathlib.Tactic.NormNum

/-!
# Numbers as literals

The compact text of a number that is not infinite is a literal: digits without a zero in front of
others, a fraction with a digit or none, a negative exponent or none. A positive exponent would
need a number with seventeen places before the point, and such numbers are whole: they are written
with all their digits.
-/
namespace ElmStyle.Decimal

namespace Scaled

theorem nearer_cases (exact low step : Nat) :
    nearer exact low step = low ∨ nearer exact low step = low + 1 := by
  unfold nearer
  dsimp only
  split
  · exact .inl rfl
  · split <;> omega

/-- The decimal that is kept is one of the two neighbours. -/
theorem withDropped_eq_some {units dropped : Nat} {d : Scaled}
    (found : withDropped? units dropped = some d) :
    d.exponent = (dropped : Int) - 1074 ∧
      (d.digits = (ofUnits units).digits / 10 ^ dropped ∨
        d.digits = (ofUnits units).digits / 10 ^ dropped + 1) ∧ readsBack units d := by
  unfold withDropped? at found
  dsimp only at found
  split at found
  next low high =>
    cases found
    rcases nearer_cases ((ofUnits units).digits) ((ofUnits units).digits / Nat.pow 10 dropped)
      (Nat.pow 10 dropped) with same | next
    · rw [same]
      exact ⟨rfl, .inl rfl, low⟩
    · rw [next]
      exact ⟨rfl, .inr rfl, high⟩
  next low high =>
    cases found
    exact ⟨rfl, .inl rfl, low⟩
  next low high =>
    cases found
    exact ⟨rfl, .inr rfl, high⟩
  next low high => cases found

theorem shortest_cases (units : Nat) :
    readsBack units (shortest units) ∨ shortest units = ofUnits units := by
  unfold shortest
  dsimp only
  cases found : (List.range enough).findSome? _ with
  | none => exact .inr rfl
  | some d =>
    obtain ⟨n, -, kept⟩ := List.exists_of_findSome?_eq_some found
    exact .inl (withDropped_eq_some kept).2.2

theorem unit_value (units k : Nat) :
    ((units * Nat.pow 5 k : Nat) : ℚ) * 10 ^ (-(k : Int)) * 2 ^ k = units := by
  have ten : (10 : ℚ) ^ k = 5 ^ k * 2 ^ k := by
    rw [← mul_pow]
    norm_num
  rw [zpow_neg, zpow_natCast, ten, Nat.pow_eq]
  push_cast
  field_simp

theorem ofUnits_value (units : Nat) : (ofUnits units).value * 2 ^ 1074 = units := by
  have value := unit_value units 1074
  simpa only [Scaled.value, ofUnits, Nat.cast_ofNat] using value

theorem two_pow_le_units {units k j : Nat} {v : ℚ} (value : v * 2 ^ k = units) (large : 2 ^ j ≤ v) :
    2 ^ (k + j) ≤ units := by
  have scaled := mul_le_mul_of_nonneg_left large (by positivity : (0 : ℚ) ≤ 2 ^ k)
  rw [mul_comm _ v, value, ← pow_add] at scaled
  exact_mod_cast scaled

/-- A number that is not whole is below `2 ^ 53`, and so is its shortest decimal. -/
theorem shortest_lt (units : Nat) (short : Binary64.InFormat units)
    (fraction : ¬Binary64.one ∣ units) : (shortest units).value < 2 ^ 53 := by
  by_contra large
  rw [not_lt] at large
  rcases shortest_cases units with back | exact
  · exact fraction (Binary64.whole_of_large (beq_iff_eq.mp back) large)
  · -- The exact decimal is the number itself, which has 53 bits before its point at most.
    rw [exact] at large
    rw [Binary64.one_eq] at fraction
    exact fraction (short.dvd (two_pow_le_units (ofUnits_value units) large))

theorem shortest_filled (units : Nat) (positive : units ≠ 0) : (shortest units).digits ≠ 0 := by
  intro none
  rcases shortest_cases units with back | exact
  · have rounded := beq_iff_eq.mp back
    rw [none, Binary64.ofDecimal_zero] at rounded
    exact positive (Binary64.finite.inj rounded).2.symm
  · have value := ofUnits_value units
    rw [← exact, Scaled.value, none, Nat.cast_zero, zero_mul, zero_mul] at value
    exact positive (Nat.cast_eq_zero.mp value.symm)

/-- The first digit alone is worth a power of ten. -/
theorem ten_pow_le_of_length {n places : Nat} (filled : n ≠ 0)
    (length : (Nat.toDigits 10 n).length = places + 1) : 10 ^ places ≤ n := by
  rcases Nat.eq_zero_or_pos places with rfl | more
  · exact Nat.one_le_iff_ne_zero.mpr filled
  · by_contra fewer
    have fits := (Nat.length_toDigits_le_iff (by decide) more).mpr (Nat.not_le.mp fewer)
    omega

/-- The places before the point of a decimal below `2 ^ 53`. -/
theorem point_le (d : Scaled) (filled : d.digits ≠ 0) (small : d.value < 2 ^ 53) :
    ((Nat.toDigits 10 d.digits).length : Int) + d.exponent ≤ 16 := by
  by_contra far
  obtain ⟨places, length⟩ : ∃ places, (Nat.toDigits 10 d.digits).length = places + 1 :=
    Nat.exists_eq_add_one.mpr Nat.length_toDigits_pos
  have first := ten_pow_le_of_length filled length
  have large : (10 : ℚ) ^ 16 ≤ d.value :=
    calc (10 : ℚ) ^ (16 : Nat) = 10 ^ (16 : Int) := rfl
      _ ≤ 10 ^ ((places : Int) + d.exponent) := zpow_le_zpow_right₀ (by norm_num) (by omega)
      _ = 10 ^ places * 10 ^ d.exponent := by rw [zpow_add₀ (by norm_num), zpow_natCast]
      _ ≤ d.digits * 10 ^ d.exponent :=
        mul_le_mul_of_nonneg_right (by exact_mod_cast first) (by positivity)
  have bound : (2 : ℚ) ^ 53 < 10 ^ 16 := by norm_num
  linarith

end Scaled

/-! ## Texts -/

/-- Nothing, or a row of digits behind a mark. -/
def IsMarked (mark text : List Char) : Prop :=
  text = [] ∨ ∃ digits, text = mark ++ digits ∧ IsRow digits

/-- A number as Elm reads it: a whole part, and then a fraction and a negative exponent if there
are any. -/
def IsLiteral (text : List Char) : Prop :=
  ∃ sign whole fraction exponent, text = sign ++ (whole ++ (fraction ++ exponent)) ∧
    IsSign sign ∧ IsWhole whole ∧ IsMarked ['.'] fraction ∧ IsMarked ['e', '-'] exponent

/-- A literal has no letter but the mark of its exponent, so it is none of the words that stand for
numbers. -/
theorem IsLiteral.chars {text : List Char} (literal : IsLiteral text) :
    ∀ c ∈ text, c.isDigit ∨ c = '-' ∨ c = '.' ∨ c = 'e' := by
  obtain ⟨sign, whole, fraction, exponent, rfl, signed, isWhole, isFraction, isExponent⟩ := literal
  have marked : ∀ mark part, IsMarked mark part → ∀ c ∈ part, c ∈ mark ∨ c.isDigit := by
    rintro mark part (rfl | ⟨digits, rfl, row⟩) c member
    · cases member
    · exact (List.mem_append.mp member).imp_right (row.2 c)
  intro c member
  simp only [List.mem_append] at member
  rcases member with front | digit | behind | power
  · rcases signed with rfl | rfl
    · cases front
    · exact .inr (.inl (List.mem_singleton.mp front))
  · exact .inl (isWhole.1.2 c digit)
  · rcases marked _ _ isFraction c behind with point | digit
    · exact .inr (.inr (.inl (List.mem_singleton.mp point)))
    · exact .inl digit
  · rcases marked _ _ isExponent c power with letter | digit
    · simp only [List.mem_cons, List.not_mem_nil, or_false] at letter
      exact .inr (letter.elim (.inr ∘ .inr) .inl)
    · exact .inl digit

theorem FractionText.isMarked {fraction places : List Char}
    (isFraction : FractionText fraction places) (filled : places = [] → fraction = []) :
    IsMarked ['.'] fraction := by
  cases isFraction with
  | absent => exact .inl rfl
  | places _ each => exact .inr ⟨_, rfl, fun none => List.cons_ne_nil _ _ (filled none), each⟩

theorem PowerText.isMarked {power : List Char} {exponent : Int}
    (isPower : PowerText power exponent) (negative : exponent < 0) :
    IsMarked ['e', '-'] power ∧ 'e' ∈ power := by
  cases isPower with
  | absent => omega
  | up row isRow => omega
  | down row isRow => exact ⟨.inr ⟨row, rfl, isRow⟩, by simp⟩

/-- The text of a decimal that needs no positive exponent. -/
theorem Scaled.text_parts (d : Scaled) (filled : d.digits ≠ 0)
    (small : ((Nat.toDigits 10 d.digits).length : Int) + d.exponent ≤ 16) :
    ∃ whole fraction exponent, d.text.toList = whole ++ (fraction ++ exponent) ∧
      IsWhole whole ∧ IsMarked ['.'] fraction ∧ IsMarked ['e', '-'] exponent ∧
      ('.' ∈ fraction ∨ 'e' ∈ exponent) := by
  have significant := trimZeros_significant d.digits filled
  unfold text
  dsimp only
  split
  next positional =>
    obtain ⟨whole, places, written, isWhole, isRow, -⟩ := positionalText_places significant
      (((Nat.toDigits 10 d.digits).length : Int) + d.exponent)
    exact ⟨whole, '.' :: places, [], by simpa using written, isWhole, .inr ⟨places, rfl, isRow⟩,
      .inl rfl, .inl (by simp)⟩
  next scientific =>
    have tiny : ((Nat.toDigits 10 d.digits).length : Int) + d.exponent ≤ 0 := by
      simp only [isPositional, Bool.and_eq_true, decide_eq_true_eq, not_and_or] at scientific
      omega
    obtain ⟨whole, fraction, places, power, written, isWhole, isFraction, pointed, isPower, -⟩ :=
      scientificText_places significant
        (((Nat.toDigits 10 d.digits).length : Int) + d.exponent)
    obtain ⟨marked, letter⟩ := isPower.isMarked (by omega)
    exact ⟨whole, fraction, power, written, isWhole, isFraction.isMarked pointed, marked,
      .inr letter⟩

/-- The text of a whole number. A sign never stands before a zero. -/
theorem wholeText_literal (negative : Bool) (n : Nat) (signed : negative → n ≠ 0) :
    IsLiteral (Binary64.sign negative ++ Nat.repr n).toList ∧
      Binary64.sign negative ++ Nat.repr n ≠ "-0" := by
  have digits : (Nat.repr n).toList = Nat.toDigits 10 n := by
    rw [Nat.repr_eq_ofList_toDigits, String.toList_ofList]
  constructor
  · rw [String.toList_append, digits]
    exact ⟨(Binary64.sign negative).toList, Nat.toDigits 10 n, [], [], by simp,
      isSign_sign negative, isWhole_toDigits n, .inl rfl, .inl rfl⟩
  · intro same
    have chars := congrArg String.toList same
    rw [String.toList_append, digits] at chars
    cases negative with
    | false =>
      have minus : '-' ∈ Nat.toDigits 10 n := by
        rw [show Nat.toDigits 10 n = ['-', '0'] from chars]
        decide
      exact absurd ((isRow_toDigits n).2 '-' minus) (by decide)
    | true =>
      obtain ⟨first, rest, row, filled⟩ := toDigits_cons n (Nat.pos_of_ne_zero (signed rfl))
      rw [row] at chars
      exact filled (List.cons.inj (List.cons.inj chars).2).1

/-- The text of any other number has a point or an exponent. -/
theorem fractionText_literal (negative : Bool) (units : Nat) (short : Binary64.InFormat units)
    (fraction : ¬Binary64.one ∣ units) :
    IsLiteral (Binary64.sign negative ++ (Scaled.shortest units).text).toList ∧
      Binary64.sign negative ++ (Scaled.shortest units).text ≠ "-0" := by
  have positive : units ≠ 0 := by
    rintro rfl
    exact fraction (Nat.dvd_zero _)
  have filled := Scaled.shortest_filled units positive
  have near := (Scaled.shortest units).point_le filled (Scaled.shortest_lt units short fraction)
  obtain ⟨whole, places, exponent, written, isWhole, isFraction, isExponent, marked⟩ :=
    (Scaled.shortest units).text_parts filled near
  constructor
  · rw [String.toList_append, written]
    exact ⟨_, whole, places, exponent, rfl, isSign_sign _, isWhole, isFraction, isExponent⟩
  · intro same
    have chars := congrArg String.toList same
    rw [String.toList_append, written] at chars
    rcases marked with point | letter
    · have absent : '.' ∉ "-0".toList := by decide
      exact absent (chars ▸ by simp [point])
    · have absent : 'e' ∉ "-0".toList := by decide
      exact absent (chars ▸ by simp [letter])

theorem compactText_literal (negative : Bool) (units : Nat) (short : Binary64.InFormat units) :
    IsLiteral (Binary64.finite negative units).compactText.toList ∧
      (Binary64.finite negative units).compactText ≠ "-0" := by
  simp only [Binary64.compactText]
  split
  next divides =>
    refine wholeText_literal _ _ fun signed => ?_
    have positive : 0 < units := by
      simp only [Bool.and_eq_true, bne_iff_ne] at signed
      exact Nat.pos_of_ne_zero signed.2
    have reached := Nat.le_of_dvd positive (Nat.dvd_of_mod_eq_zero divides)
    exact (Nat.div_pos reached Binary64.one_pos).ne'
  next fraction =>
    exact fractionText_literal negative units short
      fun divides => fraction (Nat.mod_eq_zero_of_dvd divides)

theorem infinite_not_literal (negative : Bool) :
    ¬IsLiteral (Binary64.infinite negative).compactText.toList := by
  intro literal
  have letter : 'n' ∈ (Binary64.infinite negative).compactText.toList := by
    cases negative <;> decide
  exact absurd (literal.chars 'n' letter) (by decide)

end ElmStyle.Decimal
