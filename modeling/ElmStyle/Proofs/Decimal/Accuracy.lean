import ElmStyle.Proofs.Decimal.Rounding

/-!
# How far rounding goes

The rounded number depends on the quotient alone and not on how it is written. A quotient that has
53 bits is not changed, and any other, as long as the result has more than 53 bits before the last
unit, is changed by no more than its part in `2 ^ 53`.
-/
namespace ElmStyle.Decimal.Binary64

/-! ## The quotient alone counts -/

theorem roundEven_mul_right (a d c : Nat) (positive : 0 < c) :
    roundEven (a * c) (d * c) = roundEven a d := by
  have twice : 2 * (a % d * c) = 2 * (a % d) * c := (Nat.mul_assoc _ _ _).symm
  unfold roundEven
  dsimp only
  rw [Nat.mul_div_mul_right _ _ positive, Nat.mul_mod_mul_right, twice]
  simp only [Nat.mul_lt_mul_right positive]

theorem nearest_mul_right (a d c : Nat) (positive : 0 < c) :
    nearest (a * c) (d * c) = nearest a d := by
  unfold nearest
  dsimp only
  rw [Nat.mul_div_mul_right _ _ positive, Nat.mul_right_comm d c,
    roundEven_mul_right _ _ _ positive]

theorem ofQuotient_mul_right (negative : Bool) (a d c : Nat) (positive : 0 < c) :
    ofQuotient negative (a * c) (d * c) = ofQuotient negative a d := by
  unfold ofQuotient
  rw [Nat.mul_right_comm a c, nearest_mul_right _ _ _ positive]

/-- A numeral is rounded as any quotient that it equals. -/
theorem ofDecimal_of_quotient {digits a d : Nat} {exponent : Int} (positive : 0 < d)
    (value : (digits : ℚ) * 10 ^ exponent = a / d) (negative : Bool) :
    ofDecimal negative digits exponent = ofQuotient negative a d := by
  obtain ⟨b, e, filled, same, rounded⟩ := ofDecimal_eq_ofQuotient negative digits exponent
  have crossed : b * d = a * e := by
    have left : (e : ℚ) ≠ 0 := Nat.cast_ne_zero.mpr filled.ne'
    have right : (d : ℚ) ≠ 0 := Nat.cast_ne_zero.mpr positive.ne'
    rw [same, div_eq_div_iff left right] at value
    exact_mod_cast value
  calc ofDecimal negative digits exponent = ofQuotient negative b e := rounded
    _ = ofQuotient negative (b * d) (e * d) := (ofQuotient_mul_right _ _ _ _ positive).symm
    _ = ofQuotient negative (a * e) (d * e) := by rw [crossed, Nat.mul_comm e]
    _ = ofQuotient negative a d := ofQuotient_mul_right _ _ _ _ filled

theorem ofDecimal_congr {digits others : Nat} {exponent other : Int}
    (same : (digits : ℚ) * 10 ^ exponent = others * 10 ^ other) (negative : Bool) :
    ofDecimal negative digits exponent = ofDecimal negative others other := by
  obtain ⟨a, d, positive, value, rounded⟩ := ofDecimal_eq_ofQuotient negative others other
  rw [rounded]
  exact ofDecimal_of_quotient positive (same.trans value) negative

theorem ofQuotient_finite {negative sign : Bool} {a d units : Nat}
    (rounded : ofQuotient negative a d = .finite sign units) :
    sign = negative ∧ nearest (a * one) d = units ∧ units < overflow := by
  unfold ofQuotient at rounded
  dsimp only at rounded
  split at rounded
  next small =>
    cases rounded
    exact ⟨rfl, rfl, small⟩
  next => cases rounded

/-- The sign and the magnitude of a number do not depend on each other. -/
theorem ofDecimal_signed {digits units : Nat} {exponent : Int} {sign : Bool}
    (rounded : ofDecimal sign digits exponent = .finite sign units) (negative : Bool) :
    ofDecimal negative digits exponent = .finite negative units := by
  obtain ⟨a, d, positive, value, quotient⟩ := ofDecimal_eq_ofQuotient sign digits exponent
  obtain ⟨-, nearestUnits, small⟩ := ofQuotient_finite (quotient.symm.trans rounded)
  rw [ofDecimal_of_quotient positive value negative, ofQuotient, nearestUnits]
  exact if_pos small

/-- The numbers that numerals round to. -/
structure IsNumber (units : Nat) : Prop where
  short : InFormat units
  bounded : units < overflow

theorem ofDecimal_isNumber {negative sign : Bool} {digits units : Nat} {exponent : Int}
    (rounded : ofDecimal negative digits exponent = .finite sign units) : IsNumber units := by
  obtain ⟨a, d, -, -, quotient⟩ := ofDecimal_eq_ofQuotient negative digits exponent
  obtain ⟨-, rfl, small⟩ := ofQuotient_finite (quotient.symm.trans rounded)
  exact ⟨nearest_inFormat _ _, small⟩

/-! ## Numbers that stay as they are -/

theorem roundEven_mul_self (n d : Nat) (positive : 0 < d) : roundEven (n * d) d = n := by
  unfold roundEven
  dsimp only
  rw [Nat.mul_mod_left, Nat.mul_div_cancel _ positive]
  exact if_pos positive

theorem nearest_of_inFormat {units : Nat} (short : InFormat units) : nearest units 1 = units := by
  obtain ⟨p, last, rounded, -, -⟩ := nearest_eq units 1
  rw [Nat.div_one] at last
  have divides : 2 ^ p ∣ units := by
    obtain ⟨q, fine, upper⟩ := short
    rcases Nat.lt_or_ge q p with coarse | enough
    · -- A bit is missing only if the number is the power of two that has one bit.
      have filled := last.filled.resolve_left (by omega)
      have order : p + 52 ≤ q + 53 :=
        (Nat.pow_le_pow_iff_right (by decide)).mp (filled.trans upper)
      have next : q + 53 = p + 52 := by omega
      rw [next] at upper
      rw [Nat.le_antisymm upper filled]
      exact Nat.pow_dvd_pow 2 (by omega)
    · exact (Nat.pow_dvd_pow 2 enough).trans fine
  obtain ⟨bits, rfl⟩ := divides
  rw [rounded, Nat.one_mul, Nat.mul_comm (2 ^ p), roundEven_mul_self _ _ (Nat.two_pow_pos p)]

/-- A numeral that is a number of the format is rounded to it. -/
theorem ofDecimal_exact {digits units : Nat} {exponent : Int} (number : IsNumber units)
    (value : (digits : ℚ) * 10 ^ exponent = units / one) (negative : Bool) :
    ofDecimal negative digits exponent = .finite negative units := by
  have same : nearest (units * one) one = units :=
    calc nearest (units * one) one = nearest (units * one) (1 * one) := by rw [Nat.one_mul]
      _ = nearest units 1 := nearest_mul_right units 1 one one_pos
      _ = units := nearest_of_inFormat number.short
  rw [ofDecimal_of_quotient one_pos value negative, ofQuotient, same]
  exact if_pos number.bounded

/-! ## Numbers that change -/

theorem roundEven_error (a d : Nat) (positive : 0 < d) :
    2 * (roundEven a d * d) ≤ 2 * a + d ∧ 2 * a ≤ 2 * (roundEven a d * d) + d := by
  have parts := Nat.div_add_mod' a d
  have rest := Nat.mod_lt a positive
  have next : (a / d + 1) * d = a / d * d + d := Nat.succ_mul _ _
  unfold roundEven
  dsimp only
  split
  · omega
  · split
    · omega
    · rcases Nat.mod_two_eq_zero_or_one (a / d) with even | odd
      · rw [even, Nat.add_zero]
        omega
      · rw [odd]
        omega

/-- The number is off by no more than the part in `2 ^ 53` of the exact one. -/
structure Accurate (number exact : Nat) : Prop where
  upper : 2 ^ 53 * number ≤ 2 ^ 53 * exact + exact
  lower : 2 ^ 53 * exact ≤ 2 ^ 53 * number + exact

theorem nearest_accurate {a d : Nat} (positive : 0 < d) (large : 2 ^ 53 ≤ nearest a d) :
    Accurate (nearest a d * d) a := by
  obtain ⟨p, last, rounded, -, -⟩ := nearest_eq a d
  have scaled : nearest a d * d = roundEven a (d * 2 ^ p) * (d * 2 ^ p) := by
    rw [rounded, Nat.mul_assoc, Nat.mul_comm d]
  have filled : 2 ^ (p + 52) ≤ a / d := by
    rcases last.filled with rfl | filled
    · have bounds := (roundEven_bounds a d).2
      rw [Nat.pow_zero, Nat.mul_one, Nat.mul_one] at rounded
      omega
    · exact filled
  have bits : 2 ^ 52 * (d * 2 ^ p) ≤ a := by
    rwa [Nat.le_div_iff_mul_le positive, Nat.add_comm, Nat.pow_add, Nat.mul_assoc,
      Nat.mul_comm _ d] at filled
  obtain ⟨above, below⟩ :=
    roundEven_error a (d * 2 ^ p) (Nat.mul_pos positive (Nat.two_pow_pos p))
  rw [scaled]
  constructor <;> omega

end ElmStyle.Decimal.Binary64
