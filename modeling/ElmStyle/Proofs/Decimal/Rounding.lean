import ElmStyle.Decimal.Binary64
import Mathlib.Algebra.Order.Field.Rat
import Mathlib.Tactic.Positivity

/-!
# Rounding to 53 significant bits

A quotient is rounded to a multiple of the last of its 53 significant bits. So the result has no
more than these bits, a power of two below the quotient stays below the result, and the result
reaches the next power of two from half a bit below it on. For numerals this is the bound of
`2 ^ 1024 - 2 ^ 970`, from which on they round to an infinity.
-/
namespace ElmStyle.Decimal.Binary64

theorem one_eq : one = 2 ^ 1074 := by
  delta one
  generalize 1074 = k
  rfl

theorem overflow_eq : overflow = 2 ^ 2098 := by
  delta overflow
  generalize 2098 = k
  rfl

theorem one_pos : 0 < one := by
  delta one
  generalize 1074 = k
  exact Nat.two_pow_pos k

theorem overflow_pos : 0 < overflow := by
  delta overflow
  generalize 2098 = k
  exact Nat.two_pow_pos k

theorem roundEven_bounds (a d : Nat) : a / d ≤ roundEven a d ∧ roundEven a d ≤ a / d + 1 := by
  unfold roundEven
  dsimp only
  split
  · omega
  · split <;> omega

/-- An even number is reached from half a step below it on, as the tie there goes to it. -/
theorem even_le_roundEven_iff (a d n : Nat) (positive : 0 < d) :
    2 * n ≤ roundEven a d ↔ 4 * (n * d) ≤ 2 * a + d := by
  have parts := Nat.div_add_mod' a d
  have rest := Nat.mod_lt a positive
  have bounds := roundEven_bounds a d
  rcases Nat.lt_trichotomy (2 * n) (a / d + 1) with below | next | above
  · have reached := Nat.mul_le_mul_right d (Nat.le_of_lt_succ below)
    rw [Nat.mul_assoc] at reached
    omega
  · have scaled : 2 * (n * d) = a / d * d + d := by
      rw [← Nat.mul_assoc, next, Nat.succ_mul]
    unfold roundEven
    dsimp only
    split
    · omega
    · split <;> omega
  · have missed := Nat.mul_le_mul_right d (Nat.succ_le_of_lt above)
    rw [Nat.mul_assoc, Nat.succ_mul, Nat.succ_mul] at missed
    omega

/-- The last of 53 significant bits of a whole number is worth `2 ^ p`. -/
structure LastBit (whole p : Nat) : Prop where
  below : whole < 2 ^ (p + 53)
  filled : p = 0 ∨ 2 ^ (p + 52) ≤ whole

theorem lastBit_log2 (whole : Nat) : LastBit whole (whole.log2 - 52) where
  below :=
    calc whole < 2 ^ (whole.log2 + 1) := Nat.lt_log2_self
      _ ≤ 2 ^ (whole.log2 - 52 + 53) := Nat.pow_le_pow_right (by decide) (by omega)
  filled := by
    rcases Nat.le_total whole.log2 52 with short | long
    · exact .inl (by omega)
    · rcases Nat.eq_zero_or_pos whole with rfl | positive
      · exact .inl rfl
      · rw [Nat.sub_add_cancel long]
        exact .inr (Nat.log2_self_le positive.ne')

/-- Rounding keeps the bits in front of the last one, or carries into them. -/
theorem nearest_eq (a d : Nat) :
    ∃ p, LastBit (a / d) p ∧ nearest a d = roundEven a (d * 2 ^ p) * 2 ^ p ∧
      a / d / 2 ^ p * 2 ^ p ≤ nearest a d ∧ nearest a d ≤ 2 ^ (p + 53) := by
  have last := lastBit_log2 (a / d)
  have rounded :
      nearest a d = roundEven a (d * 2 ^ ((a / d).log2 - 52)) * 2 ^ ((a / d).log2 - 52) := rfl
  generalize (a / d).log2 - 52 = p at last rounded
  have bounds := roundEven_bounds a (d * 2 ^ p)
  rw [← Nat.div_div_eq_div_mul] at bounds
  have whole : a / d / 2 ^ p < 2 ^ 53 := by
    rw [Nat.div_lt_iff_lt_mul (Nat.two_pow_pos p), ← Nat.pow_add, Nat.add_comm]
    exact last.below
  refine ⟨p, last, rounded, ?_, ?_⟩
  · exact rounded ▸ Nat.mul_le_mul_right _ bounds.1
  · rw [rounded, Nat.add_comm, Nat.pow_add]
    exact Nat.mul_le_mul_right _ (Nat.le_trans bounds.2 whole)

/-- At most 53 significant bits. -/
def InFormat (units : Nat) : Prop := ∃ p, 2 ^ p ∣ units ∧ units ≤ 2 ^ (p + 53)

theorem nearest_inFormat (a d : Nat) : InFormat (nearest a d) := by
  obtain ⟨p, -, rounded, -, upper⟩ := nearest_eq a d
  exact ⟨p, rounded ▸ Nat.dvd_mul_left _ _, upper⟩

theorem InFormat.dvd {units k : Nat} (short : InFormat units) (large : 2 ^ (k + 53) ≤ units) :
    2 ^ k ∣ units := by
  obtain ⟨p, divides, upper⟩ := short
  have order : k + 53 ≤ p + 53 :=
    (Nat.pow_le_pow_iff_right (by decide)).mp (Nat.le_trans large upper)
  exact Nat.dvd_trans (Nat.pow_dvd_pow 2 (by omega)) divides

/-- A power of two is a number of the format, so that rounding does not go below it. -/
theorem two_pow_le_nearest (a d j : Nat) (large : 2 ^ j ≤ a / d) : 2 ^ j ≤ nearest a d := by
  obtain ⟨p, last, -, lower, -⟩ := nearest_eq a d
  -- A power of two from the last bit on is a whole number of last bits.
  have counted : ∀ i, p ≤ i → 2 ^ i ≤ a / d → 2 ^ i ≤ nearest a d := by
    intro i fine reached
    obtain ⟨more, rfl⟩ := Nat.exists_eq_add_of_le' fine
    rw [Nat.pow_add] at reached ⊢
    have bits := (Nat.le_div_iff_mul_le (Nat.two_pow_pos p)).mpr reached
    exact Nat.le_trans (Nat.mul_le_mul_right _ bits) lower
  rcases Nat.le_total p j with fine | coarse
  · exact counted j fine large
  · rcases last.filled with rfl | filled
    · exact counted j (Nat.zero_le j) large
    · calc 2 ^ j ≤ 2 ^ (p + 52) := Nat.pow_le_pow_right (by decide) (by omega)
        _ ≤ nearest a d := counted (p + 52) (by omega) filled

/-- The quotient `(2 ^ 54 - 1) · 2 ^ k` lies half a bit below `2 ^ (k + 54)`. -/
theorem two_pow_le_nearest_iff (a d k : Nat) (positive : 0 < d) :
    2 ^ (k + 54) ≤ nearest a d ↔ 2 ^ (k + 54) * d ≤ a + 2 ^ k * d := by
  obtain ⟨p, last, rounded, -, upper⟩ := nearest_eq a d
  have split : ∀ n, 2 ^ (k + n) * d = 2 ^ n * (2 ^ k * d) := by
    intro n
    rw [Nat.add_comm, Nat.pow_add, Nat.mul_assoc]
  have filled : 0 < 2 ^ k * d := Nat.mul_pos (Nat.two_pow_pos k) positive
  rcases Nat.lt_trichotomy p (k + 1) with fine | rfl | coarse
  · -- The last bit is smaller, so that the quotient lies below `2 ^ (k + 53)`.
    have order : 2 ^ (p + 53) ≤ 2 ^ (k + 53) := Nat.pow_le_pow_right (by decide) (by omega)
    have small := (Nat.div_lt_iff_lt_mul positive).mp (Nat.lt_of_lt_of_le last.below order)
    rw [split] at small ⊢
    have next : 2 ^ (k + 53) < 2 ^ (k + 54) := Nat.pow_lt_pow_right (by decide) (by omega)
    exact iff_of_false (by omega) (by omega)
  · -- The last bit is `2 ^ (k + 1)`, and `2 ^ 53` of them make the power.
    have bits : 2 ^ (k + 54) = 2 * 2 ^ 52 * 2 ^ (k + 1) := by
      rw [← Nat.pow_succ', ← Nat.pow_add, Nat.add_comm k]
      congr 1
      omega
    have step : d * 2 ^ (k + 1) = 2 * (2 ^ k * d) := by
      rw [Nat.pow_succ, Nat.mul_comm, Nat.mul_comm (2 ^ k), Nat.mul_assoc]
    rw [split, rounded, bits, Nat.mul_le_mul_right_iff (Nat.two_pow_pos _),
      even_le_roundEven_iff _ _ _ (by omega), step]
    omega
  · have large : 2 ^ (k + 54) ≤ a / d := by
      rcases last.filled with rfl | filled
      · omega
      · exact Nat.le_trans (Nat.pow_le_pow_right (by decide) (by omega)) filled
    have reached := (Nat.le_div_iff_mul_le positive).mp large
    exact iff_of_true (two_pow_le_nearest a d _ large) (Nat.le_add_right_of_le reached)

/-- The same for a quotient that is counted in units of `2 ^ -u`. -/
theorem two_pow_le_nearest_units_iff (a d k u : Nat) (positive : 0 < d) :
    2 ^ (k + 54 + u) ≤ nearest (a * 2 ^ u) d ↔ 2 ^ (k + 54) * d ≤ a + 2 ^ k * d := by
  have order : k + 54 + u = k + u + 54 := by omega
  have left : 2 ^ (k + u + 54) * d = 2 ^ (k + 54) * d * 2 ^ u := by
    rw [← order, Nat.pow_add, Nat.mul_right_comm]
  have right : a * 2 ^ u + 2 ^ (k + u) * d = (a + 2 ^ k * d) * 2 ^ u := by
    rw [Nat.pow_add, Nat.add_mul, Nat.mul_right_comm]
  rw [order, two_pow_le_nearest_iff _ d _ positive, left, right,
    Nat.mul_le_mul_right_iff (Nat.two_pow_pos u)]

theorem overflow_le_nearest_iff (a d : Nat) (positive : 0 < d) :
    overflow ≤ nearest (a * one) d ↔ 2 ^ 1024 * d ≤ a + 2 ^ 970 * d := by
  have top : 2098 = 970 + 54 + 1074 := rfl
  have limit : 1024 = 970 + 54 := rfl
  rw [overflow_eq, one_eq, top, limit]
  exact two_pow_le_nearest_units_iff a d 970 1074 positive

theorem nearest_eq_zero (a d : Nat) (small : 2 * a < d) : nearest a d = 0 := by
  have none : a / d = 0 := Nat.div_eq_of_lt (by omega)
  have rest : a % d = a := Nat.mod_eq_of_lt (by omega)
  simp [nearest, roundEven, none, rest, small]

/-! ## Numerals -/

/-- The largest number is `2 ^ 1024 - 2 ^ 971`; this is the middle between it and `2 ^ 1024`. -/
def limit : ℚ := 2 ^ 1024 - 2 ^ 970

theorem le_quotient_iff (a d m n : Nat) (positive : 0 < d) :
    (2 : ℚ) ^ m - 2 ^ n ≤ a / d ↔ 2 ^ m * d ≤ a + 2 ^ n * d := by
  have divisor : (0 : ℚ) < d := Nat.cast_pos.mpr positive
  rw [le_div_iff₀ divisor, sub_mul, sub_le_iff_le_add]
  norm_cast

theorem limit_le_iff (a d : Nat) (positive : 0 < d) :
    limit ≤ a / d ↔ 2 ^ 1024 * d ≤ a + 2 ^ 970 * d :=
  le_quotient_iff a d 1024 970 positive

theorem ofQuotient_eq_infinite (negative : Bool) (a d : Nat) (positive : 0 < d)
    (large : 2 ^ 1024 * d ≤ a + 2 ^ 970 * d) : ofQuotient negative a d = .infinite negative := by
  have reached := (overflow_le_nearest_iff a d positive).mpr large
  unfold ofQuotient
  exact if_neg (by omega)

theorem ofQuotient_eq_finite (negative : Bool) (a d : Nat) (positive : 0 < d)
    (small : a + 2 ^ 970 * d < 2 ^ 1024 * d) :
    ofQuotient negative a d = .finite negative (nearest (a * one) d) := by
  have missed := mt (overflow_le_nearest_iff a d positive).mp (Nat.not_le.mpr small)
  unfold ofQuotient
  exact if_pos (by omega)

theorem two_pow_le_ten_pow (k : Nat) : 2 ^ (3 * k) ≤ 10 ^ k := by
  rw [Nat.pow_mul]
  exact Nat.pow_le_pow_left (by decide) k

theorem large_decimal (digits k n : Nat) (filled : digits ≠ 0) (long : n ≤ digits.log2 + 3 * k) :
    2 ^ n ≤ digits * 10 ^ k :=
  calc 2 ^ n ≤ 2 ^ (digits.log2 + 3 * k) := Nat.pow_le_pow_right (by decide) long
    _ = 2 ^ digits.log2 * 2 ^ (3 * k) := Nat.pow_add _ _ _
    _ ≤ digits * 10 ^ k := Nat.mul_le_mul (Nat.log2_self_le filled) (two_pow_le_ten_pow k)

theorem small_decimal (digits k n : Nat) (short : digits.log2 + n + 2 ≤ 3 * k) :
    2 * (digits * 2 ^ n) < 10 ^ k :=
  calc 2 * (digits * 2 ^ n) = digits * 2 ^ (n + 1) := by
        rw [Nat.pow_succ, Nat.mul_comm, Nat.mul_assoc]
    _ < 2 ^ (digits.log2 + 1) * 2 ^ (n + 1) :=
        Nat.mul_lt_mul_of_pos_right Nat.lt_log2_self (Nat.two_pow_pos _)
    _ = 2 ^ (digits.log2 + 1 + (n + 1)) := (Nat.pow_add _ _ _).symm
    _ ≤ 2 ^ (3 * k) := Nat.pow_le_pow_right (by decide) (by omega)
    _ ≤ 10 ^ k := two_pow_le_ten_pow k

theorem ofQuotient_eq_zero (negative : Bool) (a d : Nat) (small : 2 * (a * one) < d) :
    ofQuotient negative a d = .finite negative 0 := by
  rw [ofQuotient, nearest_eq_zero _ d small]
  exact if_pos overflow_pos

/-- The powers that are not computed would not change the answer. -/
theorem ofDecimal_ofNat (negative : Bool) (digits k : Nat) :
    ofDecimal negative digits (.ofNat k) = ofQuotient negative (digits * 10 ^ k) 1 := by
  simp only [ofDecimal]
  split
  next none =>
    rw [none, Nat.zero_mul, ofQuotient_eq_zero negative 0 1 (by omega)]
  next filled =>
    split
    next long =>
      have large := large_decimal digits k 1024 filled long
      rw [ofQuotient_eq_infinite negative _ 1 (by decide) (by omega)]
    next => rfl

theorem ofDecimal_negSucc (negative : Bool) (digits k : Nat) :
    ofDecimal negative digits (.negSucc k) = ofQuotient negative digits (10 ^ (k + 1)) := by
  simp only [ofDecimal]
  split
  next short =>
    have small := small_decimal digits (k + 1) 1074 short
    rw [← one_eq] at small
    rw [ofQuotient_eq_zero negative digits _ small]
  next => rfl

theorem ofDecimal_zero (negative : Bool) (exponent : Int) :
    ofDecimal negative 0 exponent = .finite negative 0 := by
  cases exponent with
  | ofNat k => rw [ofDecimal_ofNat, Nat.zero_mul, ofQuotient_eq_zero negative 0 1 (by omega)]
  | negSucc k => rw [ofDecimal_negSucc, ofQuotient_eq_zero negative 0 _ (by simp)]

/-- A numeral is rounded as the quotient that it denotes. -/
theorem ofDecimal_eq_ofQuotient (negative : Bool) (digits : Nat) (exponent : Int) :
    ∃ a d : Nat, 0 < d ∧ (digits : ℚ) * 10 ^ exponent = a / d ∧
      ofDecimal negative digits exponent = ofQuotient negative a d := by
  cases exponent with
  | ofNat k => exact ⟨digits * 10 ^ k, 1, by decide, by simp, ofDecimal_ofNat negative digits k⟩
  | negSucc k =>
    refine ⟨digits, 10 ^ (k + 1), by positivity, ?_, ofDecimal_negSucc negative digits k⟩
    rw [zpow_negSucc, Nat.cast_pow, Nat.cast_ofNat, div_eq_mul_inv]

theorem ofDecimal_eq_infinite (negative : Bool) (digits : Nat) (exponent : Int)
    (large : limit ≤ digits * 10 ^ exponent) :
    ofDecimal negative digits exponent = .infinite negative := by
  obtain ⟨a, d, positive, value, rounded⟩ := ofDecimal_eq_ofQuotient negative digits exponent
  rw [value, limit_le_iff a d positive] at large
  rw [rounded, ofQuotient_eq_infinite negative a d positive large]

theorem ofDecimal_eq_finite (negative : Bool) (digits : Nat) (exponent : Int)
    (small : digits * 10 ^ exponent < limit) :
    ∃ units, ofDecimal negative digits exponent = .finite negative units ∧ InFormat units := by
  obtain ⟨a, d, positive, value, rounded⟩ := ofDecimal_eq_ofQuotient negative digits exponent
  rw [value, ← not_le, limit_le_iff a d positive, Nat.not_le] at small
  rw [rounded, ofQuotient_eq_finite negative a d positive small]
  exact ⟨_, rfl, nearest_inFormat _ _⟩

/-- From `2 ^ 53` on all numbers of the format are whole. -/
theorem whole_of_large {digits units : Nat} {exponent : Int}
    (rounded : ofDecimal false digits exponent = .finite false units)
    (large : (2 : ℚ) ^ 53 ≤ digits * 10 ^ exponent) : one ∣ units := by
  obtain ⟨a, d, positive, value, asQuotient⟩ := ofDecimal_eq_ofQuotient false digits exponent
  have nearestUnits : nearest (a * one) d = units := by
    rw [asQuotient, ofQuotient] at rounded
    split at rounded
    · exact (finite.inj rounded).2
    · cases rounded
  have scaled : 2 ^ 53 * d ≤ a := by
    rw [value, le_div_iff₀ (Nat.cast_pos.mpr positive)] at large
    exact_mod_cast large
  have inUnits : ∀ u, 2 ^ (u + 53) ≤ a * 2 ^ u / d := by
    intro u
    rw [Nat.le_div_iff_mul_le positive, Nat.pow_add, Nat.mul_assoc, Nat.mul_comm]
    exact Nat.mul_le_mul_right _ scaled
  rw [← nearestUnits, one_eq]
  exact (nearest_inFormat _ _).dvd (two_pow_le_nearest _ _ _ (inUnits 1074))

end ElmStyle.Decimal.Binary64
