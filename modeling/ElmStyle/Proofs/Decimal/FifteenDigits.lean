import ElmStyle.Proofs.Decimal.ReadingBack

/-!
# Numbers of fifteen digits

A number that is written with fifteen digits at most is shown as it is. The decimals of fifteen
digits near a number of the format lie on a grid that is wider than twice the error of rounding, so
that one of them at most is rounded to the number. All are compared as whole multiples of
`10 ^ -1074`, as every number of the format is one.
-/
namespace ElmStyle.Decimal

open Binary64 (Accurate)

/-! ## The grid -/

namespace Binary64.Accurate

/-- Two numbers that are rounded to one lie less than a step of the grid apart. -/
theorem gap {exact low high grid : Nat} (bounded : exact < 10 ^ 15 * grid)
    (first : Accurate exact low) (second : Accurate exact high) : high < low + grid := by
  have above := first.upper
  have below := second.lower
  omega

theorem refl (exact : Nat) : Accurate exact exact := ⟨by omega, by omega⟩

theorem unique {exact one two grid : Nat} (bounded : exact < 10 ^ 15 * grid)
    (first : Accurate exact one) (second : Accurate exact two) (onGrid : grid ∣ one)
    (alsoOnGrid : grid ∣ two) : one = two := by
  obtain ⟨i, rfl⟩ := onGrid
  obtain ⟨j, rfl⟩ := alsoOnGrid
  have right := first.gap bounded second
  have left := second.gap bounded first
  rw [← Nat.mul_succ] at left right
  have order := Nat.lt_of_mul_lt_mul_left right
  have reverse := Nat.lt_of_mul_lt_mul_left left
  rw [show i = j by omega]

/-- The number itself lies between two points of the grid, and no other point is near enough. -/
theorem neighbour {exact digits grid : Nat} (bounded : exact < 10 ^ 15 * grid)
    (near : Accurate exact (digits * grid)) :
    digits = exact / grid ∨ digits = exact / grid + 1 := by
  have right := near.gap bounded (refl exact)
  have left := (refl exact).gap bounded near
  have positive : 0 < grid := by omega
  have parts := Nat.div_add_mod' exact grid
  have rest := Nat.mod_lt exact positive
  have atLeast : exact / grid * grid < (digits + 1) * grid := by
    rw [Nat.succ_mul]
    omega
  have atMost : digits * grid < (exact / grid + 2) * grid := by
    rw [Nat.add_mul]
    omega
  have low := Nat.lt_of_mul_lt_mul_right atLeast
  have high := Nat.lt_of_mul_lt_mul_right atMost
  omega

/-- The grid of fifteen digits is as fine as that of a decimal with no more digits. -/
theorem grid_le {exact digits g h : Nat} (few : digits < 10 ^ 15)
    (leading : 10 ^ 14 * 10 ^ g ≤ exact) (near : Accurate exact (digits * 10 ^ h)) : g ≤ h := by
  by_contra coarse
  have step : 10 ^ (h + 1) ≤ 10 ^ g := Nat.pow_le_pow_right (by decide) (by omega)
  have room : (digits + 1) * 10 ^ h ≤ 10 ^ 15 * 10 ^ h := Nat.mul_le_mul_right _ few
  have positive : 0 < 10 ^ h := Nat.pow_pos (by decide)
  rw [Nat.pow_succ] at step
  rw [Nat.succ_mul] at room
  have below := near.upper
  omega

end Binary64.Accurate

/-! ## Decimals on the scale of the exact one -/

namespace Scaled

theorem exact_digits (units : Nat) : (ofUnits units).digits = units * 5 ^ 1074 := by
  delta ofUnits
  generalize 1074 = k
  rfl

theorem ten_pow_eq (k : Nat) : 10 ^ k = 5 ^ k * 2 ^ k := Nat.mul_pow 5 2 k

theorem whole_digits (n k : Nat) : 2 ^ k * n * 5 ^ k = n * 10 ^ k := by
  rw [ten_pow_eq, Nat.mul_comm (2 ^ k), Nat.mul_assoc, Nat.mul_comm (2 ^ k)]

theorem value_on_scale (digits k : Nat) :
    (digits : ℚ) * 10 ^ ((k : Int) - 1074) = (digits * 10 ^ k : Nat) * 10 ^ (-1074 : Int) := by
  rw [scaled_value, Int.sub_eq_add_neg, Int.add_comm]

theorem quotient_on_scale (digits k u : Nat) :
    (digits : ℚ) * 10 ^ ((k : Int) - u) = (digits * 10 ^ k : Nat) / (10 ^ u : Nat) := by
  rw [zpow_sub₀ (by norm_num), zpow_natCast, zpow_natCast]
  push_cast
  ring

/-- A decimal that is rounded to a number that is not tiny, on the scale of its exact decimal. -/
theorem accurate_of_rounded {digits k units : Nat} {negative : Bool}
    (rounded : Binary64.ofDecimal negative digits ((k : Int) - 1074) = .finite negative units)
    (large : 2 ^ 53 ≤ units) : Accurate (ofUnits units).digits (digits * 10 ^ k) := by
  have positive : 0 < 10 ^ 1074 := Nat.pow_pos (by decide)
  have value := quotient_on_scale digits k 1074
  rw [Nat.cast_ofNat] at value
  rw [Binary64.ofDecimal_of_quotient positive value negative] at rounded
  obtain ⟨-, nearest, -⟩ := Binary64.ofQuotient_finite rounded
  rw [ten_pow_eq 1074, ← Binary64.one_eq,
    Binary64.nearest_mul_right _ _ _ Binary64.one_pos] at nearest
  rw [exact_digits, ← nearest]
  exact Binary64.nearest_accurate (Nat.pow_pos (by decide)) (nearest ▸ large)

/-! ## The shortest decimal -/

theorem withDropped_isSome {units dropped digits : Nat}
    (neighbour : digits = (ofUnits units).digits / 10 ^ dropped ∨
      digits = (ofUnits units).digits / 10 ^ dropped + 1)
    (back : readsBack units ⟨digits, (dropped : Int) - 1074⟩) :
    (withDropped? units dropped).isSome := by
  unfold withDropped?
  dsimp only
  split
  · rfl
  · rfl
  · rfl
  next low high =>
    rcases neighbour with rfl | rfl
    · exact absurd (back.symm.trans low) (by decide)
    · exact absurd (back.symm.trans high) (by decide)

/-- If some decimal of `n + 1` digits reads back, the shortest has no more digits. -/
theorem shortest_found {units n : Nat} (few : n < enough)
    (found : (withDropped? units
      ((Nat.toDigits 10 (ofUnits units).digits).length - (n + 1))).isSome) :
    ∃ k ≤ n, withDropped? units ((Nat.toDigits 10 (ofUnits units).digits).length - (k + 1)) =
      some (shortest units) := by
  unfold shortest
  dsimp only
  generalize (Nat.toDigits 10 (ofUnits units).digits).length = length at found ⊢
  obtain ⟨more, total⟩ : ∃ more, enough = n + 1 + more := Nat.exists_eq_add_of_le few
  have early : ((List.range (n + 1)).findSome? fun k =>
      withDropped? units (length - (k + 1))).isSome :=
    List.findSome?_isSome_iff.mpr ⟨n, List.mem_range.mpr (Nat.lt_succ_self n), found⟩
  obtain ⟨d, first⟩ := Option.isSome_iff_exists.mp early
  rw [total, List.range_add, List.findSome?_append, first]
  obtain ⟨k, member, kept⟩ := List.exists_of_findSome?_eq_some first
  exact ⟨k, Nat.le_of_lt_succ (List.mem_range.mp member), kept⟩

/-- The grid of fifteen digits at a number. -/
theorem exists_grid {units : Nat} (large : 2 ^ 53 ≤ units) :
    ∃ g, (Nat.toDigits 10 (ofUnits units).digits).length = g + 15 ∧
      (ofUnits units).digits < 10 ^ 15 * 10 ^ g ∧ 10 ^ 14 * 10 ^ g ≤ (ofUnits units).digits := by
  have atLeast : units ≤ (ofUnits units).digits := by
    rw [exact_digits]
    exact Nat.le_mul_of_pos_right units (Nat.pow_pos (by decide))
  generalize (ofUnits units).digits = exact at atLeast ⊢
  have long : 15 < (Nat.toDigits 10 exact).length := by
    by_contra short
    have small := (Nat.length_toDigits_le_iff (by decide) (by decide)).mp (Nat.not_lt.mp short)
    omega
  obtain ⟨g, length⟩ := Nat.exists_eq_add_of_le' long.le
  refine ⟨g, length, ?_, ?_⟩
  · rw [← Nat.pow_add, Nat.add_comm, ← length]
    exact (Nat.length_toDigits_le_iff (by decide) (by omega)).mp le_rfl
  · rw [← Nat.pow_add, Nat.add_comm]
    exact ten_pow_le_of_length (by omega) length

/-- The shortest decimal is the one of fifteen digits that is rounded to the number. -/
theorem shortest_exact {digits h units : Nat} (few : digits < 10 ^ 15) (large : 2 ^ 53 ≤ units)
    (rounded : Binary64.ofDecimal false digits ((h : Int) - 1074) = .finite false units) :
    (shortest units).value = digits * 10 ^ ((h : Int) - 1074) := by
  obtain ⟨g, length, bounded, leading⟩ := exists_grid large
  have near := accurate_of_rounded rounded large
  obtain ⟨finer, rfl⟩ := Nat.exists_eq_add_of_le' (near.grid_le few leading)
  -- Moved to the grid, it is one of the candidates with fifteen digits.
  have moved : ((digits * 10 ^ finer : Nat) : ℚ) * 10 ^ ((g : Int) - 1074) =
      digits * 10 ^ (((finer + g : Nat) : Int) - 1074) := by
    rw [scaled_value]
    congr 2
    omega
  have back : readsBack units ⟨digits * 10 ^ finer, (g : Int) - 1074⟩ :=
    beq_iff_eq.mpr ((Binary64.ofDecimal_congr moved false).trans rounded)
  rw [Nat.pow_add, ← Nat.mul_assoc] at near
  have candidate : (withDropped? units
      ((Nat.toDigits 10 (ofUnits units).digits).length - (14 + 1))).isSome := by
    rw [length]
    exact withDropped_isSome (near.neighbour bounded) back
  obtain ⟨k, fewer, kept⟩ := shortest_found (by decide) candidate
  obtain ⟨exponent, -, reads⟩ := withDropped_eq_some kept
  -- The shortest one lies on the same grid, as it has no more digits.
  obtain ⟨coarser, dropped⟩ :
      ∃ n, (Nat.toDigits 10 (ofUnits units).digits).length - (k + 1) = n + g :=
    Nat.exists_eq_add_of_le' (by omega)
  rw [dropped] at exponent
  have close : Accurate (ofUnits units).digits ((shortest units).digits * 10 ^ (coarser + g)) :=
    accurate_of_rounded (exponent ▸ beq_iff_eq.mp reads) large
  rw [Nat.pow_add, ← Nat.mul_assoc] at close
  have same := close.unique bounded near (Nat.dvd_mul_left _ _) (Nat.dvd_mul_left _ _)
  rw [value, exponent, value_on_scale, value_on_scale, Nat.pow_add, Nat.pow_add, ← Nat.mul_assoc,
    ← Nat.mul_assoc, same]

/-- A whole number is the decimal of fifteen digits that is rounded to it. -/
theorem whole_exact {digits h units : Nat} (few : digits < 10 ^ 15) (large : 2 ^ 53 ≤ units)
    (rounded : Binary64.ofDecimal false digits ((h : Int) - 1074) = .finite false units)
    (small : h ≤ 1074) (whole : units % Binary64.one = 0) :
    ((units / Binary64.one : Nat) : ℚ) = digits * 10 ^ ((h : Int) - 1074) := by
  obtain ⟨g, -, bounded, leading⟩ := exists_grid large
  have near := accurate_of_rounded rounded large
  have fine := near.grid_le few leading
  have onGrid : 10 ^ g ∣ (ofUnits units).digits := by
    obtain ⟨n, multiple⟩ := Nat.dvd_of_mod_eq_zero whole
    rw [exact_digits, multiple, Binary64.one_eq, whole_digits]
    exact Nat.dvd_mul_left_of_dvd (Nat.pow_dvd_pow 10 (fine.trans small)) n
  have alsoOnGrid : 10 ^ g ∣ digits * 10 ^ h := Nat.dvd_mul_left_of_dvd (Nat.pow_dvd_pow 10 fine) _
  have same := near.unique bounded (.refl _) alsoOnGrid onGrid
  rw [value_on_scale, same, Nat.cast_div_charZero (Nat.dvd_of_mod_eq_zero whole),
    ← ofUnits_quotient]
  rfl

end Scaled

namespace Binary64

theorem fifteen_large {digits places : Nat} (filled : 0 < digits) (few : places ≤ 15) :
    2 ^ 53 ≤ nearest (digits * one) (10 ^ places) := by
  apply two_pow_le_nearest
  rw [Nat.le_div_iff_mul_le (Nat.pow_pos (by decide))]
  have scale : 2 ^ 103 ≤ one := by
    rw [one_eq]
    exact Nat.pow_le_pow_right (by decide) (by decide)
  calc 2 ^ 53 * 10 ^ places ≤ 2 ^ 53 * 10 ^ 15 :=
        Nat.mul_le_mul_left _ (Nat.pow_le_pow_right (by decide) few)
    _ ≤ 2 ^ 103 := by decide
    _ ≤ one := scale
    _ ≤ digits * one := Nat.le_mul_of_pos_left _ filled

/-- Fifteen digits, of which any number stand behind the point, are far from an infinity. -/
theorem ofDecimal_fifteen {digits : Nat} (few : digits < 10 ^ 15) (places : Nat) (negative : Bool) :
    ofDecimal negative digits (-(places : Int)) =
      .finite negative (nearest (digits * one) (10 ^ places)) := by
  have positive : 0 < 10 ^ places := Nat.pow_pos (by decide)
  have value : (digits : ℚ) * 10 ^ (-(places : Int)) = digits / (10 ^ places : Nat) := by
    rw [zpow_neg, zpow_natCast, Nat.cast_pow, Nat.cast_ofNat, div_eq_mul_inv]
  rw [ofDecimal_of_quotient positive value negative]
  apply ofQuotient_eq_finite negative digits _ positive
  have top : 1024 = 54 + 970 := rfl
  have one_le : 1 * 1 ≤ 2 ^ 970 * 10 ^ places := Nat.mul_le_mul (Nat.two_pow_pos 970) positive
  rw [top, Nat.pow_add, Nat.mul_assoc]
  omega

/-- Fifteen digits are shown as they are. -/
theorem shown_fifteen {digits places : Nat} (few : digits < 10 ^ 15) (fits : places ≤ 15) :
    shown (nearest (digits * one) (10 ^ places)) = digits * 10 ^ (-(places : Int)) := by
  rcases Nat.eq_zero_or_pos digits with rfl | filled
  · rw [Nat.zero_mul, nearest_eq_zero _ _ (Nat.pow_pos (by decide)), shown, Nat.zero_mod,
      if_pos rfl, Nat.zero_div, Nat.cast_zero, zero_mul]
  · have large := fifteen_large filled fits
    have rounded := ofDecimal_fifteen few places false
    obtain ⟨h, scale⟩ : ∃ h, h + places = 1074 := ⟨1074 - places, by omega⟩
    have exponent : -(places : Int) = (h : Int) - 1074 := by omega
    rw [exponent] at rounded ⊢
    unfold shown
    split
    next whole => exact Scaled.whole_exact few large rounded (by omega) whole
    next => exact Scaled.shortest_exact few large rounded

theorem shown_zero : shown 0 = 0 := by
  rw [shown, Nat.zero_mod, if_pos rfl, Nat.zero_div, Nat.cast_zero]

theorem compactText_denotes (negative : Bool) (units : Nat) :
    Denotes (finite negative units).compactText.toList (signed negative (shown units)) := by
  obtain ⟨body, text, written⟩ := compactText_shown negative units
  have same : signed negative (shown units) = signed (negative && units != 0) (shown units) := by
    rcases Nat.eq_zero_or_pos units with rfl | positive
    · simp [signed, shown_zero]
    · rw [sign_of_filled negative positive.ne']
  rw [text, String.toList_append, same]
  exact written.denotes _

theorem signed_eq {negative other : Bool} {v w : ℚ} (first : 0 ≤ v) (second : 0 ≤ w)
    (same : signed negative v = signed other w) : v = w ∧ (negative = other ∨ v = 0) := by
  unfold signed at same
  cases negative <;> cases other <;> simp only [if_true, Bool.false_eq_true, if_false] at same
  · exact ⟨same, .inl rfl⟩
  · exact ⟨by linarith, .inr (by linarith)⟩
  · exact ⟨by linarith, .inr (by linarith)⟩
  · exact ⟨neg_injective same, .inl rfl⟩

/-- Numerals of one number have one compact text. -/
theorem compactText_congr {negative other : Bool} {digits others : Nat} {exponent power : Int}
    (same : signed negative (digits * 10 ^ exponent) = signed other (others * 10 ^ power)) :
    (ofDecimal negative digits exponent).compactText =
      (ofDecimal other others power).compactText := by
  obtain ⟨values, rfl | zero⟩ := signed_eq (by positivity) (by positivity) same
  · rw [ofDecimal_congr values]
  · have none : ∀ (n : Nat) (e : Int), (n : ℚ) * 10 ^ e = 0 → n = 0 := fun n e product =>
      Nat.cast_eq_zero.mp ((mul_eq_zero.mp product).resolve_right (by positivity))
    rw [none digits exponent zero, none others power (values ▸ zero), ofDecimal_zero,
      ofDecimal_zero, ← compactText_plainZero, ← compactText_plainZero (finite other 0)]
    simp [plainZero]

end Binary64

/-! ## Ordinary numerals -/

/-- A sign or none, and a row of digits with one point at most: fifteen digits or fewer, and one at
least. -/
structure IsOrdinary (text : List Char) : Prop where
  form : ∃ sign row, text = sign ++ row ∧ IsSign sign ∧ Figures row
  point : text.count '.' ≤ 1
  filled : 1 ≤ text.countP Char.isDigit
  few : text.countP Char.isDigit ≤ 15

theorem rowValue_lt {digits : List Char} (each : ∀ c ∈ digits, c.isDigit) :
    rowValue digits < 10 ^ digits.length := by
  induction digits with
  | nil => decide
  | cons c rest ih =>
    have later := ih fun d member => each d (List.mem_cons_of_mem _ member)
    have here : rowValue [c] ≤ 9 :=
      Text.forall_char_below 128 (fun c => c.isDigit → rowValue [c] ≤ 9) (by decide) c
        (isDigit_ascii c (each c (by simp))) (each c (by simp))
    have bound : rowValue [c] * 10 ^ rest.length ≤ 9 * 10 ^ rest.length :=
      Nat.mul_le_mul_right _ here
    rw [← List.singleton_append, rowValue_append, List.singleton_append, List.length_cons,
      Nat.pow_succ]
    omega

/-- The digits of a row of figures with one point at most. -/
theorem figures_parts {row : List Char} (figures : Figures row) (point : row.count '.' ≤ 1) :
    ∃ whole fraction places, row = whole ++ fraction ∧ (∀ c ∈ whole, c.isDigit) ∧
      FractionText fraction places ∧ row.countP Char.isDigit = (whole ++ places).length := by
  obtain ⟨whole, rest, -, rfl, digits, ends⟩ := figures_span row figures
  have before := List.countP_eq_length.mpr digits
  rcases ends with rfl | ⟨later, rfl⟩
  · exact ⟨whole, [], [], rfl, digits, .absent, by simpa using before⟩
  · have pointless := List.count_eq_zero.mpr (not_mem_of_digits whole digits)
    have last : '.' ∉ later := by
      rw [List.count_append, pointless, List.count_cons_self] at point
      exact List.count_eq_zero.mp (by omega)
    have places : ∀ c ∈ later, c.isDigit := by
      intro c member
      refine (figures c (by simp [member])).resolve_right ?_
      rintro rfl
      exact last member
    have behind := List.countP_eq_length.mpr places
    refine ⟨whole, '.' :: later, later, rfl, digits, .places later places, ?_⟩
    rw [List.countP_append, List.countP_cons_of_neg (by decide), before, behind, List.length_append]

theorem IsOrdinary.numeral {text : List Char} (ordinary : IsOrdinary text) :
    ∃ (negative : Bool) (body : List Char) (digits places : Nat),
      text = (Binary64.sign negative).toList ++ body ∧ digits < 10 ^ 15 ∧ places ≤ 15 ∧
      Unsigned body (digits * 10 ^ (-(places : Int))) ∧
      Numeral.decimal? negative body = some (.decimal negative digits (-(places : Int))) := by
  obtain ⟨⟨sign, row, rfl, isSign, figures⟩, point, filled, few⟩ := ordinary
  obtain ⟨negative, rfl⟩ : ∃ negative, sign = (Binary64.sign negative).toList := by
    rcases isSign with rfl | rfl
    · exact ⟨false, rfl⟩
    · exact ⟨true, rfl⟩
  have digitless : (Binary64.sign negative).toList.countP Char.isDigit = 0 := by
    cases negative <;> decide
  rw [List.countP_append, digitless, Nat.zero_add] at filled few
  rw [List.count_append] at point
  obtain ⟨whole, fraction, places, rfl, digits, isFraction, count⟩ :=
    figures_parts figures (by omega)
  have placesDigits : ∀ c ∈ places, c.isDigit := by
    cases isFraction with
    | absent => simp
    | places _ each => exact each
  rw [count] at filled few
  have some : whole ++ places ≠ [] := List.ne_nil_of_length_pos filled
  have bound := rowValue_lt (List.forall_mem_append.mpr ⟨digits, placesDigits⟩)
  have written := Unsigned.parts digits isFraction .absent some
  have read := Numeral.decimal_text digits isFraction .absent some negative
  rw [placed_value, zero_sub, List.append_nil] at written
  rw [zero_sub, List.append_nil] at read
  refine ⟨negative, _, _, places.length, rfl, ?_, ?_, written, read⟩
  · exact bound.trans_le (Nat.pow_le_pow_right (by decide) few)
  · rw [List.length_append] at few
    omega

theorem IsOrdinary.compactText {s : String} (ordinary : IsOrdinary s.toList) :
    ∃ (negative : Bool) (digits : Nat) (exponent : Int),
      Denotes s.toList (signed negative (digits * 10 ^ exponent)) ∧
      normalize s = .ok (Binary64.ofDecimal negative digits exponent).compactText ∧
      Denotes (Binary64.ofDecimal negative digits exponent).compactText.toList
        (signed negative (digits * 10 ^ exponent)) := by
  obtain ⟨negative, body, digits, places, text, few, fits, written, decimal⟩ := ordinary.numeral
  have read := (read_signed written negative).trans decimal
  rw [← text, String.ofList_toList] at read
  refine ⟨negative, digits, -(places : Int), ?_, normalize_read read, ?_⟩
  · rw [text]
    exact written.denotes negative
  · rw [Binary64.ofDecimal_fifteen few, ← Binary64.shown_fifteen few fits]
    exact Binary64.compactText_denotes _ _

/-- An ordinary numeral has a compact text, which denotes the number that the numeral denotes; so
two of them have the same text exactly if they denote the same number. -/
theorem normalize_keeps_fifteen_digits (s : String) (ordinary : IsOrdinary s.toList) :
    ∃ v text, normalize s = .ok text ∧ (∀ w, Denotes s.toList w ↔ w = v) ∧
      (∀ w, Denotes text.toList w ↔ w = v) ∧
      ∀ t : String, IsOrdinary t.toList → (normalize t = normalize s ↔ Denotes t.toList v) := by
  obtain ⟨negative, digits, exponent, given, success, shown⟩ := ordinary.compactText
  have only : ∀ {text v}, Denotes text v → ∀ w, Denotes text w ↔ w = v := fun denotes w =>
    ⟨fun also => also.unique denotes, fun same => same ▸ denotes⟩
  refine ⟨_, _, success, only given, only shown, fun t other => ?_⟩
  obtain ⟨sign, others, power, denoted, also, written⟩ := other.compactText
  rw [success, also, Except.ok.injEq]
  constructor
  · intro same
    rw [same] at written
    rwa [shown.unique written]
  · intro same
    exact Binary64.compactText_congr (denoted.unique same)

/-- A number with an exponent in its text, written with zeros at both ends or without. -/
theorem normalize_keeps_fifteen_digits_tiny :
    IsOrdinary "-.0000123".toList ∧ IsOrdinary "-00.00001230".toList ∧
      normalize "-.0000123" = .ok "-1.23e-05" ∧
      ∃ v, Denotes "-.0000123".toList v ∧ Denotes "-1.23e-05".toList v ∧
        Denotes "-00.00001230".toList v := by
  have figures : ∀ row : List Char, row.all (fun c => c.isDigit || c == '.') → Figures row :=
    fun row all c member => by simpa using List.all_eq_true.mp all c member
  have short : IsOrdinary "-.0000123".toList :=
    ⟨⟨['-'], ".0000123".toList, by decide, .inr rfl, figures _ (by decide)⟩, by decide, by decide,
      by decide⟩
  have long : IsOrdinary "-00.00001230".toList :=
    ⟨⟨['-'], "00.00001230".toList, by decide, .inr rfl, figures _ (by decide)⟩, by decide,
      by decide, by decide⟩
  have success : normalize "-.0000123" = .ok "-1.23e-05" := by decide +kernel
  have again : normalize "-00.00001230" = normalize "-.0000123" := by decide +kernel
  obtain ⟨v, text, shown, given, kept, others⟩ := normalize_keeps_fifteen_digits _ short
  rw [success, Except.ok.injEq] at shown
  subst shown
  exact ⟨short, long, success, v, (given v).mpr rfl, (kept v).mpr rfl, (others _ long).mp again⟩

end ElmStyle.Decimal
