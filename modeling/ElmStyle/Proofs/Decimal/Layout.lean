import ElmStyle.Proofs.Decimal.Denotation
import Mathlib.Tactic.Ring

/-!
# The layout of digits

Positional and scientific notation place the same digits: what stands before the point has no zero
in front of others, and the text denotes the decimal that it was made from.
-/
namespace ElmStyle.Decimal

/-! ## Rows -/

/-- A row of digits without a zero in front of others. -/
def IsWhole (text : List Char) : Prop := IsRow text ∧ (text.head? = some '0' → text = ['0'])

/-- A row of digits without a zero in front. -/
def IsSignificant (digits : List Char) : Prop := IsRow digits ∧ digits.head? ≠ some '0'

/-- A row that starts as a significant one. -/
theorem IsSignificant.isWhole {digits whole : List Char} (significant : IsSignificant digits)
    (row : IsRow whole) (start : whole.head? = digits.head?) : IsWhole whole :=
  ⟨row, fun zero => absurd (start ▸ zero) significant.2⟩

theorem isRow_toDigits (n : Nat) : IsRow (Nat.toDigits 10 n) :=
  ⟨Nat.toDigits_ne_nil, fun _ => Nat.isDigit_of_mem_toDigits (by decide) (by decide)⟩

/-- The first digit of a positive number. -/
theorem toDigits_cons (n : Nat) (positive : 0 < n) :
    ∃ first rest, Nat.toDigits 10 n = first :: rest ∧ first ≠ '0' := by
  induction n using Nat.strongRecOn with
  | ind n ih =>
    rw [Nat.toDigits_eq_if (by decide)]
    split
    next small =>
      refine ⟨n.digitChar, [], rfl, ?_⟩
      have each : ∀ k < 10, 0 < k → k.digitChar ≠ '0' := by decide
      exact each n small positive
    next large =>
      obtain ⟨first, rest, digits, filled⟩ := ih (n / 10) (by omega) (by omega)
      exact ⟨first, rest ++ [(n % 10).digitChar], by rw [digits, List.cons_append], filled⟩

theorem isWhole_toDigits (n : Nat) : IsWhole (Nat.toDigits 10 n) := by
  refine ⟨isRow_toDigits n, fun zero => ?_⟩
  rcases Nat.eq_zero_or_pos n with rfl | positive
  · rfl
  · obtain ⟨first, rest, digits, filled⟩ := toDigits_cons n positive
    rw [digits, List.head?_cons, Option.some_inj] at zero
    exact absurd zero filled

theorem rowValue_toDigits (n : Nat) : rowValue (Nat.toDigits 10 n) = n :=
  Nat.ofDigitChars_toDigits (by decide) (by decide)

theorem isDigit_of_mem_zeros {n : Nat} {c : Char} (member : c ∈ List.replicate n '0') :
    c.isDigit := by
  rw [List.eq_of_mem_replicate member]
  decide

theorem isRow_zeros_append {digits : List Char} (row : IsRow digits) (n : Nat) :
    IsRow (List.replicate n '0' ++ digits) := by
  refine ⟨by simp [row.1], fun c member => ?_⟩
  rcases List.mem_append.mp member with zero | given
  · exact isDigit_of_mem_zeros zero
  · exact row.2 c given

theorem rowValue_append_zeros (digits : List Char) (n : Nat) :
    rowValue (digits ++ List.replicate n '0') = rowValue digits * 10 ^ n :=
  Numeral.digitsValue_zeros digits n

theorem rowValue_zeros_append (digits : List Char) (n : Nat) :
    rowValue (List.replicate n '0' ++ digits) = rowValue digits := by
  have none := rowValue_append_zeros [] n
  rw [List.nil_append, show rowValue [] = 0 from rfl, Nat.zero_mul] at none
  rw [rowValue_append, none, Nat.zero_mul, Nat.zero_add]

theorem trimZeros_cons (first : Char) (rest : List Char) (filled : first ≠ '0') :
    trimZeros (first :: rest) = first :: trimZeros rest := by
  have stops : [first].dropWhile (· == '0') = [first] := by simp [filled]
  unfold trimZeros
  rw [List.reverse_cons, List.dropWhile_append, stops]
  split
  next none => simp [List.isEmpty_iff.mp none]
  next => simp

/-- Only zeros go. -/
theorem trimZeros_append (digits : List Char) :
    ∃ n, digits = trimZeros digits ++ List.replicate n '0' := by
  refine ⟨(digits.reverse.takeWhile (· == '0')).length, ?_⟩
  have zeros : digits.reverse.takeWhile (· == '0') =
      List.replicate (digits.reverse.takeWhile (· == '0')).length '0' :=
    List.eq_replicate_length.mpr fun c member => by simpa using List.mem_takeWhile_imp member
  rw [trimZeros, ← List.reverse_replicate, ← zeros, ← List.reverse_append,
    List.takeWhile_append_dropWhile, List.reverse_reverse]

theorem trimZeros_significant (n : Nat) (filled : n ≠ 0) :
    IsSignificant (trimZeros (Nat.toDigits 10 n)) := by
  have each := (isRow_toDigits n).2
  obtain ⟨first, rest, digits, other⟩ := toDigits_cons n (Nat.pos_of_ne_zero filled)
  rw [digits] at each ⊢
  rw [trimZeros_cons first rest other]
  refine ⟨⟨List.cons_ne_nil _ _, List.forall_mem_cons.mpr ⟨each first (by simp), ?_⟩⟩, by simpa⟩
  exact fun c member => each c (List.mem_cons_of_mem _ (mem_trimZeros rest c member))

/-! ## Notations -/

theorem scaled_value (n k : Nat) (exponent : Int) :
    ((n * 10 ^ k : Nat) : ℚ) * 10 ^ exponent = n * 10 ^ (exponent + k) := by
  rw [zpow_add₀ (by norm_num), zpow_natCast]
  push_cast
  ring

theorem exponentText_power (exponent : Int) :
    PowerText (exponentText exponent).toList exponent := by
  have row := isRow_zeros_append (isRow_toDigits exponent.natAbs)
    (2 - (Nat.toDigits 10 exponent.natAbs).length)
  have value := rowValue_zeros_append (Nat.toDigits 10 exponent.natAbs)
    (2 - (Nat.toDigits 10 exponent.natAbs).length)
  rw [rowValue_toDigits] at value
  unfold exponentText
  dsimp only
  rw [String.toList_append]
  split
  next negative =>
    have written := PowerText.down _ row
    rw [value] at written
    convert written using 1
    · exact congrArg ("e-".toList ++ ·) String.toList_ofList
    · omega
  next positive =>
    have written := PowerText.up _ row
    rw [value] at written
    convert written using 1
    · exact congrArg ("e+".toList ++ ·) String.toList_ofList
    · omega

/-- Digits on both sides of the point. -/
theorem positionalText_places {digits : List Char} (significant : IsSignificant digits)
    (point : Int) :
    ∃ whole places, (positionalText digits point).toList = whole ++ '.' :: places ∧
      IsWhole whole ∧ IsRow places ∧
      (rowValue (whole ++ places) : ℚ) * 10 ^ (0 - (places.length : Int)) =
        rowValue digits * 10 ^ (point - digits.length) := by
  obtain ⟨filled, each⟩ := significant.1
  unfold positionalText
  dsimp only
  split
  next small =>
    -- Zeros in front do not count, but the places that they fill do.
    refine ⟨List.replicate 1 '0', _, String.toList_ofList, isWhole_toDigits 0,
      isRow_zeros_append significant.1 (-point).toNat, ?_⟩
    rw [rowValue_zeros_append, rowValue_zeros_append, List.length_append, List.length_replicate]
    congr 2
    omega
  next large =>
    split
    next long =>
      have row : IsRow (digits ++ List.replicate (point.toNat - digits.length) '0') :=
        ⟨by simp [filled], List.forall_mem_append.mpr ⟨each, fun c => isDigit_of_mem_zeros⟩⟩
      have start : (digits ++ List.replicate (point.toNat - digits.length) '0').head? =
          digits.head? := List.head?_append_of_ne_nil _ filled
      refine ⟨_, List.replicate 1 '0', String.toList_ofList, significant.isWhole row start,
        isRow_toDigits 0, ?_⟩
      rw [List.append_assoc, List.replicate_append_replicate, rowValue_append_zeros, scaled_value,
        List.length_replicate]
      congr 2
      omega
    next short =>
      have row : IsRow (digits.take point.toNat) :=
        ⟨by simp [filled]; omega, fun c member => each c (List.mem_of_mem_take member)⟩
      have start : (digits.take point.toNat).head? = digits.head? := by
        rw [List.head?_take, if_neg (by omega)]
      refine ⟨_, _, String.toList_ofList, significant.isWhole row start,
        ⟨by simpa using short, fun c member => each c (List.mem_of_mem_drop member)⟩, ?_⟩
      rw [List.take_append_drop, List.length_drop]
      congr 2
      omega

/-- One digit before the point, and a power of ten. -/
theorem scientificText_places {digits : List Char} (significant : IsSignificant digits)
    (point : Int) :
    ∃ whole fraction places power, (scientificText digits point).toList =
        whole ++ (fraction ++ power) ∧
      IsWhole whole ∧ FractionText fraction places ∧ (places = [] → fraction = []) ∧
      PowerText power (point - 1) ∧
      (rowValue (whole ++ places) : ℚ) * 10 ^ (point - 1 - (places.length : Int)) =
        rowValue digits * 10 ^ (point - digits.length) := by
  have isPower := exponentText_power (point - 1)
  obtain ⟨first, rest, rfl⟩ := List.exists_cons_of_ne_nil significant.1.1
  have row : IsRow [first] := ⟨List.cons_ne_nil _ _, by simpa using significant.1.2 first⟩
  have isWhole : IsWhole [first] := significant.isWhole row rfl
  unfold scientificText
  rw [String.toList_append, String.toList_ofList]
  cases rest with
  | nil =>
    refine ⟨[first], [], [], _, rfl, isWhole, .absent, fun _ => rfl, isPower, ?_⟩
    rw [List.append_nil, List.length_nil, Nat.cast_zero, sub_zero]
    rfl
  | cons second more =>
    refine ⟨[first], _, second :: more, _, rfl, isWhole, .places _ fun c member => ?_,
      fun none => absurd none (List.cons_ne_nil _ _), isPower, ?_⟩
    · exact significant.1.2 c (List.mem_cons_of_mem _ member)
    · rw [List.singleton_append]
      congr 2
      simp only [List.length_cons]
      omega

/-! ## Decimals -/

namespace Scaled

/-- The number that the decimal is. -/
def value (d : Scaled) : ℚ := d.digits * 10 ^ d.exponent

/-- The zeros that are left out stand for places before the point. -/
theorem value_trimmed (d : Scaled) :
    (rowValue (trimZeros (Nat.toDigits 10 d.digits)) : ℚ) *
      10 ^ (((Nat.toDigits 10 d.digits).length : Int) + d.exponent -
        (trimZeros (Nat.toDigits 10 d.digits)).length) = d.value := by
  obtain ⟨n, trimmed⟩ := trimZeros_append (Nat.toDigits 10 d.digits)
  have all := rowValue_append_zeros (trimZeros (Nat.toDigits 10 d.digits)) n
  have length := congrArg List.length trimmed
  rw [List.length_append, List.length_replicate] at length
  rw [← trimmed, rowValue_toDigits] at all
  have places : ((Nat.toDigits 10 d.digits).length : Int) + d.exponent -
      (trimZeros (Nat.toDigits 10 d.digits)).length = d.exponent + n := by
    omega
  rw [places, ← scaled_value, ← all]
  rfl

/-- The text of a decimal denotes the decimal. -/
theorem text_unsigned (d : Scaled) (filled : d.digits ≠ 0) : Unsigned d.text.toList d.value := by
  have significant := trimZeros_significant d.digits filled
  rw [← d.value_trimmed]
  unfold text
  dsimp only
  split
  · obtain ⟨whole, places, written, isWhole, isRow, value⟩ := positionalText_places significant _
    have parts := Unsigned.parts isWhole.1.2 (.places places isRow.2) .absent
      (by simp [isWhole.1.1])
    rwa [placed_value, value, List.append_nil, ← written] at parts
  · obtain ⟨whole, fraction, places, power, written, isWhole, isFraction, -, isPower, value⟩ :=
      scientificText_places significant _
    have parts := Unsigned.parts isWhole.1.2 isFraction isPower (by simp [isWhole.1.1])
    rwa [placed_value, value, ← written] at parts

end Scaled

/-- The digits of a whole number denote it. -/
theorem repr_unsigned (n : Nat) : Unsigned (Nat.repr n).toList n := by
  have row := isRow_toDigits n
  have written := Unsigned.parts row.2 .absent .absent (by simp [row.1])
  rw [placed_value] at written
  rw [Nat.repr_eq_ofList_toDigits, String.toList_ofList]
  simpa [rowValue_toDigits] using written

end ElmStyle.Decimal
