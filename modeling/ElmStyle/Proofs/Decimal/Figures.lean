import ElmStyle.Proofs.Elm.Characters
import Mathlib.Data.List.Count

/-!
# Rows of figures

A row of digits and points, with a minus sign or without, is a numeral exactly if it has a digit and
no second point. None of the other forms of a numeral comes into question for such a row.
-/
namespace ElmStyle

namespace Text

theorem stripBy_eq_self (drop : Char → Bool) (cs : List Char) (kept : ∀ c ∈ cs, drop c = false) :
    stripBy drop cs = cs := by
  have front : ∀ row : List Char, (∀ c ∈ row, drop c = false) → row.dropWhile drop = row := by
    intro row each
    cases row with
    | nil => rfl
    | cons c rest => simp [each c]
  rw [stripBy, front cs kept, front cs.reverse (by simpa using kept), List.reverse_reverse]

end Text

namespace Decimal

/-- One digit at least and one point at most. -/
@[mk_iff] structure WritesNumber (row : List Char) : Prop where
  digit : ∃ c ∈ row, c.isDigit
  point : row.count '.' ≤ 1

/-- A minus sign or nothing. -/
def IsSign (sign : List Char) : Prop := sign = [] ∨ sign = ['-']

/-- A row of digits and points. -/
def Figures (row : List Char) : Prop := ∀ c ∈ row, c.isDigit ∨ c = '.'

theorem isDigit_ascii (c : Char) (digit : c.isDigit) : c.toNat < 128 :=
  Elm.isKebabChar_ascii c (by simp [Elm.isKebabChar, digit])

theorem isNumberChar_ascii (c : Char) (number : isNumberChar c) : c.toNat < 128 := by
  simp only [isNumberChar, Bool.or_eq_true, beq_iff_eq] at number
  rcases number with ((letter | rfl) | rfl) | rfl
  · exact Elm.isNameChar_ascii c (by simp [Elm.isNameChar, letter])
  · decide
  · decide
  · decide

theorem figure_ascii (c : Char) (figure : c.isDigit ∨ c = '.') : c.toNat < 128 := by
  rcases figure with digit | rfl
  · exact isDigit_ascii c digit
  · decide

theorem not_mem_of_digits (digits : List Char) (each : ∀ c ∈ digits, c.isDigit) :
    '.' ∉ digits := by
  intro member
  exact absurd (each '.' member) (by decide)

theorem exists_digit_iff (digits : List Char) (each : ∀ c ∈ digits, c.isDigit) :
    (∃ c ∈ digits, c.isDigit) ↔ digits ≠ [] := by
  constructor
  · rintro ⟨c, member, -⟩ rfl
    cases member
  · intro filled
    obtain ⟨c, member⟩ := List.exists_mem_of_ne_nil digits filled
    exact ⟨c, member, each c member⟩

/-- The digits at the start of a row of figures; a point follows, if anything does. -/
theorem figures_span (row : List Char) (figures : Figures row) :
    ∃ digits rest, row.span Char.isDigit = (digits, rest) ∧ row = digits ++ rest ∧
      (∀ c ∈ digits, c.isDigit) ∧ (rest = [] ∨ ∃ later, rest = '.' :: later) := by
  cases spanned : row.span Char.isDigit with
  | mk digits rest =>
    obtain ⟨rfl, each, stops⟩ := (Text.span_eq_iff _ _ _ _).mp spanned
    refine ⟨digits, rest, rfl, rfl, each, ?_⟩
    cases rest with
    | nil => exact .inl rfl
    | cons c later =>
      rcases figures c (by simp) with digit | rfl
      · rw [stops c rfl] at digit
        cases digit
      · exact .inr ⟨later, rfl⟩

namespace Numeral

/-- A second point cannot be part of the fraction and starts no exponent. -/
theorem decimal_isSome (negative : Bool) (row : List Char) (figures : Figures row) :
    (decimal? negative row).isSome ↔ WritesNumber row := by
  obtain ⟨whole, rest, spanned, rfl, digits, ends⟩ := figures_span row figures
  have pointless := List.count_eq_zero.mpr (not_mem_of_digits whole digits)
  have before := exists_digit_iff whole digits
  unfold decimal?
  rw [spanned]
  rcases ends with rfl | ⟨later, rfl⟩
  · simp [splitFraction, exponent?, writesNumber_iff, before, pointless]
  · obtain ⟨fraction, rest, spanned, rfl, places, ends⟩ :=
      figures_span later (fun c member => figures c (by simp [member]))
    have pointless' := List.count_eq_zero.mpr (not_mem_of_digits fraction places)
    have after := exists_digit_iff fraction places
    simp only [splitFraction, spanned]
    rcases ends with rfl | ⟨more, rfl⟩
    · have filled : (∃ c ∈ whole ++ '.' :: (fraction ++ []), c.isDigit) ↔
          ¬(whole = [] ∧ fraction = []) := by
        simp [or_and_right, exists_or, before, after, imp_iff_not_or]
      rw [writesNumber_iff, filled]
      simp [exponent?, pointless, pointless']
    · have twice : ¬WritesNumber (whole ++ '.' :: (fraction ++ '.' :: more)) := by
        intro number
        have few := number.point
        simp [pointless, pointless'] at few
      have none : exponent? ('.' :: more) = none := by
        simp [exponent?]
      simp [twice, none]

theorem decimal_eq {negative : Bool} {cs : List Char} {numeral : Numeral}
    (read : decimal? negative cs = some numeral) :
    ∃ digits exponent, numeral = .decimal negative digits exponent := by
  unfold decimal? at read
  dsimp only at read
  split at read
  · cases read
  · obtain ⟨exponent, -, rfl⟩ := Option.map_eq_some_iff.mp read
    exact ⟨_, _, rfl⟩

/-- A row of digits alone. -/
theorem decimal_digits (negative : Bool) (row : List Char) (filled : row ≠ [])
    (each : ∀ c ∈ row, c.isDigit) :
    decimal? negative row = some (.decimal negative (digitsValue row) 0) := by
  have spanned : row.span Char.isDigit = (row, []) :=
    (Text.span_eq_iff _ _ _ _).mpr ⟨(List.append_nil row).symm, each, by simp⟩
  unfold decimal?
  rw [spanned]
  simp [splitFraction, exponent?, filled]

theorem digitsValue_zeros (digits : List Char) (n : Nat) :
    digitsValue (digits ++ List.replicate n '0') = digitsValue digits * 10 ^ n := by
  induction n with
  | zero => simp
  | succ n ih =>
    have step : digitsValue (digits ++ List.replicate n '0' ++ ['0']) =
        10 * digitsValue (digits ++ List.replicate n '0') := by
      simp [digitsValue, List.foldl_append]
    rw [List.replicate_succ', ← List.append_assoc, step, ih, Nat.pow_succ, Nat.mul_comm 10,
      Nat.mul_assoc]

theorem ungroup_eq_self (cs : List Char) (absent : '_' ∉ cs) (afterDigit : Bool) :
    ungroup afterDigit cs = some cs := by
  induction cs generalizing afterDigit with
  | nil => rfl
  | cons c rest ih =>
    have other : c ≠ '_' := fun same => absent (by simp [same])
    have later : '_' ∉ rest := fun member => absent (by simp [member])
    rw [ungroup.eq_3 afterDigit c rest (fun _ _ same => absurd same other), if_neg other,
      ih later, Option.map_some]

/-- Nothing around the characters of numbers and nothing among them goes before they are read. -/
theorem read_number (row : List Char) (number : ∀ c ∈ row, isNumberChar c) :
    read? (String.ofList row) = bare? row := by
  have each : ∀ c ∈ row, toAscii c = c ∧ isMargin c = false ∧ c ≠ '_' := fun c member =>
    Text.forall_char_below 128
      (fun c => isNumberChar c → toAscii c = c ∧ isMargin c = false ∧ c ≠ '_') (by decide)
      c (isNumberChar_ascii c (number c member)) (number c member)
  have ascii : row.map toAscii = row :=
    (List.map_congr_left fun c member => (each c member).1).trans (List.map_id row)
  have stripped := Text.stripBy_eq_self isMargin row (fun c member => (each c member).2.1)
  have absent : '_' ∉ row := fun member => (each '_' member).2.2 rfl
  rw [read?, String.toList_ofList, ascii, stripped, ungroup_eq_self row absent, Option.bind_some]

theorem read_plain (row : List Char) (plain : ∀ c ∈ row, c.isDigit ∨ c = '.' ∨ c = '-') :
    read? (String.ofList row) = bare? row := by
  refine read_number row fun c member => ?_
  rcases plain c member with digit | rfl | rfl
  · exact isNumberChar_of_isDigit c digit
  · decide
  · decide

theorem splitSign_append (sign row : List Char) (signed : IsSign sign)
    (unsigned : ∀ c, row.head? = some c → c ≠ '-' ∧ c ≠ '+') :
    splitSign (sign ++ row) = (decide (sign = ['-']), row) := by
  rcases signed with rfl | rfl
  · cases row with
    | nil => rfl
    | cons c rest =>
      obtain ⟨minus, plus⟩ := unsigned c rfl
      simp [splitSign, minus, plus]
  · rfl

/-- A text without an `n` is none of the words that stand for numbers. -/
theorem bare_append (sign row : List Char) (signed : IsSign sign)
    (unsigned : ∀ c, row.head? = some c → c ≠ '-' ∧ c ≠ '+')
    (noLetter : ∀ c ∈ row, c.toLower ≠ 'n') :
    bare? (sign ++ row) = decimal? (decide (sign = ['-'])) row := by
  have noWord : ∀ word : String, 'n' ∈ word.toList →
      String.ofList (row.map Char.toLower) ≠ word := by
    rintro word letter rfl
    rw [String.toList_ofList] at letter
    obtain ⟨c, member, lowered⟩ := List.mem_map.mp letter
    exact noLetter c member lowered
  unfold bare?
  rw [splitSign_append sign row signed unsigned]
  dsimp only
  rw [if_neg (noWord "nan" (by decide)),
    if_neg (not_or.mpr ⟨noWord "inf" (by decide), noWord "infinity" (by decide)⟩)]

theorem bare_figures (sign row : List Char) (signed : IsSign sign) (figures : Figures row) :
    bare? (sign ++ row) = decimal? (decide (sign = ['-'])) row := by
  have each : ∀ c ∈ row, c ≠ '-' ∧ c ≠ '+' ∧ c.toLower ≠ 'n' := fun c member =>
    Text.forall_char_below 128
      (fun c => (c.isDigit ∨ c = '.') → c ≠ '-' ∧ c ≠ '+' ∧ c.toLower ≠ 'n') (by decide)
      c (figure_ascii c (figures c member)) (figures c member)
  refine bare_append sign row signed (fun c first => ?_) fun c member => (each c member).2.2
  have member := List.mem_of_mem_head? first
  exact ⟨(each c member).1, (each c member).2.1⟩

end Numeral

theorem normalize_ok_iff (s : String) :
    (∃ text, normalize s = .ok text) ↔ (Numeral.read? s).isSome := by
  unfold normalize
  split
  next numeral read => simp [read]
  next unread => simp [unread]

theorem normalize_error (s : String) (e : NotANumber) (failure : normalize s = .error e) :
    e = ⟨s⟩ := by
  unfold normalize at failure
  split at failure
  · cases failure
  · cases failure
    rfl

/-- A row of figures behind a sign has a compact text exactly if it writes a number. -/
theorem normalize_figures (sign row : List Char) (signed : IsSign sign) (figures : Figures row) :
    (∃ text, normalize (String.ofList (sign ++ row)) = .ok text) ↔ WritesNumber (sign ++ row) := by
  have plain : ∀ c ∈ sign ++ row, c.isDigit ∨ c = '.' ∨ c = '-' := by
    intro c member
    rcases List.mem_append.mp member with front | behind
    · rcases signed with rfl | rfl
      · cases front
      · exact .inr (.inr (List.mem_singleton.mp front))
    · exact (figures c behind).imp_right .inl
  have unsigned : WritesNumber (sign ++ row) ↔ WritesNumber row := by
    rcases signed with rfl | rfl
    · rfl
    · have noDigit : ('-').isDigit = false := rfl
      simp [writesNumber_iff, noDigit]
  rw [normalize_ok_iff, Numeral.read_plain _ plain, Numeral.bare_figures sign row signed figures,
    Numeral.decimal_isSome _ row figures, unsigned]

end Decimal

end ElmStyle
