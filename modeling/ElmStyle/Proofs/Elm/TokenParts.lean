import ElmStyle.Proofs.Decimal.Figures
import Mathlib.Data.List.Infix

/-!
# Parts of a token

The numbers at the end of a text, the number before a percent sign, and the first run of figures
with the letters after it. Each is said by what is longest or first, and each search gives exactly
the part that is said, or nothing if there is none.
-/
namespace ElmStyle.Elm.Argument

open Decimal (IsSign)

/-- A row of digits, which may be empty. -/
def Digits (cs : List Char) : Prop := ∀ c ∈ cs, c.isDigit

/-- The form `-?d*`. -/
def IsSignedRow (text : List Char) : Prop :=
  ∃ sign digits, text = sign ++ digits ∧ IsSign sign ∧ Digits digits

/-- The form `-?d+`. -/
def IsInteger (text : List Char) : Prop :=
  ∃ sign digits, text = sign ++ digits ∧ IsSign sign ∧ Digits digits ∧ digits ≠ []

/-- The form `-?d*.d+`. -/
def IsDecimal (text : List Char) : Prop :=
  ∃ sign whole fraction, text = sign ++ whole ++ '.' :: fraction ∧
    IsSign sign ∧ Digits whole ∧ Digits fraction ∧ fraction ≠ []

/-- The form `-?d*.?d+`. -/
def IsNumeral (text : List Char) : Prop :=
  ∃ sign whole point fraction, text = sign ++ whole ++ point ++ fraction ∧
    IsSign sign ∧ Digits whole ∧ (point = [] ∨ point = ['.']) ∧ Digits fraction ∧ fraction ≠ []

def EndsInDigit (cs : List Char) : Prop := ∃ c, cs.getLast? = some c ∧ c.isDigit

/-! ## Choice of a text -/

/-- The chosen one of the candidates, if there is a candidate. -/
def Chooses (chosen candidate : List Char → Prop) : Option (List Char) → Prop
  | some text => chosen text
  | none => ∀ text, ¬candidate text

section Choice

variable {chosen candidate : List Char → Prop} {found : Option (List Char)}

theorem Chooses.eq_some_iff (chooses : Chooses chosen candidate found)
    (isCandidate : ∀ text, chosen text → candidate text)
    (unique : ∀ one two, chosen one → chosen two → one = two) (text : List Char) :
    found = some text ↔ chosen text := by
  cases found with
  | none =>
    simp only [reduceCtorEq, false_iff]
    exact fun best => chooses text (isCandidate text best)
  | some other =>
    rw [Option.some_inj]
    constructor
    · rintro rfl
      exact chooses
    · exact unique other text chooses

theorem Chooses.eq_none_iff (chooses : Chooses chosen candidate found)
    (isCandidate : ∀ text, chosen text → candidate text) :
    found = none ↔ ∀ text, ¬candidate text := by
  cases found with
  | none => exact iff_of_true rfl chooses
  | some text =>
    simp only [reduceCtorEq, false_iff]
    exact fun never => never text (isCandidate text chooses)

end Choice

def HasSuffix (form : List Char → Prop) (cs text : List Char) : Prop := text <:+ cs ∧ form text

structure LongestSuffix (form : List Char → Prop) (cs text : List Char) : Prop where
  here : HasSuffix form cs text
  longest : ∀ other, HasSuffix form cs other → other.length ≤ text.length

/-- The longest suffix of a form, if a suffix has the form. -/
def Finds (form : List Char → Prop) (cs : List Char) : Option (List Char) → Prop :=
  Chooses (LongestSuffix form cs) (HasSuffix form cs)

section LongestSuffix

variable {form other : List Char → Prop} {cs : List Char} {found : Option (List Char)}

theorem LongestSuffix.unique (one two : List Char) (first : LongestSuffix form cs one)
    (second : LongestSuffix form cs two) : one = two := by
  have shorter := second.longest one first.here
  have longer := first.longest two second.here
  exact (List.suffix_of_suffix_length_le first.here.1 second.here.1 shorter).eq_of_length
    (Nat.le_antisymm shorter longer)

theorem Finds.eq_some_iff (finds : Finds form cs found) (text : List Char) :
    found = some text ↔ LongestSuffix form cs text :=
  Chooses.eq_some_iff finds (fun _ best => best.here) LongestSuffix.unique text

theorem Finds.eq_none_iff (finds : Finds form cs found) :
    found = none ↔ ∀ text, ¬HasSuffix form cs text :=
  Chooses.eq_none_iff finds fun _ best => best.here

theorem Finds.congr (finds : Finds form cs found)
    (same : ∀ text, HasSuffix form cs text ↔ HasSuffix other cs text) : Finds other cs found := by
  cases found with
  | none => exact fun text formed => finds text ((same text).mpr formed)
  | some text =>
    refine ⟨(same text).mp finds.here, ?_⟩
    exact fun more formed => finds.longest more ((same more).mpr formed)

end LongestSuffix

/-! ## Numbers at the end of a text -/

/-- The digits that end a text are all that it ends in. -/
structure FinalDigits (cs before digits : List Char) : Prop where
  split : cs = before ++ digits
  each : Digits digits
  stops : ∀ c, before.getLast? = some c → c.isDigit = false

theorem finalDigits_of_span (cs run back : List Char)
    (spanned : cs.reverse.span Char.isDigit = (run, back)) :
    FinalDigits cs back.reverse run.reverse := by
  obtain ⟨rejoined, each, stops⟩ := (Text.span_eq_iff _ _ _ _).mp spanned
  refine ⟨?_, ?_, ?_⟩
  · rw [← List.reverse_append, ← rejoined, List.reverse_reverse]
  · intro c member
    exact each c (List.mem_reverse.mp member)
  · simpa only [List.getLast?_reverse] using stops

theorem FinalDigits.ends {cs before digits : List Char} (final : FinalDigits cs before digits) :
    digits <:+ cs :=
  ⟨before, final.split.symm⟩

/-- Every row of digits that ends the text is part of them. -/
theorem FinalDigits.suffix {cs before digits row : List Char} (final : FinalDigits cs before digits)
    (each : Digits row) (ends : row <:+ cs) : row <:+ digits := by
  rcases List.suffix_or_suffix_of_suffix ends final.ends with inside | ⟨more, rfl⟩
  · exact inside
  · -- a longer row would hold what stands right before the digits
    rw [final.split, List.suffix_append_self_iff] at ends
    cases last : more.getLast? with
    | none =>
      rw [List.getLast?_eq_none_iff.mp last]
      exact List.suffix_rfl
    | some c =>
      have digit := each c (by simp [List.mem_of_getLast? last])
      obtain ⟨front, rfl⟩ := ends
      have stopped := final.stops c (by simp [last])
      rw [digit] at stopped
      cases stopped

theorem length_le_withSign (back digits : List Char) :
    digits.length ≤ (withSign back digits).length := by
  unfold withSign
  split
  · simp
  · exact Nat.le_refl _

theorem withSign_append (back digits rest : List Char) :
    withSign back (digits ++ rest) = withSign back digits ++ rest := by
  unfold withSign
  split <;> rfl

theorem withSign_eq (back digits : List Char) :
    ∃ sign, withSign back digits = sign ++ digits ∧ IsSign sign ∧ sign <:+ back.reverse := by
  unfold withSign
  split
  next minus =>
    obtain ⟨more, rfl⟩ := List.head?_eq_some_iff.mp minus
    exact ⟨['-'], rfl, .inr rfl, by simp⟩
  next => exact ⟨[], rfl, .inl rfl, List.nil_suffix⟩

/-- A sign is taken along exactly where it makes the row longer: in front of all digits. -/
theorem withSign_longest (cs back digits : List Char)
    (final : FinalDigits cs back.reverse digits) :
    LongestSuffix IsSignedRow cs (withSign back digits) := by
  obtain ⟨sign, signed, isSign, before⟩ := withSign_eq back digits
  refine ⟨⟨?_, sign, digits, signed, isSign, final.each⟩, ?_⟩
  · rw [final.split, signed, List.suffix_append_self_iff]
    exact before
  · rintro other ⟨ends, front, row, rfl, isSign, each⟩
    have inside := final.suffix each ((List.suffix_append front row).trans ends)
    have shorter := inside.length_le
    have least := length_le_withSign back digits
    rcases isSign with rfl | rfl
    · exact Nat.le_trans shorter least
    · rcases Nat.lt_or_eq_of_le shorter with less | same
      · rw [List.length_append, List.length_singleton]
        omega
      · obtain rfl := inside.eq_of_length same
        rw [final.split, List.suffix_append_self_iff] at ends
        obtain ⟨more, reversed⟩ := ends
        have minus : back.head? = some '-' := by
          rw [← List.getLast?_reverse, ← reversed]
          simp
        rw [withSign, if_pos minus]
        exact Nat.le_refl _

theorem integerSuffix_finds (cs : List Char) : Finds IsInteger cs (integerSuffix? cs) := by
  unfold integerSuffix?
  cases spanned : cs.reverse.span Char.isDigit with
  | mk run back =>
    have final := finalDigits_of_span cs run back spanned
    dsimp only
    split
    next none =>
      subst none
      rintro text ⟨ends, sign, digits, rfl, -, each, filled⟩
      have inside := final.suffix each ((List.suffix_append sign digits).trans ends)
      exact filled (List.suffix_nil.mp inside)
    next filled =>
      have longest := withSign_longest cs back run.reverse final
      refine ⟨⟨longest.here.1, ?_⟩, ?_⟩
      · obtain ⟨sign, signed, isSign, -⟩ := withSign_eq back run.reverse
        exact ⟨sign, run.reverse, signed, isSign, final.each, by simpa using filled⟩
      · rintro other ⟨ends, sign, digits, rfl, isSign, each, -⟩
        exact longest.longest _ ⟨ends, sign, digits, rfl, isSign, each⟩

/-- The fraction of a decimal at the end of a text is all digits that end the text. -/
theorem FinalDigits.decimal {cs before digits text : List Char}
    (final : FinalDigits cs before digits) (decimal : HasSuffix IsDecimal cs text) :
    digits ≠ [] ∧ ∃ front signed, before = front ++ ['.'] ∧ text = signed ++ '.' :: digits ∧
      signed <:+ front ∧ IsSignedRow signed := by
  obtain ⟨ends, sign, whole, fraction, rfl, isSign, wholeDigits, each, filled⟩ := decimal
  have pointed : '.' :: fraction <:+ cs := (List.suffix_append _ _).trans ends
  have inside := final.suffix each ((List.suffix_cons '.' fraction).trans pointed)
  have same : fraction = digits := by
    apply inside.eq_of_length
    by_contra other
    have shorter := inside.length_le
    have held : '.' :: fraction <:+ digits :=
      List.suffix_of_suffix_length_le pointed final.ends (by rw [List.length_cons]; omega)
    exact Decimal.not_mem_of_digits digits final.each (held.subset (by simp))
  subst same
  obtain ⟨front, rejoined⟩ := ends
  refine ⟨filled, front ++ (sign ++ whole), sign ++ whole, ?_, rfl, List.suffix_append _ _,
    sign, whole, rfl, isSign, wholeDigits⟩
  rw [final.split] at rejoined
  apply (List.append_left_inj fraction).mp
  rw [← rejoined]
  simp

theorem decimalSuffix_finds (cs : List Char) : Finds IsDecimal cs (decimalSuffix? cs) := by
  unfold decimalSuffix?
  cases spanned : cs.reverse.span Char.isDigit with
  | mk run back =>
    have final := finalDigits_of_span cs run back spanned
    dsimp only
    split
    next front =>
      cases wholeSpanned : front.span Char.isDigit with
      | mk whole rest =>
        have wholeFinal := finalDigits_of_span front.reverse whole rest
          (by rwa [List.reverse_reverse])
        dsimp only
        split
        next none =>
          subst none
          intro text decimal
          exact (final.decimal decimal).1 rfl
        next filled =>
          have longest := withSign_longest front.reverse rest whole.reverse wholeFinal
          have split : cs = front.reverse ++ '.' :: run.reverse := by simpa using final.split
          rw [withSign_append]
          refine ⟨⟨?_, ?_⟩, ?_⟩
          · rw [split, List.suffix_append_self_iff]
            exact longest.here.1
          · obtain ⟨sign, signed, isSign, -⟩ := withSign_eq rest whole.reverse
            exact ⟨sign, whole.reverse, run.reverse, by rw [signed], isSign, wholeFinal.each,
              final.each, by simpa using filled⟩
          · intro other decimal
            obtain ⟨-, before, signed, reversed, rfl, inside, row⟩ := final.decimal decimal
            have same : before = front.reverse := by simpa using reversed.symm
            subst same
            have shorter := longest.longest signed ⟨inside, row⟩
            simp only [List.length_append]
            omega
    next pointless =>
      intro text decimal
      obtain ⟨-, front, signed, reversed, -⟩ := final.decimal decimal
      exact pointless front.reverse (by simpa using congrArg List.reverse reversed)

theorem isNumeral_iff (text : List Char) : IsNumeral text ↔ IsDecimal text ∨ IsInteger text := by
  constructor
  · rintro ⟨sign, whole, point, fraction, rfl, isSign, wholeDigits, rfl | rfl, each, filled⟩
    · refine .inr ⟨sign, whole ++ fraction, by simp, isSign, ?_, by simp [filled]⟩
      intro c member
      exact (List.mem_append.mp member).elim (wholeDigits c) (each c)
    · exact .inl ⟨sign, whole, fraction, by simp, isSign, wholeDigits, each, filled⟩
  · rintro (⟨sign, whole, fraction, rfl, isSign, wholeDigits, each, filled⟩ |
      ⟨sign, digits, rfl, isSign, each, filled⟩)
    · exact ⟨sign, whole, ['.'], fraction, by simp, isSign, wholeDigits, .inr rfl, each, filled⟩
    · exact ⟨sign, [], [], digits, by simp, isSign, by simp [Digits], .inl rfl, each, filled⟩

theorem IsInteger.pointless {text : List Char} (integer : IsInteger text) : '.' ∉ text := by
  obtain ⟨sign, digits, rfl, isSign, each, -⟩ := integer
  rw [List.mem_append, not_or]
  refine ⟨?_, Decimal.not_mem_of_digits digits each⟩
  rcases isSign with rfl | rfl <;> decide

/-- An integer holds no point, so it cannot reach beyond a decimal. -/
theorem numeral_finds (cs : List Char) :
    Finds IsNumeral cs (decimalSuffix? cs <|> integerSuffix? cs) := by
  have decimals := decimalSuffix_finds cs
  cases point : decimalSuffix? cs with
  | none =>
    have noDecimal := decimals.eq_none_iff.mp point
    refine (integerSuffix_finds cs).congr fun text => ?_
    unfold HasSuffix
    rw [isNumeral_iff, and_or_left]
    exact (or_iff_right (noDecimal text)).symm
  | some text =>
    have longest := (decimals.eq_some_iff text).mp point
    obtain ⟨ends, decimal⟩ := longest.here
    refine ⟨⟨ends, (isNumeral_iff text).mpr (.inl decimal)⟩, ?_⟩
    rintro other ⟨otherEnds, numeral⟩
    rcases (isNumeral_iff other).mp numeral with otherDecimal | integer
    · exact longest.longest other ⟨otherEnds, otherDecimal⟩
    · by_contra longer
      have inside := List.suffix_of_suffix_length_le ends otherEnds (by omega)
      obtain ⟨sign, whole, fraction, rfl, -⟩ := decimal
      exact integer.pointless (inside.subset (by simp))

theorem EndsInDigit.of_suffix {cs text : List Char} (ends : text <:+ cs)
    (final : EndsInDigit text) : EndsInDigit cs := by
  obtain ⟨c, last, digit⟩ := final
  obtain ⟨front, rfl⟩ := ends
  exact ⟨c, by simp [last], digit⟩

theorem endsInDigit_of_row (front digits : List Char) (each : Digits digits)
    (filled : digits ≠ []) : EndsInDigit (front ++ digits) := by
  refine EndsInDigit.of_suffix (List.suffix_append front digits) ?_
  exact ⟨digits.getLast filled, List.getLast?_eq_some_getLast filled,
    each _ (List.getLast_mem filled)⟩

/-- A text ends in a digit exactly if it ends in an integer, as it does if it ends in a decimal. -/
theorem endsInDigit_iff (cs : List Char) :
    EndsInDigit cs ↔ ∃ text, HasSuffix IsInteger cs text := by
  constructor
  · rintro ⟨c, last, digit⟩
    obtain ⟨front, rfl⟩ := List.getLast?_eq_some_iff.mp last
    exact ⟨[c], List.suffix_append _ _, [], [c], rfl, .inl rfl, by simp [Digits, digit], by simp⟩
  · rintro ⟨text, ends, sign, digits, rfl, -, each, filled⟩
    exact EndsInDigit.of_suffix ends (endsInDigit_of_row sign digits each filled)

theorem endsInDigit_of_decimal {cs text : List Char} (decimal : HasSuffix IsDecimal cs text) :
    EndsInDigit cs := by
  obtain ⟨ends, sign, whole, fraction, rfl, -, -, each, filled⟩ := decimal
  refine EndsInDigit.of_suffix ends ?_
  simpa using endsInDigit_of_row (sign ++ whole ++ ['.']) fraction each filled

/-! ## The number before a percent sign -/

/-- A percent sign follows the text, and the text ends in a digit. -/
def PercentAt (cs before : List Char) : Prop := EndsInDigit before ∧ before ++ ['%'] <+: cs

structure FirstPercent (cs before : List Char) : Prop where
  here : PercentAt cs before
  first : ∀ other, PercentAt cs other → before.length ≤ other.length

theorem FirstPercent.unique {cs : List Char} (one two : List Char) (best : FirstPercent cs one)
    (other : FirstPercent cs two) : one = two := by
  have earlier := best.first two other.here
  have later := other.first one best.here
  have same : one ++ ['%'] = two ++ ['%'] :=
    (List.prefix_of_prefix_length_le best.here.2 other.here.2 (by simpa)).eq_of_length
      (by simp; omega)
  exact (List.append_left_inj _).mp same

theorem percentAt_cons (c : Char) (cs before : List Char) :
    PercentAt (c :: cs) before ↔
      (before = [c] ∧ c.isDigit ∧ cs.head? = some '%') ∨
        ∃ later, before = c :: later ∧ PercentAt cs later := by
  constructor
  · rintro ⟨⟨last, final, digit⟩, follows⟩
    cases before with
    | nil => cases final
    | cons first later =>
      obtain ⟨rfl, next⟩ := List.cons_prefix_cons.mp follows
      cases later with
      | nil =>
        cases final
        obtain ⟨after, rfl⟩ := next
        exact .inl ⟨rfl, digit, rfl⟩
      | cons second more =>
        rw [List.getLast?_cons_cons] at final
        exact .inr ⟨_, rfl, ⟨last, final, digit⟩, next⟩
  · rintro (⟨rfl, digit, next⟩ | ⟨later, rfl, ⟨last, final, digit⟩, follows⟩)
    · obtain ⟨after, rfl⟩ := List.head?_eq_some_iff.mp next
      exact ⟨⟨c, rfl, digit⟩, after, rfl⟩
    · refine ⟨⟨last, ?_, digit⟩, List.cons_prefix_cons.mpr ⟨rfl, follows⟩⟩
      simp [List.getLast?_cons, final]

theorem beforePercent_cons (c : Char) (cs : List Char) :
    beforePercent? (c :: cs) =
      if c.isDigit ∧ cs.head? = some '%' then some [c]
      else (beforePercent? cs).map (c :: ·) := by
  cases cs with
  | nil => simp [beforePercent?]
  | cons next rest => simp [beforePercent?]

theorem beforePercent_chooses (cs : List Char) :
    Chooses (FirstPercent cs) (PercentAt cs) (beforePercent? cs) := by
  induction cs with
  | nil =>
    rintro before ⟨-, follows⟩
    simp at follows
  | cons c cs ih =>
    rw [beforePercent_cons]
    split
    next starts =>
      refine ⟨(percentAt_cons c cs _).mpr (.inl ⟨rfl, starts⟩), ?_⟩
      intro other found
      rcases (percentAt_cons c cs other).mp found with ⟨rfl, -⟩ | ⟨later, rfl, -⟩ <;> simp
    next elsewhere =>
      -- a sign right after the first character is excluded, so all are those of the rest
      have inside : ∀ before, PercentAt (c :: cs) before →
          ∃ later, before = c :: later ∧ PercentAt cs later := fun before found =>
        ((percentAt_cons c cs before).mp found).resolve_left fun here => elsewhere here.2
      cases found : beforePercent? cs with
      | none =>
        rw [found] at ih
        intro before here
        obtain ⟨later, -, there⟩ := inside before here
        exact ih later there
      | some before =>
        rw [found] at ih
        refine ⟨(percentAt_cons c cs _).mpr (.inr ⟨before, rfl, ih.here⟩), ?_⟩
        intro other here
        obtain ⟨later, rfl, there⟩ := inside other here
        simpa using ih.first later there

theorem beforePercent_eq_some_iff (cs before : List Char) :
    beforePercent? cs = some before ↔ FirstPercent cs before :=
  (beforePercent_chooses cs).eq_some_iff (fun _ best => best.here) FirstPercent.unique before

theorem beforePercent_eq_none_iff (cs : List Char) :
    beforePercent? cs = none ↔ ∀ before, ¬PercentAt cs before :=
  (beforePercent_chooses cs).eq_none_iff fun _ best => best.here

theorem percentage_eq_some_iff (cs text : List Char) :
    percentage? cs = some text ↔
      ∃ before, FirstPercent cs before ∧ LongestSuffix IsNumeral before text := by
  unfold percentage?
  simp only [Option.bind_eq_some_iff, beforePercent_eq_some_iff,
    (numeral_finds _).eq_some_iff]

/-- Before a percent sign that follows a digit there is a number. -/
theorem percentage_eq_none_iff (cs : List Char) :
    percentage? cs = none ↔ ∀ before, ¬PercentAt cs before := by
  rw [← beforePercent_eq_none_iff]
  unfold percentage?
  cases found : beforePercent? cs with
  | none => simp
  | some before =>
    simp only [Option.bind_some, reduceCtorEq, iff_false]
    intro none
    have final := ((beforePercent_eq_some_iff cs before).mp found).here.1
    obtain ⟨text, ends, integer⟩ := (endsInDigit_iff before).mp final
    exact (numeral_finds before).eq_none_iff.mp none text
      ⟨ends, (isNumeral_iff text).mpr (.inr integer)⟩

/-! ## The first run of figures -/

/-- The first maximal run of figures, with a minus sign if one stands right before it, and the
maximal run of lower-case letters right after it. -/
inductive FirstRun : List Char → List Char → List Char → Prop
  | intro (before figures unit after : List Char)
    (earlier : ∀ c ∈ before, isFigure c = false)
    (filled : figures ≠ [])
    (each : ∀ c ∈ figures, isFigure c)
    (stops : ∀ c, (unit ++ after).head? = some c → isFigure c = false)
    (letters : ∀ c ∈ unit, c.isLower)
    (ends : ∀ c, after.head? = some c → c.isLower = false) :
    FirstRun (before ++ (figures ++ (unit ++ after)))
      (if before.getLast? = some '-' then '-' :: figures else figures) unit

theorem firstRun_of_spans (before figures unit after : List Char) {cs rest behind : List Char}
    (skipped : cs.span (!isFigure ·) = (before, rest))
    (spanned : rest.span isFigure = (figures, behind))
    (lowered : behind.span Char.isLower = (unit, after)) :
    firstRun cs = (if before.getLast? = some '-' then '-' :: figures else figures, unit) := by
  rw [List.span_eq_takeWhile_dropWhile, Prod.mk.injEq] at lowered
  simp only [firstRun, skipped, spanned, lowered.1, withSign, List.head?_reverse]

theorem firstRun_eq (cs run unit : List Char) (first : FirstRun cs run unit) :
    firstRun cs = (run, unit) := by
  obtain ⟨before, figures, unit, after, earlier, filled, each, stops, letters, ends⟩ := first
  refine firstRun_of_spans before figures unit after ?_
    ((Text.span_eq_iff _ _ _ _).mpr ⟨rfl, each, stops⟩)
    ((Text.span_eq_iff _ _ _ _).mpr ⟨rfl, letters, ends⟩)
  refine (Text.span_eq_iff _ _ _ _).mpr ⟨rfl, by simpa using earlier, ?_⟩
  intro c head
  obtain ⟨first, more, rfl⟩ := List.exists_cons_of_ne_nil filled
  cases head
  simp [each]

theorem firstRun_first (cs : List Char) (figure : ∃ c ∈ cs, isFigure c) :
    FirstRun cs (firstRun cs).1 (firstRun cs).2 := by
  cases skipped : cs.span (!isFigure ·) with
  | mk before rest =>
    cases spanned : rest.span isFigure with
    | mk figures behind =>
      cases lowered : behind.span Char.isLower with
      | mk unit after =>
        rw [firstRun_of_spans before figures unit after skipped spanned lowered]
        obtain ⟨rfl, earlier, starts⟩ := (Text.span_eq_iff _ _ _ _).mp skipped
        obtain ⟨rfl, each, stops⟩ := (Text.span_eq_iff _ _ _ _).mp spanned
        obtain ⟨rfl, letters, ends⟩ := (Text.span_eq_iff _ _ _ _).mp lowered
        simp only [Bool.not_eq_true', Bool.not_eq_false'] at earlier starts
        refine .intro before figures unit after earlier ?_ each stops letters ends
        -- the text after the run starts with no figure, so without a run there is none at all
        rintro rfl
        cases next : unit ++ after with
        | nil =>
          obtain ⟨c, member, isFigure⟩ := figure
          have absent := earlier c (by simpa [next] using member)
          rw [isFigure] at absent
          cases absent
        | cons c later =>
          have present := starts c (by simp [next])
          rw [stops c (by simp [next])] at present
          cases present

theorem FirstRun.figure {cs run unit : List Char} (first : FirstRun cs run unit) :
    ∃ c ∈ cs, isFigure c := by
  obtain ⟨before, figures, unit, after, -, filled, each, -⟩ := first
  obtain ⟨c, member⟩ := List.exists_mem_of_ne_nil figures filled
  exact ⟨c, by simp [member], each c member⟩

/-- A number is written by a run with a digit and at most one point. -/
theorem FirstRun.normalize {cs run unit : List Char} (first : FirstRun cs run unit) :
    (∃ text, Decimal.normalize (String.ofList run) = .ok text) ↔ Decimal.WritesNumber run := by
  obtain ⟨before, figures, unit, after, -, -, each, -⟩ := first
  have row : Decimal.Figures figures := by
    intro c member
    simpa [isFigure] using each c member
  split
  · exact Decimal.normalize_figures ['-'] figures (.inr rfl) row
  · exact Decimal.normalize_figures [] figures (.inl rfl) row

end ElmStyle.Elm.Argument
