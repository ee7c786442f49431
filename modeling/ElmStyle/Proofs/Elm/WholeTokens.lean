import ElmStyle.Elm.Style
import ElmStyle.Proofs.Elm.Reading

/-!
# Whole tokens

How much of a token an argument with a number takes. A number is looked for at the end of the token,
then before a percent sign, then at the first figure, and what stands around it is left out. Nothing
is left out exactly if the token as a whole spells such a number.
-/
namespace ElmStyle.Elm.Argument

open Decimal (IsSign)

/-- The part of a token that an argument with a number takes. -/
def Takes (token : List Char) : Argument → Prop
  | .number text => LongestSuffix IsDecimal (dropFinalNewline token) text.toList
  | .integer text => LongestSuffix IsInteger (dropFinalNewline token) text.toList
  | .percentage text =>
    ∃ before, FirstPercent token before ∧ LongestSuffix IsNumeral before text.toList
  | .length unit text =>
    ∃ run, FirstRun token run unit.toList ∧ unit.toList ≠ [] ∧
      Decimal.normalize (String.ofList run) = .ok text
  | _ => True

/-- The argument has a number, and this is all of the token but the percent sign of a percentage and
the unit of a length. -/
def Whole (token : List Char) : Argument → Prop
  | .number text => token = text.toList
  | .integer text => token = text.toList
  | .percentage text => token = text.toList ++ ['%']
  | .length unit _ => ∃ run, FirstRun token run unit.toList ∧ token = run ++ unit.toList
  | _ => False

/-- A row of figures, with a sign or without. -/
def IsRun (run : List Char) : Prop :=
  ∃ sign figures, run = sign ++ figures ∧ IsSign sign ∧ figures ≠ [] ∧ ∀ c ∈ figures, isFigure c

/-- The token as a whole is written as the number of an argument. -/
inductive Spells (property token : String) : Argument → Prop
  | number (decimal : IsDecimal token.toList) : Spells property token (.number token)
  | integer (integer : IsInteger token.toList)
    (notZero : ¬(token = "0" ∧ property ∉ unitlessZero)) :
    Spells property token (.integer token)
  | percentage (text : String) (numeral : IsNumeral text.toList) (spelled : token = text ++ "%") :
    Spells property token (.percentage text)
  | length (run unit text : String) (isRun : IsRun run.toList) (filled : unit ≠ "")
    (letters : ∀ c ∈ unit.toList, c.isLower) (spelled : token = run ++ unit)
    (normalized : Decimal.normalize run = .ok text) : Spells property token (.length unit text)

/-! ## What is taken -/

theorem length_takes (token : String) (a : Argument) (figure : ∃ c ∈ token.toList, isFigure c)
    (success : length? token = .ok a) : Takes token.toList a := by
  have first := firstRun_first token.toList figure
  unfold length? at success
  dsimp only at success
  split at success
  · cases success
  next filled =>
    split at success
    next text normalized =>
      cases success
      refine ⟨_, ?_, ?_, normalized⟩
      · rw [String.toList_ofList]
        exact first
      · rwa [String.toList_ofList]
    · cases success

theorem keyword_takes (token : String) (a : Argument) (success : keyword? token = .ok a) :
    Takes token.toList a := by
  unfold keyword? at success
  dsimp only at success
  split at success
  · cases success
    trivial
  · cases success

theorem takes_of_shape (property token : String) (a : Argument)
    (success : shape property token = .ok a) : Takes token.toList a := by
  unfold shape at success
  dsimp only at success
  split at success
  · cases success
  split at success
  · cases success
    trivial
  split at success
  · cases success
    trivial
  split at success
  next text found =>
    cases success
    have longest := ((decimalSuffix_finds _).eq_some_iff text).mp found
    simpa only [Takes, String.toList_ofList] using longest
  split at success
  next text found =>
    cases success
    have longest := ((integerSuffix_finds _).eq_some_iff text).mp found
    simpa only [Takes, String.toList_ofList] using longest
  split at success
  · exact keyword_takes token a success
  next figures =>
    split at success
    next text found =>
      cases success
      simpa only [Takes, String.toList_ofList] using (percentage_eq_some_iff _ text).mp found
    next =>
      refine length_takes token a ?_ success
      simpa using figures

/-! ## When nothing is left out -/

theorem longestSuffix_self {form : List Char → Prop} {cs : List Char} (formed : form cs) :
    LongestSuffix form cs cs :=
  ⟨⟨List.suffix_rfl, formed⟩, fun _ other => other.1.length_le⟩

/-- A character of a signed row of figures. -/
def InRow (c : Char) : Prop := c.isDigit ∨ c = '.' ∨ c = '-'

instance : DecidablePred InRow := fun c =>
  inferInstanceAs (Decidable (c.isDigit ∨ c = '.' ∨ c = '-'))

theorem isSign_chars {sign : List Char} (isSign : IsSign sign) : ∀ c ∈ sign, InRow c := by
  intro c member
  rcases isSign with rfl | rfl
  · cases member
  · exact .inr (.inr (List.mem_singleton.mp member))

theorem IsNumeral.chars {text : List Char} (numeral : IsNumeral text) : ∀ c ∈ text, InRow c := by
  obtain ⟨sign, whole, point, fraction, rfl, isSign, wholeDigits, isPoint, each, -⟩ := numeral
  intro c member
  simp only [List.mem_append] at member
  rcases member with ((signed | digit) | pointed) | digit
  · exact isSign_chars isSign c signed
  · exact .inl (wholeDigits c digit)
  · rcases isPoint with rfl | rfl
    · cases pointed
    · exact .inr (.inl (List.mem_singleton.mp pointed))
  · exact .inl (each c digit)

theorem IsRun.chars {run : List Char} (isRun : IsRun run) : ∀ c ∈ run, InRow c := by
  obtain ⟨sign, figures, rfl, isSign, -, each⟩ := isRun
  intro c member
  rcases List.mem_append.mp member with signed | figure
  · exact isSign_chars isSign c signed
  · have isFigure := each c figure
    simp only [Argument.isFigure, Bool.or_eq_true, beq_iff_eq] at isFigure
    exact isFigure.imp_right .inl

/-- A token that spells a number holds neither a hash sign nor a line break. -/
theorem Spells.plain {property token : String} {a : Argument} (spells : Spells property token a) :
    '#' ∉ token.toList ∧ '\n' ∉ token.toList := by
  have chars : ∀ c ∈ token.toList, InRow c ∨ c = '%' ∨ c.isLower := by
    intro c member
    cases spells with
    | number decimal => exact .inl (((isNumeral_iff _).mpr (.inl decimal)).chars c member)
    | integer integer notZero => exact .inl (((isNumeral_iff _).mpr (.inr integer)).chars c member)
    | percentage text numeral spelled =>
      rw [spelled, String.toList_append, List.mem_append] at member
      rcases member with inside | percent
      · exact .inl (numeral.chars c inside)
      · exact .inr (.inl (List.mem_singleton.mp percent))
    | length run unit text isRun filled letters spelled normalized =>
      rw [spelled, String.toList_append, List.mem_append] at member
      rcases member with inside | letter
      · exact .inl (isRun.chars c inside)
      · exact .inr (.inr (letters c letter))
  constructor
  · intro hash
    exact absurd (chars '#' hash) (by decide)
  · intro line
    exact absurd (chars '\n' line) (by decide)

theorem IsNumeral.endsInDigit {text : List Char} (numeral : IsNumeral text) : EndsInDigit text := by
  obtain ⟨sign, whole, point, fraction, rfl, -, -, -, each, filled⟩ := numeral
  exact endsInDigit_of_row _ fraction each filled

/-- A percentage has no percent sign before its last. -/
theorem firstPercent_of_numeral {text : List Char} (numeral : IsNumeral text) :
    FirstPercent (text ++ ['%']) text := by
  refine ⟨⟨numeral.endsInDigit, List.prefix_rfl⟩, ?_⟩
  rintro other ⟨-, follows⟩
  by_contra earlier
  have inside : other ++ ['%'] <+: text := by
    apply List.prefix_of_prefix_length_le follows (List.prefix_append text ['%'])
    rw [List.length_append, List.length_singleton]
    omega
  have percent : '%' ∈ text := inside.subset (by simp)
  exact absurd (numeral.chars '%' percent) (by decide)

theorem FirstRun.unique {token run unit otherRun otherUnit : List Char}
    (first : FirstRun token run unit) (other : FirstRun token otherRun otherUnit) :
    run = otherRun ∧ unit = otherUnit := by
  have same := firstRun_eq _ _ _ first
  rw [firstRun_eq _ _ _ other, Prod.mk.injEq] at same
  exact ⟨same.1.symm, same.2.symm⟩

theorem FirstRun.isRun {token run unit : List Char} (first : FirstRun token run unit) :
    IsRun run ∧ ∀ c ∈ unit, c.isLower := by
  obtain ⟨before, figures, unit, after, -, filled, each, -, letters, -⟩ := first
  refine ⟨?_, letters⟩
  split
  · exact ⟨['-'], figures, rfl, .inr rfl, filled, each⟩
  · exact ⟨[], figures, rfl, .inl rfl, filled, each⟩

theorem lower_not_figure (c : Char) (lower : c.isLower) : isFigure c = false :=
  Text.forall_char_below 128 (fun c => c.isLower → isFigure c = false) (by decide) c
    (isLower_ascii c lower) lower

/-- A letter is no figure, so the unit ends the run. -/
theorem firstRun_of_isRun {run unit : List Char} (isRun : IsRun run)
    (letters : ∀ c ∈ unit, c.isLower) : FirstRun (run ++ unit) run unit := by
  obtain ⟨sign, figures, rfl, isSign, filled, each⟩ := isRun
  have stops : ∀ c, (unit ++ []).head? = some c → isFigure c = false := by
    intro c head
    rw [List.append_nil] at head
    exact lower_not_figure c (letters c (List.mem_of_mem_head? head))
  have earlier : ∀ c ∈ sign, isFigure c = false := by
    rcases isSign with rfl | rfl
    · simp
    · simp [isFigure]
  have first := FirstRun.intro sign figures unit [] earlier filled each stops letters (by simp)
  rcases isSign with rfl | rfl
  · simpa using first
  · simpa using first

/-- A decimal holds a point, so it is no bare zero. -/
theorem decimal_reading (property token : String) (noHash : '#' ∉ token.toList)
    (decimal : IsDecimal token.toList) : Reading property token (.ok (.number token)) := by
  have notZero : ¬(token = "0" ∧ property ∉ unitlessZero) := by
    rintro ⟨rfl, -⟩
    obtain ⟨sign, whole, fraction, text, -⟩ := decimal
    have point : '.' ∈ "0".toList := by
      rw [text]
      simp
    exact absurd point (by decide)
  have reading : Reading property token _ := .number ⟨noHash, notZero⟩
    (endsInDigit_of_decimal ⟨List.suffix_rfl, decimal⟩) (longestSuffix_self decimal)
  rwa [String.ofList_toList] at reading

theorem integer_reading (property token : String) (plain : Plain property token)
    (integer : IsInteger token.toList) : Reading property token (.ok (.integer token)) := by
  have noDecimal : ∀ other, ¬HasSuffix IsDecimal token.toList other := by
    rintro other ⟨ends, sign, whole, fraction, rfl, -⟩
    exact integer.pointless (ends.subset (by simp))
  have final : EndsInDigit token.toList := (endsInDigit_iff _).mpr ⟨_, List.suffix_rfl, integer⟩
  have reading : Reading property token _ :=
    .integer plain final noDecimal (longestSuffix_self integer)
  rwa [String.ofList_toList] at reading

theorem percentage_reading (property text : String) (noHash : '#' ∉ (text ++ "%").toList)
    (numeral : IsNumeral text.toList) :
    Reading property (text ++ "%") (.ok (.percentage text)) := by
  have chars : (text ++ "%").toList = text.toList ++ ['%'] := by simp
  have notZero : ¬(text ++ "%" = "0" ∧ property ∉ unitlessZero) := by
    rintro ⟨zero, -⟩
    have percent : '%' ∈ "0".toList := by
      rw [← zero, chars]
      simp
    exact absurd percent (by decide)
  have final : ¬EndsInDigit (text ++ "%").toList := by
    rintro ⟨c, last, digit⟩
    rw [chars, List.getLast?_concat] at last
    cases last
    exact absurd digit (by decide)
  have first : FirstPercent (text ++ "%").toList text.toList := by
    rw [chars]
    exact firstPercent_of_numeral numeral
  have reading : Reading property (text ++ "%") _ :=
    .percentage ⟨noHash, notZero⟩ final first (longestSuffix_self numeral)
  rwa [String.ofList_toList] at reading

theorem length_reading (property run unit text : String) (noHash : '#' ∉ (run ++ unit).toList)
    (isRun : IsRun run.toList) (filled : unit ≠ "") (letters : ∀ c ∈ unit.toList, c.isLower)
    (normalized : Decimal.normalize run = .ok text) :
    Reading property (run ++ unit) (.ok (.length unit text)) := by
  have chars : (run ++ unit).toList = run.toList ++ unit.toList := String.toList_append
  have unitFilled : unit.toList ≠ [] := by simpa using filled
  have last : (run ++ unit).toList.getLast? = some (unit.toList.getLast unitFilled) := by
    rw [chars, List.getLast?_append_of_ne_nil _ unitFilled,
      List.getLast?_eq_some_getLast unitFilled]
  have letter := lower_not_figure _ (letters _ (List.getLast_mem unitFilled))
  have final : ¬EndsInDigit (run ++ unit).toList := by
    rintro ⟨c, lastDigit, digit⟩
    rw [last, Option.some.injEq] at lastDigit
    rw [lastDigit] at letter
    simp [isFigure, digit] at letter
  have notZero : ¬(run ++ unit = "0" ∧ property ∉ unitlessZero) := by
    rintro ⟨zero, -⟩
    rw [zero] at final
    exact final ⟨'0', by decide, by decide⟩
  have noPercent : ∀ before, ¬PercentAt (run ++ unit).toList before := by
    rintro before ⟨-, follows⟩
    have percent : '%' ∈ run.toList ++ unit.toList := by
      rw [← chars]
      exact follows.subset (by simp)
    rcases List.mem_append.mp percent with inside | behind
    · exact absurd (isRun.chars '%' inside) (by decide)
    · exact absurd (letters '%' behind) (by decide)
  have first : FirstRun (run ++ unit).toList run.toList unit.toList := by
    rw [chars]
    exact firstRun_of_isRun isRun letters
  have reading : Reading property (run ++ unit) _ :=
    .length ⟨⟨noHash, notZero⟩, final, noPercent, first⟩ unitFilled
      (by rwa [String.ofList_toList])
  rwa [String.ofList_toList] at reading

/-- A token that spells a number gives it, and nothing of the token is left out. -/
theorem ofToken_of_spells {property token : String} {a : Argument}
    (spells : Spells property token a) :
    ofToken property token = .ok a ∧ Whole token.toList a := by
  obtain ⟨noHash, line⟩ := spells.plain
  have reading : Reading property token (.ok a) ∧ Whole token.toList a := by
    cases spells with
    | number decimal => exact ⟨decimal_reading property token noHash decimal, rfl⟩
    | integer integer notZero =>
      exact ⟨integer_reading property token ⟨noHash, notZero⟩ integer, rfl⟩
    | percentage text numeral spelled =>
      subst spelled
      exact ⟨percentage_reading property text noHash numeral, String.toList_append⟩
    | length run unit text isRun filled letters spelled normalized =>
      subst spelled
      refine ⟨length_reading property run unit text noHash isRun filled letters normalized,
        run.toList, ?_, String.toList_append⟩
      rw [String.toList_append]
      exact firstRun_of_isRun isRun letters
  exact ⟨ofToken_of_reading property token _ line reading.1, reading.2⟩

/-- Where nothing is left out, the token spells the number. -/
theorem spells_of_whole {property token : String} {a : Argument}
    (success : ofToken property token = .ok a) (whole : Whole token.toList a) :
    Spells property token a := by
  have shaped := ofToken_success property token a success
  have takes := takes_of_shape property token a shaped
  cases a with
  | number text =>
    obtain rfl := String.toList_injective whole
    exact .number takes.here.2
  | integer text =>
    obtain rfl := String.toList_injective whole
    refine .integer takes.here.2 ?_
    rintro ⟨rfl, length⟩
    simp [shape, length] at shaped
  | percentage text =>
    obtain ⟨before, -, longest⟩ := takes
    refine .percentage text longest.here.2 (String.toList_injective ?_)
    rw [String.toList_append]
    exact whole
  | length unit text =>
    obtain ⟨run, first, filled, normalized⟩ := takes
    obtain ⟨other, otherFirst, same⟩ := whole
    obtain ⟨rfl, -⟩ := first.unique otherFirst
    obtain ⟨isRun, letters⟩ := first.isRun
    refine .length (String.ofList run) unit text (by rwa [String.toList_ofList])
      (by simpa using filled) letters (String.toList_injective ?_) normalized
    rw [String.toList_append, String.toList_ofList]
    exact same
  | hex text => exact whole.elim
  | zeroLength => exact whole.elim
  | keyword name => exact whole.elim

/-! ## Tokens that are rejected -/

/-- A token with figures of which no number can be taken. -/
structure Rejected (token : List Char) : Prop where
  noHash : '#' ∉ token
  final : ¬EndsInDigit (dropFinalNewline token)
  noPercent : ∀ before, ¬PercentAt token before
  unusable : ∀ run unit, FirstRun token run unit → unit = [] ∨ ¬Decimal.WritesNumber run

theorem length_error_iff (token : String) (figure : ∃ c ∈ token.toList, isFigure c) :
    (∃ reason, length? token = .error reason) ↔
      ∀ run unit, FirstRun token.toList run unit → unit = [] ∨ ¬Decimal.WritesNumber run := by
  have first := firstRun_first token.toList figure
  constructor
  · rintro ⟨reason, failure⟩ run unit other
    obtain ⟨rfl, rfl⟩ := first.unique other
    unfold length? at failure
    dsimp only at failure
    split at failure
    next none => exact .inl none
    next filled =>
      split at failure
      · cases failure
      next e failed =>
        refine .inr fun number => ?_
        obtain ⟨text, normalized⟩ := first.normalize.mpr number
        rw [failed] at normalized
        cases normalized
  · intro unusable
    unfold length?
    dsimp only
    split
    · exact ⟨_, rfl⟩
    next filled =>
      split
      next text normalized =>
        have noNumber := (unusable _ _ first).resolve_left filled
        exact absurd (first.normalize.mp ⟨text, normalized⟩) noNumber
      · exact ⟨_, rfl⟩

theorem not_bare {token : List Char} (figure : ∃ c ∈ token, isFigure c) :
    ¬token.all (!isFigure ·) = true := by
  obtain ⟨c, member, isFigure⟩ := figure
  intro bare
  have absent := List.all_eq_true.mp bare c member
  rw [isFigure] at absent
  cases absent

/-- A token with a hash sign, a digit at its end or a percent sign after a digit is accepted. -/
theorem shape_accepts (property token : String) (figure : ∃ c ∈ token.toList, isFigure c)
    (found : '#' ∈ token.toList ∨ EndsInDigit (dropFinalNewline token.toList) ∨
      ∃ before, PercentAt token.toList before) : ∃ a, shape property token = .ok a := by
  have figures := not_bare figure
  obtain ⟨c, member, -⟩ := figure
  unfold shape
  simp only [if_neg figures]
  split
  next none => exact absurd none (List.ne_nil_of_mem member)
  split
  · exact ⟨_, rfl⟩
  next noHash =>
    split
    · exact ⟨_, rfl⟩
    split
    · exact ⟨_, rfl⟩
    split
    · exact ⟨_, rfl⟩
    next noInteger =>
      split
      · exact ⟨_, rfl⟩
      next noPercent =>
        rcases found with hash | final | ⟨before, percent⟩
        · exact absurd (List.contains_iff_mem.mpr hash) noHash
        · obtain ⟨text, integer⟩ := (endsInDigit_iff _).mp final
          exact absurd integer ((integerSuffix_finds _).eq_none_iff.mp noInteger text)
        · exact absurd percent ((percentage_eq_none_iff _).mp noPercent before)

/-- Without a number at its end and before a percent sign, a token with figures is left to be a
number with a unit. -/
theorem shape_eq_length (property token : String) (noHash : '#' ∉ token.toList)
    (final : ¬EndsInDigit (dropFinalNewline token.toList))
    (noPercent : ∀ before, ¬PercentAt token.toList before)
    (figure : ∃ c ∈ token.toList, isFigure c) : shape property token = length? token := by
  have figures := not_bare figure
  obtain ⟨c, member, -⟩ := figure
  have noDecimal : decimalSuffix? (dropFinalNewline token.toList) = none :=
    (decimalSuffix_finds _).eq_none_iff.mpr fun _ decimal => final (endsInDigit_of_decimal decimal)
  have noInteger : integerSuffix? (dropFinalNewline token.toList) = none :=
    (integerSuffix_finds _).eq_none_iff.mpr fun text integer =>
      final ((endsInDigit_iff _).mpr ⟨text, integer⟩)
  have notZero : ¬(token = "0" ∧ property ∉ unitlessZero) := by
    rintro ⟨rfl, -⟩
    exact final ⟨'0', by decide, by decide⟩
  simp only [shape, if_neg (List.ne_nil_of_mem member), List.contains_iff_mem, if_neg noHash,
    if_neg notZero, noDecimal, noInteger, if_neg figures, (percentage_eq_none_iff _).mpr noPercent]

/-- The tokens with figures that are rejected. -/
theorem ofToken_error_iff (property token : String) (figure : ∃ c ∈ token.toList, isFigure c) :
    (∃ e, ofToken property token = .error e) ↔ Rejected token.toList := by
  have failed : (∃ e, ofToken property token = .error e) ↔
      ∃ reason, shape property token = .error reason := by
    unfold ofToken
    cases shape property token <;> simp [Except.mapError]
  rw [failed]
  constructor
  · rintro ⟨reason, failure⟩
    have missed : ¬('#' ∈ token.toList ∨ EndsInDigit (dropFinalNewline token.toList) ∨
        ∃ before, PercentAt token.toList before) := by
      intro found
      obtain ⟨a, success⟩ := shape_accepts property token figure found
      rw [failure] at success
      cases success
    simp only [not_or, not_exists] at missed
    obtain ⟨noHash, final, noPercent⟩ := missed
    refine ⟨noHash, final, noPercent, (length_error_iff token figure).mp ⟨reason, ?_⟩⟩
    rw [← shape_eq_length property token noHash final noPercent figure, failure]
  · intro rejected
    rw [shape_eq_length property token rejected.noHash rejected.final rejected.noPercent figure]
    exact (length_error_iff token figure).mpr rejected.unusable

/-- An argument with a number takes the part of the token that is looked for, and nothing else of
the token is left out exactly if the token as a whole spells the number. Text around the number is
no reason to reject a token: one with figures is rejected exactly if it holds no hash sign, does not
end in a digit, has no percent sign after a digit, and its first run of figures has no letter after
it or is no number. -/
theorem number_taken_from_token (property token : String) :
    (∀ a, ofToken property token = .ok a → Takes token.toList a) ∧
    (∀ a, ofToken property token = .ok a ∧ Whole token.toList a ↔ Spells property token a) ∧
    ((∃ c ∈ token.toList, isFigure c) →
      ((∃ e, ofToken property token = .error e) ↔ Rejected token.toList)) := by
  refine ⟨?_, ?_, ofToken_error_iff property token⟩
  · intro a success
    exact takes_of_shape property token a (ofToken_success property token a success)
  · intro a
    exact ⟨fun both => spells_of_whole both.1 both.2, ofToken_of_spells⟩

/-- A token of which a part is taken, one that is taken whole and one that is rejected. -/
theorem number_taken_from_token_cases :
    (ofToken "width" "calc(100%-1rem)" = .ok (.percentage "100") ∧
      Takes "calc(100%-1rem)".toList (.percentage "100")) ∧
    Spells "width" "62.5%" (.percentage "62.5") ∧
    (∃ c ∈ "1/2px".toList, isFigure c) ∧ Rejected "1/2px".toList := by
  have part : ofToken "width" "calc(100%-1rem)" = .ok (.percentage "100") := by decide +kernel
  have all : ofToken "width" "62.5%" = .ok (.percentage "62.5") := by decide +kernel
  have figure : ∃ c ∈ "1/2px".toList, isFigure c := ⟨'1', by decide, by decide⟩
  have failed : ofToken "width" "1/2px" = .error ⟨"1/2px", .noUnit⟩ := by decide +kernel
  refine ⟨⟨part, (number_taken_from_token "width" "calc(100%-1rem)").1 _ part⟩, ?_, figure, ?_⟩
  · exact ((number_taken_from_token "width" "62.5%").2.1 _).mp ⟨all, rfl⟩
  · exact ((number_taken_from_token "width" "1/2px").2.2 figure).mp ⟨_, failed⟩

/-- Numbers taken out of longer tokens, at the end, before a percent sign and at the first figure.
The declaration keeps the typed form. -/
theorem number_taken_from_part :
    (ofToken "width" "calc(100%-1rem)" = .ok (.percentage "100") ∧
      ¬Whole "calc(100%-1rem)".toList (.percentage "100")) ∧
    formOf .stock (.mk "width" "calc(100%-1rem)") = .typed "width" [.percentage "100"] ∧
    (ofToken "line-height" "normal/1.5" = .ok (.number "1.5") ∧
      ¬Whole "normal/1.5".toList (.number "1.5")) ∧
    (ofToken "order" "span2" = .ok (.integer "2") ∧ ¬Whole "span2".toList (.integer "2")) ∧
    (ofToken "width" "calc(1px+2em)" = .ok (.length "px" "1") ∧
      ¬Whole "calc(1px+2em)".toList (.length "px" "1")) := by
  refine ⟨⟨by decide +kernel, ?_⟩, by decide +kernel, ⟨by decide +kernel, ?_⟩,
    ⟨by decide +kernel, ?_⟩, by decide +kernel, ?_⟩
  · intro whole
    have same : "calc(100%-1rem)".toList = "100".toList ++ ['%'] := whole
    exact absurd same (by decide)
  · intro whole
    have same : "normal/1.5".toList = "1.5".toList := whole
    exact absurd same (by decide)
  · intro whole
    have same : "span2".toList = "2".toList := whole
    exact absurd same (by decide)
  · rintro ⟨run, -, same⟩
    have last := congrArg List.getLast? same
    rw [List.getLast?_append_of_ne_nil _ (by decide)] at last
    exact absurd last (by decide)

end ElmStyle.Elm.Argument
