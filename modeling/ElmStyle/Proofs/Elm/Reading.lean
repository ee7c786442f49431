import ElmStyle.Proofs.Elm.TokenParts

/-!
# Readings of a token

What a token means, clause by clause: a clause says under which conditions it applies and which part
of the token it takes. Every token has a reading, and without a line break in it the reading is the
argument that the token gives, or the reason why it gives none.
-/
namespace ElmStyle.Elm.Argument

/-- Neither a colour nor a bare zero that is a length. -/
structure Plain (property token : String) : Prop where
  noHash : '#' ∉ token.toList
  notZero : ¬(token = "0" ∧ property ∉ unitlessZero)

/-- The form `[a-z][A-Za-z0-9_]*`. -/
def IsName (name : List Char) : Prop :=
  ∃ first rest, name = first :: rest ∧ first.isLower ∧ ∀ c ∈ rest, c.isAlphanum ∨ c = '_'

/-- The token is left to be a number with a unit. -/
structure Measures (property token : String) (run unit : List Char) : Prop where
  plain : Plain property token
  final : ¬EndsInDigit token.toList
  noPercent : ∀ before, ¬PercentAt token.toList before
  first : FirstRun token.toList run unit

/-- The readings of a token of a property's value. -/
inductive Reading (property token : String) : Except Unclassifiable Argument → Prop
  | hex (hash : '#' ∈ token.toList) : Reading property token (.ok (.hex token))
  | zero (noHash : '#' ∉ token.toList) (zero : token = "0") (length : property ∉ unitlessZero) :
    Reading property token (.ok .zeroLength)
  | number {text : List Char} (plain : Plain property token)
    (final : EndsInDigit token.toList)
    (longest : LongestSuffix IsDecimal token.toList text) :
    Reading property token (.ok (.number (String.ofList text)))
  | integer {text : List Char} (plain : Plain property token)
    (final : EndsInDigit token.toList)
    (noDecimal : ∀ other, ¬HasSuffix IsDecimal token.toList other)
    (longest : LongestSuffix IsInteger token.toList text) :
    Reading property token (.ok (.integer (String.ofList text)))
  | keyword (plain : Plain property token) (bare : ∀ c ∈ token.toList, isFigure c = false)
    (named : IsName (identifier token).toList) :
    Reading property token (.ok (.keyword (identifier token)))
  | notName (filled : token ≠ "") (plain : Plain property token)
    (bare : ∀ c ∈ token.toList, isFigure c = false)
    (unnamed : ¬IsName (identifier token).toList) :
    Reading property token (.error ⟨token, .notIdentifier (identifier token)⟩)
  | empty (none : token = "") : Reading property token (.error ⟨token, .emptyToken⟩)
  | percentage {before text : List Char} (plain : Plain property token)
    (final : ¬EndsInDigit token.toList)
    (first : FirstPercent token.toList before)
    (longest : LongestSuffix IsNumeral before text) :
    Reading property token (.ok (.percentage (String.ofList text)))
  | length {run unit : List Char} {text : String} (measures : Measures property token run unit)
    (filled : unit ≠ [])
    (normalized : Decimal.normalize (String.ofList run) = .ok text) :
    Reading property token (.ok (.length (String.ofList unit) text))
  | noUnit {run : List Char} (measures : Measures property token run []) :
    Reading property token (.error ⟨token, .noUnit⟩)
  | notANumber {run unit : List Char} (measures : Measures property token run unit)
    (filled : unit ≠ [])
    (noNumber : ¬Decimal.WritesNumber run) :
    Reading property token (.error ⟨token, .notANumber (String.ofList run)⟩)

theorem isName_iff (name : List Char) : IsName name ↔ isValueName name = true := by
  cases name with
  | nil => simp [IsName, isValueName]
  | cons c rest =>
    simp only [IsName, isValueName, isNameChar, List.cons.injEq, Bool.and_eq_true, List.all_eq_true,
      Bool.or_eq_true, beq_iff_eq]
    constructor
    · rintro ⟨first, later, ⟨rfl, rfl⟩, lower, each⟩
      exact ⟨lower, each⟩
    · rintro ⟨lower, each⟩
      exact ⟨c, rest, ⟨rfl, rfl⟩, lower, each⟩

theorem keyword_eq (token : String) (line : '\n' ∉ token.toList) :
    keyword? token =
      if isValueName (identifier token).toList then .ok (.keyword (identifier token))
      else .error (.notIdentifier (identifier token)) := by
  unfold keyword?
  dsimp only
  rw [dropFinalNewline_eq_self _ (newline_not_mem_identifier token line)]

theorem EndsInDigit.filled {cs : List Char} (final : EndsInDigit cs) : cs ≠ [] := by
  rintro rfl
  obtain ⟨c, last, -⟩ := final
  cases last

theorem not_endsInDigit_of_bare {cs : List Char} (bare : ∀ c ∈ cs, isFigure c = false) :
    ¬EndsInDigit cs := by
  rintro ⟨c, last, digit⟩
  have figure := bare c (List.mem_of_getLast? last)
  simp [isFigure, digit] at figure

theorem PercentAt.figure {cs before : List Char} (here : PercentAt cs before) :
    ∃ c ∈ cs, isFigure c := by
  obtain ⟨⟨c, last, digit⟩, follows⟩ := here
  refine ⟨c, follows.subset ?_, by simp [isFigure, digit]⟩
  simp [List.mem_of_getLast? last]

section Shape

variable {property token : String} (line : '\n' ∉ token.toList) (plain : Plain property token)

include line plain

theorem shape_number {text : List Char} (final : EndsInDigit token.toList)
    (found : decimalSuffix? token.toList = some text) :
    shape property token = .ok (.number (String.ofList text)) := by
  simp only [shape, dropFinalNewline_eq_self _ line, if_neg final.filled, List.contains_iff_mem,
    if_neg plain.noHash, if_neg plain.notZero, found]

theorem shape_integer {text : List Char} (final : EndsInDigit token.toList)
    (noDecimal : decimalSuffix? token.toList = none)
    (found : integerSuffix? token.toList = some text) :
    shape property token = .ok (.integer (String.ofList text)) := by
  simp only [shape, dropFinalNewline_eq_self _ line, if_neg final.filled, List.contains_iff_mem,
    if_neg plain.noHash, if_neg plain.notZero, noDecimal, found]

/-- Only a token that does not end in a digit is asked for figures inside it. -/
theorem shape_unfinished (filled : token.toList ≠ []) (final : ¬EndsInDigit token.toList) :
    shape property token =
      if token.toList.all (!isFigure ·) then keyword? token
      else (percentage? token.toList).elim (length? token)
        fun text => .ok (.percentage (String.ofList text)) := by
  have noDecimal : decimalSuffix? token.toList = none :=
    (decimalSuffix_finds _).eq_none_iff.mpr fun _ decimal => final (endsInDigit_of_decimal decimal)
  have noInteger : integerSuffix? token.toList = none :=
    (integerSuffix_finds _).eq_none_iff.mpr fun text integer =>
      final ((endsInDigit_iff _).mpr ⟨text, integer⟩)
  simp only [shape, dropFinalNewline_eq_self _ line, if_neg filled, List.contains_iff_mem,
    if_neg plain.noHash, if_neg plain.notZero, noDecimal, noInteger]
  cases percentage? token.toList <;> rfl

theorem shape_bare (filled : token.toList ≠ []) (bare : ∀ c ∈ token.toList, isFigure c = false) :
    shape property token =
      if isValueName (identifier token).toList then .ok (.keyword (identifier token))
      else .error (.notIdentifier (identifier token)) := by
  rw [shape_unfinished line plain filled (not_endsInDigit_of_bare bare),
    if_pos (by simpa using bare), keyword_eq token line]

theorem shape_figures (final : ¬EndsInDigit token.toList)
    (figure : ∃ c ∈ token.toList, isFigure c) :
    shape property token =
      (percentage? token.toList).elim (length? token)
        fun text => .ok (.percentage (String.ofList text)) := by
  obtain ⟨c, member, isFigure⟩ := figure
  rw [shape_unfinished line plain (List.ne_nil_of_mem member) final, if_neg]
  simp only [List.all_eq_true, not_forall]
  exact ⟨c, member, by simp [isFigure]⟩

end Shape

theorem shape_measures {property token : String} {run unit : List Char}
    (line : '\n' ∉ token.toList) (measures : Measures property token run unit) :
    shape property token = length? token := by
  rw [shape_figures line measures.plain measures.final measures.first.figure,
    (percentage_eq_none_iff _).mpr measures.noPercent]
  rfl

/-- A reading is the argument that the token gives, or the reason why it gives none. -/
theorem ofToken_of_reading (property token : String) (result : Except Unclassifiable Argument)
    (line : '\n' ∉ token.toList) (reading : Reading property token result) :
    ofToken property token = result := by
  unfold ofToken
  cases reading with
  | hex hash =>
    rw [shape]
    simp [hash, List.ne_nil_of_mem hash, Except.mapError]
  | zero noHash zero length =>
    subst zero
    simp [shape, length, Except.mapError]
  | number plain final longest =>
    have found := ((decimalSuffix_finds _).eq_some_iff _).mpr longest
    rw [shape_number line plain final found, Except.mapError]
  | integer plain final noDecimal longest =>
    have missing := (decimalSuffix_finds _).eq_none_iff.mpr noDecimal
    have found := ((integerSuffix_finds _).eq_some_iff _).mpr longest
    rw [shape_integer line plain final missing found, Except.mapError]
  | keyword plain bare named =>
    have filled : token.toList ≠ [] := by
      intro none
      rw [String.toList_eq_nil_iff.mp none, isName_iff] at named
      exact absurd named (by decide)
    rw [shape_bare line plain filled bare, if_pos ((isName_iff _).mp named), Except.mapError]
  | notName filled plain bare unnamed =>
    rw [shape_bare line plain (by simpa using filled) bare, if_neg (by rwa [← isName_iff]),
      Except.mapError]
  | empty none =>
    subst none
    rfl
  | percentage plain final first longest =>
    rw [shape_figures line plain final first.here.figure,
      (percentage_eq_some_iff _ _).mpr ⟨_, first, longest⟩, Option.elim_some, Except.mapError]
  | length measures filled normalized =>
    rw [shape_measures line measures]
    simp only [length?, firstRun_eq _ _ _ measures.first, if_neg filled, normalized,
      Except.mapError]
  | noUnit measures =>
    rw [shape_measures line measures]
    simp only [length?, firstRun_eq _ _ _ measures.first, if_true, Except.mapError]
  | notANumber measures filled noNumber =>
    rw [shape_measures line measures]
    simp only [length?, firstRun_eq _ _ _ measures.first, if_neg filled]
    cases normalized : Decimal.normalize _ with
    | ok text => exact absurd (measures.first.normalize.mp ⟨text, normalized⟩) noNumber
    | error e =>
      rw [Decimal.normalize_error _ e normalized]
      rfl

theorem exists_reading_of_final (property token : String) (plain : Plain property token)
    (final : EndsInDigit token.toList) : ∃ result, Reading property token result := by
  cases decimal : decimalSuffix? token.toList with
  | some text =>
    exact ⟨_, .number plain final (((decimalSuffix_finds _).eq_some_iff text).mp decimal)⟩
  | none =>
    have noDecimal := (decimalSuffix_finds _).eq_none_iff.mp decimal
    cases integer : integerSuffix? token.toList with
    | some text =>
      exact ⟨_, .integer plain final noDecimal
        (((integerSuffix_finds _).eq_some_iff text).mp integer)⟩
    | none =>
      obtain ⟨text, ends⟩ := (endsInDigit_iff _).mp final
      exact absurd ends ((integerSuffix_finds _).eq_none_iff.mp integer text)

theorem exists_reading_of_measures (property token : String) (run unit : List Char)
    (measures : Measures property token run unit) : ∃ result, Reading property token result := by
  by_cases noUnit : unit = []
  · subst noUnit
    exact ⟨_, .noUnit measures⟩
  · cases normalized : Decimal.normalize (String.ofList run) with
    | ok text => exact ⟨_, .length measures noUnit normalized⟩
    | error e =>
      refine ⟨_, .notANumber measures noUnit ?_⟩
      intro number
      obtain ⟨text, other⟩ := measures.first.normalize.mpr number
      rw [normalized] at other
      cases other

/-- Every token has a reading. -/
theorem exists_reading (property token : String) : ∃ result, Reading property token result := by
  by_cases none : token = ""
  · exact ⟨_, .empty none⟩
  by_cases hash : '#' ∈ token.toList
  · exact ⟨_, .hex hash⟩
  by_cases zero : token = "0" ∧ property ∉ unitlessZero
  · exact ⟨_, .zero hash zero.1 zero.2⟩
  have plain : Plain property token := ⟨hash, zero⟩
  by_cases final : EndsInDigit token.toList
  · exact exists_reading_of_final property token plain final
  by_cases bare : ∀ c ∈ token.toList, isFigure c = false
  · by_cases named : IsName (identifier token).toList
    · exact ⟨_, .keyword plain bare named⟩
    · exact ⟨_, .notName none plain bare named⟩
  cases percent : percentage? token.toList with
  | some text =>
    obtain ⟨before, first, longest⟩ := (percentage_eq_some_iff _ text).mp percent
    exact ⟨_, .percentage plain final first longest⟩
  | none =>
    have figure : ∃ c ∈ token.toList, isFigure c := by simpa using bare
    exact exists_reading_of_measures property token _ _
      ⟨plain, final, (percentage_eq_none_iff _).mp percent, firstRun_first _ figure⟩

/-- A token without a line break has one reading, and that is what it gives. -/
theorem reading_iff_ofToken (property token : String) (line : '\n' ∉ token.toList)
    (result : Except Unclassifiable Argument) :
    Reading property token result ↔ ofToken property token = result := by
  constructor
  · exact ofToken_of_reading property token result line
  · rintro rfl
    obtain ⟨result, reading⟩ := exists_reading property token
    rwa [ofToken_of_reading property token result line reading]

theorem reading_iff_ofToken_points :
    ('\n' ∉ "12.5.3%".toList ∧ Reading "width" "12.5.3%" (.ok (.percentage "5.3"))) ∧
    ('\n' ∉ "a-1.2.3px".toList ∧
      Reading "width" "a-1.2.3px" (.error ⟨"a-1.2.3px", .notANumber "-1.2.3"⟩)) ∧
    '\n' ∉ "x7-.5".toList ∧ Reading "order" "x7-.5" (.ok (.number "-.5")) ∧
      ¬Reading "order" "x7-.5" (.ok (.integer "5")) :=
  ⟨⟨by decide, (reading_iff_ofToken "width" "12.5.3%" (by decide) _).mpr (by decide)⟩,
    ⟨by decide, (reading_iff_ofToken "width" "a-1.2.3px" (by decide) _).mpr (by decide +kernel)⟩,
    by decide, (reading_iff_ofToken "order" "x7-.5" (by decide) _).mpr (by decide),
    fun reading =>
      absurd ((reading_iff_ofToken "order" "x7-.5" (by decide) _).mp reading) (by decide)⟩

end ElmStyle.Elm.Argument
