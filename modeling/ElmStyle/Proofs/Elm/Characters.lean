import ElmStyle.Elm.Style
import ElmStyle.Proofs.Success
import ElmStyle.Proofs.Text.Casing
import ElmStyle.Proofs.Text.Words
import Mathlib.Data.String.Basic

/-!
# Characters of generated code

Which characters the parts of a style can hold. Names come from CSS names by camel-casing, which may
bring in other letters but never a line break; the texts of numbers hold letters, digits, points and
signs. Nothing here depends on how the parts are laid out as code.
-/
namespace ElmStyle

namespace Decimal

/-- A character of the text of a number; the letters are those of an exponent, `inf` and `nan`. -/
def isNumberChar (c : Char) : Bool := c.isAlphanum || c == '.' || c == '-' || c == '+'

theorem isNumberChar_of_isDigit (c : Char) (digit : c.isDigit) : isNumberChar c := by
  simp [isNumberChar, Char.isAlphanum, digit]

theorem mem_toDigits_number (n : Nat) (c : Char) (member : c ∈ Nat.toDigits 10 n) :
    isNumberChar c :=
  isNumberChar_of_isDigit c (Nat.isDigit_of_mem_toDigits (by decide) (by decide) member)

theorem mem_trimZeros (digits : List Char) (c : Char) (member : c ∈ trimZeros digits) :
    c ∈ digits := by
  simp only [trimZeros, List.mem_reverse] at member
  exact List.mem_reverse.mp (List.dropWhile_subset _ member)

theorem exponentText_number (exponent : Int) :
    ∀ c ∈ (exponentText exponent).toList, isNumberChar c := by
  intro c member
  simp only [exponentText, String.toList_append, String.toList_ofList, List.mem_append,
    List.mem_replicate] at member
  rcases member with mark | ⟨-, rfl⟩ | digit
  · split at mark <;> exact List.all_eq_true.mp (by decide) c mark
  · decide
  · exact mem_toDigits_number _ c digit

theorem positionalText_number (digits : List Char) (point : Int)
    (number : ∀ c ∈ digits, isNumberChar c) :
    ∀ c ∈ (positionalText digits point).toList, isNumberChar c := by
  intro c member
  unfold positionalText at member
  dsimp only at member
  split at member
  · simp only [String.toList_ofList, List.mem_cons, List.mem_append, List.mem_replicate] at member
    rcases member with rfl | rfl | ⟨-, rfl⟩ | digit
    · decide
    · decide
    · decide
    · exact number c digit
  · split at member
    · simp only [String.toList_ofList, List.mem_cons, List.mem_append, List.mem_replicate,
        List.not_mem_nil, or_false] at member
      rcases member with (digit | ⟨-, rfl⟩) | rfl | rfl
      · exact number c digit
      · decide
      · decide
      · decide
    · simp only [String.toList_ofList, List.mem_cons, List.mem_append] at member
      rcases member with before | rfl | after
      · exact number c (List.mem_of_mem_take before)
      · decide
      · exact number c (List.mem_of_mem_drop after)

theorem scientificText_number (digits : List Char) (point : Int)
    (number : ∀ c ∈ digits, isNumberChar c) :
    ∀ c ∈ (scientificText digits point).toList, isNumberChar c := by
  intro c member
  simp only [scientificText, String.toList_append, String.toList_ofList, List.mem_append] at member
  rcases member with mantissa | exponent
  · split at mantissa
    next first second rest =>
      simp only [List.mem_cons] at mantissa
      rcases mantissa with rfl | rfl | rfl | later
      · exact number c (by simp)
      · decide
      · exact number c (by simp)
      · exact number c (by simp [later])
    next => exact number c mantissa
  · exact exponentText_number _ c exponent

theorem Scaled.text_number (d : Scaled) : ∀ c ∈ d.text.toList, isNumberChar c := by
  have number : ∀ c ∈ trimZeros (Nat.toDigits 10 d.digits), isNumberChar c := by
    intro c member
    exact mem_toDigits_number d.digits c (mem_trimZeros _ c member)
  unfold Scaled.text
  dsimp only
  split
  · exact positionalText_number _ _ number
  · exact scientificText_number _ _ number

theorem sign_number (negative : Bool) : ∀ c ∈ (Binary64.sign negative).toList, isNumberChar c := by
  cases negative <;> exact List.all_eq_true.mp (by decide)

theorem compactText_number (x : Binary64) : ∀ c ∈ x.compactText.toList, isNumberChar c := by
  cases x with
  | nan => exact List.all_eq_true.mp (by decide)
  | infinite negative => cases negative <;> exact List.all_eq_true.mp (by decide)
  | finite negative units =>
    intro c member
    simp only [Binary64.compactText] at member
    split at member
    · rw [String.toList_append, List.mem_append] at member
      rcases member with front | digits
      · exact sign_number _ c front
      · exact mem_toDigits_number _ c (by simpa [Nat.repr] using digits)
    · rw [String.toList_append, List.mem_append] at member
      rcases member with front | digits
      · exact sign_number _ c front
      · exact Scaled.text_number _ c digits

theorem normalize_number (s text : String) (success : normalize s = .ok text) :
    ∀ c ∈ text.toList, isNumberChar c := by
  unfold normalize at success
  split at success
  · cases success
    exact compactText_number _
  · cases success

end Decimal

namespace Elm

/-- A character of the hyphenated names of CSS. -/
def isKebabChar (c : Char) : Bool := c.isLower || c.isDigit || c == '-'

/-- A character of their camel-cased forms, where a hyphen at the end or after another one stays. -/
def isCamelChar (c : Char) : Bool := c.isAlphanum || c == '-'

theorem isNameChar_ascii (c : Char) (allowed : isNameChar c) : c.toNat < 128 := by
  delta isNameChar Char.isAlphanum Char.isAlpha Char.isUpper Char.isLower Char.isDigit at allowed
  simp only [Bool.or_eq_true, Bool.and_eq_true, decide_eq_true_eq, beq_iff_eq] at allowed
  rcases allowed with ((⟨-, upTo⟩ | ⟨-, upTo⟩) | ⟨-, upTo⟩) | rfl
  · exact Nat.lt_of_le_of_lt (UInt32.le_iff_toNat_le.mp upTo) (by decide)
  · exact Nat.lt_of_le_of_lt (UInt32.le_iff_toNat_le.mp upTo) (by decide)
  · exact Nat.lt_of_le_of_lt (UInt32.le_iff_toNat_le.mp upTo) (by decide)
  · decide

theorem isKebabChar_ascii (c : Char) (kebab : isKebabChar c) : c.toNat < 128 := by
  simp only [isKebabChar, Bool.or_eq_true, beq_iff_eq] at kebab
  rcases kebab with letter | rfl
  · apply isNameChar_ascii
    delta isNameChar Char.isAlphanum Char.isAlpha
    rcases letter with lower | digit
    · simp [lower]
    · simp [digit]
  · decide

theorem isLower_ascii (c : Char) (lower : c.isLower) : c.toNat < 128 :=
  isKebabChar_ascii c (by simp [isKebabChar, lower])

theorem isCamelChar_of_isKebabChar (c : Char) (kebab : isKebabChar c) : isCamelChar c := by
  have ascii := isKebabChar_ascii c kebab
  exact Text.forall_char_below 128 (fun c => isKebabChar c → isCamelChar c) (by decide) c ascii
    kebab

theorem isCamelChar_of_mem_upper (c u : Char) (kebab : isKebabChar c) (member : u ∈ Text.upper c) :
    isCamelChar u := by
  have ascii := isKebabChar_ascii c kebab
  simp only [Text.upper, if_pos ascii, List.mem_singleton] at member
  subst member
  exact Text.forall_char_below 128 (fun c => isKebabChar c → isCamelChar c.toUpper) (by decide)
    c ascii kebab

theorem camelCase_cons (c : Char) (rest : List Char) (plain : c ≠ '-') :
    camelCase (c :: rest) = c :: camelCase rest := by
  rw [camelCase]
  intro _ _ hyphen
  exact absurd hyphen plain

/-- Every character of a camel-cased text is one of the text or of the upper case of one. -/
theorem mem_camelCase (cs : List Char) (x : Char) (member : x ∈ camelCase cs) :
    x ∈ cs ∨ ∃ c ∈ cs, x ∈ Text.upper c := by
  fun_induction camelCase cs with
  | case1 => simp at member
  | case2 rest ih =>
    rcases List.mem_cons.mp member with rfl | later
    · simp
    · rcases ih later with kept | ⟨c, held, raised⟩
      · exact .inl (List.mem_cons_of_mem _ kept)
      · exact .inr ⟨c, List.mem_cons_of_mem _ held, raised⟩
  | case3 c rest line ih =>
    rcases List.mem_append.mp member with raised | later
    · exact .inr ⟨c, by simp, raised⟩
    · rcases ih later with kept | ⟨d, held, raised⟩
      · exact .inl (by simp [kept])
      · exact .inr ⟨d, by simp [held], raised⟩
  | case4 c rest _ ih =>
    rcases List.mem_cons.mp member with rfl | later
    · simp
    · rcases ih later with kept | ⟨d, held, raised⟩
      · exact .inl (by simp [kept])
      · exact .inr ⟨d, by simp [held], raised⟩

/-- The name that is spelled on its own brings in no other character than its hump. -/
theorem mem_identifier (name : String) (x : Char) (member : x ∈ (identifier name).toList) :
    x ∈ name.toList ∨ ∃ c ∈ name.toList, x ∈ Text.upper c := by
  unfold identifier at member
  split at member
  next spelled =>
    subst spelled
    have each : "noWrap".toList.all fun x => decide (x ∈ "nowrap".toList) ||
        "nowrap".toList.any fun c => decide (x ∈ Text.upper c) := by decide +kernel
    simpa only [Bool.or_eq_true, decide_eq_true_eq, List.any_eq_true] using
      List.all_eq_true.mp each x member
  next =>
    rw [String.toList_ofList] at member
    exact mem_camelCase name.toList x member

theorem identifier_camel (name : String) (kebab : ∀ c ∈ name.toList, isKebabChar c) :
    ∀ x ∈ (identifier name).toList, isCamelChar x := by
  intro x member
  rcases mem_identifier name x member with kept | ⟨c, held, raised⟩
  · exact isCamelChar_of_isKebabChar x (kebab x kept)
  · exact isCamelChar_of_mem_upper c x (kebab c held) raised

theorem newline_not_mem_identifier (name : String) (line : '\n' ∉ name.toList) :
    '\n' ∉ (identifier name).toList := by
  intro member
  rcases mem_identifier name '\n' member with kept | ⟨c, held, raised⟩
  · exact line kept
  · have other : c ≠ '\n' := by
      rintro rfl
      exact line held
    exact Text.newline_not_mem_upper c other raised

namespace Argument

/-- What the parts of an argument hold; a colour has its token as its text. -/
def PartsHold (token : String) : Argument → Prop
  | .hex text => text = token
  | .zeroLength => True
  | .number text => ∀ c ∈ text.toList, Decimal.isNumberChar c
  | .integer text => ∀ c ∈ text.toList, Decimal.isNumberChar c
  | .keyword name => isValueName name.toList
  | .percentage text => ∀ c ∈ text.toList, Decimal.isNumberChar c
  | .length unit text =>
    (∀ c ∈ unit.toList, c.isLower) ∧ ∀ c ∈ text.toList, Decimal.isNumberChar c

theorem withSign_number (before digits : List Char)
    (number : ∀ c ∈ digits, Decimal.isNumberChar c) :
    ∀ c ∈ withSign before digits, Decimal.isNumberChar c := by
  unfold withSign
  split
  · intro c member
    rcases List.mem_cons.mp member with rfl | later
    · decide
    · exact number c later
  · exact number

theorem mem_span_isDigit (cs : List Char) (c : Char) (member : c ∈ (cs.span Char.isDigit).1) :
    Decimal.isNumberChar c := by
  rw [List.span_eq_takeWhile_dropWhile] at member
  exact Decimal.isNumberChar_of_isDigit c (List.mem_takeWhile_imp member)

theorem integerSuffix_number (cs text : List Char) (found : integerSuffix? cs = some text) :
    ∀ c ∈ text, Decimal.isNumberChar c := by
  unfold integerSuffix? at found
  dsimp only at found
  split at found
  · cases found
  · cases found
    apply withSign_number
    intro c member
    exact mem_span_isDigit _ c (List.mem_reverse.mp member)

theorem decimalSuffix_number (cs text : List Char) (found : decimalSuffix? cs = some text) :
    ∀ c ∈ text, Decimal.isNumberChar c := by
  unfold decimalSuffix? at found
  dsimp only at found
  split at found
  next before _ =>
    split at found
    · cases found
    · cases found
      apply withSign_number
      intro c member
      simp only [List.mem_append, List.mem_cons, List.mem_reverse] at member
      rcases member with whole | rfl | fraction
      · exact mem_span_isDigit before c whole
      · decide
      · exact mem_span_isDigit _ c fraction
  next => cases found

theorem percentage_number (cs text : List Char) (found : percentage? cs = some text) :
    ∀ c ∈ text, Decimal.isNumberChar c := by
  obtain ⟨before, -, found⟩ := Option.bind_eq_some_iff.mp found
  cases point : decimalSuffix? before with
  | none =>
    rw [point] at found
    exact integerSuffix_number before text found
  | some ending =>
    rw [point] at found
    cases found
    exact decimalSuffix_number before text point

theorem dropFinalNewline_eq_self (cs : List Char) (line : '\n' ∉ cs) :
    dropFinalNewline cs = cs := by
  unfold dropFinalNewline
  rw [if_neg (fun last => line (List.mem_of_getLast? last))]

/-- A keyword is checked up to a line break at its end; a token without one gives none. -/
theorem keyword_parts (token : String) (a : Argument) (line : '\n' ∉ token.toList)
    (success : keyword? token = .ok a) : a.PartsHold token := by
  unfold keyword? at success
  dsimp only at success
  split at success
  next named =>
    cases success
    rwa [dropFinalNewline_eq_self _ (newline_not_mem_identifier token line)] at named
  next => cases success

theorem length_parts (token : String) (a : Argument) (success : length? token = .ok a) :
    a.PartsHold token := by
  unfold length? firstRun at success
  dsimp only at success
  split at success
  · cases success
  · split at success
    next text normalized =>
      cases success
      refine ⟨?_, Decimal.normalize_number _ text normalized⟩
      intro c member
      rw [String.toList_ofList] at member
      exact List.mem_takeWhile_imp member
    next => cases success

/-- The seven shapes of a token without a line break, by what their parts hold. -/
theorem shape_parts (property token : String) (a : Argument) (line : '\n' ∉ token.toList)
    (success : shape property token = .ok a) : a.PartsHold token := by
  unfold shape at success
  dsimp only at success
  split at success
  · cases success
  split at success
  · cases success
    rfl
  split at success
  · cases success
    trivial
  split at success
  next text found =>
    cases success
    simpa only [PartsHold, String.toList_ofList] using decimalSuffix_number _ text found
  split at success
  next text found =>
    cases success
    simpa only [PartsHold, String.toList_ofList] using integerSuffix_number _ text found
  split at success
  · exact keyword_parts token a line success
  split at success
  next text found =>
    cases success
    simpa only [PartsHold, String.toList_ofList] using percentage_number _ text found
  · exact length_parts token a success

end Argument

theorem ofToken_success (property token : String) (a : Argument)
    (success : Argument.ofToken property token = .ok a) :
    Argument.shape property token = .ok a := by
  unfold Argument.ofToken at success
  exact mapError_success success

/-- A typed form is the one constant, or the function of the property applied to one argument for
each token. -/
theorem formOf_typed (t : ExemptionTable) (d : Css.Declaration) (function : String)
    (arguments : List Argument) (typed : formOf t d = .typed function arguments) :
    (function = "displayFlex" ∧ arguments = []) ∨
      (function = functionName d.property arguments.length ∧ arguments ≠ [] ∧
        List.Forall₂ (fun token a => Argument.shape d.property token = .ok a)
          d.tokens arguments) := by
  unfold formOf at typed
  split at typed
  · cases typed
  split at typed
  · cases typed
  split at typed
  · cases typed
    exact .inl ⟨rfl, rfl⟩
  split at typed
  · cases typed
  next filled =>
    split at typed
    next given success =>
      cases typed
      have aligned := mapM_success _ _ _ success
      refine .inr ⟨rfl, ?_, aligned.imp (fun token a => ofToken_success d.property token a)⟩
      rintro rfl
      exact filled (List.forall₂_nil_right_iff.mp aligned)
    next => cases typed

theorem mem_arguments_parts (t : ExemptionTable) (d : Css.Declaration) (a : Argument)
    (member : a ∈ (Style.of t d).arguments) : ∃ token ∈ d.tokens, a.PartsHold token := by
  unfold Style.arguments Style.of at member
  dsimp only at member
  split at member
  next function arguments typed =>
    rcases formOf_typed t d function arguments typed with ⟨-, rfl⟩ | ⟨-, -, aligned⟩
    · simp at member
    · obtain ⟨token, held, shaped⟩ := forall₂_mem_right aligned a member
      have line : '\n' ∉ token.toList := by
        intro present
        have blank := (Text.mem_words d.value token held).2 '\n' present
        exact absurd blank (by decide)
      exact ⟨token, held, Argument.shape_parts d.property token a line shaped⟩
  next => simp at member

theorem mem_valueName (cs : List Char) (named : isValueName cs) : ∀ c ∈ cs, isNameChar c := by
  cases cs with
  | nil => simp
  | cons first rest =>
    simp only [isValueName, Bool.and_eq_true, List.all_eq_true] at named
    intro c member
    rcases List.mem_cons.mp member with rfl | later
    · delta isNameChar Char.isAlphanum Char.isAlpha
      simp [named.1]
    · exact named.2 c later

theorem functionName_camel (property : String) (arity : Nat)
    (kebab : ∀ c ∈ property.toList, isKebabChar c) :
    ∀ c ∈ (functionName property arity).toList, isCamelChar c := by
  have base := identifier_camel property kebab
  unfold functionName
  split
  · intro c member
    rw [String.toList_append, List.mem_append] at member
    rcases member with letter | digit
    · exact base c letter
    · have digits : c ∈ Nat.toDigits 10 arity := by simpa [Nat.repr] using digit
      have isDigit := Nat.isDigit_of_mem_toDigits (by decide) (by decide) digits
      simp [isCamelChar, Char.isAlphanum, isDigit]
  · exact base

end Elm

end ElmStyle
