import ElmStyle.Proofs.Decimal.Figures
import ElmStyle.Proofs.Decimal.Rounding
import ElmStyle.Proofs.Elm.Emitted

/-!
# Failures that stay inside of a translation

The steps by which a declaration is translated, each with everything that it can fail with: a text
that is no number, a number without a whole part, a token without a shape. A number is asked for its
whole part only if it has one, a length turns the failure to read its number into one of its token,
and a declaration turns the failure of a token into the generic form. So no failure is left, and the
steps give the style of the declaration.
-/
namespace ElmStyle.Elm

open Css (Declaration)
open Decimal (Binary64 Numeral)

/-- What a step can fail with. -/
inductive Failure where
  | noNumber
  | tooLarge
  | unmatched
  | unclassifiable (cause : Argument.Unclassifiable)
  deriving DecidableEq, Repr

namespace Fallible

def readNumber (text : String) : Except Failure Binary64 :=
  ((Numeral.read? text).map Binary64.ofNumeral).elim (.error .noNumber) .ok

/-- The number without its fraction. No whole number is as large as an infinity. -/
def wholePart : Binary64 → Except Failure Int
  | .nan => .error .noNumber
  | .infinite _ => .error .tooLarge
  | .finite negative units =>
    let whole : Int := (units / Binary64.one : Nat)
    .ok (if negative then -whole else whole)

def isWhole : Binary64 → Bool
  | .finite _ units => units % Binary64.one == 0
  | _ => false

/-- The text of a number: its whole part if that is all, or else the full text. -/
def numberText (text : String) : Except Failure String := do
  let x ← readNumber text
  if isWhole x then return Int.repr (← wholePart x) else return x.fullText

/-- One attempt to give a token of a property's value a shape. -/
abbrev Attempt := String → String → Except Failure (Option Argument)

def hex : Attempt := fun _ token =>
  .ok (if '#' ∈ token.toList then some (.hex token) else none)

def zeroLength : Attempt := fun property token =>
  .ok (if token = "0" ∧ property ∉ Argument.unitlessZero then some .zeroLength else none)

def number : Attempt := fun _ token =>
  .ok ((Argument.decimalSuffix? (Argument.dropFinalNewline token.toList)).map
    fun text => .number (String.ofList text))

def integer : Attempt := fun _ token =>
  .ok ((Argument.integerSuffix? (Argument.dropFinalNewline token.toList)).map
    fun text => .integer (String.ofList text))

def keyword : Attempt := fun _ token =>
  if token.toList.all (!Argument.isFigure ·) then
    ((Argument.keyword? token).mapError fun reason => .unclassifiable ⟨token, reason⟩).map some
  else .ok none

def percentage : Attempt := fun _ token =>
  .ok ((Argument.percentage? token.toList).map fun text => .percentage (String.ofList text))

/-- Only the failure to read the number is caught. -/
def length : Attempt := fun _ token =>
  let (figures, unit) := Argument.firstRun token.toList
  if token.toList.all (!Argument.isFigure ·) then .ok none
  else if unit = [] then .error (.unclassifiable ⟨token, .noUnit⟩)
  else do
    let text ← tryCatch (numberText (String.ofList figures)) fun
      | .noNumber => .error (.unclassifiable ⟨token, .notANumber (String.ofList figures)⟩)
      | other => .error other
    return some (.length (String.ofList unit) text)

/-- The first attempt that gives a shape or fails settles the token. -/
def settle (property token : String) : List Attempt → Except Failure Argument
  | [] => .error .unmatched
  | attempt :: later => do
    match ← attempt property token with
    | some a => return a
    | none => settle property token later

def attempts : List Attempt := [hex, zeroLength, number, integer, keyword, percentage, length]

def classify (property token : String) : Except Failure Argument :=
  if token = "" then .error (.unclassifiable ⟨token, .emptyToken⟩)
  else settle property token attempts

/-- Only the failure to classify a token is caught. -/
def translate (t : ExemptionTable) (d : Declaration) : Except Failure Style :=
  if d.isCustom then .ok ⟨d, .generic .customProperty⟩
  else if t.isExempt d.property d.value then .ok ⟨d, .generic .exempt⟩
  else if d = flexDisplay then .ok ⟨d, .typed "displayFlex" []⟩
  else if d.tokens = [] then .ok ⟨d, .generic .emptyValue⟩
  else tryCatch
    (do
      let arguments ← d.tokens.mapM (classify d.property)
      return ⟨d, .typed (functionName d.property d.tokens.length) arguments⟩)
    fun
      | .unclassifiable cause => .ok ⟨d, .generic (.unclassifiable cause)⟩
      | other => .error other

/-- The text of a whole number of units; zero has no sign. -/
theorem repr_units (negative : Bool) (units unit : Nat) (positive : 0 < unit)
    (divides : units % unit = 0) :
    Int.repr (if negative then -((units / unit : Nat) : Int) else (units / unit : Nat)) =
      Binary64.sign (negative && units != 0) ++ Nat.repr (units / unit) := by
  obtain ⟨whole, rfl⟩ := Nat.dvd_of_mod_eq_zero divides
  have filled : (unit * whole != 0) = (whole != 0) := by
    rw [Bool.eq_iff_iff, bne_iff_ne, bne_iff_ne, Nat.mul_ne_zero_iff]
    exact and_iff_right positive.ne'
  rw [Nat.mul_div_cancel_left whole positive, filled]
  cases negative with
  | false => rfl
  | true => cases whole <;> rfl

/-- A whole number has a whole part, so that one is never asked for in vain. -/
theorem wholePart_of_isWhole (x : Binary64) (whole : isWhole x) :
    ∃ n, wholePart x = .ok n ∧ Int.repr n = x.compactText := by
  cases x with
  | nan => cases whole
  | infinite negative => cases whole
  | finite negative units =>
    have divides : units % Binary64.one = 0 := by simpa [isWhole] using whole
    refine ⟨_, rfl, ?_⟩
    rw [Binary64.compactText, if_pos divides]
    exact repr_units negative units Binary64.one Binary64.one_pos divides

theorem fullText_of_not_isWhole (x : Binary64) (fraction : isWhole x = false) :
    x.fullText = x.compactText := by
  cases x with
  | nan => rfl
  | infinite negative => rfl
  | finite negative units =>
    have rest : units % Binary64.one ≠ 0 := by simpa [isWhole] using fraction
    have positive : units ≠ 0 := by
      rintro rfl
      exact rest (Nat.zero_mod _)
    rw [Binary64.fullText, Binary64.compactText, if_neg rest, if_neg positive]

theorem numberText_eq (text : String) :
    numberText text = (Decimal.normalize text).mapError fun _ => .noNumber := by
  unfold numberText readNumber Decimal.normalize
  cases Numeral.read? text with
  | none => rfl
  | some numeral =>
    cases whole : isWhole (Binary64.ofNumeral numeral) with
    | false =>
      have same := fullText_of_not_isWhole _ whole
      simp [whole, same, bind, Except.bind, pure, Except.pure, Except.mapError]
    | true =>
      obtain ⟨n, part, same⟩ := wholePart_of_isWhole _ whole
      simp [whole, part, same, bind, Except.bind, pure, Except.pure, Except.mapError]

/-- A number beyond all finite ones has no whole part, which it is never asked for. -/
example : wholePart (.infinite false) = .error .tooLarge ∧ numberText "1e999" = .ok "inf" := by
  decide +kernel

section Settling

variable {property token : String} {attempt : Attempt} {later : List Attempt}

theorem settle_passed (passed : attempt property token = .ok none) :
    settle property token (attempt :: later) = settle property token later := by
  rw [settle, passed]
  rfl

theorem settle_settled (result : Except Failure Argument)
    (settled : attempt property token = result.map some) :
    settle property token (attempt :: later) = result := by
  rw [settle, settled]
  cases result <;> rfl

end Settling

/-- A failure to read the number becomes one of the token, and there is no other failure. -/
theorem length_eq (property token : String)
    (figures : token.toList.all (!Argument.isFigure ·) = false) :
    length property token =
      ((Argument.length? token).mapError fun reason => .unclassifiable ⟨token, reason⟩).map
        some := by
  simp only [length, Argument.length?, figures, Bool.false_eq_true, if_false]
  split
  · rfl
  · rw [numberText_eq]
    cases normalized : Decimal.normalize (String.ofList (Argument.firstRun token.toList).1) with
    | ok text => rfl
    | error e =>
      rw [Decimal.normalize_error _ e normalized]
      rfl

/-- A token that no number ends and that is no colour is a keyword, a percentage or a length. -/
theorem settle_unfinished (property token : String) :
    settle property token [keyword, percentage, length] =
      (if token.toList.all (!Argument.isFigure ·) then Argument.keyword? token
        else (Argument.percentage? token.toList).elim (Argument.length? token)
          fun text => .ok (.percentage (String.ofList text))).mapError
        fun reason => .unclassifiable ⟨token, reason⟩ := by
  cases bare : token.toList.all (!Argument.isFigure ·) with
  | true => exact settle_settled _ (if_pos bare)
  | false =>
    rw [settle_passed (if_neg (by simp [bare]))]
    cases percent : Argument.percentage? token.toList with
    | some text =>
      exact settle_settled (.ok (.percentage (String.ofList text)))
        (by rw [percentage, percent]; rfl)
    | none =>
      rw [settle_passed (by rw [percentage, percent]; rfl)]
      exact settle_settled _ (length_eq property token bare)

/-- A token is classified or cannot be classified; it never fails in another way. -/
theorem classify_eq (property token : String) :
    classify property token = (Argument.ofToken property token).mapError .unclassifiable := by
  have reasons : (Argument.ofToken property token).mapError Failure.unclassifiable =
      (Argument.shape property token).mapError
        fun reason => Failure.unclassifiable ⟨token, reason⟩ := by
    rw [Argument.ofToken]
    cases Argument.shape property token <;> rfl
  rw [reasons]
  unfold classify attempts Argument.shape
  by_cases none : token = ""
  · subst none
    rfl
  have filled : token.toList ≠ [] := by simpa using none
  simp only [if_neg none, if_neg filled, List.contains_iff_mem]
  by_cases hash : '#' ∈ token.toList
  · rw [settle_settled (.ok (.hex token)) (by simp [hex, hash, Except.map]), if_pos hash]
    rfl
  rw [settle_passed (by simp [hex, hash]), if_neg hash]
  by_cases zero : token = "0" ∧ property ∉ Argument.unitlessZero
  · rw [settle_settled (.ok .zeroLength) (by rw [zeroLength, if_pos zero]; rfl), if_pos zero]
    rfl
  rw [settle_passed (by rw [zeroLength, if_neg zero]), if_neg zero]
  cases decimal : Argument.decimalSuffix? (Argument.dropFinalNewline token.toList) with
  | some text =>
    exact settle_settled (.ok (.number (String.ofList text))) (by rw [number, decimal]; rfl)
  | none =>
    rw [settle_passed (by rw [number, decimal]; rfl)]
    cases whole : Argument.integerSuffix? (Argument.dropFinalNewline token.toList) with
    | some text =>
      exact settle_settled (.ok (.integer (String.ofList text))) (by rw [integer, whole]; rfl)
    | none =>
      rw [settle_passed (by rw [integer, whole]; rfl), settle_unfinished]
      cases Argument.percentage? token.toList <;> rfl

/-- The steps give the style of the declaration. -/
theorem translate_eq (t : ExemptionTable) (d : Declaration) :
    translate t d = .ok (Style.of t d) := by
  have classified : d.tokens.mapM (classify d.property) =
      (arguments d).mapError .unclassifiable := by
    rw [arguments, ← mapM_mapError]
    exact congrArg d.tokens.mapM (funext (classify_eq d.property))
  simp only [translate, Style.of, formOf, classified]
  split
  · rfl
  split
  · rfl
  split
  · rfl
  split
  · rfl
  cases success : arguments d with
  | error cause => rfl
  | ok as =>
    have lengths := (mapM_success _ _ _ success).length_eq
    rw [lengths]
    rfl

/-- The form of a declaration is up to its tokens: nothing else has settled it. -/
structure Undecided (t : ExemptionTable) (d : Declaration) : Prop where
  named : ¬['-', '-'] <+: d.property.toList
  regular : ¬t.isExempt d.property d.value
  other : ¬(d.property = "display" ∧ d.value = "flex")

/-- The forms of a declaration, each with all that leads to it. -/
inductive Chosen (t : ExemptionTable) (d : Declaration) : Form → Prop
  | custom (hyphens : ['-', '-'] <+: d.property.toList) : Chosen t d (.generic .customProperty)
  | exempt (listed : t.isExempt d.property d.value) : Chosen t d (.generic .exempt)
  | constant (flex : d = flexDisplay) : Chosen t d (.typed "displayFlex" [])
  | empty (undecided : Undecided t d) (blank : d.tokens = []) : Chosen t d (.generic .emptyValue)
  | unclassifiable {cause : Argument.Unclassifiable} (undecided : Undecided t d)
    (failure : arguments d = .error cause) : Chosen t d (.generic (.unclassifiable cause))
  | typed {as : List Argument} (undecided : Undecided t d) (filled : d.tokens ≠ [])
    (success : arguments d = .ok as) : Chosen t d (.typed (functionName d.property as.length) as)

theorem formOf_chosen (t : ExemptionTable) (d : Declaration) : Chosen t d (formOf t d) := by
  unfold formOf
  split
  next custom => exact .custom (List.isPrefixOf_iff_prefix.mp custom)
  next named =>
  split
  next listed => exact .exempt listed
  next regular =>
  split
  next flex => exact .constant flex
  next other =>
  have undecided : Undecided t d := by
    refine ⟨fun hyphens => named (List.isPrefixOf_iff_prefix.mpr hyphens), regular, ?_⟩
    rintro ⟨display, flex⟩
    exact other (Declaration.ext display flex)
  split
  next blank => exact .empty undecided blank
  next filled =>
  split
  next as success => exact .typed undecided filled success
  next cause failure => exact .unclassifiable undecided failure

/-- The reasons for the generic form that lie in the tokens of the value. -/
def ofTokens : Fallback → Bool
  | .emptyValue => true
  | .unclassifiable _ => true
  | _ => false

/-- The style has the typed form: a function on the arguments of all tokens, in order, or else the
constant for its declaration. Its code is the generic form of no declaration. -/
structure Typed (d : Declaration) (s : Style) : Prop where
  noFallback : s.fallback? = none
  function : ∃ function, s.function? = some function
  specific : ∀ other, s.expression ≠ genericExpression other
  arguments : if d = flexDisplay then s.arguments = []
    else List.Forall₂ (fun token a => Argument.ofToken d.property token = .ok a)
      d.tokens s.arguments

/-- The style has the generic form and nothing of the typed one. -/
structure Generic (d : Declaration) (s : Style) : Prop where
  fallback : ∃ reason, s.fallback? = some reason
  noFunction : s.function? = none
  noArguments : s.arguments = []
  generic : s.expression = genericExpression d

theorem typed_arguments (t : ExemptionTable) (d : Declaration) (function : String)
    (as : List Argument) (typed : formOf t d = .typed function as) :
    if d = flexDisplay then as = []
    else List.Forall₂ (fun token a => Argument.ofToken d.property token = .ok a) d.tokens as := by
  have chosen := formOf_chosen t d
  rw [typed] at chosen
  cases chosen with
  | constant flex => rw [if_pos flex]
  | typed undecided filled success =>
    have other : d ≠ flexDisplay := by
      rintro rfl
      exact undecided.other ⟨rfl, rfl⟩
    rw [if_neg other]
    exact mapM_success _ _ _ success

theorem typed_of_form (t : ExemptionTable) (d : Declaration) (function : String)
    (as : List Argument) (typed : formOf t d = .typed function as) : Typed d (Style.of t d) where
  noFallback := by simp [Style.of_eq typed]
  function := ⟨function, by simp [Style.of_eq typed]⟩
  specific := by
    intro other same
    have ends := Code.typed_getLast t d function as typed
    rw [same, Code.generic_getLast] at ends
    exact ends rfl
  arguments := by
    have given := Style.arguments_of_typed typed
    rw [given]
    exact typed_arguments t d function as typed

theorem generic_of_form (t : ExemptionTable) (d : Declaration) (reason : Fallback)
    (generic : formOf t d = .generic reason) : Generic d (Style.of t d) where
  fallback := ⟨reason, by simp [Style.of_eq generic]⟩
  noFunction := by simp [Style.of_eq generic]
  noArguments := by simp [Style.of_eq generic]
  generic := by simp [Style.of_eq generic]

theorem fallback_of_tokens_iff (t : ExemptionTable) (d : Declaration) :
    (∃ reason, (Style.of t d).fallback? = some reason ∧ ofTokens reason) ↔
      Undecided t d ∧ (d.tokens = [] ∨
        ∃ token ∈ d.tokens, ∃ cause, Argument.ofToken d.property token = .error cause) := by
  rw [← mapM_failure_iff]
  have chosen := formOf_chosen t d
  simp only [Style.of, Style.fallback?]
  generalize formOf t d = form at chosen
  cases chosen with
  | custom hyphens => exact iff_of_false (by simp [ofTokens]) fun right => right.1.named hyphens
  | exempt listed => exact iff_of_false (by simp [ofTokens]) fun right => right.1.regular listed
  | constant flex =>
    exact iff_of_false (by simp) fun right => right.1.other (by simp [flex, flexDisplay])
  | empty undecided blank => exact iff_of_true ⟨_, rfl, rfl⟩ ⟨undecided, .inl blank⟩
  | unclassifiable undecided failure =>
    exact iff_of_true ⟨_, rfl, rfl⟩ ⟨undecided, .inr ⟨_, failure⟩⟩
  | typed undecided filled success =>
    refine iff_of_false (by simp) ?_
    rintro ⟨-, blank | ⟨cause, failure⟩⟩
    · exact filled blank
    · cases success.symm.trans failure

/-- No failure leaves the translation of a declaration, and only one kind of failure leaves the
classification of a token. The style is typed with all its tokens, or generic as a whole. It is
generic on account of its tokens exactly if nothing else has settled it, and it has no token or one
that cannot be classified. -/
theorem translate_total (t : ExemptionTable) (d : Declaration) :
    translate t d = .ok (Style.of t d) ∧
    (∀ property token,
      classify property token = (Argument.ofToken property token).mapError .unclassifiable) ∧
    (Typed d (Style.of t d) ∨ Generic d (Style.of t d)) ∧
    ((∃ reason, (Style.of t d).fallback? = some reason ∧ ofTokens reason) ↔
      Undecided t d ∧ (d.tokens = [] ∨
        ∃ token ∈ d.tokens, ∃ cause, Argument.ofToken d.property token = .error cause)) := by
  refine ⟨translate_eq t d, classify_eq, ?_, fallback_of_tokens_iff t d⟩
  cases form : formOf t d with
  | typed function as => exact .inl (typed_of_form t d function as form)
  | generic reason => exact .inr (generic_of_form t d reason form)

end Fallible

end ElmStyle.Elm
