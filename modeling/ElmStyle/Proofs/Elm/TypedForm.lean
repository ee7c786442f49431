import ElmStyle.Proofs.Elm.Emitted
import ElmStyle.Proofs.Elm.Hyphenated
import ElmStyle.Proofs.Text.Cutting

/-!
# Typed styles can be read back

The function of a typed style and its arguments, read from its code at the blanks alone. A token
holds no blank, so an argument is one word, or two words in parentheses. The number of arguments
tells what the function has at its end, and the rest of its name tells the property.
-/
namespace ElmStyle.Elm.Code

open Css (Declaration)

/-- The words of an argument: itself if it opens no parenthesis, else the called function and what
it is called on. -/
inductive Worded : String → List String → Prop
  | word (code : String) (solid : ' ' ∉ code.toList) (bare : code.toList.head? ≠ some '(') :
    Worded code [code]
  | call (front back : String) (frontSolid : ' ' ∉ front.toList) (backSolid : ' ' ∉ back.toList)
    (opens : front.toList.head? = some '(') : Worded (front ++ " " ++ back) [front, back]

/-- The arguments that a row of words is made of. -/
def gather : List String → List String
  | [] => []
  | [word] => [word]
  | word :: next :: rest =>
    if word.toList.head? = some '(' then (word ++ " " ++ next) :: gather rest
    else word :: gather (next :: rest)

/-- The function and the arguments of a typed style. -/
def readTyped (code : String) : Option (String × List String) :=
  match Text.splitOn " " code with
  | [] => none
  | head :: words =>
    (between? "Css.".toList [] head.toList).map fun function => (function, gather words)

theorem gather_word (word : String) (rest : List String) (bare : word.toList.head? ≠ some '(') :
    gather (word :: rest) = word :: gather rest := by
  cases rest with
  | nil => rfl
  | cons next later => rw [gather, if_neg bare]

theorem Worded.solid {code : String} {words : List String} (worded : Worded code words) :
    ∀ word ∈ words, ' ' ∉ word.toList := by
  cases worded with
  | word _ solid bare => simpa using solid
  | call front back frontSolid backSolid opens => simp [frontSolid, backSolid]

theorem Worded.spaced {code : String} {words : List String} (worded : Worded code words) :
    words.flatMap (fun word => ' ' :: word.toList) = ' ' :: code.toList := by
  cases worded with
  | word _ solid bare => simp
  | call front back frontSolid backSolid opens => simp

theorem gather_words (codes : List String) (rows : List (List String))
    (worded : List.Forall₂ Worded codes rows) : gather rows.flatten = codes := by
  induction worded with
  | nil => rfl
  | cons first _ ih =>
    rw [List.flatten_cons]
    cases first with
    | word _ solid bare => rw [List.singleton_append, gather_word _ _ bare, ih]
    | call front back frontSolid backSolid opens =>
      rw [List.cons_append, List.singleton_append, gather, if_pos opens, ih]

/-- Joining the arguments is joining their words. -/
theorem spaced_words (head : String) (codes : List String) (rows : List (List String))
    (worded : List.Forall₂ Worded codes rows) :
    " ".intercalate (head :: codes) = " ".intercalate (head :: rows.flatten) := by
  have spaced : codes.flatMap (fun code => ' ' :: code.toList) =
      rows.flatten.flatMap fun word => ' ' :: word.toList := by
    induction worded with
    | nil => rfl
    | cons first _ ih =>
      rw [List.flatten_cons, List.flatMap_cons, List.flatMap_append, first.spaced, ih]
  apply String.toList_injective
  rw [spaced_toList, spaced_toList, spaced]

theorem splitOn_words (head : String) (codes : List String) (rows : List (List String))
    (solid : ' ' ∉ head.toList) (worded : List.Forall₂ Worded codes rows) :
    Text.splitOn " " (" ".intercalate (head :: codes)) = head :: rows.flatten := by
  rw [spaced_words head codes rows worded]
  refine Text.splitOn_intercalate ' ' [] " " rfl _ (by simp) ?_
  intro word member
  rcases List.mem_cons.mp member with rfl | later
  · exact solid
  · obtain ⟨row, held, inside⟩ := List.mem_flatten.mp later
    obtain ⟨code, -, first⟩ := forall₂_mem_right worded row held
    exact first.solid word inside

/-- Each argument of a style is one word or a call of two words: names and numbers hold no blank,
and neither does a token. -/
theorem argument_worded (t : ExemptionTable) (d : Declaration) (a : Argument)
    (member : a ∈ (Style.of t d).arguments) : ∃ words, Worded a.expression words := by
  have called : ∀ function operand : String, ' ' ∉ function.toList → ' ' ∉ operand.toList →
      ∃ words, Worded (Argument.call function operand) words := by
    intro function operand name solid
    have text : Argument.call function operand =
        ("(Css." ++ function) ++ " " ++ (operand ++ ")") := by
      apply String.toList_injective
      simp [Argument.call, cssModule]
    rw [text]
    exact ⟨_, .call _ _ (by simpa using name) (by simpa using solid) (by simp)⟩
  have number : ∀ text : String, (∀ c ∈ text.toList, Decimal.isNumberChar c) →
      ' ' ∉ text.toList := by
    intro text held blank
    exact absurd (held ' ' blank) (by decide)
  obtain ⟨token, held, parts⟩ := mem_arguments_parts t d a member
  cases a with
  | hex text =>
    have same : text = token := parts
    subst same
    apply called "hex" _ (by decide)
    intro blank
    have inside : ' ' ∈ text.toList := by simpa using blank
    exact absurd ((Text.mem_words d.value text held).2 ' ' inside) (by decide)
  | zeroLength => exact called "px" "0" (by decide) (by decide)
  | number text => exact called "num" text (by decide) (number text parts)
  | integer text => exact called "int" text (by decide) (number text parts)
  | percentage text => exact called "pct" text (by decide) (number text parts)
  | length unit text =>
    apply called unit text _ (number text parts.2)
    intro blank
    exact absurd (parts.1 ' ' blank) (by decide)
  | keyword name =>
    refine ⟨_, .word _ ?_ (by simp [Argument.expression, cssModule])⟩
    intro blank
    have inside : ' ' ∈ name.toList := by simpa [Argument.expression, cssModule] using blank
    exact absurd (mem_valueName _ parts ' ' inside) (by decide)

/-- A declaration of a property in letters whose value is translated token by token. -/
structure TypedBy (t : ExemptionTable) (d : Declaration) (function : String)
    (arguments : List Argument) : Prop where
  property : Hyphenated IsLetters d.property.toList
  other : d.property ≠ "nowrap"
  form : formOf t d = .typed function arguments
  filled : arguments ≠ []

namespace TypedBy

variable {t : ExemptionTable} {d : Declaration} {function : String} {arguments : List Argument}
  (typed : TypedBy t d function arguments)

include typed

theorem arguments_eq : (Style.of t d).arguments = arguments := by
  rw [Style.arguments_of_typed typed.form]

/-- The function of the property for as many arguments as there are tokens. -/
theorem function_eq :
    function = functionName d.property d.tokens.length ∧ arguments.length = d.tokens.length := by
  rcases formOf_typed t d function arguments typed.form with ⟨-, none⟩ | ⟨name, -, aligned⟩
  · exact absurd none typed.filled
  · have lengths := aligned.length_eq
    rw [lengths]
    exact ⟨name, rfl⟩

theorem function_solid : ' ' ∉ function.toList := by
  intro blank
  rw [typed.function_eq.1] at blank
  have camel := functionName_camel d.property _ (letters_kebab typed.property) ' ' blank
  exact absurd camel (by decide)

/-- The number of tokens ends the name of the function if there are several. A single token leaves
the name of the property, which ends in no digit. -/
theorem suffix_iff :
    (Nat.repr d.tokens.length).toList <:+ function.toList ↔ 1 < d.tokens.length := by
  obtain ⟨name, lengths⟩ := typed.function_eq
  have some : 0 < d.tokens.length := by
    rw [← lengths]
    exact List.length_pos_iff.mpr typed.filled
  constructor
  · intro ends
    by_contra few
    have one : d.tokens.length = 1 := by omega
    rw [name, one, functionName, if_neg (by decide)] at ends
    have digit : '1' ∈ (identifier d.property).toList := ends.subset (by decide)
    exact absurd (identifier_digitless d.property typed.property '1' digit) (by decide)
  · intro several
    rw [name, functionName, if_pos several, String.toList_append]
    exact List.suffix_append _ _

/-- The code of the style gives back the function and the code of each argument. -/
theorem read : readTyped (Style.of t d).expression =
    some (function, arguments.map Argument.expression) := by
  have each : ∀ code ∈ arguments.map Argument.expression, ∃ words, Worded code words := by
    intro code member
    obtain ⟨a, held, rfl⟩ := List.mem_map.mp member
    rw [← typed.arguments_eq] at held
    exact argument_worded t d a held
  obtain ⟨rows, worded⟩ := exists_forall₂ _ each
  have head : ' ' ∉ (cssModule ++ "." ++ function).toList := by
    simpa [cssModule] using typed.function_solid
  have called :
      between? "Css.".toList [] (cssModule ++ "." ++ function).toList = some function := by
    rw [between_eq_some]
    simp [cssModule]
  rw [Style.of_eq typed.form, Style.expression, readTyped,
    splitOn_words _ _ rows head worded]
  simp only [called, Option.map_some, gather_words _ rows worded]

end TypedBy

theorem keyword_expression (a : Argument) (keyword : a.isKeyword) :
    a.expression = "Css." ++ a.name := by
  cases a with
  | keyword name => rfl
  | _ => cases keyword

/-- The code of an argument tells what it refers to. -/
theorem name_of_expression (t₁ t₂ : ExemptionTable) (d₁ d₂ : Declaration) (a b : Argument)
    (first : a ∈ (Style.of t₁ d₁).arguments) (second : b ∈ (Style.of t₂ d₂).arguments)
    (same : a.expression = b.expression) : a.name = b.name := by
  obtain ⟨token, -, parts⟩ := mem_arguments_parts t₁ d₁ a first
  obtain ⟨other, -, otherParts⟩ := mem_arguments_parts t₂ d₂ b second
  have called := parenthesized_expression token a parts
  rw [same, parenthesized_expression other b otherParts] at called
  by_cases keyword : a.isKeyword
  · by_cases otherKeyword : b.isKeyword
    · rw [keyword_expression a keyword, keyword_expression b otherKeyword] at same
      exact String.append_right_inj _ |>.mp same
    · rw [if_pos keyword, if_neg otherKeyword] at called
      cases called
  · by_cases otherKeyword : b.isKeyword
    · rw [if_neg keyword, if_pos otherKeyword] at called
      cases called
    · rw [if_neg keyword, if_neg otherKeyword] at called
      exact (Option.some.inj called).symm

/-- Equal codes of rows of arguments make the rows refer to the same names, place by place. -/
theorem names_of_expressions (t₁ t₂ : ExemptionTable) (d₁ d₂ : Declaration)
    (as bs : List Argument) (first : ∀ a ∈ as, a ∈ (Style.of t₁ d₁).arguments)
    (second : ∀ b ∈ bs, b ∈ (Style.of t₂ d₂).arguments)
    (same : as.map Argument.expression = bs.map Argument.expression) :
    List.Forall₂ (fun a b => a.name = b.name ∧ a.expression = b.expression) as bs := by
  induction as generalizing bs with
  | nil =>
    cases bs with
    | nil => exact .nil
    | cons b later => cases same
  | cons a rest ih =>
    cases bs with
    | nil => cases same
    | cons b later =>
      rw [List.map_cons, List.map_cons, List.cons.injEq] at same
      have name :=
        name_of_expression t₁ t₂ d₁ d₂ a b (first a (by simp)) (second b (by simp)) same.1
      refine .cons ⟨name, same.1⟩ (ih later ?_ ?_ same.2)
      · exact fun x member => first x (by simp [member])
      · exact fun x member => second x (by simp [member])

theorem identifier_of_functionName (one two : String) (arity : Nat)
    (same : functionName one arity = functionName two arity) : identifier one = identifier two := by
  unfold functionName at same
  split at same
  · exact (String.append_left_inj _).mp same
  · exact same

/-- Two typed styles with the same code are those of the same property on as many tokens, and their
arguments agree place by place in what they refer to and in their code. The function of a typed
style carries the number of tokens at its end exactly if there are several, and as many arguments
follow it in the code. -/
theorem typed_code_determines (t₁ t₂ : ExemptionTable) (d₁ d₂ : Declaration)
    (function₁ function₂ : String) (arguments₁ arguments₂ : List Argument)
    (first : TypedBy t₁ d₁ function₁ arguments₁) (second : TypedBy t₂ d₂ function₂ arguments₂) :
    ((Style.of t₁ d₁).expression = (Style.of t₂ d₂).expression →
      d₁.property = d₂.property ∧ d₁.tokens.length = d₂.tokens.length ∧
        List.Forall₂ (fun a b => a.name = b.name ∧ a.expression = b.expression)
          arguments₁ arguments₂) ∧
    ((Nat.repr d₁.tokens.length).toList <:+ function₁.toList ↔ 1 < d₁.tokens.length) ∧
    readTyped (Style.of t₁ d₁).expression =
      some (function₁, arguments₁.map Argument.expression) ∧
    arguments₁.length = d₁.tokens.length := by
  obtain ⟨name₁, length₁⟩ := first.function_eq
  obtain ⟨name₂, length₂⟩ := second.function_eq
  refine ⟨?_, first.suffix_iff, first.read, length₁⟩
  intro same
  have read := first.read
  rw [same, second.read, Option.some.injEq, Prod.mk.injEq] at read
  obtain ⟨functions, codes⟩ := read
  have lengths : d₁.tokens.length = d₂.tokens.length := by
    simpa [length₁, length₂] using (congrArg List.length codes).symm
  refine ⟨?_, lengths, ?_⟩
  · rw [name₁, name₂, lengths] at functions
    have names := identifier_of_functionName _ _ _ functions
    exact (identifier_injective _ _ second.property first.property second.other first.other
      names).symm
  · refine names_of_expressions t₁ t₂ d₁ d₂ _ _ ?_ ?_ codes.symm
    · exact fun a member => by rwa [first.arguments_eq]
    · exact fun b member => by rwa [second.arguments_eq]

theorem borderTop_hyphenated : Hyphenated IsLetters "border-top".toList := by
  refine ⟨["border".toList, "top".toList], by simp, ?_, by decide⟩
  intro word member
  rcases List.mem_cons.mp member with rfl | later
  · exact ⟨by decide, List.all_eq_true.mp (by decide)⟩
  · obtain rfl := List.mem_singleton.mp later
    exact ⟨by decide, List.all_eq_true.mp (by decide)⟩

/-- A bare zero and a zero with a unit have the same code, and blanks leave no trace in it. -/
theorem typed_code_determines_zero :
    TypedBy .stock (.mk "border-top" "0 solid #fff") "borderTop3"
      [.zeroLength, .keyword "solid", .hex "#fff"] ∧
    TypedBy .empty (.mk "border-top" "0px  solid #fff") "borderTop3"
      [.length "px" "0", .keyword "solid", .hex "#fff"] ∧
    (Style.of .stock (.mk "border-top" "0 solid #fff")).expression =
      (Style.of .empty (.mk "border-top" "0px  solid #fff")).expression ∧
    List.Forall₂ (fun a b : Argument => a.name = b.name ∧ a.expression = b.expression)
      [.zeroLength, .keyword "solid", .hex "#fff"]
      [.length "px" "0", .keyword "solid", .hex "#fff"] ∧
    ("3".toList <:+ "borderTop3".toList ↔ 1 < 3) := by
  have first : TypedBy .stock (.mk "border-top" "0 solid #fff") "borderTop3"
      [.zeroLength, .keyword "solid", .hex "#fff"] :=
    ⟨borderTop_hyphenated, by decide, by decide +kernel, by decide⟩
  have second : TypedBy .empty (.mk "border-top" "0px  solid #fff") "borderTop3"
      [.length "px" "0", .keyword "solid", .hex "#fff"] :=
    ⟨borderTop_hyphenated, by decide, by decide +kernel, by decide⟩
  have same : (Style.of .stock (.mk "border-top" "0 solid #fff")).expression =
      (Style.of .empty (.mk "border-top" "0px  solid #fff")).expression := by decide +kernel
  have determined := typed_code_determines _ _ _ _ _ _ _ _ first second
  exact ⟨first, second, same, (determined.1 same).2.2, determined.2.1⟩

end ElmStyle.Elm.Code
