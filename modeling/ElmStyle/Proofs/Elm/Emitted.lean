import ElmStyle.Elm.Module
import ElmStyle.Proofs.Elm.Literal

/-!
# Names in emitted code

The names that emitted code refers to, found in its text alone. The code of a declaration is known
together with the code of its arguments, since a property may hold any text; what is called is then
the text between the module and the arguments. The same holds of a state and the styles in it.
-/
namespace ElmStyle.Elm.Code

open Css (Declaration ClassEntry)

/-- The text between a start and an end, if it has both. -/
def between? (start stop text : List Char) : Option String :=
  ((text.dropPrefix? start).bind (·.dropSuffix? stop)).map String.ofList

theorem between_eq_some (start stop text : List Char) (middle : String) :
    between? start stop text = some middle ↔ text = start ++ (middle.toList ++ stop) := by
  simp only [between?, Option.map_eq_some_iff, Option.bind_eq_some_iff,
    List.dropPrefix?_eq_some_iff, List.dropSuffix?_eq_some_iff, beq_iff_eq]
  constructor
  · rintro ⟨inner, ⟨rest, ⟨front, rfl, rfl⟩, back, rfl, rfl⟩, rfl⟩
    simp
  · rintro rfl
    exact ⟨middle.toList, ⟨_, ⟨start, rfl, rfl⟩, stop, rfl, rfl⟩, String.ofList_toList⟩

/-- The code of a declaration and of its arguments, as it stands in a definition. -/
structure StyleCode where
  declaration : Declaration
  text : String
  arguments : List String
  deriving DecidableEq, Repr

namespace StyleCode

def of (t : ExemptionTable) (d : Declaration) : StyleCode where
  declaration := d
  text := (Style.of t d).expression
  arguments := (Style.of t d).arguments.map Argument.expression

/-- The code is that of the generic form. -/
def isGeneric (s : StyleCode) : Bool := s.text == genericExpression s.declaration

/-- The arguments as they follow the function, each after a blank. -/
def argumentText (s : StyleCode) : List Char := s.arguments.flatMap fun code => ' ' :: code.toList

/-- The function that is called on the arguments. -/
def function? (s : StyleCode) : Option String :=
  between? "Css.".toList s.argumentText s.text.toList

end StyleCode

/-- The function of an argument in parentheses, up to the first blank. -/
def parenthesized? (argument : String) : Option String :=
  (argument.toList.dropPrefix? "(Css.".toList).map fun rest =>
    String.ofList (rest.takeWhile (· != ' '))

/-- The code of a class: what its batch holds, and the styles that are joined in it. -/
structure ClassCode where
  name : String
  batch : String
  styles : List StyleCode
  deriving DecidableEq, Repr

namespace ClassCode

def of (t : ExemptionTable) (entry : ClassEntry) : ClassCode where
  name := entry.name
  batch := inState entry.pseudo
    (styleSeparator.intercalate ((Elm.styles t entry).map Style.expression))
  styles := entry.declarations.map (StyleCode.of t)

/-- The whole definition. -/
def text (type : String) (c : ClassCode) : String :=
  "\n\n" ++ c.name ++ " : " ++ type ++ "\n" ++ c.name ++ " =\n    Css.batch [\n      " ++ c.batch ++
    "\n    ]\n"

/-- The styles of the class, joined. -/
def body (c : ClassCode) : String := styleSeparator.intercalate (c.styles.map StyleCode.text)

/-- The function of the block that the styles are in. -/
def pseudo? (c : ClassCode) : Option String :=
  between? "Css.".toList (" [\n        " ++ c.body ++ "\n      ]").toList c.batch.toList

end ClassCode

theorem definitions_eq_text (type : String) (t : ExemptionTable) (entries : List ClassEntry) :
    definitions type t entries =
      String.join ((entries.map (ClassCode.of t)).map (ClassCode.text type)) := by
  have each : ∀ entry, definition type t entry = (ClassCode.of t entry).text type := by
    intro entry
    apply String.toList_injective
    delta definition ClassCode.text ClassCode.of
    simp [cssModule]
  rw [definitions, List.map_map]
  exact congrArg String.join (List.map_congr_left fun entry _ => each entry)

/-- An argument is in parentheses exactly if it is no keyword, and then calls its function. -/
theorem parenthesized_expression (token : String) (a : Argument) (parts : a.PartsHold token) :
    parenthesized? a.expression = if a.isKeyword then none else some a.name := by
  have called : ∀ function operand : String, ' ' ∉ function.toList →
      parenthesized? (Argument.call function operand) = some function := by
    intro function operand solid
    have text : (Argument.call function operand).toList =
        "(Css.".toList ++ (function.toList ++ ' ' :: (operand.toList ++ [')'])) := by
      simp [Argument.call, cssModule]
    rw [parenthesized?, text, List.dropPrefix?_append_of_beq _ (by simp), Option.map_some,
      (Text.upTo_mark ' ' function.toList _ solid).1, String.ofList_toList]
  cases a with
  | keyword name => simp [parenthesized?, Argument.expression, Argument.isKeyword, cssModule,
      List.dropPrefix?]
  | length unit text =>
    apply called unit
    intro blank
    exact absurd (parts.1 ' ' blank) (by decide)
  | hex text => exact called "hex" _ (by decide)
  | zeroLength => exact called "px" _ (by decide)
  | number text => exact called "num" _ (by decide)
  | integer text => exact called "int" _ (by decide)
  | percentage text => exact called "pct" _ (by decide)

theorem generic_getLast (d : Declaration) :
    (genericExpression d).toList.getLast? = some Text.doubleQuote := by
  have text : (genericExpression d).toList =
      (cssModule ++ ".property \"" ++ d.property ++ "\" \"" ++ escape d.value).toList ++
        [Text.doubleQuote] := by
    simp [genericExpression, Text.doubleQuote]
  rw [text, List.getLast?_concat]

/-- No argument ends in a quote: a colour is shut by a parenthesis, and a keyword is a name. -/
theorem argument_getLast (token : String) (a : Argument) (parts : a.PartsHold token) :
    ∃ c, a.expression.toList.getLast? = some c ∧ c ≠ Text.doubleQuote := by
  have called : ∀ function operand : String,
      (Argument.call function operand).toList.getLast? = some ')' := by
    intro function operand
    simp only [Argument.call, String.toList_append]
    exact List.getLast?_concat
  cases a with
  | keyword name =>
    simp only [Argument.PartsHold] at parts
    have filled : name.toList ≠ [] := by
      intro empty
      simp [empty, isValueName] at parts
    refine ⟨name.toList.getLast filled, ?_, ?_⟩
    · simp only [Argument.expression, String.toList_append]
      rw [List.getLast?_append_of_ne_nil _ filled, List.getLast?_eq_getLast_of_ne_nil filled]
    · intro quote
      have named := mem_valueName _ parts _ (List.getLast_mem filled)
      rw [quote] at named
      exact absurd named (by decide)
  | hex text => exact ⟨')', called _ _, by decide⟩
  | zeroLength => exact ⟨')', called _ _, by decide⟩
  | number text => exact ⟨')', called _ _, by decide⟩
  | integer text => exact ⟨')', called _ _, by decide⟩
  | percentage text => exact ⟨')', called _ _, by decide⟩
  | length unit text => exact ⟨')', called _ _, by decide⟩

theorem typed_getLast (t : ExemptionTable) (d : Declaration) (function : String)
    (arguments : List Argument) (typed : formOf t d = .typed function arguments) :
    (Style.of t d).expression.toList.getLast? ≠ some Text.doubleQuote := by
  have given := Style.arguments_of_typed typed
  rw [Style.of_eq typed, typed_expression_toList]
  rcases formOf_typed t d function arguments typed with ⟨rfl, rfl⟩ | ⟨-, filled, -⟩
  · decide
  · obtain ⟨front, last, rfl⟩ := (List.eq_nil_or_concat arguments).resolve_left filled
    obtain ⟨token, -, parts⟩ := mem_arguments_parts t d last (by simp [given])
    obtain ⟨c, ends, other⟩ := argument_getLast token last parts
    have nonempty : last.expression.toList ≠ [] := by
      intro empty
      simp [empty] at ends
    rw [List.concat_eq_append, List.map_append, List.flatMap_append, ← List.append_assoc,
      List.getLast?_append_of_ne_nil _ (by simp)]
    simp only [List.map_cons, List.map_nil, List.flatMap_cons, List.flatMap_nil, List.append_nil]
    rw [List.getLast?_cons_of_ne_nil nonempty, ends]
    simpa using other

/-- The code of a typed form is not that of the generic form, and its function can be found in it
whatever the property holds. -/
theorem styleCode_typed (t : ExemptionTable) (d : Declaration) (function : String)
    (arguments : List Argument) (typed : formOf t d = .typed function arguments) :
    (StyleCode.of t d).isGeneric = false ∧ (StyleCode.of t d).function? = some function := by
  constructor
  · simp only [StyleCode.isGeneric, StyleCode.of, beq_eq_false_iff_ne, ne_eq]
    intro same
    have ends := typed_getLast t d function arguments typed
    rw [same, generic_getLast] at ends
    exact ends rfl
  · have given := Style.arguments_of_typed typed
    simp only [StyleCode.function?, StyleCode.argumentText, StyleCode.of, given]
    rw [between_eq_some, Style.of_eq typed, typed_expression_toList, List.append_assoc]

theorem styleCode_generic (t : ExemptionTable) (d : Declaration) (reason : Fallback)
    (generic : formOf t d = .generic reason) :
    (StyleCode.of t d).isGeneric = true ∧ (StyleCode.of t d).arguments = [] := by
  constructor
  · simp [StyleCode.isGeneric, StyleCode.of, Style.of_eq generic]
  · simp [StyleCode.of, Style.of_eq generic]

theorem classCode_body (t : ExemptionTable) (entry : ClassEntry) :
    (ClassCode.of t entry).body =
      styleSeparator.intercalate ((styles t entry).map Style.expression) := by
  simp only [ClassCode.body, ClassCode.of, Elm.styles, List.map_map]
  rfl

theorem classCode_batch (t : ExemptionTable) (entry : ClassEntry) (plain : entry.state? = none) :
    (ClassCode.of t entry).batch = (ClassCode.of t entry).body := by
  have given : entry.pseudo.filter (· != "") = none := plain
  rw [classCode_body]
  simp only [ClassCode.of, inState, given]

/-- There is a block exactly if there is a state, and it calls the function of the state. -/
theorem classCode_pseudo (t : ExemptionTable) (entry : ClassEntry) :
    (ClassCode.of t entry).pseudo? = entry.state?.map identifier := by
  cases state : entry.state? with
  | none =>
    rw [Option.map_none, Option.eq_none_iff_forall_not_mem]
    intro p found
    -- a block is longer than the styles in it
    have text := (between_eq_some _ _ _ p).mp found
    have length := congrArg List.length text
    rw [classCode_batch t entry state] at length
    simp at length
    omega
  | some p =>
    have given : entry.pseudo.filter (· != "") = some p := state
    rw [Option.map_some, ClassCode.pseudo?, between_eq_some, classCode_body]
    simp [ClassCode.of, inState, given, cssModule]

end ElmStyle.Elm.Code
