import ElmStyle.Css.Declaration
import ElmStyle.Elm.Argument
import ElmStyle.Exemption
import ElmStyle.Note

/-!
# Styles

A declaration becomes one elm-css style. It has the typed form, a function applied to the arguments
of the value, or else the generic form, which holds the property and the value as strings. Every
declaration has exactly one of them. `Style.of` is `translate_declaration` of `twelm`, and
`genericExpression` is its `property_expression`.
-/
namespace ElmStyle.Elm

open Css (Declaration ClassEntry)

/-- Why a declaration has the generic form. -/
inductive Fallback where
  | customProperty
  | exempt
  | emptyValue
  | unclassifiable (cause : Argument.Unclassifiable)
  deriving DecidableEq, Repr

inductive Form where
  | typed (function : String) (arguments : List Argument)
  | generic (reason : Fallback)
  deriving DecidableEq, Repr

/-- A declaration and the form it is rendered in. -/
structure Style where
  declaration : Declaration
  form : Form
  deriving DecidableEq, Repr

/-- The function of a property: functions of several arguments carry their number in their name. -/
def functionName (property : String) (arity : Nat) : String :=
  if 1 < arity then identifier property ++ Nat.repr arity else identifier property

/-- The tokens of a value as arguments, or the first token that is none. -/
def arguments (d : Declaration) : Except Argument.Unclassifiable (List Argument) :=
  d.tokens.mapM (Argument.ofToken d.property)

/-- The declaration that elm-css has a constant for. -/
def flexDisplay : Declaration := .mk "display" "flex"

/-- The form of a declaration under a table of exemptions. -/
def formOf (exemptions : ExemptionTable) (d : Declaration) : Form :=
  if d.isCustom then .generic .customProperty
  else if exemptions.isExempt d.property d.value then .generic .exempt
  else if d = flexDisplay then .typed "displayFlex" []
  else if d.tokens = [] then .generic .emptyValue
  else match arguments d with
    | .ok arguments => .typed (functionName d.property arguments.length) arguments
    | .error cause => .generic (.unclassifiable cause)

/-- One character inside a string literal. -/
def escapeChar (c : Char) : List Char :=
  if c = '\\' ∨ c = Text.doubleQuote then ['\\', c] else [c]

/-- The inside of the string literal that denotes a text. -/
def escape (s : String) : String := String.ofList (s.toList.flatMap escapeChar)

/-- The generic form of a declaration. -/
def genericExpression (d : Declaration) : String :=
  cssModule ++ ".property \"" ++ d.property ++ "\" \"" ++ escape d.value ++ "\""

namespace Style

/-- The style of a declaration. -/
def of (exemptions : ExemptionTable) (d : Declaration) : Style := ⟨d, formOf exemptions d⟩

/-- The Elm expression of a style. -/
def expression (s : Style) : String :=
  match s.form with
  | .typed function arguments =>
    " ".intercalate ((cssModule ++ "." ++ function) :: arguments.map Argument.expression)
  | .generic _ => genericExpression s.declaration

def function? (s : Style) : Option String :=
  match s.form with
  | .typed function _ => some function
  | .generic _ => none

def arguments (s : Style) : List Argument :=
  match s.form with
  | .typed _ arguments => arguments
  | .generic _ => []

def fallback? (s : Style) : Option Fallback :=
  match s.form with
  | .typed _ _ => none
  | .generic reason => some reason

section

variable (exemptions : ExemptionTable) (d : Declaration) (function : String)
  (arguments : List Argument) (reason : Fallback)

@[simp] theorem declaration_of : (of exemptions d).declaration = d := rfl

@[simp] theorem form_of : (of exemptions d).form = formOf exemptions d := rfl

@[simp] theorem function_typed : function? ⟨d, .typed function arguments⟩ = some function := rfl

@[simp] theorem function_generic : function? ⟨d, .generic reason⟩ = none := rfl

@[simp] theorem arguments_typed : Style.arguments ⟨d, .typed function arguments⟩ = arguments := rfl

@[simp] theorem arguments_generic : Style.arguments ⟨d, .generic reason⟩ = [] := rfl

@[simp] theorem fallback_typed : fallback? ⟨d, .typed function arguments⟩ = none := rfl

@[simp] theorem fallback_generic : fallback? ⟨d, .generic reason⟩ = some reason := rfl

@[simp] theorem expression_generic :
    expression ⟨d, .generic reason⟩ = genericExpression d := rfl

end

/-- A style by its form, from which the lemmas above read the rest. -/
theorem of_eq {exemptions : ExemptionTable} {d : Declaration} {form : Form}
    (chosen : formOf exemptions d = form) : of exemptions d = ⟨d, form⟩ := by
  rw [of, chosen]

theorem arguments_of_typed {exemptions : ExemptionTable} {d : Declaration} {function : String}
    {arguments : List Argument} (typed : formOf exemptions d = .typed function arguments) :
    (of exemptions d).arguments = arguments := by
  rw [of_eq typed, arguments_typed]

/-- The note that goes with a value that could not be rendered. -/
def note? (s : Style) : Option Note :=
  match s.form with
  | .generic .emptyValue =>
    some (.generic s!"Empty value for {s.declaration.property}, using {cssModule}.property")
  | .generic (.unclassifiable cause) =>
    some (.generic s!"{s.declaration.property}: {cause.message}, using {cssModule}.property")
  | _ => none

end Style

/-- The styles of a class, in order. -/
def styles (exemptions : ExemptionTable) (entry : ClassEntry) : List Style :=
  entry.declarations.map (Style.of exemptions)

/-- The notes of rendering every declaration of the classes once. -/
def stylingNotes (exemptions : ExemptionTable) (entries : List ClassEntry) : List Note :=
  entries.flatMap fun entry => (styles exemptions entry).filterMap Style.note?

end ElmStyle.Elm
