import ElmStyle.Diagnostic
import ElmStyle.Elm.Module
import ElmStyle.Vocabulary

/-!
# Lint

Rules that compare what is generated for the classes with the vocabulary of elm-css. An unknown
function or unit is a warning, an unknown pseudo-selector an error, and a declaration in the generic
form a remark. A rule has the name that its function has in `twelm`; `Lint.run` is `validate`, and
`Lint.accept` is `validate_or_raise`. An extra rule is one of the stock rules applied once more;
rules from outside are left out.
-/
namespace ElmStyle

open Css (Declaration ClassEntry)
open Elm (Style Argument Fallback)

inductive Rule where
  | functionKnown | unitKnown | pseudoKnown | fallbacks
  deriving DecidableEq, Repr

namespace Rule

def all : List Rule := [.functionKnown, .unitKnown, .pseudoKnown, .fallbacks]

/-- The name under which a diagnostic gives its rule. -/
def name : Rule → String
  | .functionKnown => "check_constructor_known"
  | .unitKnown => "check_unit_known"
  | .pseudoKnown => "check_pseudo_known"
  | .fallbacks => "check_fallbacks"

def ofName? (s : String) : Option Rule := all.find? (·.name = s)

end Rule

namespace Lint

/-- The words for the reason of a generic form. -/
def reasonText : Fallback → String
  | .customProperty => "custom property"
  | .exempt => "exempt from typed translation"
  | .emptyValue => "value could not be classified"
  | .unclassifiable _ => "value could not be classified"

/-- The warning about a typed style whose function is not known. -/
def unknownFunction (className : String) (d : Declaration) (function : String) : Diagnostic where
  rule := Rule.functionKnown.name
  severity := .warning
  message := s!"Unknown elm-css constructor '{Elm.cssModule}.{function}' " ++
    s!"for '{d.property}: {d.value}'."
  className := some className
  property := some d.property
  fix := some s!"Exempt '{d.property}' or add '{function}' to the vocabulary."

/-- The warning about an argument whose function is not known. -/
def unknownUnit (className : String) (d : Declaration) (unit : String) : Diagnostic where
  rule := Rule.unitKnown.name
  severity := .warning
  message := s!"Unknown elm-css unit '{Elm.cssModule}.{unit}' in '{d.value}'."
  className := some className
  property := some d.property
  fix := some s!"Exempt '{d.property}' or add '{unit}' to the vocabulary."

/-- The error about a class in a state whose function is not known. -/
def unknownPseudo (className state : String) : Diagnostic where
  rule := Rule.pseudoKnown.name
  severity := .error
  message := s!"Unknown pseudo-selector '{state}' ({Elm.cssModule}.{Elm.identifier state})."
  className := some className
  property := none
  fix := some "Drop the class or add the pseudo-class to the vocabulary."

/-- The remark on a declaration in the generic form. -/
def genericRemark (className : String) (reason : Fallback) (d : Declaration) : Diagnostic where
  rule := Rule.fallbacks.name
  severity := .info
  message := s!"'{d.property}: {d.value}' uses {Elm.cssModule}.property ({reasonText reason})."
  className := some className
  property := some d.property
  fix := none

/-- The function of a typed style must be known. -/
def checkFunction (vocabulary : Vocabulary) (className : String) (style : Style) :
    List Diagnostic :=
  match style.function? with
  | none => []
  | some function =>
    if vocabulary.functions.contains function then []
    else [unknownFunction className style.declaration function]

/-- The function of an argument must be known. -/
def checkArgument (vocabulary : Vocabulary) (className : String) (d : Declaration)
    (argument : Argument) : List Diagnostic :=
  if argument.isKeyword || vocabulary.units.contains argument.name then []
  else [unknownUnit className d argument.name]

/-- The functions of the arguments must be known. -/
def checkArguments (vocabulary : Vocabulary) (className : String) (style : Style) :
    List Diagnostic :=
  style.arguments.flatMap (checkArgument vocabulary className style.declaration)

/-- The pseudo-selector of a class must be known. -/
def checkPseudo (vocabulary : Vocabulary) (entry : ClassEntry) : List Diagnostic :=
  match entry.state? with
  | none => []
  | some state =>
    if vocabulary.pseudoClasses.contains (Elm.identifier state) then []
    else [unknownPseudo entry.name state]

/-- A style in the generic form is worth a remark. -/
def checkFallback (className : String) (style : Style) : List Diagnostic :=
  match style.fallback? with
  | none => []
  | some reason => [genericRemark className reason style.declaration]

/-- A check of every style of every class, in order. -/
def onStyles (exemptions : ExemptionTable) (check : String → Style → List Diagnostic)
    (entries : List ClassEntry) : List Diagnostic :=
  entries.flatMap fun entry => (Elm.styles exemptions entry).flatMap (check entry.name)

end Lint

open Lint

/-- The findings of one rule. -/
def Rule.findings (rule : Rule) (vocabulary : Vocabulary) (exemptions : ExemptionTable)
    (entries : List ClassEntry) : List Diagnostic :=
  match rule with
  | .functionKnown => onStyles exemptions (checkFunction vocabulary) entries
  | .unitKnown => onStyles exemptions (checkArguments vocabulary) entries
  | .pseudoKnown => entries.flatMap (checkPseudo vocabulary)
  | .fallbacks => onStyles exemptions checkFallback entries

/-- The notes of applying one rule, which renders the declarations unless it looks at
pseudo-selectors only. -/
def Rule.notes (rule : Rule) (exemptions : ExemptionTable) (entries : List ClassEntry) :
    List Note :=
  match rule with
  | .pseudoKnown => []
  | _ => Elm.stylingNotes exemptions entries

namespace Lint

/-- The findings of all rules and then of the extra ones, rule by rule. -/
def run (vocabulary : Vocabulary) (exemptions : ExemptionTable) (extra : List Rule)
    (entries : List ClassEntry) : List Diagnostic :=
  (Rule.all ++ extra).flatMap fun rule => rule.findings vocabulary exemptions entries

/-- The notes of applying all rules. -/
def notes (exemptions : ExemptionTable) (entries : List ClassEntry) : List Note :=
  Rule.all.flatMap fun rule => rule.notes exemptions entries

/-- The classes would give a module that does not compile. -/
structure Rejection where
  errors : List Diagnostic
  deriving DecidableEq, Repr

def Rejection.message (r : Rejection) : String :=
  s!"{r.errors.length} validation error(s):\n" ++
    "\n".intercalate (r.errors.map fun d => "  " ++ d.text)

/-- The findings, unless one of them is an error. -/
def accept (vocabulary : Vocabulary) (exemptions : ExemptionTable) (extra : List Rule)
    (entries : List ClassEntry) : Except Rejection (List Diagnostic) :=
  let findings := run vocabulary exemptions extra entries
  match Diagnostic.errors findings with
  | [] => .ok findings
  | errors => .error ⟨errors⟩

end Lint

end ElmStyle
