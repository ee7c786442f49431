import ElmStyle.Elm.Style
import ElmStyle.Text.Order

/-!
# Modules

A class becomes one definition, a batch of its styles. A module exposes the definitions of its
classes in the order of their names and holds them in the order of the classes. `definition`,
`definitions`, `header` and `ModuleSpec.source` are `emit_function`, `emit_body`, `module_header`
and `module_source` of `twelm`.
-/
namespace ElmStyle.Elm

open Css (ClassEntry)

/-- What stands between two styles of a batch. -/
def styleSeparator : String := ", \n      "

/-- Styles that are already joined, inside the function of a pseudo-selector if there is one. -/
def inState (pseudo : Option String) (styles : String) : String :=
  match pseudo.filter (· != "") with
  | some state => cssModule ++ "." ++ identifier state ++ " [\n        " ++ styles ++ "\n      ]"
  | none => styles

/-- The definition of a class as a value of the given type. -/
def definition (type : String) (exemptions : ExemptionTable) (entry : ClassEntry) : String :=
  let body := styleSeparator.intercalate ((styles exemptions entry).map Style.expression)
  "\n\n" ++ entry.name ++ " : " ++ type ++ "\n" ++ entry.name ++ " =\n    " ++ cssModule ++
    ".batch [\n      " ++ inState entry.pseudo body ++ "\n    ]\n"

/-- The definitions of the classes, in order. -/
def definitions (type : String) (exemptions : ExemptionTable) (entries : List ClassEntry) :
    String :=
  String.join (entries.map (definition type exemptions))

/-- What stands between two names of an exposing list. -/
def exportSeparator : String := "\n    , "

/-- The names of the classes, in order. -/
def exportedNames (entries : List ClassEntry) : List String :=
  Text.sorted (entries.map ClassEntry.name)

/-- The inside of the exposing list. -/
def exports (entries : List ClassEntry) : String :=
  exportSeparator.intercalate (exportedNames entries)

/-- The modules that a generated module imports. -/
def imports : List String := ["Css", "Css.Media"]

/-- The head of a module, down to its imports. -/
def header (moduleName : String) (entries : List ClassEntry) : String :=
  "module " ++ moduleName ++ " exposing\n    ( " ++ exports entries ++ "\n    )\n\n" ++
    "\n".intercalate (imports.map ("import " ++ ·)) ++ "\n\n"

/-- What a generated module is made of, apart from its classes. -/
structure ModuleSpec where
  moduleName : String
  styleType : String
  exemptions : ExemptionTable
  deriving DecidableEq, Repr

/-- The source of a module. -/
def ModuleSpec.source (spec : ModuleSpec) (entries : List ClassEntry) : String :=
  header spec.moduleName entries ++ definitions spec.styleType spec.exemptions entries

/-- The notes of putting the source together. -/
def ModuleSpec.notes (spec : ModuleSpec) (entries : List ClassEntry) : List Note :=
  .assembling spec.moduleName entries.length :: stylingNotes spec.exemptions entries

end ElmStyle.Elm
