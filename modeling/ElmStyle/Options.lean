import ElmStyle.Elm.Module
import ElmStyle.Elm.Name
import ElmStyle.Files.Tree
import ElmStyle.Json.Read
import ElmStyle.Text.Order

/-!
# Options

What can be chosen for a generated module. An override replaces one default. Overrides come by name,
so that a wrong name or style is an error. `Options.ofOverrides`, `Options.outputs` and
`ExemptionTable.ofFile` are `clean_options`, `output_formats` and `load_exemptions` of `twelm`.
-/
namespace ElmStyle

structure Options where
  file : String
  moduleName : String
  affix : String
  nameStyle : Elm.NameStyle
  styleType : String
  exemptions : ExemptionTable
  deriving DecidableEq, Repr

def Options.stock : Options where
  file := "src/TW/Utilities.elm"
  moduleName := "TW.Utilities"
  affix := ""
  nameStyle := .snake
  styleType := "Css.Style"
  exemptions := .stock

/-- The overrides that are given. -/
structure Overrides where
  file : Option String := none
  moduleName : Option String := none
  affix : Option String := none
  nameStyle : Option Json.Value := none
  styleType : Option String := none
  exemptions : Option ExemptionTable := none
  /-- Names of overrides that do not exist. -/
  unknown : List String := []
  deriving Repr

/-- Why options or a file of exemptions are refused. -/
inductive OptionError where
  | unknown (names : List String)
  | nameStyle (given : Json.Value)
  | unreadableExemptions (path : String) (fault : Files.Fault)
  | malformedExemptions (path : String) (fault : Json.Fault) (place : Json.Place)
  | exemptionsNotObject (path : String)
  | invalidExemptions (cause : ExemptionTable.Invalid)
  deriving Repr

def OptionError.message : OptionError → String
  | .unknown names => "Unknown option(s): " ++ ", ".intercalate names
  | .nameStyle given =>
    let styles := ", ".intercalate (Elm.NameStyle.all.map Elm.NameStyle.name)
    s!"Invalid name style {given.text}, expected one of {styles}"
  | .unreadableExemptions path fault =>
    let failure : Files.Failure := ⟨fault, Files.tidy path⟩
    s!"Cannot read exemptions from {path}: {failure.message}"
  | .malformedExemptions path fault place =>
    s!"Cannot read exemptions from {path}: {fault.message}: line {place.line} column " ++
      s!"{place.column} (char {place.offset})"
  | .exemptionsNotObject path => s!"Exemptions file {path} must contain a JSON object"
  | .invalidExemptions cause => cause.message

namespace Overrides

/-- The text of an override; null gives none. -/
def textOf : Json.Value → Option String
  | .string s => some s
  | _ => none

/-- Set an override by its name. Null takes it back. -/
def set (o : Overrides) (name : String) (value : Json.Value) : Overrides :=
  match name with
  | "elm_file" => { o with file := textOf value }
  | "elm_module_name" => { o with moduleName := textOf value }
  | "prefix" => { o with affix := textOf value }
  | "name_style" => { o with nameStyle := match value with | .null => none | given => some given }
  | "style_type" => { o with styleType := textOf value }
  | "exemptions" => { o with exemptions := none }
  | other => { o with unknown := o.unknown ++ [other] }

/-- Set overrides by their names, in order. -/
def setAll (o : Overrides) (pairs : List (String × Json.Value)) : Overrides :=
  pairs.foldl (fun o pair => o.set pair.1 pair.2) o

end Overrides

namespace Options

/-- The style that an override names. -/
def readNameStyle (given : Json.Value) : Except OptionError Elm.NameStyle :=
  let style := match given with
    | .string s => Elm.NameStyle.ofName? s
    | _ => none
  match style with
  | some style => .ok style
  | none => .error (.nameStyle given)

/-- The defaults with the overrides in their stead. -/
def ofOverrides (o : Overrides) : Except OptionError Options := do
  if o.unknown ≠ [] then
    throw (.unknown (Text.sorted o.unknown.eraseDups))
  let nameStyle ← match o.nameStyle with
    | some given => readNameStyle given
    | none => pure stock.nameStyle
  return {
    file := o.file.getD stock.file
    moduleName := o.moduleName.getD stock.moduleName
    affix := o.affix.getD stock.affix
    nameStyle
    styleType := o.styleType.getD stock.styleType
    exemptions := o.exemptions.getD stock.exemptions }

/-- What a module of these options is made of. -/
def moduleSpec (o : Options) : Elm.ModuleSpec := ⟨o.moduleName, o.styleType, o.exemptions⟩

/-- There is something to generate: a file to write and a name for its module. -/
def hasOutput (o : Options) : Bool := o.file != "" && o.moduleName != ""

end Options

/-- A generated file. -/
structure Output where
  file : String
  moduleName : String
  source : String
  deriving DecidableEq, Repr

/-- The files that are generated for the classes. -/
def Options.outputs (o : Options) (entries : List Css.ClassEntry) : List Output :=
  if o.hasOutput then [⟨o.file, o.moduleName, o.moduleSpec.source entries⟩] else []

/-- Why no exemptions come from a file. -/
inductive ExemptionFileError where
  | refused (error : OptionError)
  | badEncoding (error : Text.Utf8.Error)
  | integerTooLong (digits : Nat)
  deriving Repr

/-- The exemptions in a file. -/
def ExemptionTable.ofFile (tree : Files.Tree) (path : String) :
    Except ExemptionFileError ExemptionTable := do
  let text ← (tree.readText path).mapError fun
    | .unreadable fault => .refused (.unreadableExemptions path fault)
    | .badEncoding error => .badEncoding error
  let value ← (Json.read text).mapError fun
    | .malformed fault place => .refused (.malformedExemptions path fault place)
    | .integerTooLong digits => .integerTooLong digits
  match value with
  | .object pairs => (ofMembers pairs).mapError fun cause => .refused (.invalidExemptions cause)
  | _ => throw (.refused (.exemptionsNotObject path))

end ElmStyle
