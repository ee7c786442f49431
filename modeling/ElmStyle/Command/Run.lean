import ElmStyle.Command.Invocation
import ElmStyle.Command.Outcome
import ElmStyle.Document
import ElmStyle.Lint

/-!
# Running commands

A run takes a file tree and a command line to an outcome. Only `generate` changes the tree, and only
after the classes have been loaded and found without errors. The commands are `convert`, `check` and
`generate` of `twelm`.

The text of a request for help is left out: such a run is one that succeeds.
-/
namespace ElmStyle.Command

open Css (Declaration ClassEntry)

def versionText : String := "twelm, version 0.1.0"

/-- The exemptions of a run: the stock ones and, over them, those of a file. -/
def readExemptions (tree : Files.Tree) : Option String → Except Ending (Option ExemptionTable)
  | none => .ok none
  | some path => match ExemptionTable.ofFile tree path with
    | .ok table => .ok (some (ExemptionTable.stock.merge table))
    | .error (.refused error) => .error (.refuse ("Config error: " ++ error.message))
    | .error (.badEncoding error) => .error (.fail (.badEncoding error))
    | .error (.integerTooLong digits) => .error (.fail (.integerTooLong digits))

/-- The options of a run. -/
def readOptions (tree : Files.Tree) (choices : Choices) : Except Ending Options := do
  let exemptions ← readExemptions tree choices.exemptionsFile
  (Options.ofOverrides { choices.overrides with exemptions }).mapError fun error =>
    .refuse ("Config error: " ++ error.message)

/-- The classes of the input file. -/
def readClasses (tree : Files.Tree) (options : Options) (input : String) :
    Except Ending (List ClassEntry) :=
  (Document.ofFile tree options input).mapError fun
    | .badEncoding error => .fail (.badEncoding error)
    | .integerTooLong digits => .fail (.integerTooLong digits)
    | .unformed error => .fail (.unformed error)
    | error => .refuse ("Load error: " ++ error.message)

/-- The findings about the classes of a run. -/
def findings (options : Options) (entries : List ClassEntry) : List Diagnostic :=
  Lint.run Vocabulary.stock options.exemptions [] entries

def lintNotes (options : Options) (entries : List ClassEntry) : List Line :=
  (Lint.notes options.exemptions entries).map .note

/-- Print the style of one declaration. -/
def convert (d : Declaration) : Ending :=
  let style := Elm.Style.of ExemptionTable.stock d
  ⟨0, style.note?.toList.map .note ++ [.output style.expression], none⟩

/-- Report on the classes. -/
def reportClasses (options : Options) (entries : List ClassEntry) : Ending :=
  let found := findings options entries
  let lines := if found = []
    then [.output s!"OK: {entries.length} class(es), 0 diagnostics"]
    else report Severity.all .output found ++ [.output "", .output (Diagnostic.summary found)]
  ⟨exitCode found, lintNotes options entries ++ lines, none⟩

def check (tree : Files.Tree) (input : String) (choices : Choices) : Except Ending Ending := do
  let options ← readOptions tree choices
  let entries ← readClasses tree options input
  return reportClasses options entries

/-- The severities that matter before a module is written. -/
def problems : List Severity := [.error, .warning]

/-- What is said of a module that has been written. -/
def writtenText (options : Options) (entries : List ClassEntry) : String :=
  s!"Wrote {entries.length} class(es) to {Files.tidy options.file} ({options.moduleName})"

/-- Write the module of the classes and say so. The file is opened, and so emptied, before its text
is encoded. -/
def writeModule (tree : Files.Tree) (options : Options) (entries : List ClassEntry) : Outcome :=
  let spec := options.moduleSpec
  let notes := (spec.notes entries).map Line.note
  let encoded := Text.Utf8.encode (spec.source entries)
  match tree.makeParents options.file with
  | (.error failure, tree) => ⟨.fail (.file failure), tree⟩
  | (.ok (), tree) =>
    match tree.write options.file (encoded.toOption.getD []) with
    | (.error failure, tree) => ⟨(Ending.fail (.file failure)).after notes, tree⟩
    | (.ok (), tree) => match encoded with
      | .error error => ⟨(Ending.fail (.unencodable error)).after notes, tree⟩
      | .ok _ => ⟨⟨0, notes ++ [.output (writtenText options entries)], none⟩, tree⟩

/-- Report the problems of the classes and, if none is an error, write their module. -/
def generateClasses (tree : Files.Tree) (options : Options) (entries : List ClassEntry) : Outcome :=
  let found := findings options entries
  let lines := lintNotes options entries ++ report problems .error found
  if exitCode found = 0 then
    let written := writeModule tree options entries
    { written with ending := written.ending.after lines }
  else ⟨⟨exitCode found, lines, none⟩, tree⟩

def nothingToGenerate : String :=
  "Nothing to generate: output file and module name are required"

def generate (tree : Files.Tree) (input : String) (choices : Choices) : Except Ending Outcome := do
  let options ← readOptions tree choices
  if !options.hasOutput then throw (.refuse nothingToGenerate)
  let entries ← readClasses tree options input
  return generateClasses tree options entries

/-- The outcome of a task on a file tree. -/
def Task.run (tree : Files.Tree) : Task → Outcome
  | .convert d => ⟨Command.convert d, tree⟩
  | .check input choices => match Command.check tree input choices with
    | .ok ending => ⟨ending, tree⟩
    | .error ending => ⟨ending, tree⟩
  | .generate input choices => match Command.generate tree input choices with
    | .ok outcome => outcome
    | .error ending => ⟨ending, tree⟩

/-- The outcome of a command line on a file tree. Nothing is on the standard output before the tree
is changed, so that a line that cannot be printed undoes nothing. -/
def run (tree : Files.Tree) (arguments : List String) : Outcome :=
  match interpret tree arguments with
  | .error error => ⟨.misuse error, tree⟩
  | .ok .version => ⟨⟨0, [.output versionText], none⟩, tree⟩
  | .ok .help => ⟨⟨0, [], none⟩, tree⟩
  | .ok (.task verbose task) =>
    let outcome := task.run tree
    let ending := outcome.ending.printed
    { outcome with ending := if verbose then ending else ending.quiet }

end ElmStyle.Command
