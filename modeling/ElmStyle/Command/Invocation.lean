import ElmStyle.Command.Arguments
import ElmStyle.Files.Tree
import ElmStyle.Options

/-!
# Invocations

A command line that can be followed asks for the version, for help, or for one of three commands.
The values of options are checked in the order in which the options first appear, then the other
arguments. A command line without arguments asks for help.
-/
namespace ElmStyle.Command

/-- The options of `check` and `generate`. -/
structure Choices where
  overrides : Overrides
  exemptionsFile : Option String
  deriving Repr

inductive Task where
  | convert (declaration : Css.Declaration)
  | check (input : String) (choices : Choices)
  | generate (input : String) (choices : Choices)
  deriving Repr

inductive Invocation where
  | version
  | help
  | task (verbose : Bool) (task : Task)
  deriving Repr

def helpFlag : Flag := ⟨"--help", none, false⟩

/-- The options before the command. -/
def globalFlags : List Flag :=
  [⟨"--version", none, false⟩, ⟨"--verbose", some 'v', false⟩, helpFlag]

def namingFlags : List Flag :=
  [⟨"--prefix", none, true⟩, ⟨"--name-style", none, true⟩, ⟨"--exemptions", none, true⟩, helpFlag]

def generateFlags : List Flag :=
  [⟨"--out", none, true⟩, ⟨"--module", none, true⟩, ⟨"--style-type", none, true⟩] ++ namingFlags

/-- The path exists as it is written. -/
def checkPath (tree : Files.Tree) (parameter path : String) : Except UsageError Unit :=
  if tree.exists? path then .ok () else .error (.pathNotFound parameter path)

/-- The value of an option is one that it can have. -/
def checkOption (tree : Files.Tree) (given : Given) (option : String) : Except UsageError Unit :=
  match option, given.value? option with
  | "--name-style", some value =>
    if (Elm.NameStyle.ofName? value).isSome then .ok ()
    else .error (.notAChoice option value (Elm.NameStyle.all.map Elm.NameStyle.name))
  | "--exemptions", some value => checkPath tree option value
  | _, _ => .ok ()

/-- No more arguments are left. -/
def checkNoMore (arguments : List String) : Except UsageError Unit :=
  if arguments = [] then .ok () else .error (.extraArguments arguments)

/-- The input file and the options of `check` and `generate`. -/
def readInput (tree : Files.Tree) (given : Given) : Except UsageError (String × Choices) := do
  given.names.forM (checkOption tree given)
  match given.positional with
  | [] => throw (.missingArgument "INPUT_FILE")
  | input :: rest =>
    checkPath tree "INPUT_FILE" input
    checkNoMore rest
    let overrides : Overrides := {
      file := given.value? "--out"
      moduleName := given.value? "--module"
      affix := given.value? "--prefix"
      nameStyle := (given.value? "--name-style").map .string
      styleType := given.value? "--style-type" }
    return (input, ⟨overrides, given.value? "--exemptions"⟩)

/-- The property and the value of `convert`, with the blanks around them removed. -/
def readConvert (given : Given) : Except UsageError Task :=
  match given.positional with
  | [] => .error (.missingArgument "PROPERTY")
  | [_] => .error (.missingArgument "VALUE")
  | property :: value :: rest => do
    checkNoMore rest
    if empty : Text.strip property = "" then throw .emptyProperty
    else return .convert ⟨Text.strip property, Text.strip value, empty⟩

/-- A command: the options it knows, and how it reads what is given. -/
structure Verb where
  name : String
  flags : List Flag
  read : Files.Tree → Given → Except UsageError Task

def verbs : List Verb := [
  ⟨"generate", generateFlags, fun tree given => do
    let (input, choices) ← readInput tree given
    return .generate input choices⟩,
  ⟨"convert", [helpFlag], fun _ given => readConvert given⟩,
  ⟨"check", namingFlags, fun tree given => do
    let (input, choices) ← readInput tree given
    return .check input choices⟩]

/-- A request for the version or for help, whichever comes first, goes before all else. -/
def Given.information? (g : Given) : Option Invocation :=
  g.options.findSome? fun (option, _) =>
    if option = "--version" then some .version
    else if option = "--help" then some .help
    else none

/-- What a command line asks for. A command that does not exist is read once more as an option. -/
def interpret (tree : Files.Tree) (arguments : List String) : Except UsageError Invocation := do
  if arguments = [] then return .help
  let given ← parse globalFlags false arguments
  if let some information := given.information? then return information
  match given.positional with
  | [] => throw .missingCommand
  | name :: rest => match verbs.find? (·.name = name) with
    | none =>
      let again ← parse globalFlags false (name :: rest)
      if let some information := again.information? then return information
      throw (.noSuchCommand name)
    | some verb =>
      let own ← parse verb.flags true rest
      if let some information := own.information? then return information
      return .task (given.has "--verbose") (← verb.read tree own)

end ElmStyle.Command
