import ElmStyle.Elm.Name

/-!
# Arguments of a command line

Arguments that start with a hyphen are options, up to an argument `--`, which only ends them. An
option that takes a value has it after an equals sign or in the next argument, whatever that looks
like.
-/
namespace ElmStyle.Command

/-- Why a command line cannot be followed. -/
inductive UsageError where
  | missingCommand
  | noSuchCommand (name : String)
  | extraArguments (arguments : List String)
  | noSuchOption (name : String)
  | needsValue (option : String)
  | takesNoValue (option : String)
  | missingArgument (name : String)
  | emptyProperty
  | pathNotFound (parameter path : String)
  | notAChoice (parameter given : String) (choices : List String)
  deriving DecidableEq, Repr

def UsageError.message : UsageError → String
  | .missingCommand => "Missing command."
  | .noSuchCommand name => s!"No such command {Text.quoted name}."
  | .extraArguments arguments =>
    let noun := if arguments.length = 1 then "argument" else "arguments"
    let given := " ".intercalate arguments
    s!"Got unexpected extra {noun} ({given})"
  | .noSuchOption name => s!"No such option: {name}"
  | .needsValue option => s!"Option {Text.quoted option} requires an argument."
  | .takesNoValue option => s!"Option {Text.quoted option} does not take a value."
  | .missingArgument name => s!"Missing argument {Text.quoted name}."
  | .emptyProperty => "Invalid value for PROPERTY: must not be empty"
  | .pathNotFound parameter path =>
    s!"Invalid value for {Text.quoted parameter}: Path {Text.quoted path} does not exist."
  | .notAChoice parameter given choices =>
    let listed := ", ".intercalate (choices.map Text.quoted)
    s!"Invalid value for {Text.quoted parameter}: {Text.quoted given} is not one of {listed}."

/-- An option that a command knows. One with a letter takes no value. -/
structure Flag where
  long : String
  letter : Option Char
  takesValue : Bool
  deriving DecidableEq, Repr

/-- The options of a command line in order, by their long names, and its other arguments. -/
structure Given where
  options : List (String × String)
  positional : List String
  deriving DecidableEq, Repr

namespace Given

def addOption (option value : String) (g : Given) : Given :=
  { g with options := (option, value) :: g.options }

def addOptions (options : List String) (g : Given) : Given :=
  { g with options := options.map (·, "") ++ g.options }

def addPositional (argument : String) (g : Given) : Given :=
  { g with positional := argument :: g.positional }

def has (g : Given) (option : String) : Bool := g.options.any (·.1 == option)

/-- The value of an option; the last one counts. -/
def value? (g : Given) (option : String) : Option String :=
  g.options.reverse.lookup option

/-- The options that are given, in the order of their first appearance. -/
def names (g : Given) : List String := (g.options.map (·.1)).eraseDups

end Given

/-- The argument is an option. A hyphen alone is none. -/
def isOption (argument : String) : Bool :=
  match argument.toList with
  | '-' :: _ :: _ => true
  | _ => false

/-- An option as it is written: its name, and what stands after an equals sign. -/
def splitValue (argument : String) : String × Option String :=
  match argument.toList.span (· != '=') with
  | (name, '=' :: value) => (String.ofList name, some (String.ofList value))
  | (name, _) => (String.ofList name, none)

/-- The options that a row of letters after one hyphen stands for. -/
def lettered (flags : List Flag) : List Char → Except UsageError (List String)
  | [] => .ok []
  | letter :: rest => match flags.find? (·.letter = some letter) with
    | some flag => (lettered flags rest).map (flag.long :: ·)
    | none => .error (.noSuchOption (String.ofList ['-', letter]))

/-- Sort the arguments into options and others. If `mixed` is false, the first argument that is no
option ends the options. -/
def parse (flags : List Flag) (mixed : Bool) : List String → Except UsageError Given
  | [] => .ok ⟨[], []⟩
  | argument :: rest =>
    if argument = "--" then .ok ⟨[], rest⟩
    else if isOption argument then
      let (name, attached) := splitValue argument
      match flags.find? (·.long = name), attached with
      | some flag, some value =>
        if flag.takesValue then (parse flags mixed rest).map (Given.addOption name value)
        else .error (.takesNoValue name)
      | some flag, none =>
        if flag.takesValue then match rest with
          | [] => .error (.needsValue name)
          | value :: rest => (parse flags mixed rest).map (Given.addOption name value)
        else (parse flags mixed rest).map (Given.addOption name "")
      | none, _ =>
        if ['-', '-'].isPrefixOf argument.toList then .error (.noSuchOption name)
        else match lettered flags argument.toList.tail with
          | .ok options => (parse flags mixed rest).map (Given.addOptions options)
          | .error e => .error e
    else if mixed then (parse flags mixed rest).map (Given.addPositional argument)
    else .ok ⟨[], argument :: rest⟩

end ElmStyle.Command
