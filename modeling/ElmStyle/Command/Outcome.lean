import ElmStyle.Command.Arguments
import ElmStyle.Css.Declaration
import ElmStyle.Diagnostic
import ElmStyle.Files.Tree
import ElmStyle.Json.Read
import ElmStyle.Note
import ElmStyle.Text.Plain

/-!
# Outcomes

What a run leaves behind: lines, an exit code, the files, and the failure that ended it if there is
one. The standard output takes only text that can be encoded; the standard error takes any text and
shows lone surrogates by their numbers.
-/
namespace ElmStyle.Command

/-- A line of a run, in the order in which the lines appear. -/
inductive Line where
  | output (text : String)
  | error (text : String)
  | note (note : Note)
  deriving DecidableEq, Repr

namespace Line

/-- What the line adds to the standard output. -/
def onOutput : Line → String
  | .output text => Text.plain text ++ "\n"
  | _ => ""

/-- What the line adds to the standard error. Notes keep their styling. -/
def onError : Line → String
  | .error text => Text.escapeSurrogates (Text.plain text) ++ "\n"
  | .note n => Text.escapeSurrogates n.line ++ "\n"
  | .output _ => ""

/-- Why the line cannot be printed. -/
def encodeError? : Line → Option Text.Utf8.EncodeError
  | .output text => Text.Utf8.encodeError? (Text.plain text)
  | _ => none

def isNote : Line → Bool
  | .note _ => true
  | _ => false

end Line

def outputText (lines : List Line) : String := String.join (lines.map Line.onOutput)

def errorText (lines : List Line) : String := String.join (lines.map Line.onError)

/-- What ends a run besides a decision of the command. -/
inductive Failure where
  | usage (error : UsageError)
  | badEncoding (error : Text.Utf8.Error)
  | integerTooLong (digits : Nat)
  | unformed (error : Css.FormError)
  | file (failure : Files.Failure)
  | unencodable (error : Text.Utf8.EncodeError)
  deriving DecidableEq, Repr

def Failure.message : Failure → String
  | .usage error => error.message
  | .badEncoding error => error.message
  | .integerTooLong digits => Json.integerTooLongMessage digits
  | .unformed error => error.message
  | .file failure => failure.message
  | .unencodable error => error.message

/-- How a run ends, apart from what it does to the files. -/
structure Ending where
  exit : Nat
  lines : List Line
  failure : Option Failure
  deriving DecidableEq, Repr

namespace Ending

/-- The run ends with a message. -/
def refuse (message : String) : Ending := ⟨1, [.error message], none⟩

/-- The run ends with a failure. -/
def fail (failure : Failure) : Ending := ⟨1, [], some failure⟩

/-- The command line cannot be followed. -/
def misuse (error : UsageError) : Ending := ⟨2, [], some (.usage error)⟩

/-- The lines that came before. -/
def after (lines : List Line) (e : Ending) : Ending := { e with lines := lines ++ e.lines }

/-- A run that prints its lines fails at the first one that cannot be printed. -/
def printed (e : Ending) : Ending :=
  match e.lines.findSome? Line.encodeError? with
  | none => e
  | some error => ⟨1, e.lines.takeWhile (·.encodeError?.isNone), some (.unencodable error)⟩

/-- Without notes. -/
def quiet (e : Ending) : Ending := { e with lines := e.lines.filter (!·.isNote) }

end Ending

/-- An ending and the files after it. -/
structure Outcome where
  ending : Ending
  tree : Files.Tree
  deriving DecidableEq, Repr

/-- The lines of the diagnostics whose severity is shown. -/
def report (shown : List Severity) (line : String → Line) (ds : List Diagnostic) : List Line :=
  (Diagnostic.lines shown ds).map line

/-- Errors among the diagnostics make a run fail. -/
def exitCode (ds : List Diagnostic) : Nat := if Diagnostic.errors ds = [] then 0 else 1

end ElmStyle.Command
