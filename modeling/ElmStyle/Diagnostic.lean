import ElmStyle.Json.Value

/-!
# Diagnostics

A finding about a class or one of its declarations.
-/
namespace ElmStyle

inductive Severity where
  | error | warning | info
  deriving DecidableEq, Repr

namespace Severity

def all : List Severity := [.error, .warning, .info]

def name : Severity → String
  | .error => "ERROR"
  | .warning => "WARNING"
  | .info => "INFO"

/-- A severity that does not exist. -/
structure Unknown where
  given : Json.Value
  deriving Repr

def Unknown.message (e : Unknown) : String := s!"{e.given.text} is not a valid Severity"

def ofJson (given : Json.Value) : Except Unknown Severity :=
  let found := match given with
    | .string s => all.find? (·.name = s)
    | _ => none
  match found with
  | some severity => .ok severity
  | none => .error ⟨given⟩

end Severity

structure Diagnostic where
  rule : String
  severity : Severity
  message : String
  className : Option String
  property : Option String
  fix : Option String
  deriving DecidableEq, Repr

namespace Diagnostic

def isError (d : Diagnostic) : Bool := d.severity == .error

def isWarning (d : Diagnostic) : Bool := d.severity == .warning

/-- Where the finding is: the class, and the property if there is a class. Empty names count as
none. -/
def location (d : Diagnostic) : String :=
  match d.className.filter (· != ""), d.property.filter (· != "") with
  | some className, some property => s!" [{className}.{property}]"
  | some className, none => s!" [{className}]"
  | none, _ => ""

/-- The diagnostic as one line. -/
def text (d : Diagnostic) : String := s!"{d.severity.name}{d.location}: {d.message}"

/-- The diagnostics that are errors. -/
def errors (ds : List Diagnostic) : List Diagnostic := ds.filter isError

/-- The number of diagnostics of a severity. -/
def count (severity : Severity) (ds : List Diagnostic) : Nat := ds.countP (·.severity == severity)

/-- The closing line of a report. -/
def summary (ds : List Diagnostic) : String :=
  s!"Summary: {count .error ds} error(s), {count .warning ds} warning(s), {count .info ds} info"

/-- The lines of the diagnostics whose severity is shown. -/
def lines (shown : List Severity) (ds : List Diagnostic) : List String :=
  (ds.filter fun d => shown.contains d.severity).map text

end Diagnostic

end ElmStyle
