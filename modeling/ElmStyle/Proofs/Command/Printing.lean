import ElmStyle.Command.Outcome
import ElmStyle.Proofs.Text.Encoding

/-!
# Printing

The lines of an ending by stream, and what becomes of an ending whose lines cannot all be printed:
it keeps the lines before the first such line and fails there. Only the standard output refuses a
line, and it does so exactly if the text holds a lone surrogate.
-/
namespace ElmStyle.Command

namespace Line

def output? : Line → Option String
  | .output text => some text
  | _ => none

def error? : Line → Option String
  | .error text => some text
  | _ => none

theorem encodeError_output (text : String) :
    (Line.output text).encodeError? = none ↔ Text.Encodable text.toList := by
  rw [encodeError?, Text.Utf8.encodeError_eq_none, Text.encodable_plain]

end Line

/-- Lines for the standard output by their texts. -/
theorem filterMap_outputs (texts : List String) :
    (texts.map Line.output).filterMap Line.output? = texts ∧
      (texts.map Line.output).filterMap Line.error? = [] := by
  simp [List.filterMap_map, Function.comp_def, Line.output?, Line.error?]

/-- Lines for the standard error by their texts. -/
theorem filterMap_errors (texts : List String) :
    (texts.map Line.error).filterMap Line.output? = [] ∧
      (texts.map Line.error).filterMap Line.error? = texts := by
  simp [List.filterMap_map, Function.comp_def, Line.output?, Line.error?]

theorem filterMap_notes (notes : List Note) :
    (notes.map Line.note).filterMap Line.output? = [] ∧
      (notes.map Line.note).filterMap Line.error? = [] := by
  simp [List.filterMap_map, Function.comp_def, Line.output?, Line.error?]

namespace Ending

/-- The lines on the standard output. -/
def outputs (e : Ending) : List String := e.lines.filterMap Line.output?

/-- The lines on the standard error, apart from notes. -/
def errors (e : Ending) : List String := e.lines.filterMap Line.error?

/-- The failure that the run does not answer itself. A command line that cannot be followed has an
exit code of its own. -/
def uncaught? (e : Ending) : Option Failure := e.failure.filter fun
  | .usage _ => false
  | _ => true

@[simp] theorem exit_quiet (e : Ending) : e.quiet.exit = e.exit := rfl

@[simp] theorem failure_quiet (e : Ending) : e.quiet.failure = e.failure := rfl

@[simp] theorem uncaught_quiet (e : Ending) : e.quiet.uncaught? = e.uncaught? := rfl

@[simp] theorem outputs_quiet (e : Ending) : e.quiet.outputs = e.outputs := by
  rw [outputs, quiet, List.filterMap_filter]
  refine List.filterMap_congr ?_
  intro line _
  cases line <;> rfl

@[simp] theorem errors_quiet (e : Ending) : e.quiet.errors = e.errors := by
  rw [errors, quiet, List.filterMap_filter]
  refine List.filterMap_congr ?_
  intro line _
  cases line <;> rfl

/-- Nothing changes if all that goes to the standard output can be printed. -/
theorem printed_whole (e : Ending) (all : ∀ text ∈ e.outputs, Text.Encodable text.toList) :
    e.printed = e := by
  have none : e.lines.findSome? Line.encodeError? = none := by
    rw [List.findSome?_eq_none_iff]
    intro line member
    cases line with
    | output text =>
      exact (Line.encodeError_output text).mpr
        (all text (List.mem_filterMap.mpr ⟨_, member, rfl⟩))
    | error text => rfl
    | note n => rfl
  rw [printed, none]

/-- The first line that cannot be printed ends the run. -/
theorem printed_cut (e : Ending) (before after : List Line) (text : String)
    (error : Text.Utf8.EncodeError) (lines : e.lines = before ++ .output text :: after)
    (all : ∀ line ∈ before, line.encodeError? = none)
    (bad : (Line.output text).encodeError? = some error) :
    e.printed = ⟨1, before, some (.unencodable error)⟩ := by
  have found : e.lines.findSome? Line.encodeError? = some error :=
    List.findSome?_eq_some_iff.mpr ⟨before, _, after, lines, bad, all⟩
  have taken : e.lines.takeWhile (·.encodeError?.isNone) = before := by
    rw [lines, List.takeWhile_append_of_pos (by simpa using all), List.takeWhile_cons_of_neg]
    · exact List.append_nil before
    · simp [bad]
  rw [printed, found, taken]

/-- A run that exits with zero has printed all its lines. -/
theorem printed_of_exit_zero (e : Ending) (success : e.printed.exit = 0) : e.printed = e := by
  unfold printed at success ⊢
  split
  · rfl
  next error found =>
    rw [found] at success
    cases success

theorem printed_exit_ne_zero (e : Ending) (failing : e.exit ≠ 0) : e.printed.exit ≠ 0 := by
  unfold printed
  split
  · exact failing
  · exact Nat.one_ne_zero

end Ending

end ElmStyle.Command
