import ElmStyle.Command.Run
import ElmStyle.Proofs.Command.Printing

/-!
# Reports on the loaded classes

What `check` and `generate` print once the classes are loaded. The command `check` prints all its
findings to the standard output and fails at the first one that cannot be printed. The command
`generate` prints those that are more than remarks to the standard error, which takes any text, and
only its last line, on the module that it has written, may fail to be printed.
-/
namespace ElmStyle.Command

open Css (ClassEntry)

/-! ## The report of `check` -/

/-- What `check` prints after the lines of the diagnostics. -/
def closing (entries : List ClassEntry) (ds : List Diagnostic) : List String :=
  if ds = [] then [s!"OK: {entries.length} class(es), 0 diagnostics"]
  else ["", Diagnostic.summary ds]

theorem closing_encodable (entries : List ClassEntry) (ds : List Diagnostic) :
    ∀ text ∈ closing entries ds, Text.Encodable text.toList := by
  have digits : ∀ n : Nat, Text.Encodable (toString n).toList := by
    intro n
    simp [toString, Nat.repr]
  unfold closing
  split
  · simp only [List.forall_mem_singleton, String.toList_append, Text.encodable_append, digits,
      and_true]
    decide
  · simp only [List.forall_mem_cons, Diagnostic.summary, String.toList_append,
      Text.encodable_append, digits, and_true]
    decide

/-- The command `check` prints a line for every diagnostic. -/
theorem reportClasses_eq (options : Options) (entries : List ClassEntry) :
    reportClasses options entries =
      let ds := findings options entries
      ⟨exitCode ds,
        lintNotes options entries ++
          (ds.map Diagnostic.text ++ closing entries ds).map Line.output, none⟩ := by
  have every : ∀ ds, Diagnostic.lines Severity.all ds = ds.map Diagnostic.text := by
    intro ds
    have shown : ds.filter (fun d => Severity.all.contains d.severity) = ds := by
      rw [List.filter_eq_self]
      intro d _
      cases d.severity <;> decide
    rw [Diagnostic.lines, shown]
  simp only [reportClasses, closing, report, every]
  split
  next none => simp [none]
  next => simp

theorem outputs_of_lint (exit : Nat) (failure : Option Failure) (options : Options)
    (entries : List ClassEntry) (texts : List String) :
    (⟨exit, lintNotes options entries ++ texts.map Line.output, failure⟩ : Ending).outputs =
      texts := by
  simp only [Ending.outputs, lintNotes, List.filterMap_append, filterMap_notes, filterMap_outputs,
    List.nil_append]

theorem reportClasses_outputs (options : Options) (entries : List ClassEntry) :
    (reportClasses options entries).outputs =
      (findings options entries).map Diagnostic.text ++
        closing entries (findings options entries) := by
  rw [reportClasses_eq, outputs_of_lint]

theorem reportClasses_errors (options : Options) (entries : List ClassEntry) :
    (reportClasses options entries).errors = [] := by
  simp only [reportClasses_eq, Ending.errors, lintNotes, List.filterMap_append,
    (filterMap_notes _).2, (filterMap_outputs _).2, List.append_nil]

/-- A report is printed to its end if every diagnostic can be printed. -/
theorem reportClasses_printed (options : Options) (entries : List ClassEntry)
    (all : ∀ d ∈ findings options entries, Text.Encodable d.text.toList) :
    (reportClasses options entries).printed = reportClasses options entries := by
  apply Ending.printed_whole
  rw [reportClasses_outputs, List.forall_mem_append]
  exact ⟨by simpa using all, closing_encodable entries _⟩

/-- A report ends at its first diagnostic that cannot be printed. -/
theorem reportClasses_cut (options : Options) (entries : List ClassEntry)
    (before after : List Diagnostic) (d : Diagnostic) (error : Text.Utf8.EncodeError)
    (found : findings options entries = before ++ d :: after)
    (all : ∀ earlier ∈ before, Text.Encodable earlier.text.toList)
    (bad : (Line.output d.text).encodeError? = some error) :
    (reportClasses options entries).printed =
      ⟨1, lintNotes options entries ++ (before.map Diagnostic.text).map Line.output,
        some (.unencodable error)⟩ := by
  refine Ending.printed_cut _ _ ((after.map Diagnostic.text ++
    closing entries (findings options entries)).map Line.output) d.text error ?_ ?_ bad
  · rw [reportClasses_eq]
    simp [found]
  · rw [List.forall_mem_append]
    constructor
    · simp [lintNotes, Line.encodeError?]
    · simpa [Line.encodeError_output] using all

/-! ## The report of `generate` -/

/-- The lines of the diagnostics that are more than remarks. -/
def problemTexts (ds : List Diagnostic) : List String :=
  (ds.filter (·.severity ≠ .info)).map Diagnostic.text

/-- The module can be written, and the directories above it can be made. -/
def Writable (tree : Files.Tree) (options : Options) (entries : List ClassEntry) : Prop :=
  ∃ bytes under written, Text.Utf8.encode (options.moduleSpec.source entries) = .ok bytes ∧
    tree.makeParents options.file = (.ok (), under) ∧
    under.write options.file bytes = (.ok (), written)

instance (tree : Files.Tree) (options : Options) (entries : List ClassEntry) :
    Decidable (Writable tree options entries) :=
  match encoded : Text.Utf8.encode (options.moduleSpec.source entries) with
  | .error _ => .isFalse (by
    rintro ⟨bytes, under, written, success, -⟩
    rw [encoded] at success
    cases success)
  | .ok bytes =>
    let parents := tree.makeParents options.file
    decidable_of_iff (parents.1 = .ok () ∧ (parents.2.write options.file bytes).1 = .ok ()) (by
      constructor
      · rintro ⟨made, written⟩
        exact ⟨bytes, _, _, encoded, Prod.ext made rfl, Prod.ext written rfl⟩
      · rintro ⟨others, under, written, success, made, write⟩
        rw [encoded] at success
        cases success
        simp only [parents, made, write, and_self])

/-- The lines of `generate` about its findings. -/
def problemLines (options : Options) (entries : List ClassEntry) : List Line :=
  lintNotes options entries ++ (problemTexts (findings options entries)).map Line.error

theorem generateClasses_eq (tree : Files.Tree) (options : Options) (entries : List ClassEntry) :
    (generateClasses tree options entries).ending =
      if exitCode (findings options entries) = 0 then
        (writeModule tree options entries).ending.after (problemLines options entries)
      else ⟨exitCode (findings options entries), problemLines options entries, none⟩ := by
  have shown : Diagnostic.lines problems (findings options entries) =
      problemTexts (findings options entries) := by
    refine congrArg (List.map Diagnostic.text) (List.filter_congr ?_)
    intro d _
    cases d.severity <;> decide
  simp only [generateClasses, problemLines, report, shown]
  split <;> rfl

/-- The module is written, and the run says so last. -/
theorem writeModule_writable (tree : Files.Tree) (options : Options) (entries : List ClassEntry)
    (writable : Writable tree options entries) :
    (writeModule tree options entries).ending =
      ⟨0, (options.moduleSpec.notes entries).map Line.note ++
        [.output (writtenText options entries)], none⟩ := by
  obtain ⟨bytes, under, written, encoded, parents, write⟩ := writable
  simp only [writeModule, encoded, parents, Except.toOption, Option.getD_some, write]

/-- The lines of `generate` before it says that the module is written. -/
def linesBefore (options : Options) (entries : List ClassEntry) : List Line :=
  problemLines options entries ++ (options.moduleSpec.notes entries).map Line.note

theorem problemLines_silent (options : Options) (entries : List ClassEntry) :
    (problemLines options entries).filterMap Line.output? = [] ∧
      (problemLines options entries).filterMap Line.error? =
        problemTexts (findings options entries) := by
  simp only [problemLines, lintNotes, List.filterMap_append, filterMap_notes, filterMap_errors,
    List.nil_append, and_self]

theorem linesBefore_silent (options : Options) (entries : List ClassEntry) :
    (linesBefore options entries).filterMap Line.output? = [] ∧
      (linesBefore options entries).filterMap Line.error? =
        problemTexts (findings options entries) := by
  simp only [linesBefore, List.filterMap_append, problemLines_silent, filterMap_notes,
    List.append_nil, and_self]

/-- The command `generate` ends as the findings say and prints those that are more than remarks;
only the line about the module that it has written may fail to be printed. -/
theorem generateClasses_printed (tree : Files.Tree) (options : Options) (entries : List ClassEntry)
    (writable : exitCode (findings options entries) = 0 → Writable tree options entries) :
    let ending := (generateClasses tree options entries).ending.printed
    ending.errors = problemTexts (findings options entries) ∧
    ((exitCode (findings options entries) = 0 →
        Text.Encodable (writtenText options entries).toList) →
      ending.exit = exitCode (findings options entries) ∧ ending.failure = none) ∧
    (exitCode (findings options entries) = 0 →
      ¬Text.Encodable (writtenText options entries).toList → ending.exit = 1) := by
  intro ending
  by_cases passing : exitCode (findings options entries) = 0
  · have lines : (generateClasses tree options entries).ending =
        ⟨0, linesBefore options entries ++ [.output (writtenText options entries)], none⟩ := by
      rw [generateClasses_eq, if_pos passing,
        writeModule_writable tree options entries (writable passing)]
      simp [Ending.after, linesBefore]
    by_cases printable : Text.Encodable (writtenText options entries).toList
    · have whole : ending = ⟨0, linesBefore options entries ++
          [.output (writtenText options entries)], none⟩ := by
        simp only [ending, lines]
        apply Ending.printed_whole
        simp only [Ending.outputs, List.filterMap_append, linesBefore_silent, List.nil_append]
        simpa [Line.output?] using printable
      rw [whole, passing]
      refine ⟨?_, fun _ => ⟨rfl, rfl⟩, fun _ refused => absurd printable refused⟩
      simp [Ending.errors, linesBefore_silent, Line.error?]
    · obtain ⟨error, bad⟩ := Option.ne_none_iff_exists'.mp
        (mt (Line.encodeError_output _).mp printable)
      have silent : ∀ line ∈ linesBefore options entries, line.encodeError? = none := by
        intro line member
        have quiet :=
          List.filterMap_eq_nil_iff.mp (linesBefore_silent options entries).1 line member
        cases line with
        | output text => cases quiet
        | error text => rfl
        | note n => rfl
      have cut : ending = ⟨1, linesBefore options entries, some (.unencodable error)⟩ :=
        Ending.printed_cut _ _ [] _ error (by rw [lines]) silent bad
      rw [cut]
      refine ⟨(linesBefore_silent options entries).2, fun said => ?_, fun _ _ => rfl⟩
      exact absurd (said passing) printable
  · have whole : ending = ⟨exitCode (findings options entries), problemLines options entries,
        none⟩ := by
      simp only [ending, generateClasses_eq, if_neg passing]
      apply Ending.printed_whole
      simp [Ending.outputs, problemLines_silent]
    rw [whole]
    exact ⟨(problemLines_silent options entries).2, fun _ => ⟨rfl, rfl⟩,
      fun success => absurd success passing⟩

end ElmStyle.Command
