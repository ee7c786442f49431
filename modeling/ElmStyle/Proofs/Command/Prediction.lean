import ElmStyle.Proofs.Command.Loading
import ElmStyle.Proofs.Command.Reporting
import Mathlib.Tactic.MkIffOfInductiveProp

/-!
# Checking predicts generating

A run of `check` tells how a run of `generate` on the same input and under the same naming options
will end, as long as there is something to generate and it can be written. The two commands read
the same classes and so have the same findings; `check` prints all of them and `generate` those that
are more than remarks. They print to different streams, though: the standard output of `check`
refuses a line with a lone surrogate in it, which ends the run, and the standard error of `generate`
shows it by its number.
-/
namespace ElmStyle.Command

open Css (ClassEntry)

/-- What an ending of `check` says about one of `generate`. If the classes are loaded, `check`
prints a line for each diagnostic, and `generate` prints to the standard error those of these lines
that are not for remarks; if they are not, both give the same reason. -/
@[mk_iff]
structure Predicts (tree : Files.Tree) (given : Given) (checked generated : Ending) : Prop where
  exit : generated.exit = checked.exit
  uncaught : generated.uncaught? = checked.uncaught?
  lines : ∀ entries ds, Diagnosed tree given entries ds →
    checked.outputs = ds.map Diagnostic.text ++ closing entries ds ∧ checked.errors = [] ∧
    generated.errors = problemTexts ds
  reason : (∀ entries ds, ¬ Diagnosed tree given entries ds) →
    checked.outputs = [] ∧ generated.outputs = [] ∧ generated.errors = checked.errors

/-- The endings where a diagnostic cannot be printed: `check` fails at its line, and `generate`
prints all that it has to say and ends as the diagnostics say. -/
@[mk_iff]
structure PartsAt (ds before : List Diagnostic) (error : Text.Utf8.EncodeError)
    (checked generated : Ending) : Prop where
  checkExit : checked.exit = 1
  checkFailure : checked.failure = some (.unencodable error)
  checkLines : checked.outputs = before.map Diagnostic.text
  generateExit : generated.exit = exitCode ds
  generateFailure : generated.failure = none
  generateLines : generated.errors = problemTexts ds

/-- Notes play no part in the prediction. -/
theorem predicts_quiet (tree : Files.Tree) (given : Given) (checked generated : Ending) :
    Predicts tree given checked.quiet generated.quiet ↔
      Predicts tree given checked generated := by
  simp [predicts_iff]

theorem partsAt_quiet (ds before : List Diagnostic) (error : Text.Utf8.EncodeError)
    (checked generated : Ending) :
    PartsAt ds before error checked.quiet generated.quiet ↔
      PartsAt ds before error checked generated := by
  simp [partsAt_iff]

theorem predicts_misused (tree : Files.Tree) (given : Given) (first second : UsageError)
    (none : ∀ entries ds, ¬ Diagnosed tree given entries ds) :
    Predicts tree given (.misuse first) (.misuse second) :=
  ⟨rfl, rfl, fun entries ds diagnosed => (none entries ds diagnosed).elim, fun _ => ⟨rfl, rfl, rfl⟩⟩

theorem predicts_unloaded (tree : Files.Tree) (given : Given) (input : String) (ending : Ending)
    (failed : load tree input given.choices = .error ending)
    (none : ∀ entries ds, ¬ Diagnosed tree given entries ds) :
    Predicts tree given ending.printed ending.printed := by
  have silent := load_outputs tree input given.choices ending failed
  rw [Ending.printed_whole ending (by simp [silent])]
  exact ⟨rfl, rfl, fun entries ds diagnosed => (none entries ds diagnosed).elim,
    fun _ => ⟨silent, silent, rfl⟩⟩

/-- The first diagnostic that cannot be printed. -/
theorem exists_first_unprintable (ds : List Diagnostic)
    (some : ¬∀ d ∈ ds, Text.Encodable d.text.toList) :
    ∃ before d after error, ds = before ++ d :: after ∧
      (∀ earlier ∈ before, Text.Encodable earlier.text.toList) ∧
      (Line.output d.text).encodeError? = .some error := by
  have found : (ds.findSome? fun d => (Line.output d.text).encodeError?) ≠ none := by
    simpa only [ne_eq, List.findSome?_eq_none_iff, Line.encodeError_output] using some
  obtain ⟨error, found⟩ := Option.ne_none_iff_exists'.mp found
  obtain ⟨before, d, after, split, bad, all⟩ := List.findSome?_eq_some_iff.mp found
  simp only [Line.encodeError_output] at all
  exact ⟨before, d, after, error, split, all, bad⟩

section Loaded

variable (tree : Files.Tree) (given : Given) (first second : Options) (entries : List ClassEntry)
  (agree : findings second entries = findings first entries)
  (writable : exitCode (findings second entries) = 0 → Writable tree second entries)

include agree writable

theorem partsAt_loaded (before after : List Diagnostic) (d : Diagnostic)
    (error : Text.Utf8.EncodeError) (split : findings first entries = before ++ d :: after)
    (all : ∀ earlier ∈ before, Text.Encodable earlier.text.toList)
    (bad : (Line.output d.text).encodeError? = some error)
    (said : exitCode (findings second entries) = 0 →
      Text.Encodable (writtenText second entries).toList) :
    PartsAt (findings first entries) before error (reportClasses first entries).printed
      (generateClasses tree second entries).ending.printed := by
  obtain ⟨errors, ended, -⟩ := generateClasses_printed tree second entries writable
  obtain ⟨exit, failure⟩ := ended said
  rw [agree] at errors exit
  rw [reportClasses_cut first entries before after d error split all bad]
  exact ⟨rfl, rfl, outputs_of_lint _ _ first entries _, exit, failure, errors⟩

variable (input : String) (read : readInput tree given = .ok (input, given.choices))
  (loaded : load tree input given.choices = .ok (first, entries))

include read loaded

theorem predicts_of_printable (all : ∀ d ∈ findings first entries, Text.Encodable d.text.toList)
    (said : exitCode (findings second entries) = 0 →
      Text.Encodable (writtenText second entries).toList) :
    Predicts tree given (reportClasses first entries).printed
      (generateClasses tree second entries).ending.printed := by
  obtain ⟨errors, ended, -⟩ := generateClasses_printed tree second entries writable
  obtain ⟨exit, failure⟩ := ended said
  rw [agree] at errors exit
  rw [reportClasses_printed first entries all]
  refine ⟨exit, ?_, ?_, ?_⟩
  · rw [Ending.uncaught?, failure]
    rfl
  · intro others ds diagnosed
    obtain ⟨rfl, rfl⟩ := diagnosed_unique read loaded diagnosed
    exact ⟨reportClasses_outputs first _, reportClasses_errors first _, errors⟩
  · intro none
    exact (none entries _
      ((diagnosed_iff tree given entries _).mpr ⟨input, first, read, loaded, rfl⟩)).elim

theorem printable_of_predicts (predicts : Predicts tree given (reportClasses first entries).printed
      (generateClasses tree second entries).ending.printed) :
    (∀ d ∈ findings first entries, Text.Encodable d.text.toList) ∧
      (exitCode (findings second entries) = 0 →
        Text.Encodable (writtenText second entries).toList) := by
  have all : ∀ d ∈ findings first entries, Text.Encodable d.text.toList := by
    by_contra some
    -- The report would stop short of the lines that it is to have.
    obtain ⟨before, d, after, error, split, fine, bad⟩ := exists_first_unprintable _ some
    obtain ⟨lines, -⟩ := predicts.lines entries _
      ((diagnosed_iff tree given entries _).mpr ⟨input, first, read, loaded, rfl⟩)
    rw [reportClasses_cut first entries before after d error split fine bad, outputs_of_lint,
      split] at lines
    have lengths := congrArg List.length lines
    simp only [List.length_append, List.length_map, List.length_cons] at lengths
    omega
  refine ⟨all, fun passing => ?_⟩
  by_contra refused
  obtain ⟨-, -, cut⟩ := generateClasses_printed tree second entries writable
  have exit := predicts.exit
  rw [reportClasses_printed first entries all, reportClasses_eq, cut passing refused,
    ← agree] at exit
  exact absurd (exit.trans passing) Nat.one_ne_zero

end Loaded

/-- What two runs with the same naming options come to, up to notes: no classes are loaded, and the
runs end alike, or the same classes are loaded, and only the printing and the writing are left. -/
inductive Ran (tree : Files.Tree) (forCheck forGenerate : Given) : Ending → Ending → Prop
  | unloaded (checked generated : Ending) (none : ∀ entries ds, ¬Diagnosed tree forCheck entries ds)
    (predicts : Predicts tree forCheck checked generated) :
    Ran tree forCheck forGenerate checked generated
  | loaded (input : String) (first second : Options) (entries : List ClassEntry)
    (read : readInput tree forCheck = .ok (input, forCheck.choices))
    (alsoRead : readInput tree forGenerate = .ok (input, forGenerate.choices))
    (success : load tree input forCheck.choices = .ok (first, entries))
    (alsoSuccess : load tree input forGenerate.choices = .ok (second, entries))
    (agree : findings second entries = findings first entries) :
    Ran tree forCheck forGenerate (reportClasses first entries).printed
      (generateClasses tree second entries).ending.printed

theorem ran_of_sameNaming (tree : Files.Tree)
    (checkVerbosity checkArgs generateVerbosity generateArgs : List String)
    (forCheck forGenerate : Given)
    (checkFlags : ∀ flag ∈ checkVerbosity, flag = "-v" ∨ flag = "--verbose")
    (generateFlags : ∀ flag ∈ generateVerbosity, flag = "-v" ∨ flag = "--verbose")
    (same : SameNaming checkArgs generateArgs forCheck forGenerate)
    (output : ∀ options, readOptions tree forGenerate.choices = .ok options →
      options.hasOutput = true) :
    ∃ checked generated, Ran tree forCheck forGenerate checked generated ∧
      (run tree (checkVerbosity ++ "check" :: checkArgs)).ending.quiet = checked.quiet ∧
      (run tree (generateVerbosity ++ "generate" :: generateArgs)).ending.quiet =
        generated.quiet := by
  have ranCheck := run_command .check tree checkVerbosity checkArgs forCheck checkFlags
    same.checkParsed same.checkHelp
  have ranGenerate := run_command .generate tree generateVerbosity generateArgs forGenerate
    generateFlags same.generateParsed same.generateHelp
  simp only [ClassCommand.word, ClassCommand.task] at ranCheck ranGenerate
  rw [ranCheck, ranGenerate]
  cases read : readInput tree forCheck with
  | error first =>
    have none := not_diagnosed_of_misuse read
    cases alsoRead : readInput tree forGenerate with
    | error second =>
      exact ⟨_, _, .unloaded _ _ none (predicts_misused tree forCheck first second none), rfl, rfl⟩
    | ok found =>
      obtain ⟨input, choices⟩ := found
      obtain ⟨-, -, -, rfl⟩ := (readInput_eq_ok tree forGenerate input choices).mp alsoRead
      have success := (readInput_same tree _ _ _ _ same input).mp alsoRead
      rw [read] at success
      cases success
  | ok found =>
    obtain ⟨input, choices⟩ := found
    obtain ⟨-, -, -, rfl⟩ := (readInput_eq_ok tree forCheck input choices).mp read
    have alsoRead := (readInput_same tree _ _ _ _ same input).mpr read
    simp only [alsoRead, check_ending, generate_ending tree input forGenerate.choices output]
    rcases load_same tree _ _ _ _ same input with
      ⟨ending, failed, alsoFailed⟩ | ⟨first, second, entries, success, alsoSuccess, exemptions⟩
    · have none := not_diagnosed_of_failure read failed
      simp only [failed, alsoFailed]
      exact ⟨_, _, .unloaded _ _ none (predicts_unloaded tree forCheck input ending failed none),
        rfl, rfl⟩
    · have agree : findings second entries = findings first entries := by
        rw [findings, findings, exemptions]
      simp only [success, alsoSuccess]
      exact ⟨_, _, .loaded input first second entries read alsoRead success alsoSuccess agree,
        rfl, rfl⟩

/-- A run of `check` predicts a run of `generate` under the same naming options, whatever the
options on the output are, as long as they are not empty and the module can be written once it comes
to that, exactly if no lone surrogate is in a line that one of the runs has for the standard output.
One in a diagnostic ends `check` there, and `generate` goes on. -/
theorem check_predicts_generate (tree : Files.Tree)
    (checkVerbosity checkArgs generateVerbosity generateArgs : List String)
    (forCheck forGenerate : Given)
    (checkFlags : ∀ flag ∈ checkVerbosity, flag = "-v" ∨ flag = "--verbose")
    (generateFlags : ∀ flag ∈ generateVerbosity, flag = "-v" ∨ flag = "--verbose")
    (same : SameNaming checkArgs generateArgs forCheck forGenerate)
    (file : forGenerate.value? "--out" ≠ some "")
    (moduleName : forGenerate.value? "--module" ≠ some "")
    (writable : ∀ input options entries,
      Accepted tree generateArgs forGenerate input options entries →
        Writable tree options entries) :
    let checked := (run tree (checkVerbosity ++ "check" :: checkArgs)).ending
    let generated := (run tree (generateVerbosity ++ "generate" :: generateArgs)).ending
    let said := ∀ input options entries,
      Accepted tree generateArgs forGenerate input options entries →
        Text.Encodable (writtenText options entries).toList
    (Predicts tree forCheck checked generated ↔
      (∀ entries ds, Diagnosed tree forCheck entries ds →
        ∀ d ∈ ds, Text.Encodable d.text.toList) ∧ said) ∧
    ∀ entries ds before d after error, Diagnosed tree forCheck entries ds →
      ds = before ++ d :: after → (∀ earlier ∈ before, Text.Encodable earlier.text.toList) →
      (Line.output d.text).encodeError? = some error → said →
      PartsAt ds before error checked generated := by
  intro checked generated said
  have output := hasOutput_of_given tree forGenerate file moduleName
  have accepted := fun input options entries => accepted_iff tree generateArgs forGenerate input
    options entries same.generateParsed output
  obtain ⟨_, _, ran, checkedAs, generatedAs⟩ := ran_of_sameNaming tree checkVerbosity
    checkArgs generateVerbosity generateArgs forCheck forGenerate checkFlags generateFlags same
    output
  -- The flags decide on the notes only, which the conclusion does not look at.
  simp only [← predicts_quiet tree forCheck checked, ← partsAt_quiet _ _ _ checked, checked,
    generated, checkedAs, generatedAs]
  simp only [predicts_quiet, partsAt_quiet]
  cases ran with
  | unloaded _ _ none predicts =>
    refine ⟨iff_of_true predicts ⟨?_, ?_⟩, ?_⟩
    · intro entries ds diagnosed
      exact (none entries ds diagnosed).elim
    · intro input options entries may
      obtain ⟨read, loaded, -⟩ := (accepted input options entries).mp may
      exact (none _ _ (diagnosed_of_load tree _ _ _ _ same input options entries read loaded)).elim
    · intro entries ds _ _ _ _ diagnosed
      exact (none entries ds diagnosed).elim
  | loaded input first second entries read alsoRead success alsoSuccess agree =>
    have mayWrite : exitCode (findings second entries) = 0 → Writable tree second entries :=
      fun passing => writable _ _ _ ((accepted _ _ _).mpr ⟨alsoRead, alsoSuccess, passing⟩)
    have once : said ↔ (exitCode (findings second entries) = 0 →
        Text.Encodable (writtenText second entries).toList) := by
      constructor
      · intro all passing
        exact all _ _ _ ((accepted _ _ _).mpr ⟨alsoRead, alsoSuccess, passing⟩)
      · intro one _ _ _ may
        obtain ⟨again, reloaded, passing⟩ := (accepted _ _ _).mp may
        rw [alsoRead] at again
        cases again
        rw [alsoSuccess] at reloaded
        cases reloaded
        exact one passing
    rw [once]
    refine ⟨⟨?_, ?_⟩, ?_⟩
    · intro predicts
      obtain ⟨all, last⟩ := printable_of_predicts tree forCheck first second entries agree mayWrite
        input read success predicts
      refine ⟨?_, last⟩
      intro others ds diagnosed
      obtain ⟨rfl, rfl⟩ := diagnosed_unique read success diagnosed
      exact all
    · rintro ⟨all, last⟩
      exact predicts_of_printable tree forCheck first second entries agree mayWrite input read
        success (all entries _ ((diagnosed_iff tree forCheck entries _).mpr
          ⟨input, first, read, success, rfl⟩)) last
    · intro others ds before d after error diagnosed split fine bad last
      obtain ⟨rfl, rfl⟩ := diagnosed_unique read success diagnosed
      exact partsAt_loaded tree first second _ agree mayWrite before after d error split fine bad
        last

/-- A tree with one input: one class with the declarations that are given. -/
def treeOf (declarations : String) : Files.Tree where
  workingDirectory := ["w"]
  nodes := [(["w", "in.json"], .file (String.toUTF8
    s!"[\x7b\"selector\":\".b\",\"declarations\":[{declarations}]\x7d]").data.toList)]

/-- An unknown unit and a custom property. -/
def mixedTree : Files.Tree := treeOf <|
  "\x7b\"prop\":\"min-width\",\"value\":\"3zz\"\x7d," ++ "\x7b\"prop\":\"--w\",\"value\":\"1\"\x7d"

/-- An unknown property whose value has half a surrogate pair in it. -/
def halfTree : Files.Tree := treeOf "\x7b\"prop\":\"foo\",\"value\":\"\\ud8001px\"\x7d"

def sampleCheck : List String := ["--prefix", "x-", "in.json"]

/-- The output is in a directory that is not there. -/
def sampleGenerate : List String := ["in.json", "--out", "o/A.elm", "--prefix=x-"]

def forSampleCheck : Given := ⟨[("--prefix", "x-")], ["in.json"]⟩

def forSampleGenerate : Given := ⟨[("--out", "o/A.elm"), ("--prefix", "x-")], ["in.json"]⟩

def checkOptions : Options := { Options.stock with affix := "x-" }

def generateOptions : Options := { checkOptions with file := "o/A.elm" }

def mixedEntries : List ClassEntry :=
  [.mk "x_b" [.mk "min-width" "3zz", .mk "--w" "1"] none]

def halfEntries : List ClassEntry :=
  [.mk "x_b" [.mk "foo" (String.ofList (Text.ofCodePoint 0xD800 :: "1px".toList))] none]

theorem sample_sameNaming :
    SameNaming sampleCheck sampleGenerate forSampleCheck forSampleGenerate := by
  constructor <;> decide +kernel

section Sample

variable {tree : Files.Tree} {entries : List ClassEntry} (present : tree.exists? "in.json" = true)
  (loaded : Document.ofFile tree checkOptions "in.json" = .ok entries)

include present loaded

theorem sample_load : readInput tree forSampleCheck = .ok ("in.json", forSampleCheck.choices) ∧
    load tree "in.json" forSampleCheck.choices = .ok (checkOptions, entries) := by
  refine (load_eq_ok tree forSampleCheck "in.json" checkOptions entries).mpr
    ⟨rfl, present, ?_, loaded⟩
  exact ⟨rfl, rfl, rfl, rfl, .inl ⟨rfl, rfl⟩, .inl ⟨rfl, rfl⟩⟩

theorem sample_diagnosed :
    Diagnosed tree forSampleCheck entries (findings checkOptions entries) := by
  obtain ⟨read, success⟩ := sample_load present loaded
  exact (diagnosed_iff tree forSampleCheck entries _).mpr ⟨_, _, read, success, rfl⟩

/-- The options and the classes are the only ones that can be accepted. -/
theorem sample_accepted {input : String} {options : Options} {others : List ClassEntry}
    (accepted : Accepted tree sampleGenerate forSampleGenerate input options others) :
    options = generateOptions ∧ others = entries := by
  have chosen : Chosen tree forSampleGenerate generateOptions :=
    ⟨rfl, rfl, rfl, rfl, .inl ⟨rfl, rfl⟩, .inl ⟨rfl, rfl⟩⟩
  obtain ⟨read, success⟩ :=
    (load_eq_ok tree forSampleGenerate "in.json" generateOptions entries).mpr
      ⟨rfl, present, chosen, (ofFile_naming tree checkOptions _ _ rfl rfl).trans loaded⟩
  obtain ⟨again, reloaded⟩ := (load_eq_ok tree forSampleGenerate input options others).mpr
    ⟨accepted.alone, accepted.present, accepted.chosen, accepted.loaded⟩
  rw [read] at again
  cases again
  rw [success] at reloaded
  cases reloaded
  exact ⟨rfl, rfl⟩

end Sample

theorem mixed_present : mixedTree.exists? "in.json" = true := by decide +kernel

theorem mixed_loaded : Document.ofFile mixedTree checkOptions "in.json" = .ok mixedEntries := by
  decide +kernel

theorem half_present : halfTree.exists? "in.json" = true := by decide +kernel

theorem half_loaded : Document.ofFile halfTree checkOptions "in.json" = .ok halfEntries := by
  decide +kernel

def halfWarning : Diagnostic :=
  Lint.unknownFunction "x_b" (.mk "foo" (String.ofList (Text.ofCodePoint 0xD800 :: "1px".toList)))
    "foo"

theorem half_findings : findings checkOptions halfEntries = [halfWarning] := by decide +kernel

theorem half_writable (input : String) (options : Options) (entries : List ClassEntry)
    (accepted : Accepted halfTree sampleGenerate forSampleGenerate input options entries) :
    Writable halfTree options entries := by
  obtain ⟨rfl, rfl⟩ := sample_accepted half_present half_loaded accepted
  decide +kernel

theorem check_predicts_generate_samples :
    SameNaming sampleCheck sampleGenerate forSampleCheck forSampleGenerate ∧
    (findings checkOptions mixedEntries).map Diagnostic.severity = [.warning, .info] ∧
    Diagnosed mixedTree forSampleCheck mixedEntries (findings checkOptions mixedEntries) ∧
    Predicts mixedTree forSampleCheck (run mixedTree (["-v"] ++ "check" :: sampleCheck)).ending
      (run mixedTree ([] ++ "generate" :: sampleGenerate)).ending ∧
    Diagnosed halfTree forSampleCheck halfEntries (findings checkOptions halfEntries) ∧
    PartsAt (findings checkOptions halfEntries) [] ⟨67, [0xD800]⟩
      (run halfTree ([] ++ "check" :: sampleCheck)).ending
      (run halfTree (["-v"] ++ "generate" :: sampleGenerate)).ending := by
  have mixed := check_predicts_generate mixedTree ["-v"] sampleCheck [] sampleGenerate
    forSampleCheck forSampleGenerate (by simp) (by simp) sample_sameNaming (by decide) (by decide)
    (by
      intro _ _ _ accepted
      obtain ⟨rfl, rfl⟩ := sample_accepted mixed_present mixed_loaded accepted
      decide +kernel)
  have half := check_predicts_generate halfTree [] sampleCheck ["-v"] sampleGenerate
    forSampleCheck forSampleGenerate (by simp) (by simp) sample_sameNaming (by decide) (by decide)
    half_writable
  have mixedDiagnosed := sample_diagnosed mixed_present mixed_loaded
  have halfDiagnosed := sample_diagnosed half_present half_loaded
  refine ⟨sample_sameNaming, by decide +kernel, mixedDiagnosed, mixed.1.mpr ⟨?_, ?_⟩,
    halfDiagnosed, half.2 halfEntries _ [] halfWarning [] _ halfDiagnosed half_findings (by simp)
      (by decide +kernel) ?_⟩
  · intro entries ds diagnosed
    obtain ⟨read, success⟩ := sample_load mixed_present mixed_loaded
    obtain ⟨rfl, rfl⟩ := diagnosed_unique read success diagnosed
    decide +kernel
  · intro _ _ _ accepted
    obtain ⟨rfl, rfl⟩ := sample_accepted mixed_present mixed_loaded accepted
    decide +kernel
  · intro _ _ _ accepted
    obtain ⟨rfl, rfl⟩ := sample_accepted half_present half_loaded accepted
    decide +kernel

/-- Half a surrogate pair in a value that is otherwise a length: `check` fails, and `generate`
writes the module. -/
theorem check_predicts_generate_half :
    SameNaming sampleCheck sampleGenerate forSampleCheck forSampleGenerate ∧
    (∀ input options entries,
      Accepted halfTree sampleGenerate forSampleGenerate input options entries →
        Writable halfTree options entries) ∧
    (run halfTree ("check" :: sampleCheck)).ending =
      ⟨1, [], some (.unencodable ⟨67, [0xD800]⟩)⟩ ∧
    (run halfTree ("generate" :: sampleGenerate)).ending =
      ⟨0, [.error halfWarning.text, .output "Wrote 1 class(es) to o/A.elm (TW.Utilities)"], none⟩ ∧
    ¬Predicts halfTree forSampleCheck (run halfTree ("check" :: sampleCheck)).ending
      (run halfTree ("generate" :: sampleGenerate)).ending := by
  have checked : (run halfTree ("check" :: sampleCheck)).ending =
      ⟨1, [], some (.unencodable ⟨67, [0xD800]⟩)⟩ := by decide +kernel
  have generated : (run halfTree ("generate" :: sampleGenerate)).ending =
      ⟨0, [.error halfWarning.text, .output "Wrote 1 class(es) to o/A.elm (TW.Utilities)"],
        none⟩ := by
    decide +kernel
  refine ⟨sample_sameNaming, half_writable, checked, generated, ?_⟩
  intro predicts
  have exit := predicts.exit
  rw [checked, generated] at exit
  cases exit

end ElmStyle.Command
