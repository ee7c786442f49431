import ElmStyle.Proofs.Command.Arguments
import ElmStyle.Proofs.Command.Printing
import ElmStyle.Proofs.Document.Loading
import ElmStyle.Proofs.Files.Writing

/-!
# All or nothing

A run of `generate` that is refused has changed nothing. One that exits with zero has written the
module of the classes that it loaded and checked, under the options that it read, and has changed
nothing else than to make the directories above it.
-/
namespace ElmStyle.Command

open Css (ClassEntry)

/-- The arguments name one input, which exists. -/
structure Asks (tree : Files.Tree) (args : List String) (given : Given) (input : String) :
    Prop where
  parsed : parse generateFlags true args = .ok given
  alone : given.positional = [input]
  present : tree.exists? input = true

/-- There is a reason not to write the module. -/
inductive Refused (tree : Files.Tree) (args : List String) : Prop where
  | misused (none : ∀ given input, ¬ Asks tree args given input)
  | badOptions (given : Given) (input : String) (asks : Asks tree args given input)
      (none : ∀ options, ¬ Chosen tree given options)
  | noOutput (given : Given) (input : String) (options : Options)
      (asks : Asks tree args given input) (chosen : Chosen tree given options)
      (empty : options.file = "" ∨ options.moduleName = "")
  | notLoaded (given : Given) (input : String) (options : Options) (error : Document.Error)
      (asks : Asks tree args given input) (chosen : Chosen tree given options)
      (failure : Document.ofFile tree options input = .error error)
  | rejected (given : Given) (input : String) (options : Options) (entries : List ClassEntry)
      (d : Diagnostic) (asks : Asks tree args given input) (chosen : Chosen tree given options)
      (loaded : Document.ofFile tree options input = .ok entries)
      (found : d ∈ findings options entries) (isError : d.severity = .error)

/-- The module may be written: it has a file and a name, and the classes are loaded and have no
errors. -/
structure Accepted (tree : Files.Tree) (args : List String) (given : Given) (input : String)
    (options : Options) (entries : List ClassEntry) : Prop extends Asks tree args given input where
  chosen : Chosen tree given options
  output : options.file ≠ "" ∧ options.moduleName ≠ ""
  loaded : Document.ofFile tree options input = .ok entries
  noError : ∀ d ∈ findings options entries, d.severity ≠ .error

/-- What `generate` does with its arguments. -/
def attempt (tree : Files.Tree) (args : List String) : Except Ending Outcome := do
  let given ← (parse generateFlags true args).mapError .misuse
  let (input, choices) ← (readInput tree given).mapError .misuse
  generate tree input choices

/-- An attempt that ends early has changed nothing. -/
def settle (tree : Files.Tree) : Except Ending Outcome → Outcome
  | .ok outcome => outcome
  | .error ending => ⟨ending, tree⟩

/-- A run prints what the attempt gives: flags for verbosity only decide on notes. -/
theorem run_generate (tree : Files.Tree) (verbosity args : List String)
    (flags : ∀ flag ∈ verbosity, flag = "-v" ∨ flag = "--verbose") (noHelp : ¬ AsksForHelp args) :
    (run tree (verbosity ++ "generate" :: args)).ending.exit =
        (settle tree (attempt tree args)).ending.printed.exit ∧
      (run tree (verbosity ++ "generate" :: args)).tree =
        (settle tree (attempt tree args)).tree := by
  have helpless : ∀ given, parse generateFlags true args = .ok given →
      given.has "--help" = false := by
    intro given parsed
    exact Bool.eq_false_iff.mpr fun asked => noHelp ⟨given, parsed, asked⟩
  obtain ⟨verbose, interpreted⟩ := interpret_command .generate tree verbosity args flags helpless
  change interpret tree (verbosity ++ "generate" :: args) = (do
    let given ← parse generateFlags true args
    let (input, choices) ← readInput tree given
    return .task verbose (.generate input choices)) at interpreted
  rw [run, interpreted, attempt]
  cases parse generateFlags true args with
  | error e => exact ⟨rfl, rfl⟩
  | ok given =>
    simp only [Except.mapError, bind, Except.bind]
    cases readInput tree given with
    | error e => exact ⟨rfl, rfl⟩
    | ok read =>
      obtain ⟨input, choices⟩ := read
      simp only [pure, Except.pure, Task.run]
      cases generate tree input choices <;> cases verbose <;> exact ⟨rfl, rfl⟩

/-- The run has ended with a message or a failure. -/
inductive Ending.Stopped : Ending → Prop where
  | refuse (message : String) : Stopped (.refuse message)
  | fail (failure : Failure) : Stopped (.fail failure)

theorem Ending.Stopped.exit {ending : Ending} (stopped : ending.Stopped) : ending.exit ≠ 0 := by
  cases stopped <;> exact Nat.one_ne_zero

theorem readOptions_stopped (tree : Files.Tree) (choices : Choices) (ending : Ending)
    (failure : readOptions tree choices = .error ending) : ending.Stopped := by
  unfold readOptions at failure
  cases exemptions : readExemptions tree choices.exemptionsFile with
  | error e =>
    simp only [exemptions, bind, Except.bind, Except.error.injEq] at failure
    subst failure
    unfold readExemptions at exemptions
    split at exemptions
    · cases exemptions
    · split at exemptions <;> cases exemptions <;> constructor
  | ok table? =>
    simp only [exemptions, bind, Except.bind] at failure
    cases built : Options.ofOverrides { choices.overrides with exemptions := table? } with
    | error e =>
      simp only [built, Except.mapError, Except.error.injEq] at failure
      subst failure
      constructor
    | ok options => simp [built, Except.mapError] at failure

theorem readClasses_stopped (tree : Files.Tree) (options : Options) (input : String)
    (ending : Ending) (failure : readClasses tree options input = .error ending) :
    ending.Stopped := by
  unfold readClasses at failure
  cases loaded : Document.ofFile tree options input with
  | error e =>
    simp only [loaded, Except.mapError, Except.error.injEq] at failure
    subst failure
    split <;> constructor
  | ok entries => simp [loaded, Except.mapError] at failure

/-- Without an input or options the attempt fails. -/
theorem attempt_unchosen (tree : Files.Tree) (args : List String)
    (none : ∀ given input options, Asks tree args given input → ¬ Chosen tree given options) :
    ∃ ending, attempt tree args = .error ending ∧ ending.exit ≠ 0 := by
  unfold attempt
  cases parsed : parse generateFlags true args with
  | error e => exact ⟨.misuse e, rfl, Nat.succ_ne_zero 1⟩
  | ok given =>
    simp only [Except.mapError, bind, Except.bind]
    cases read : readInput tree given with
    | error e => exact ⟨.misuse e, rfl, Nat.succ_ne_zero 1⟩
    | ok found =>
      obtain ⟨input, choices⟩ := found
      cases chosen : readOptions tree choices with
      | error ending =>
        refine ⟨ending, ?_, (readOptions_stopped tree choices ending chosen).exit⟩
        simp [generate, chosen, bind, Except.bind]
      | ok options =>
        obtain ⟨alone, present, held⟩ :=
          (readInput_options tree given input options).mp ⟨choices, read, chosen⟩
        exact (none given input options ⟨parsed, alone, present⟩ held).elim

/-- With an input and options the output, the classes and their findings decide. -/
theorem attempt_chosen (tree : Files.Tree) (args : List String) (given : Given) (input : String)
    (options : Options) (asks : Asks tree args given input) (chosen : Chosen tree given options) :
    attempt tree args =
      if options.hasOutput then
        (readClasses tree options input).map (generateClasses tree options)
      else .error (.refuse nothingToGenerate) := by
  obtain ⟨choices, read, success⟩ :=
    (readInput_options tree given input options).mpr ⟨asks.alone, asks.present, chosen⟩
  simp only [attempt, asks.parsed, read, Except.mapError, bind, Except.bind, generate, success]
  cases options.hasOutput with
  | false => rfl
  | true => cases readClasses tree options input <;> rfl

theorem hasOutput_iff (options : Options) :
    options.hasOutput = true ↔ options.file ≠ "" ∧ options.moduleName ≠ "" := by
  simp [Options.hasOutput]

theorem exitCode_eq_zero (ds : List Diagnostic) :
    exitCode ds = 0 ↔ ∀ d ∈ ds, d.severity ≠ .error := by
  simp [exitCode, Diagnostic.errors, Diagnostic.isError]

/-- The source of the module is in its file, and the directories above it are there. -/
def ModuleWritten (before after : Files.Tree) (options : Options) (entries : List ClassEntry) :
    Prop :=
  ∃ bytes, Text.Utf8.encode (options.moduleSpec.source entries) = .ok bytes ∧
    Files.Tree.WrittenAt before after options.file bytes

theorem writeModule_success (tree : Files.Tree) (options : Options) (entries : List ClassEntry)
    (success : (writeModule tree options entries).ending.exit = 0) :
    ModuleWritten tree (writeModule tree options entries).tree options entries := by
  simp only [writeModule] at success ⊢
  cases encoded : Text.Utf8.encode (options.moduleSpec.source entries) with
  | error error =>
    rw [encoded] at success
    split at success
    · cases success
    · split at success <;> cases success
  | ok bytes =>
    rw [encoded] at success
    refine ⟨bytes, encoded, ?_⟩
    split at success
    · cases success
    next under parents =>
      split at success
      · cases success
      next written write =>
        exact Files.Tree.writtenAt_of_write tree under written _ _ parents write

/-- Classes without errors have known pseudo-selectors. -/
theorem pseudo_known (v : Vocabulary) (t : ExemptionTable) (entries : List ClassEntry)
    (noError : ∀ d ∈ Lint.run v t [] entries, d.severity ≠ .error) (entry : ClassEntry)
    (member : entry ∈ entries) (state : String) (stated : entry.state? = some state) :
    Elm.identifier state ∈ v.pseudoClasses := by
  by_contra unknown
  have checked : ∃ d ∈ Lint.checkPseudo v entry, d.severity = .error := by
    simp [Lint.checkPseudo, Lint.unknownPseudo, stated, unknown]
  obtain ⟨d, found, isError⟩ := checked
  refine noError d ?_ isError
  simp only [Lint.run, List.append_nil, List.mem_flatMap]
  exact ⟨.pseudoKnown, by decide, List.mem_flatMap.mpr ⟨entry, member, found⟩⟩

/-- Errors among the findings keep the module from being written. -/
theorem generateClasses_rejected (tree : Files.Tree) (options : Options) (entries : List ClassEntry)
    (d : Diagnostic) (found : d ∈ findings options entries) (isError : d.severity = .error) :
    (generateClasses tree options entries).ending.exit ≠ 0 ∧
      (generateClasses tree options entries).tree = tree := by
  have failing : exitCode (findings options entries) ≠ 0 := by
    rw [Ne, exitCode_eq_zero]
    intro clean
    exact clean d found isError
  simp [generateClasses, failing]

theorem generateClasses_success (tree : Files.Tree) (options : Options) (entries : List ClassEntry)
    (success : (generateClasses tree options entries).ending.exit = 0) :
    (∀ d ∈ findings options entries, d.severity ≠ .error) ∧
      ModuleWritten tree (generateClasses tree options entries).tree options entries := by
  by_cases passing : exitCode (findings options entries) = 0
  · simp only [generateClasses, passing, if_true, Ending.after] at success ⊢
    exact ⟨(exitCode_eq_zero _).mp passing, writeModule_success tree options entries success⟩
  · simp [generateClasses, passing] at success

theorem settle_refused (tree : Files.Tree) (args : List String) (refused : Refused tree args) :
    (settle tree (attempt tree args)).ending.exit ≠ 0 ∧
      (settle tree (attempt tree args)).tree = tree := by
  have unchosen :
      (∀ given input options, Asks tree args given input → ¬ Chosen tree given options) →
      (settle tree (attempt tree args)).ending.exit ≠ 0 ∧
        (settle tree (attempt tree args)).tree = tree := by
    intro none
    obtain ⟨ending, failed, failing⟩ := attempt_unchosen tree args none
    rw [failed]
    exact ⟨failing, rfl⟩
  cases refused with
  | misused none => exact unchosen fun given input _ asks _ => none given input asks
  | badOptions given input asks none =>
    apply unchosen
    intro other _ options also
    have same : given = other := Except.ok.inj (asks.parsed.symm.trans also.parsed)
    exact same ▸ none options
  | noOutput given input options asks chosen empty =>
    have nothing : options.hasOutput = false := by
      rw [Bool.eq_false_iff, Ne, hasOutput_iff]
      rintro ⟨file, name⟩
      exact empty.elim file name
    rw [attempt_chosen tree args given input options asks chosen, nothing]
    exact ⟨Nat.one_ne_zero, rfl⟩
  | notLoaded given input options error asks chosen failure =>
    rw [attempt_chosen tree args given input options asks chosen]
    split
    · cases read : readClasses tree options input with
      | error ending => exact ⟨(readClasses_stopped tree options input ending read).exit, rfl⟩
      | ok entries =>
        have loaded := mapError_success read
        rw [failure] at loaded
        cases loaded
    · exact ⟨Nat.one_ne_zero, rfl⟩
  | rejected given input options entries d asks chosen loaded found isError =>
    have read : readClasses tree options input = .ok entries := by
      rw [readClasses, loaded]
      rfl
    rw [attempt_chosen tree args given input options asks chosen, read]
    split
    · exact generateClasses_rejected tree options entries d found isError
    · exact ⟨Nat.one_ne_zero, rfl⟩

theorem settle_success (tree : Files.Tree) (args : List String)
    (success : (settle tree (attempt tree args)).ending.exit = 0) :
    ∃ given input options entries, Accepted tree args given input options entries ∧
      ModuleWritten tree (settle tree (attempt tree args)).tree options entries := by
  by_cases can : ∃ given input options, Asks tree args given input ∧ Chosen tree given options
  · obtain ⟨given, input, options, asks, chosen⟩ := can
    rw [attempt_chosen tree args given input options asks chosen] at success ⊢
    cases output : options.hasOutput with
    | false =>
      rw [output] at success
      cases success
    | true =>
      rw [output] at success
      cases read : readClasses tree options input with
      | error ending =>
        rw [read] at success
        exact absurd success (readClasses_stopped tree options input ending read).exit
      | ok entries =>
        rw [read] at success
        obtain ⟨noError, written⟩ := generateClasses_success tree options entries success
        have filled := (hasOutput_iff options).mp output
        exact ⟨given, input, options, entries,
          ⟨asks, chosen, filled, mapError_success read, noError⟩, written⟩
  · have none : ∀ given input options, Asks tree args given input → ¬ Chosen tree given options :=
      fun given input options asks chosen => can ⟨given, input, options, asks, chosen⟩
    obtain ⟨ending, failed, failing⟩ := attempt_unchosen tree args none
    rw [failed] at success
    exact absurd success failing

/-- A refused run changes nothing. A run that exits with zero was accepted and has written the
module of its classes; all it has changed besides is that directories above the file are new. The
pseudo-selectors of the classes are known. -/
theorem generate_all_or_nothing (tree : Files.Tree) (verbosity args : List String)
    (flags : ∀ flag ∈ verbosity, flag = "-v" ∨ flag = "--verbose") (noHelp : ¬ AsksForHelp args) :
    let outcome := run tree (verbosity ++ "generate" :: args)
    (Refused tree args → outcome.ending.exit ≠ 0 ∧ outcome.tree = tree) ∧
    (outcome.ending.exit = 0 → ∃ given input options entries,
      Accepted tree args given input options entries ∧
      ModuleWritten tree outcome.tree options entries ∧
      ∀ entry ∈ entries, ∀ pseudo, entry.pseudo = some pseudo →
        Elm.identifier pseudo ∈ Vocabulary.stock.pseudoClasses) := by
  intro outcome
  obtain ⟨exit, files⟩ := run_generate tree verbosity args flags noHelp
  rw [exit, files]
  refine ⟨?_, ?_⟩
  · intro refused
    obtain ⟨failing, unchanged⟩ := settle_refused tree args refused
    exact ⟨Ending.printed_exit_ne_zero _ failing, unchanged⟩
  intro success
  rw [Ending.printed_of_exit_zero _ success] at success
  obtain ⟨given, input, options, entries, accepted, written⟩ := settle_success tree args success
  refine ⟨given, input, options, entries, accepted, written, ?_⟩
  intro entry member pseudo held
  have filled := Document.ofFile_pseudo tree options input entries accepted.loaded entry member
  have stated : entry.state? = some pseudo := by
    rw [held] at filled
    simpa [ClassEntry.state?, held] using filled
  exact pseudo_known _ _ entries accepted.noError entry member pseudo stated

/-- A tree with one input: a class with a state. -/
def hoverTree : Files.Tree where
  workingDirectory := ["home", "w"]
  nodes := [(["home", "w", "in.json"], .file (String.toUTF8 <|
    "[\x7b\"selector\":\".b:hover\"," ++
      "\"declarations\":[\x7b\"prop\":\"color\",\"value\":\"red\"\x7d]\x7d]").data.toList)]

/-- The output is in a directory that is not there, on a path from the root that goes back beyond
it. -/
def hoverArguments : List String :=
  ["./in.json", "--out", "/../home/v/../out/A.elm", "--module", "A"]

/-- The output has no name. -/
def emptyArguments : List String := ["in.json", "--out", ""]

theorem not_asksForHelp (args : List String) (given : Given)
    (parsed : parse generateFlags true args = .ok given) (none : given.has "--help" = false) :
    ¬ AsksForHelp args := by
  rintro ⟨other, read, asked⟩
  rw [parsed] at read
  cases read
  rw [none] at asked
  cases asked

theorem emptyArguments_refused : Refused hoverTree emptyArguments := by
  have parsed : parse generateFlags true emptyArguments = .ok ⟨[("--out", "")], ["in.json"]⟩ := by
    decide +kernel
  refine .noOutput ⟨[("--out", "")], ["in.json"]⟩ "in.json" { Options.stock with file := "" }
    ⟨parsed, rfl, by decide +kernel⟩ ?_ (.inl rfl)
  exact ⟨rfl, rfl, rfl, rfl, .inl ⟨rfl, rfl⟩, .inl ⟨rfl, rfl⟩⟩

theorem generate_all_or_nothing_hover :
    ((run hoverTree (["-v"] ++ "generate" :: hoverArguments)).ending.exit = 0 ∧
      ∃ given input options entries,
        Accepted hoverTree hoverArguments given input options entries ∧
        ModuleWritten hoverTree (run hoverTree (["-v"] ++ "generate" :: hoverArguments)).tree
          options entries ∧
        ∀ entry ∈ entries, ∀ pseudo, entry.pseudo = some pseudo →
          Elm.identifier pseudo ∈ Vocabulary.stock.pseudoClasses) ∧
    Refused hoverTree emptyArguments ∧
      (run hoverTree (["-v"] ++ "generate" :: emptyArguments)).ending.exit ≠ 0 ∧
      (run hoverTree (["-v"] ++ "generate" :: emptyArguments)).tree = hoverTree := by
  have success : (run hoverTree (["-v"] ++ "generate" :: hoverArguments)).ending.exit = 0 := by
    decide +kernel
  have noHelp : ¬ AsksForHelp hoverArguments :=
    not_asksForHelp _ ⟨[("--out", "/../home/v/../out/A.elm"), ("--module", "A")], ["./in.json"]⟩
      (by decide +kernel) (by decide)
  have noHelpEither : ¬ AsksForHelp emptyArguments :=
    not_asksForHelp _ ⟨[("--out", "")], ["in.json"]⟩ (by decide +kernel) (by decide)
  have written := generate_all_or_nothing hoverTree ["-v"] hoverArguments (by simp) noHelp
  have refused := generate_all_or_nothing hoverTree ["-v"] emptyArguments (by simp) noHelpEither
  exact ⟨⟨success, written.2 success⟩, emptyArguments_refused, refused.1 emptyArguments_refused⟩

end ElmStyle.Command
