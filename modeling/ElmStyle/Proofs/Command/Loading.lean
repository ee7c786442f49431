import ElmStyle.Proofs.Command.Generation

/-!
# The same classes for both commands

The options on names and the input decide which classes `check` and `generate` load, and what they
have to say about them. The options on the output only decide on what `generate` does with them.
-/
namespace ElmStyle.Command

open Css (ClassEntry)

/-- Up to notes, a run is what its task does with the input and the choices that are read. -/
theorem run_command (command : ClassCommand) (tree : Files.Tree) (verbosity args : List String)
    (given : Given) (flags : ∀ flag ∈ verbosity, flag = "-v" ∨ flag = "--verbose")
    (parsed : parse command.flags true args = .ok given) (noHelp : given.has "--help" = false) :
    (run tree (verbosity ++ command.word :: args)).ending.quiet =
      match readInput tree given with
      | .error e => (Ending.misuse e).quiet
      | .ok (input, choices) => ((command.task input choices).run tree).ending.printed.quiet := by
  have helpless : ∀ other, parse command.flags true args = .ok other →
      other.has "--help" = false := by
    intro other also
    rw [parsed] at also
    cases also
    exact noHelp
  have quiet_quiet : ∀ e : Ending, e.quiet.quiet = e.quiet := by
    intro e
    simp [Ending.quiet]
  obtain ⟨verbose, interpreted⟩ := interpret_command command tree verbosity args flags helpless
  rw [run, interpreted, parsed]
  simp only [bind, Except.bind]
  cases readInput tree given with
  | error e => rfl
  | ok read =>
    obtain ⟨input, choices⟩ := read
    cases verbose with
    | true => rfl
    | false => exact quiet_quiet _

/-- Both command lines can be read, neither asks for help, and they agree in the input and in the
options on names. The options on the output are free. -/
structure SameNaming (checkArgs generateArgs : List String) (forCheck forGenerate : Given) :
    Prop where
  checkParsed : parse namingFlags true checkArgs = .ok forCheck
  generateParsed : parse generateFlags true generateArgs = .ok forGenerate
  checkHelp : forCheck.has "--help" = false
  generateHelp : forGenerate.has "--help" = false
  positional : forGenerate.positional = forCheck.positional
  affix : forGenerate.value? "--prefix" = forCheck.value? "--prefix"
  nameStyle : forGenerate.value? "--name-style" = forCheck.value? "--name-style"
  exemptions : forGenerate.value? "--exemptions" = forCheck.value? "--exemptions"

/-- The classes of the input are loaded under the chosen options, and these are the findings about
them. -/
def Diagnosed (tree : Files.Tree) (given : Given) (entries : List ClassEntry)
    (ds : List Diagnostic) : Prop :=
  ∃ input options, given.positional = [input] ∧ tree.exists? input = true ∧
    Chosen tree given options ∧ Document.ofFile tree options input = .ok entries ∧
    ds = findings options entries

/-- Only the input and the options on names decide whether the arguments can be read. -/
theorem readInput_same (tree : Files.Tree) (checkArgs generateArgs : List String)
    (forCheck forGenerate : Given)
    (same : SameNaming checkArgs generateArgs forCheck forGenerate) (input : String) :
    readInput tree forGenerate = .ok (input, forGenerate.choices) ↔
      readInput tree forCheck = .ok (input, forCheck.choices) := by
  simp only [readInput_eq_ok, checkOption_all, same.positional, same.nameStyle, same.exemptions]

/-- The options and the classes, as both commands read them. -/
def load (tree : Files.Tree) (input : String) (choices : Choices) :
    Except Ending (Options × List ClassEntry) := do
  let options ← readOptions tree choices
  let entries ← readClasses tree options input
  return (options, entries)

theorem check_ending (tree : Files.Tree) (input : String) (choices : Choices) :
    ((Task.check input choices).run tree).ending =
      match load tree input choices with
      | .error ending => ending
      | .ok (options, entries) => reportClasses options entries := by
  simp only [Task.run, check, load, bind, Except.bind]
  cases readOptions tree choices with
  | error ending => rfl
  | ok options =>
    dsimp only
    cases readClasses tree options input <;> rfl

theorem generate_ending (tree : Files.Tree) (input : String) (choices : Choices)
    (output : ∀ options, readOptions tree choices = .ok options → options.hasOutput = true) :
    ((Task.generate input choices).run tree).ending =
      match load tree input choices with
      | .error ending => ending
      | .ok (options, entries) => (generateClasses tree options entries).ending := by
  simp only [Task.run, generate, load, bind, Except.bind]
  cases read : readOptions tree choices with
  | error ending => rfl
  | ok options =>
    simp only [output options read]
    cases readClasses tree options input <;> rfl

/-- The classes of a document depend on the options through the names only. -/
theorem ofFile_naming (tree : Files.Tree) (first second : Options) (path : String)
    (affix : second.affix = first.affix) (nameStyle : second.nameStyle = first.nameStyle) :
    Document.ofFile tree second path = Document.ofFile tree first path := by
  have entry : Document.readEntry second = Document.readEntry first := by
    funext value
    cases value <;> simp only [Document.readEntry, affix, nameStyle]
  have json : Document.ofJson second = Document.ofJson first := by
    funext value
    cases value <;> simp only [Document.ofJson, entry]
  simp only [Document.ofFile, Document.ofText, json]

/-- The options of both commands agree in what decides on the classes and their findings, or cannot
be read for the same reason. -/
theorem readOptions_same (tree : Files.Tree) (checkArgs generateArgs : List String)
    (forCheck forGenerate : Given)
    (same : SameNaming checkArgs generateArgs forCheck forGenerate) :
    (∃ ending, readOptions tree forCheck.choices = .error ending ∧
      readOptions tree forGenerate.choices = .error ending) ∨
    ∃ first second, readOptions tree forCheck.choices = .ok first ∧
      readOptions tree forGenerate.choices = .ok second ∧ second.affix = first.affix ∧
      second.nameStyle = first.nameStyle ∧ second.exemptions = first.exemptions := by
  have file : forGenerate.choices.exemptionsFile = forCheck.choices.exemptionsFile :=
    same.exemptions
  have style : forGenerate.nameStyle = forCheck.nameStyle := by
    rw [Given.nameStyle, Given.nameStyle, same.nameStyle]
  simp only [readOptions, file, bind, Except.bind]
  cases readExemptions tree forCheck.choices.exemptionsFile with
  | error ending => exact .inl ⟨ending, rfl, rfl⟩
  | ok table? =>
    simp only [ofOverrides_choices, style]
    cases forCheck.nameStyle with
    | error e => exact .inl ⟨_, rfl, rfl⟩
    | ok chosen =>
      refine .inr ⟨_, _, rfl, rfl, ?_, rfl, rfl⟩
      simp only [same.affix]

theorem load_same (tree : Files.Tree) (checkArgs generateArgs : List String)
    (forCheck forGenerate : Given)
    (same : SameNaming checkArgs generateArgs forCheck forGenerate) (input : String) :
    (∃ ending, load tree input forCheck.choices = .error ending ∧
      load tree input forGenerate.choices = .error ending) ∨
    ∃ first second entries, load tree input forCheck.choices = .ok (first, entries) ∧
      load tree input forGenerate.choices = .ok (second, entries) ∧
      second.exemptions = first.exemptions := by
  rcases readOptions_same tree checkArgs generateArgs forCheck forGenerate same with
    ⟨ending, failed, alsoFailed⟩ | ⟨first, second, read, alsoRead, affix, style, exemptions⟩
  · exact .inl ⟨ending, by rw [load, failed]; rfl, by rw [load, alsoFailed]; rfl⟩
  · have classes : readClasses tree second input = readClasses tree first input := by
      rw [readClasses, readClasses, ofFile_naming tree first second input affix style]
    simp only [load, read, alsoRead, classes, bind, Except.bind]
    cases readClasses tree first input with
    | error ending => exact .inl ⟨ending, rfl, rfl⟩
    | ok entries => exact .inr ⟨first, second, entries, rfl, rfl, exemptions⟩

/-- A run that ends before the findings prints nothing on the standard output. -/
theorem load_outputs (tree : Files.Tree) (input : String) (choices : Choices) (ending : Ending)
    (failure : load tree input choices = .error ending) : ending.outputs = [] := by
  have silent : ∀ e : Ending, e.Stopped → e.outputs = [] := by
    intro e stopped
    cases stopped <;> rfl
  simp only [load, bind, Except.bind] at failure
  cases read : readOptions tree choices with
  | error e =>
    simp only [read, Except.error.injEq] at failure
    exact failure ▸ silent e (readOptions_stopped tree choices e read)
  | ok options =>
    simp only [read] at failure
    cases loaded : readClasses tree options input with
    | error e =>
      simp only [loaded, Except.error.injEq] at failure
      exact failure ▸ silent e (readClasses_stopped tree options input e loaded)
    | ok entries => simp [loaded, pure, Except.pure] at failure

/-- The classes are loaded under the chosen options. -/
theorem load_eq_ok (tree : Files.Tree) (given : Given) (input : String) (options : Options)
    (entries : List ClassEntry) :
    (readInput tree given = .ok (input, given.choices) ∧
        load tree input given.choices = .ok (options, entries)) ↔
      given.positional = [input] ∧ tree.exists? input = true ∧ Chosen tree given options ∧
        Document.ofFile tree options input = .ok entries := by
  constructor
  · rintro ⟨read, loaded⟩
    obtain ⟨chosen, success, loaded⟩ := bind_success loaded
    obtain ⟨classes, classesRead, paired⟩ := bind_success loaded
    cases paired
    obtain ⟨alone, present, held⟩ :=
      (readInput_options tree given input options).mp ⟨given.choices, read, success⟩
    exact ⟨alone, present, held, mapError_success classesRead⟩
  · rintro ⟨alone, present, chosen, loaded⟩
    obtain ⟨choices, read, success⟩ :=
      (readInput_options tree given input options).mpr ⟨alone, present, chosen⟩
    obtain ⟨-, -, -, rfl⟩ := (readInput_eq_ok tree given input choices).mp read
    refine ⟨read, ?_⟩
    simp only [load, success, readClasses, loaded, bind, Except.bind, Except.mapError]
    rfl

/-- The findings are those about the classes that are loaded. -/
theorem diagnosed_iff (tree : Files.Tree) (given : Given) (entries : List ClassEntry)
    (ds : List Diagnostic) :
    Diagnosed tree given entries ds ↔ ∃ input options,
      readInput tree given = .ok (input, given.choices) ∧
      load tree input given.choices = .ok (options, entries) ∧ ds = findings options entries := by
  constructor
  · rintro ⟨input, options, alone, present, chosen, loaded, made⟩
    obtain ⟨read, success⟩ :=
      (load_eq_ok tree given input options entries).mpr ⟨alone, present, chosen, loaded⟩
    exact ⟨input, options, read, success, made⟩
  · rintro ⟨input, options, read, success, made⟩
    obtain ⟨alone, present, chosen, loaded⟩ :=
      (load_eq_ok tree given input options entries).mp ⟨read, success⟩
    exact ⟨input, options, alone, present, chosen, loaded, made⟩

/-- The loaded classes have one list of findings. -/
theorem diagnosed_unique {tree : Files.Tree} {given : Given} {input : String} {options : Options}
    {entries others : List ClassEntry} {ds : List Diagnostic}
    (read : readInput tree given = .ok (input, given.choices))
    (loaded : load tree input given.choices = .ok (options, entries))
    (diagnosed : Diagnosed tree given others ds) :
    others = entries ∧ ds = findings options entries := by
  obtain ⟨_, _, again, reloaded, rfl⟩ := (diagnosed_iff tree given others ds).mp diagnosed
  rw [read] at again
  cases again
  rw [loaded] at reloaded
  cases reloaded
  exact ⟨rfl, rfl⟩

theorem not_diagnosed_of_misuse {tree : Files.Tree} {given : Given} {error : UsageError}
    (failed : readInput tree given = .error error) (entries : List ClassEntry)
    (ds : List Diagnostic) : ¬Diagnosed tree given entries ds := by
  intro diagnosed
  obtain ⟨_, _, read, -⟩ := (diagnosed_iff tree given entries ds).mp diagnosed
  rw [failed] at read
  cases read

theorem not_diagnosed_of_failure {tree : Files.Tree} {given : Given} {input : String}
    {ending : Ending} (read : readInput tree given = .ok (input, given.choices))
    (failed : load tree input given.choices = .error ending) (entries : List ClassEntry)
    (ds : List Diagnostic) : ¬Diagnosed tree given entries ds := by
  intro diagnosed
  obtain ⟨_, _, again, loaded, -⟩ := (diagnosed_iff tree given entries ds).mp diagnosed
  rw [read] at again
  cases again
  rw [failed] at loaded
  cases loaded

/-- What `generate` accepts, `check` has findings on. -/
theorem diagnosed_of_load (tree : Files.Tree) (checkArgs generateArgs : List String)
    (forCheck forGenerate : Given)
    (same : SameNaming checkArgs generateArgs forCheck forGenerate) (input : String)
    (options : Options) (entries : List ClassEntry)
    (read : readInput tree forGenerate = .ok (input, forGenerate.choices))
    (loaded : load tree input forGenerate.choices = .ok (options, entries)) :
    Diagnosed tree forCheck entries (findings options entries) := by
  have checkRead := (readInput_same tree _ _ _ _ same input).mp read
  rcases load_same tree _ _ _ _ same input with
    ⟨ending, -, failed⟩ | ⟨first, second, others, success, alsoSuccess, exemptions⟩
  · rw [loaded] at failed
    cases failed
  · rw [loaded] at alsoSuccess
    cases alsoSuccess
    refine (diagnosed_iff tree forCheck entries _).mpr ⟨input, first, checkRead, success, ?_⟩
    rw [findings, findings, exemptions]

/-- The output is not given as empty, so there is something to generate. -/
theorem hasOutput_of_given (tree : Files.Tree) (given : Given)
    (file : given.value? "--out" ≠ some "") (moduleName : given.value? "--module" ≠ some "")
    (options : Options) (read : readOptions tree given.choices = .ok options) :
    options.hasOutput = true := by
  have filled : ∀ (value? : Option String) (stock : String), value? ≠ some "" → stock ≠ "" →
      value?.getD stock ≠ "" := by
    intro value? stock other named
    cases value? with
    | none => exact named
    | some value =>
      rintro rfl
      exact other rfl
  obtain ⟨table?, -, built⟩ := bind_success read
  have made := mapError_success built
  rw [ofOverrides_choices] at made
  obtain ⟨style, -, rfl⟩ := map_success made
  rw [hasOutput_iff]
  exact ⟨filled _ _ file (by decide), filled _ _ moduleName (by decide)⟩

/-- The module may be written if the classes that are loaded have no errors. -/
theorem accepted_iff (tree : Files.Tree) (args : List String) (given : Given) (input : String)
    (options : Options) (entries : List ClassEntry)
    (parsed : parse generateFlags true args = .ok given)
    (output : ∀ options, readOptions tree given.choices = .ok options → options.hasOutput = true) :
    Accepted tree args given input options entries ↔
      readInput tree given = .ok (input, given.choices) ∧
      load tree input given.choices = .ok (options, entries) ∧
      exitCode (findings options entries) = 0 := by
  rw [exitCode_eq_zero, ← and_assoc, load_eq_ok]
  constructor
  · intro accepted
    exact ⟨⟨accepted.alone, accepted.present, accepted.chosen, accepted.loaded⟩, accepted.noError⟩
  · rintro ⟨⟨alone, present, chosen, loaded⟩, noError⟩
    have filled := output options (readOptions_of_chosen tree given options chosen)
    exact ⟨⟨parsed, alone, present⟩, chosen, (hasOutput_iff options).mp filled, loaded, noError⟩

end ElmStyle.Command
