import ElmStyle.Command.Run
import ElmStyle.Proofs.Success

/-!
# What a command line asks for

A command line for `check` or `generate` is followed to the command, whose arguments are read with
the options that it knows. The options of a run are then the given ones and, where none is given,
the stock ones.
-/
namespace ElmStyle.Command

/-- All options are of the given flags. -/
def Given.Known (flags : List Flag) (g : Given) : Prop :=
  ∀ option ∈ g.options, ∃ flag ∈ flags, flag.long = option.1

theorem Given.Known.addOption {flags : List Flag} {g : Given} (known : g.Known flags)
    (name value : String) (flag : Flag) (found : flags.find? (·.long = name) = some flag) :
    (g.addOption name value).Known flags := by
  intro option member
  rcases List.mem_cons.mp member with rfl | before
  · exact ⟨flag, List.mem_of_find?_eq_some found, by simpa using List.find?_some found⟩
  · exact known option before

theorem lettered_known (flags : List Flag) (letters : List Char) (names : List String)
    (success : lettered flags letters = .ok names) (name : String) (member : name ∈ names) :
    ∃ flag ∈ flags, flag.long = name := by
  induction letters generalizing names with
  | nil =>
    cases success
    cases member
  | cons letter rest ih =>
    unfold lettered at success
    split at success
    next flag found =>
      obtain ⟨others, later, rfl⟩ := map_success success
      rcases List.mem_cons.mp member with rfl | further
      · exact ⟨flag, List.mem_of_find?_eq_some found, rfl⟩
      · exact ih others later further
    · cases success

theorem parse_known (flags : List Flag) (mixed : Bool) (args : List String) (given : Given)
    (success : parse flags mixed args = .ok given) : given.Known flags := by
  fun_induction parse flags mixed args generalizing given with
  | case1 =>
    cases success
    simp [Given.Known]
  | case2 =>
    cases success
    simp [Given.Known]
  | case3 _ _ _ _ name flag value found _ _ ih =>
    obtain ⟨later, parsed, rfl⟩ := map_success success
    exact (ih later parsed).addOption name value flag found
  | case4 => cases success
  | case5 => cases success
  | case6 _ _ _ name flag found _ value _ _ ih =>
    obtain ⟨later, parsed, rfl⟩ := map_success success
    exact (ih later parsed).addOption name value flag found
  | case7 _ _ _ _ name flag found _ _ ih =>
    obtain ⟨later, parsed, rfl⟩ := map_success success
    exact (ih later parsed).addOption name "" flag found
  | case8 => cases success
  | case9 _ _ _ _ _ _ _ _ _ options letters ih =>
    obtain ⟨later, parsed, rfl⟩ := map_success success
    intro option member
    rcases List.mem_append.mp member with new | before
    · obtain ⟨name, held, rfl⟩ := List.mem_map.mp new
      exact lettered_known flags _ options letters name held
    · exact ih later parsed option before
  | case10 => cases success
  | case11 _ _ _ _ _ ih =>
    obtain ⟨later, parsed, rfl⟩ := map_success success
    exact ih later parsed
  | case12 =>
    cases success
    simp [Given.Known]

/-- The options of the command ask for help. -/
def AsksForHelp (args : List String) : Prop :=
  ∃ given, parse generateFlags true args = .ok given ∧ given.has "--help" = true

theorem information_eq_none (g : Given) (version : g.has "--version" = false)
    (help : g.has "--help" = false) : g.information? = none := by
  simp only [Given.has, List.any_eq_false, beq_iff_eq] at version help
  rw [Given.information?, List.findSome?_eq_none_iff]
  intro option member
  simp [version option member, help option member]

/-- Only help can be asked for among options that do not ask for the version. -/
theorem parse_information (flags : List Flag) (args : List String) (given : Given)
    (parsed : parse flags true args = .ok given)
    (versionless : ∀ flag ∈ flags, flag.long ≠ "--version") (noHelp : given.has "--help" = false) :
    given.information? = none := by
  refine information_eq_none given ?_ noHelp
  simp only [Given.has, List.any_eq_false, beq_iff_eq]
  intro option member version
  obtain ⟨flag, held, named⟩ := parse_known flags true args given parsed option member
  exact versionless flag held (named.trans version)

/-- The commands that read classes from a file. -/
inductive ClassCommand where
  | check | generate
  deriving DecidableEq, Repr

namespace ClassCommand

/-- The word that names the command on a command line. -/
def word : ClassCommand → String
  | .check => "check"
  | .generate => "generate"

def flags : ClassCommand → List Flag
  | .check => namingFlags
  | .generate => generateFlags

def task : ClassCommand → String → Choices → Task
  | .check => .check
  | .generate => .generate

end ClassCommand

theorem flags_versionless (command : ClassCommand) :
    ∀ flag ∈ command.flags, flag.long ≠ "--version" := by
  cases command <;> decide

/-- Flags for verbosity come before the command, which takes all that is after it. -/
theorem parse_verbosity (command : ClassCommand) (verbosity args : List String)
    (flags : ∀ flag ∈ verbosity, flag = "-v" ∨ flag = "--verbose") :
    parse globalFlags false (verbosity ++ command.word :: args) =
      .ok ⟨verbosity.map fun _ => ("--verbose", ""), command.word :: args⟩ := by
  induction verbosity with
  | nil =>
    have word : isOption command.word = false ∧ command.word ≠ "--" := by
      cases command <;> decide
    simp [parse, word]
  | cons flag rest ih =>
    obtain ⟨first, later⟩ := List.forall_mem_cons.mp flags
    rcases first with rfl | rfl
    · have option : isOption "-v" = true := by decide
      have whole : splitValue "-v" = ("-v", none) := by decide
      have short : globalFlags.find? (·.long = "-v") = none := by decide
      have letters : lettered globalFlags ['v'] = .ok ["--verbose"] := by decide
      simp [parse, option, whole, short, letters, ih later, Except.map, Given.addOptions]
    · have option : isOption "--verbose" = true := by decide
      have whole : splitValue "--verbose" = ("--verbose", none) := by decide
      have long : globalFlags.find? (·.long = "--verbose") =
          some ⟨"--verbose", some 'v', false⟩ := by decide
      simp [parse, option, whole, long, ih later, Except.map, Given.addOption]

theorem find_command (command : ClassCommand) :
    ∃ verb, verbs.find? (·.name = command.word) = some verb ∧ verb.flags = command.flags ∧
      ∀ tree given, verb.read tree given =
        (readInput tree given).map fun (input, choices) => command.task input choices := by
  cases command with
  | check =>
    refine ⟨_, rfl, rfl, fun tree given => ?_⟩
    change (do
      let (input, choices) ← readInput tree given
      return Task.check input choices) = _
    cases readInput tree given <;> rfl
  | generate =>
    refine ⟨_, rfl, rfl, fun tree given => ?_⟩
    change (do
      let (input, choices) ← readInput tree given
      return Task.generate input choices) = _
    cases readInput tree given <;> rfl

/-- A command line is followed to its command, whose arguments are read with its own options. -/
theorem interpret_command (command : ClassCommand) (tree : Files.Tree)
    (verbosity args : List String) (flags : ∀ flag ∈ verbosity, flag = "-v" ∨ flag = "--verbose")
    (noHelp : ∀ given, parse command.flags true args = .ok given → given.has "--help" = false) :
    ∃ verbose, interpret tree (verbosity ++ command.word :: args) = do
      let given ← parse command.flags true args
      let (input, choices) ← readInput tree given
      return .task verbose (command.task input choices) := by
  let before : Given := ⟨verbosity.map fun _ => ("--verbose", ""), command.word :: args⟩
  refine ⟨before.has "--verbose", ?_⟩
  have silent : before.information? = none :=
    information_eq_none before (by simp [before, Given.has]) (by simp [before, Given.has])
  obtain ⟨verb, found, own, reads⟩ := find_command command
  rw [interpret, if_neg (by simp), parse_verbosity command verbosity args flags]
  simp only [bind, Except.bind, silent, before, found, own, reads]
  cases parsed : parse command.flags true args with
  | error e => rfl
  | ok given =>
    simp only [parse_information command.flags args given parsed (flags_versionless command)
      (noHelp given parsed)]
    cases readInput tree given <;> rfl

theorem checkPath_eq_ok (tree : Files.Tree) (parameter path : String) :
    checkPath tree parameter path = .ok () ↔ tree.exists? path = true := by
  unfold checkPath
  split
  next present => simp [present]
  next absent => simp [absent]

theorem checkNoMore_eq_ok (rest : List String) : checkNoMore rest = .ok () ↔ rest = [] := by
  unfold checkNoMore
  split
  next none => simp [none]
  next more => simp [more]

theorem value_named (given : Given) (option value : String)
    (held : given.value? option = some value) : option ∈ given.names := by
  obtain ⟨before, after, split, -⟩ := List.lookup_eq_some_iff.mp held
  rw [Given.names, List.mem_eraseDups, List.mem_map]
  refine ⟨(option, value), ?_, rfl⟩
  rw [← List.mem_reverse, split]
  simp

theorem ofName_eq_some (value : String) (style : Elm.NameStyle) :
    Elm.NameStyle.ofName? value = some style ↔ value = style.name := by
  constructor
  · intro found
    have named : style.name = value := by simpa using List.find?_some found
    exact named.symm
  · rintro rfl
    cases style <;> rfl

/-- The values that are checked are a style that exists and a path that does. -/
theorem checkOption_all (tree : Files.Tree) (given : Given) :
    (∀ option ∈ given.names, checkOption tree given option = .ok ()) ↔
      (∀ value, given.value? "--name-style" = some value →
        ∃ style : Elm.NameStyle, value = style.name) ∧
      ∀ path, given.value? "--exemptions" = some path → tree.exists? path = true := by
  constructor
  · intro checks
    constructor
    · intro value held
      have check := checks _ (value_named given _ value held)
      simpa [checkOption, held, Option.isSome_iff_exists, ofName_eq_some] using check
    · intro path held
      have check := checks _ (value_named given _ path held)
      simpa [checkOption, held, checkPath_eq_ok] using check
  · rintro ⟨styled, present⟩ option -
    unfold checkOption
    split
    next value held =>
      obtain ⟨style, named⟩ := styled value held
      simp [(ofName_eq_some value style).mpr named]
    next path held => exact (checkPath_eq_ok tree _ path).mpr (present path held)
    · rfl

/-- The choices are those that the options give. -/
def Given.choices (given : Given) : Choices where
  overrides := {
    file := given.value? "--out"
    moduleName := given.value? "--module"
    affix := given.value? "--prefix"
    nameStyle := (given.value? "--name-style").map .string
    styleType := given.value? "--style-type" }
  exemptionsFile := given.value? "--exemptions"

theorem readInput_eq_ok (tree : Files.Tree) (given : Given) (input : String) (choices : Choices) :
    readInput tree given = .ok (input, choices) ↔
      (∀ option ∈ given.names, checkOption tree given option = .ok ()) ∧
      given.positional = [input] ∧ tree.exists? input = true ∧ choices = given.choices := by
  rw [← forM_eq_ok]
  unfold readInput
  constructor
  · intro success
    obtain ⟨_, checks, success⟩ := bind_success success
    split at success
    · cases success
    next first rest positional =>
      obtain ⟨_, present, success⟩ := bind_success success
      obtain ⟨_, noMore, success⟩ := bind_success success
      cases success
      rw [checkNoMore_eq_ok] at noMore
      exact ⟨checks, by rw [positional, noMore], (checkPath_eq_ok _ _ _).mp present, rfl⟩
  · rintro ⟨checks, positional, present, rfl⟩
    simp only [checks, positional, (checkPath_eq_ok tree "INPUT_FILE" input).mpr present,
      (checkNoMore_eq_ok []).mpr rfl]
    rfl

/-- The options of a run: what is given, and the stock options for the rest. The exemptions in a
file come over the stock ones. -/
structure Chosen (tree : Files.Tree) (given : Given) (options : Options) : Prop where
  file : options.file = (given.value? "--out").getD Options.stock.file
  moduleName : options.moduleName = (given.value? "--module").getD Options.stock.moduleName
  affix : options.affix = (given.value? "--prefix").getD Options.stock.affix
  styleType : options.styleType = (given.value? "--style-type").getD Options.stock.styleType
  nameStyle : given.value? "--name-style" = none ∧ options.nameStyle = Options.stock.nameStyle ∨
    given.value? "--name-style" = some options.nameStyle.name
  exemptions : given.value? "--exemptions" = none ∧ options.exemptions = .stock ∨
    ∃ path table, given.value? "--exemptions" = some path ∧ tree.exists? path = true ∧
      ExemptionTable.ofFile tree path = .ok table ∧
      options.exemptions = ExemptionTable.stock.merge table

theorem readExemptions_success (tree : Files.Tree) (path : String) (found : Option ExemptionTable)
    (success : readExemptions tree (some path) = .ok found) :
    ∃ table, ExemptionTable.ofFile tree path = .ok table ∧
      found = some (ExemptionTable.stock.merge table) := by
  simp only [readExemptions] at success
  split at success
  next table read =>
    cases success
    exact ⟨table, read, rfl⟩
  · cases success
  · cases success
  · cases success

/-- The style that is given, if it exists, or else the stock one. -/
def Given.nameStyle (given : Given) : Except OptionError Elm.NameStyle :=
  match given.value? "--name-style" with
  | some value => Options.readNameStyle (.string value)
  | none => .ok Options.stock.nameStyle

theorem nameStyle_eq_ok (given : Given) (style : Elm.NameStyle) :
    given.nameStyle = .ok style ↔
      given.value? "--name-style" = none ∧ style = Options.stock.nameStyle ∨
        given.value? "--name-style" = some style.name := by
  unfold Given.nameStyle
  split
  next value held =>
    have read : Options.readNameStyle (.string value) = .ok style ↔ value = style.name := by
      rw [← ofName_eq_some]
      simp only [Options.readNameStyle]
      cases Elm.NameStyle.ofName? value <;> simp
    simp [held, read]
  next absent => simp [absent, eq_comm]

theorem ofOverrides_choices (given : Given) (table? : Option ExemptionTable) :
    Options.ofOverrides { given.choices.overrides with exemptions := table? } =
      given.nameStyle.map fun style => {
        file := (given.value? "--out").getD Options.stock.file
        moduleName := (given.value? "--module").getD Options.stock.moduleName
        affix := (given.value? "--prefix").getD Options.stock.affix
        nameStyle := style
        styleType := (given.value? "--style-type").getD Options.stock.styleType
        exemptions := table?.getD .stock } := by
  simp only [Options.ofOverrides, Given.choices, Given.nameStyle]
  cases given.value? "--name-style" with
  | none => rfl
  | some value =>
    simp only [Option.map_some]
    cases Options.readNameStyle (.string value) <;> rfl

theorem chosen_of_readOptions (tree : Files.Tree) (given : Given) (options : Options)
    (present : ∀ path, given.value? "--exemptions" = some path → tree.exists? path = true)
    (success : readOptions tree given.choices = .ok options) : Chosen tree given options := by
  obtain ⟨table?, read, success⟩ := bind_success success
  have built := mapError_success success
  rw [ofOverrides_choices] at built
  obtain ⟨style, styled, rfl⟩ := map_success built
  refine ⟨rfl, rfl, rfl, rfl, (nameStyle_eq_ok given style).mp styled, ?_⟩
  have file : given.choices.exemptionsFile = given.value? "--exemptions" := rfl
  rw [file] at read
  cases held : given.value? "--exemptions" with
  | none =>
    rw [held] at read
    cases read
    exact .inl ⟨rfl, rfl⟩
  | some path =>
    rw [held] at read
    obtain ⟨table, ofFile, rfl⟩ := readExemptions_success tree path table? read
    exact .inr ⟨path, table, rfl, present path held, ofFile, rfl⟩

theorem readOptions_of_chosen (tree : Files.Tree) (given : Given) (options : Options)
    (chosen : Chosen tree given options) : readOptions tree given.choices = .ok options := by
  have styled := (nameStyle_eq_ok given options.nameStyle).mpr chosen.nameStyle
  have built : ∀ table? : Option ExemptionTable, options.exemptions = table?.getD .stock →
      readExemptions tree given.choices.exemptionsFile = .ok table? →
      readOptions tree given.choices = .ok options := by
    intro table? exemptions read
    simp only [readOptions, read, bind, Except.bind, ofOverrides_choices, styled, Except.map,
      Except.mapError, ← chosen.file, ← chosen.moduleName, ← chosen.affix, ← chosen.styleType,
      ← exemptions]
  rcases chosen.exemptions with ⟨absent, stock⟩ | ⟨path, table, held, -, ofFile, merged⟩
  · exact built none stock (by simp [Given.choices, absent, readExemptions])
  · exact built (some (ExemptionTable.stock.merge table)) merged
      (by simp [Given.choices, held, readExemptions, ofFile])

/-- The input and the options are read exactly if there is one input, which exists, and options can
be chosen. -/
theorem readInput_options (tree : Files.Tree) (given : Given) (input : String) (options : Options) :
    (∃ choices, readInput tree given = .ok (input, choices) ∧
        readOptions tree choices = .ok options) ↔
      given.positional = [input] ∧ tree.exists? input = true ∧ Chosen tree given options := by
  constructor
  · rintro ⟨choices, read, success⟩
    obtain ⟨checks, alone, present, rfl⟩ := (readInput_eq_ok tree given input choices).mp read
    exact ⟨alone, present,
      chosen_of_readOptions tree given options ((checkOption_all tree given).mp checks).2 success⟩
  · rintro ⟨alone, present, chosen⟩
    have checks : ∀ option ∈ given.names, checkOption tree given option = .ok () := by
      rw [checkOption_all]
      constructor
      · intro value held
        rcases chosen.nameStyle with ⟨absent, -⟩ | named
        · simp [absent] at held
        · rw [named, Option.some.injEq] at held
          exact ⟨options.nameStyle, held.symm⟩
      · intro path held
        rcases chosen.exemptions with ⟨absent, -⟩ | ⟨other, _, named, there, -⟩
        · simp [absent] at held
        · rw [named, Option.some.injEq] at held
          exact held ▸ there
    exact ⟨given.choices, (readInput_eq_ok tree given input _).mpr ⟨checks, alone, present, rfl⟩,
      readOptions_of_chosen tree given options chosen⟩

end ElmStyle.Command
