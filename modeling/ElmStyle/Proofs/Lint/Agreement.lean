import ElmStyle.Lint
import ElmStyle.Proofs.Elm.Emitted

/-!
# Findings and emitted code agree

Every rule but the one on pseudo-selectors looks at styles, and the emitted code is text. The
findings of each rule are counted here by what is found in that text, so that a name is reported
exactly where it is printed.
-/
namespace ElmStyle

open Css (Declaration ClassEntry)
open Elm (Style Argument styles formOf definitions)
open Elm.Code

/-- The severity of all findings of a rule. -/
def Rule.severity : Rule → Severity
  | .functionKnown => .warning
  | .unitKnown => .warning
  | .pseudoKnown => .error
  | .fallbacks => .info

/-- The findings carry the name and the severity of a rule. -/
def Rule.Labels (rule : Rule) (ds : List Diagnostic) : Prop :=
  ∀ d ∈ ds, d.rule = rule.name ∧ d.severity = rule.severity

namespace Lint

/-- Counting by parts: what a check finds in a part is what is flagged in its code. -/
theorem length_flatMap_eq_countP {α β γ : Type} (parts : List α) (check : α → List β)
    (codes : α → List γ) (flag : γ → Bool)
    (each : ∀ part ∈ parts, (check part).length = (codes part).countP flag) :
    (parts.flatMap check).length = (parts.flatMap codes).countP flag := by
  induction parts with
  | nil => rfl
  | cons part rest ih =>
    rw [List.flatMap_cons, List.flatMap_cons, List.length_append, List.countP_append,
      each part (by simp), ih (fun later member => each later (by simp [member]))]

theorem checkFunction_labels (v : Vocabulary) (className : String) (style : Style) :
    Rule.functionKnown.Labels (checkFunction v className style) := by
  intro d member
  unfold checkFunction at member
  split at member
  · cases member
  · split at member
    · cases member
    · cases List.mem_singleton.mp member
      exact ⟨rfl, rfl⟩

theorem checkArguments_labels (v : Vocabulary) (className : String) (style : Style) :
    Rule.unitKnown.Labels (checkArguments v className style) := by
  intro d member
  obtain ⟨a, -, found⟩ := List.mem_flatMap.mp member
  unfold checkArgument at found
  split at found
  · cases found
  · cases List.mem_singleton.mp found
    exact ⟨rfl, rfl⟩

theorem checkPseudo_labels (v : Vocabulary) (entry : ClassEntry) :
    Rule.pseudoKnown.Labels (checkPseudo v entry) := by
  intro d member
  unfold checkPseudo at member
  split at member
  · cases member
  · split at member
    · cases member
    · cases List.mem_singleton.mp member
      exact ⟨rfl, rfl⟩

theorem checkFallback_labels (className : String) (style : Style) :
    Rule.fallbacks.Labels (checkFallback className style) := by
  intro d member
  unfold checkFallback at member
  split at member
  · cases member
  · cases List.mem_singleton.mp member
    exact ⟨rfl, rfl⟩

theorem onStyles_labels (rule : Rule) (t : ExemptionTable)
    (check : String → Style → List Diagnostic) (entries : List ClassEntry)
    (each : ∀ className style, rule.Labels (check className style)) :
    rule.Labels (onStyles t check entries) := by
  intro d member
  obtain ⟨entry, -, inside⟩ := List.mem_flatMap.mp member
  obtain ⟨style, -, found⟩ := List.mem_flatMap.mp inside
  exact each entry.name style d found

end Lint

open Lint

theorem Rule.findings_labels (rule : Rule) (v : Vocabulary) (t : ExemptionTable)
    (entries : List ClassEntry) : rule.Labels (rule.findings v t entries) := by
  cases rule with
  | functionKnown => exact onStyles_labels .functionKnown t _ entries (checkFunction_labels v)
  | unitKnown => exact onStyles_labels .unitKnown t _ entries (checkArguments_labels v)
  | pseudoKnown =>
    intro d member
    obtain ⟨entry, -, found⟩ := List.mem_flatMap.mp member
    exact checkPseudo_labels v entry d found
  | fallbacks => exact onStyles_labels .fallbacks t _ entries checkFallback_labels

namespace Lint

/-- A property of findings that the rule decides picks the findings of the rules that have it. -/
theorem filter_run (v : Vocabulary) (t : ExemptionTable) (entries : List ClassEntry)
    (p : Diagnostic → Bool) (rules : List Rule) (q : Rule → Bool)
    (decided : ∀ rule, ∀ d ∈ rule.findings v t entries, p d = q rule) :
    (rules.flatMap fun rule => rule.findings v t entries).filter p =
      (rules.filter q).flatMap fun rule => rule.findings v t entries := by
  induction rules with
  | nil => rfl
  | cons rule rest ih =>
    rw [List.flatMap_cons, List.filter_append, ih, List.filter_cons]
    split
    next has =>
      have all : (rule.findings v t entries).filter p = rule.findings v t entries := by
        rw [List.filter_eq_self]
        intro d member
        rw [decided rule d member, has]
      rw [all, List.flatMap_cons]
    next lacks =>
      have none : (rule.findings v t entries).filter p = [] := by
        rw [List.filter_eq_nil_iff]
        intro d member
        rw [decided rule d member]
        exact lacks
      rw [none, List.nil_append]

theorem countP_run (v : Vocabulary) (t : ExemptionTable) (entries : List ClassEntry)
    (p : Diagnostic → Bool) (rules : List Rule) (q : Rule → Bool)
    (decided : ∀ rule, ∀ d ∈ rule.findings v t entries, p d = q rule) :
    (rules.flatMap fun rule => rule.findings v t entries).countP p =
      ((rules.filter q).flatMap fun rule => rule.findings v t entries).length := by
  rw [List.countP_eq_length_filter, filter_run v t entries p rules q decided]

/-- The findings of one rule are those that carry its name. -/
theorem countP_rule (v : Vocabulary) (t : ExemptionTable) (entries : List ClassEntry)
    (rule : Rule) :
    (run v t [] entries).countP (·.rule == rule.name) = (rule.findings v t entries).length := by
  have named : ∀ other : Rule, ∀ d ∈ other.findings v t entries,
      (d.rule == rule.name) = (other.name == rule.name) := by
    intro other d member
    rw [(other.findings_labels v t entries d member).1]
  rw [run, List.append_nil, countP_run v t entries _ Rule.all _ named]
  cases rule <;> simp [Rule.all, Rule.name]

/-- The errors are the findings on pseudo-selectors, and the remarks those on generic forms. -/
theorem count_severity (v : Vocabulary) (t : ExemptionTable) (entries : List ClassEntry)
    (severity : Severity) :
    Diagnostic.count severity (run v t [] entries) =
      ((Rule.all.filter (·.severity == severity)).flatMap fun rule =>
        rule.findings v t entries).length := by
  have weighed : ∀ rule : Rule, ∀ d ∈ rule.findings v t entries,
      (d.severity == severity) = (rule.severity == severity) := by
    intro rule d member
    rw [(rule.findings_labels v t entries d member).2]
  rw [run, List.append_nil, Diagnostic.count, countP_run v t entries _ Rule.all _ weighed]

/-- The function of a typed style is called in its code and is not in the vocabulary. -/
def callsUnknown (v : Vocabulary) (s : StyleCode) : Bool :=
  !s.isGeneric && s.function?.any (!v.functions.contains ·)

/-- The function of an argument in parentheses is not in the vocabulary. -/
def unitUnknown (v : Vocabulary) (argument : String) : Bool :=
  (parenthesized? argument).any (!v.units.contains ·)

/-- The function of a block is not in the vocabulary. -/
def pseudoUnknown (v : Vocabulary) (c : ClassCode) : Bool :=
  c.pseudo?.any (!v.pseudoClasses.contains ·)

theorem checkFunction_length (v : Vocabulary) (t : ExemptionTable) (className : String)
    (d : Declaration) :
    (checkFunction v className (Style.of t d)).length =
      [StyleCode.of t d].countP (callsUnknown v) := by
  cases form : formOf t d with
  | generic reason =>
    have code := styleCode_generic t d reason form
    simp [checkFunction, Style.of_eq form, callsUnknown, code]
  | typed function arguments =>
    have code := styleCode_typed t d function arguments form
    by_cases known : function ∈ v.functions <;>
      simp [checkFunction, Style.of_eq form, callsUnknown, code, known]

theorem checkArguments_length (v : Vocabulary) (t : ExemptionTable) (className : String)
    (d : Declaration) :
    (checkArguments v className (Style.of t d)).length =
      (StyleCode.of t d).arguments.countP (unitUnknown v) := by
  have codes : (StyleCode.of t d).arguments =
      (Style.of t d).arguments.flatMap fun a => [a.expression] := by
    rw [StyleCode.of, List.map_eq_flatMap]
  rw [checkArguments, codes]
  apply length_flatMap_eq_countP
  intro a member
  obtain ⟨token, -, parts⟩ := Elm.mem_arguments_parts t d a member
  have called := parenthesized_expression token a parts
  by_cases keyword : a.isKeyword
  · simp [checkArgument, unitUnknown, called, keyword]
  · by_cases known : a.name ∈ v.units <;>
      simp [checkArgument, unitUnknown, called, keyword, known]

theorem checkPseudo_length (v : Vocabulary) (t : ExemptionTable) (entry : ClassEntry) :
    (checkPseudo v entry).length = [ClassCode.of t entry].countP (pseudoUnknown v) := by
  have block := classCode_pseudo t entry
  cases state : entry.state? with
  | none => simp [checkPseudo, pseudoUnknown, block, state]
  | some p =>
    by_cases known : Elm.identifier p ∈ v.pseudoClasses <;>
      simp [checkPseudo, pseudoUnknown, block, state, known]

theorem checkFallback_length (t : ExemptionTable) (className : String) (d : Declaration) :
    (checkFallback className (Style.of t d)).length =
      [StyleCode.of t d].countP StyleCode.isGeneric := by
  cases form : formOf t d with
  | generic reason =>
    simp [checkFallback, Style.of_eq form, styleCode_generic t d reason form]
  | typed function arguments =>
    simp [checkFallback, Style.of_eq form, styleCode_typed t d function arguments form]

/-- A check of styles finds as much as is flagged in the codes of the styles, part by part. -/
theorem onStyles_length {γ : Type} (t : ExemptionTable)
    (check : String → Style → List Diagnostic) (codes : StyleCode → List γ) (flag : γ → Bool)
    (each : ∀ className d,
      (check className (Style.of t d)).length = (codes (StyleCode.of t d)).countP flag)
    (entries : List ClassEntry) :
    (onStyles t check entries).length =
      (((entries.map (ClassCode.of t)).flatMap ClassCode.styles).flatMap codes).countP flag := by
  rw [onStyles, List.flatMap_assoc, List.flatMap_map]
  apply length_flatMap_eq_countP
  intro entry _
  simp only [styles, ClassCode.of, List.flatMap_map]
  apply length_flatMap_eq_countP
  intro d _
  exact each entry.name d

theorem functionKnown_length (v : Vocabulary) (t : ExemptionTable) (entries : List ClassEntry) :
    (Rule.functionKnown.findings v t entries).length =
      ((entries.map (ClassCode.of t)).flatMap ClassCode.styles).countP (callsUnknown v) := by
  have counted := onStyles_length t (checkFunction v) (fun s => [s]) (callsUnknown v)
    (checkFunction_length v t) entries
  rwa [List.flatMap_singleton'] at counted

theorem unitKnown_length (v : Vocabulary) (t : ExemptionTable) (entries : List ClassEntry) :
    (Rule.unitKnown.findings v t entries).length =
      (((entries.map (ClassCode.of t)).flatMap ClassCode.styles).flatMap
        StyleCode.arguments).countP (unitUnknown v) :=
  onStyles_length t (checkArguments v) StyleCode.arguments (unitUnknown v)
    (checkArguments_length v t) entries

theorem pseudoKnown_length (v : Vocabulary) (t : ExemptionTable) (entries : List ClassEntry) :
    (Rule.pseudoKnown.findings v t entries).length =
      (entries.map (ClassCode.of t)).countP (pseudoUnknown v) := by
  rw [List.map_eq_flatMap]
  exact length_flatMap_eq_countP entries (checkPseudo v) (fun entry => [ClassCode.of t entry])
    (pseudoUnknown v) (fun entry _ => checkPseudo_length v t entry)

theorem fallbacks_length (v : Vocabulary) (t : ExemptionTable) (entries : List ClassEntry) :
    (Rule.fallbacks.findings v t entries).length =
      ((entries.map (ClassCode.of t)).flatMap ClassCode.styles).countP StyleCode.isGeneric := by
  have counted := onStyles_length t checkFallback (fun s => [s]) StyleCode.isGeneric
    (checkFallback_length t) entries
  rwa [List.flatMap_singleton'] at counted

/-- Every code of a declaration is that of its generic form or calls a function. -/
theorem styleCode_read (t : ExemptionTable) (entries : List ClassEntry) (s : StyleCode)
    (member : s ∈ (entries.map (ClassCode.of t)).flatMap ClassCode.styles) :
    s.isGeneric = true ∨ ∃ function, s.function? = some function := by
  obtain ⟨c, held, inside⟩ := List.mem_flatMap.mp member
  obtain ⟨entry, -, rfl⟩ := List.mem_map.mp held
  obtain ⟨d, -, rfl⟩ := List.mem_map.mp inside
  cases form : formOf t d with
  | generic reason => exact .inl (styleCode_generic t d reason form).1
  | typed function arguments =>
    exact .inr ⟨function, (styleCode_typed t d function arguments form).2⟩

/-- Every batch holds the styles alone or a block of them. -/
theorem classCode_read (t : ExemptionTable) (entries : List ClassEntry) (c : ClassCode)
    (member : c ∈ entries.map (ClassCode.of t)) :
    c.batch = c.body ∨ ∃ pseudo, c.pseudo? = some pseudo := by
  obtain ⟨entry, -, rfl⟩ := List.mem_map.mp member
  cases state : entry.state? with
  | none => exact .inl (classCode_batch t entry state)
  | some pseudo => exact .inr ⟨_, by rw [classCode_pseudo, state, Option.map_some]⟩

/-- All names that the code of the classes refers to are in the vocabulary: the function of each
typed declaration, the function of each argument in parentheses, and that of each block. -/
structure CodeKnown (v : Vocabulary) (classes : List ClassCode) : Prop where
  functions : ∀ s ∈ classes.flatMap ClassCode.styles, s.isGeneric = false →
    ∃ function ∈ v.functions, s.function? = some function
  units : ∀ s ∈ classes.flatMap ClassCode.styles, ∀ argument ∈ s.arguments,
    ∀ unit, parenthesized? argument = some unit → unit ∈ v.units
  blocks : ∀ c ∈ classes, ∀ pseudo, c.pseudo? = some pseudo → pseudo ∈ v.pseudoClasses

theorem no_problem_iff (ds : List Diagnostic) :
    (∀ d ∈ ds, d.severity ≠ .warning ∧ d.severity ≠ .error) ↔
      Diagnostic.count .warning ds = 0 ∧ Diagnostic.count .error ds = 0 := by
  simp only [Diagnostic.count, List.countP_eq_zero, beq_iff_eq]
  constructor
  · intro free
    exact ⟨fun d member => (free d member).1, fun d member => (free d member).2⟩
  · rintro ⟨warnings, errors⟩ d member
    exact ⟨warnings d member, errors d member⟩

/-- Nothing is flagged exactly if all names are known. -/
theorem codeKnown_iff (v : Vocabulary) (t : ExemptionTable) (entries : List ClassEntry) :
    CodeKnown v (entries.map (ClassCode.of t)) ↔
      ((entries.map (ClassCode.of t)).flatMap ClassCode.styles).countP (callsUnknown v) = 0 ∧
      (((entries.map (ClassCode.of t)).flatMap ClassCode.styles).flatMap
        StyleCode.arguments).countP (unitUnknown v) = 0 ∧
      (entries.map (ClassCode.of t)).countP (pseudoUnknown v) = 0 := by
  have read := styleCode_read t entries
  generalize entries.map (ClassCode.of t) = classes at read ⊢
  simp only [List.countP_eq_zero]
  constructor
  · rintro ⟨functions, units, blocks⟩
    refine ⟨?_, ?_, ?_⟩
    · intro s member
      cases generic : s.isGeneric with
      | true => simp [callsUnknown, generic]
      | false =>
        obtain ⟨function, known, called⟩ := functions s member generic
        simp [callsUnknown, called, known]
    · intro argument member
      obtain ⟨s, held, inside⟩ := List.mem_flatMap.mp member
      cases called : parenthesized? argument with
      | none => simp [unitUnknown, called]
      | some unit => simp [unitUnknown, called, units s held argument inside unit called]
    · intro c member
      cases block : c.pseudo? with
      | none => simp [pseudoUnknown, block]
      | some pseudo => simp [pseudoUnknown, block, blocks c member pseudo block]
  · rintro ⟨functions, units, blocks⟩
    refine ⟨?_, ?_, ?_⟩
    · intro s member typed
      have passed := functions s member
      rcases read s member with generic | ⟨function, called⟩
      · simp [generic] at typed
      · exact ⟨function, by simpa [callsUnknown, typed, called] using passed, called⟩
    · intro s member argument inside unit called
      have passed := units argument (List.mem_flatMap.mpr ⟨s, member, inside⟩)
      simpa [unitUnknown, called] using passed
    · intro c member pseudo block
      have passed := blocks c member
      simpa [pseudoUnknown, block] using passed

/-- The definitions are the codes of the classes, each read to its end, and the findings say of
these codes exactly what is unknown in them. -/
theorem findings_agree_with_code (type : String) (v : Vocabulary) (t : ExemptionTable)
    (entries : List ClassEntry) :
    let found := run v t [] entries
    let classes := entries.map (ClassCode.of t)
    let codes := classes.flatMap ClassCode.styles
    (definitions type t entries = String.join (classes.map (ClassCode.text type)) ∧
      (∀ c ∈ classes, c.batch = c.body ∨ ∃ pseudo, c.pseudo? = some pseudo) ∧
      ∀ s ∈ codes, s.isGeneric = true ∨ ∃ function, s.function? = some function) ∧
    ((∀ d ∈ found, d.severity ≠ .warning ∧ d.severity ≠ .error) ↔ CodeKnown v classes) ∧
    Diagnostic.count .info found = codes.countP StyleCode.isGeneric ∧
    found.countP (·.rule == Rule.functionKnown.name) = codes.countP (callsUnknown v) ∧
    found.countP (·.rule == Rule.unitKnown.name) =
      (codes.flatMap StyleCode.arguments).countP (unitUnknown v) ∧
    Diagnostic.count .error found = classes.countP (pseudoUnknown v) := by
  intro found classes codes
  have functions := functionKnown_length v t entries
  have units := unitKnown_length v t entries
  have blocks := pseudoKnown_length v t entries
  have remarks := fallbacks_length v t entries
  have warnings : Diagnostic.count .warning found =
      (Rule.functionKnown.findings v t entries).length +
        (Rule.unitKnown.findings v t entries).length := by
    rw [count_severity]
    simp [Rule.all, Rule.severity]
  have errors : Diagnostic.count .error found = (Rule.pseudoKnown.findings v t entries).length := by
    rw [count_severity]
    simp [Rule.all, Rule.severity]
  have infos : Diagnostic.count .info found = (Rule.fallbacks.findings v t entries).length := by
    rw [count_severity]
    simp [Rule.all, Rule.severity]
  refine ⟨⟨definitions_eq_text type t entries, classCode_read t entries,
    styleCode_read t entries⟩, ?_, ?_, ?_, ?_, ?_⟩
  · rw [no_problem_iff, codeKnown_iff, warnings, errors, functions, units, blocks]
    omega
  · rw [infos, remarks]
  · rw [countP_rule, functions]
  · rw [countP_rule, units]
  · rw [errors, blocks]

end Lint

end ElmStyle
