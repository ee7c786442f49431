import ElmStyle.Proofs.Elm.Hyphenated
import ElmStyle.Proofs.Exemption.Merging
import ElmStyle.Proofs.Lint.Agreement
import Mathlib.Data.List.Infix

/-!
# Fixes work and are local

What diagnostics suggest: to add a name to the vocabulary, or to exempt a property. The name that a
diagnostic reports is read from its text. Adding names removes the diagnostics that report them and
no other; exempting a property leaves the diagnostics of other properties as they are and puts one
remark in the place of each declaration of it.
-/
namespace ElmStyle

open Css (Declaration ClassEntry)
open Elm (Style Argument styles formOf)
open Elm.Code (between? between_eq_some)

namespace Elm

/-- A state and its function after a mark can be told apart, whatever the state holds: a longer
state would leave too little text for its function. -/
theorem stated_unique (mark : List Char) (first second : String)
    (same : first.toList ++ (mark ++ (identifier first).toList) =
      second.toList ++ (mark ++ (identifier second).toList)) : first = second := by
  have shorter : ∀ a b : String, ∀ more : List Char, b.toList = a.toList ++ more →
      mark ++ (identifier a).toList = more ++ (mark ++ (identifier b).toList) → a = b := by
    intro a b more longer rest
    have lengths := congrArg List.length rest
    have grows := camelCase_length_append a.toList more
    rw [← longer] at grows
    simp only [List.length_append, identifier_length] at lengths
    have none : more = [] := by
      apply List.length_eq_zero_iff.mp
      omega
    rw [none, List.append_nil] at longer
    exact String.toList_injective longer.symm
  rcases List.append_eq_append_iff.mp same with ⟨more, longer, rest⟩ | ⟨more, longer, rest⟩
  · exact shorter first second more longer rest
  · exact (shorter second first more longer rest).symm

end Elm

namespace Diagnostic

/-- The name that the fix suggests to add to the vocabulary. -/
def suggested? (d : Diagnostic) : Option String :=
  match d.property, d.fix with
  | some property, some fix =>
    between? ("Exempt '" ++ property ++ "' or add '").toList "' to the vocabulary.".toList
      fix.toList
  | _, _ => none

/-- What stands between a state and its function. -/
def stateMark : List Char := "' (Css.".toList

/-- The function of the pseudo-selector that the message states. -/
def statedFunction? (d : Diagnostic) : Option String := do
  let stated ← between? "Unknown pseudo-selector '".toList ").".toList d.message.toList
  let state ← stated.toList.inits.find? fun state =>
    stated.toList == state ++ (stateMark ++ (Elm.identifier (String.ofList state)).toList)
  return Elm.identifier (String.ofList state)

/-- The name that a diagnostic of the rule reports as unknown. -/
def reported? (rule : Rule) (d : Diagnostic) : Option String :=
  if d.rule = rule.name then
    match rule with
    | .functionKnown => d.suggested?
    | .unitKnown => d.suggested?
    | .pseudoKnown => d.statedFunction?
    | .fallbacks => none
  else none

end Diagnostic

namespace Rule

/-- The names of the vocabulary that a rule compares with. -/
def known (v : Vocabulary) : Rule → List String
  | .functionKnown => v.functions
  | .unitKnown => v.units
  | .pseudoKnown => v.pseudoClasses
  | .fallbacks => []

/-- The names that a rule looks up for the classes, in order. -/
def names (t : ExemptionTable) (entries : List ClassEntry) : Rule → List String
  | .functionKnown => (entries.flatMap (styles t)).filterMap Style.function?
  | .unitKnown => ((entries.flatMap (styles t)).flatMap Style.arguments).filterMap fun a =>
    if a.isKeyword then none else some a.name
  | .pseudoKnown => entries.filterMap fun entry => entry.state?.map Elm.identifier
  | .fallbacks => []

end Rule

/-- The diagnostic reports one of the added names. -/
def Diagnostic.settledBy (added : Vocabulary) (d : Diagnostic) : Bool :=
  Rule.all.any fun rule => (d.reported? rule).any fun name => (rule.known added).contains name

namespace Lint

/-- The findings are made by looking up names at sites, each with the diagnostic that reports its
name if the vocabulary lacks it. -/
structure LooksUp (rule : Rule) (sites : List (String × Diagnostic))
    (check : Vocabulary → List Diagnostic) : Prop where
  found : ∀ v, check v =
    (sites.filter fun site => !(rule.known v).contains site.1).map Prod.snd
  reports : ∀ site ∈ sites, site.2.rule = rule.name ∧ site.2.reported? rule = some site.1

theorem LooksUp.flatMap {α : Type} {rule : Rule} {parts : List α}
    {sites : α → List (String × Diagnostic)} {check : α → Vocabulary → List Diagnostic}
    (each : ∀ part, LooksUp rule (sites part) (check part)) :
    LooksUp rule (parts.flatMap sites) (fun v => parts.flatMap fun part => check part v) where
  found := by
    intro v
    rw [List.filter_flatMap, List.map_flatMap]
    refine List.flatMap_congr ?_
    intro part _
    exact (each part).found v
  reports := by
    intro site member
    obtain ⟨part, -, inside⟩ := List.mem_flatMap.mp member
    exact (each part).reports site inside

theorem name_injective (first second : Rule) (same : first.name = second.name) :
    first = second := by
  cases first <;> cases second <;> first | rfl | exact absurd same (by decide)

theorem reported_other (rule other : Rule) (d : Diagnostic) (labelled : d.rule = rule.name)
    (apart : other ≠ rule) : d.reported? other = none := by
  unfold Diagnostic.reported?
  rw [if_neg]
  intro same
  exact apart (name_injective other rule (same.symm.trans labelled))

/-- Only the rule of a diagnostic decides whether it is settled. -/
theorem settledBy_eq (rule : Rule) (added : Vocabulary) (d : Diagnostic)
    (labelled : d.rule = rule.name) :
    d.settledBy added = (d.reported? rule).any fun name => (rule.known added).contains name := by
  have others : ∀ other : Rule, other ≠ rule →
      ((d.reported? other).any fun name => (other.known added).contains name) = false := by
    intro other apart
    rw [reported_other rule other d labelled apart]
    rfl
  have every : ∀ other : Rule, other ∈ Rule.all := by
    intro other
    cases other <;> decide
  rw [Diagnostic.settledBy, Bool.eq_iff_iff, List.any_eq_true]
  constructor
  · rintro ⟨other, -, settles⟩
    by_cases same : other = rule
    · rwa [same] at settles
    · rw [others other same] at settles
      cases settles
  · intro settles
    exact ⟨rule, every rule, settles⟩

theorem known_extend (rule : Rule) (v added : Vocabulary) (name : String) :
    (rule.known (v.extend added.functions added.units added.pseudoClasses)).contains name =
      ((rule.known v).contains name || (rule.known added).contains name) := by
  rw [Bool.eq_iff_iff]
  cases rule <;> simp [Rule.known, Vocabulary.extend, Vocabulary.names]

/-- Adding names removes the diagnostics that report them, and no other. -/
theorem LooksUp.extend {rule : Rule} {sites : List (String × Diagnostic)}
    {check : Vocabulary → List Diagnostic} (looks : LooksUp rule sites check)
    (v added : Vocabulary) :
    check (v.extend added.functions added.units added.pseudoClasses) =
      (check v).filter (!·.settledBy added) := by
  rw [looks.found, looks.found, List.filter_map, List.filter_filter]
  refine congrArg (List.map Prod.snd) (List.filter_congr ?_)
  intro site member
  obtain ⟨labelled, reported⟩ := looks.reports site member
  rw [known_extend, Function.comp_apply, settledBy_eq rule added site.2 labelled, reported,
    Option.any_some, Bool.not_or, Bool.and_comm]

/-- The names that are reported are those that are looked up and not known. -/
theorem LooksUp.reported {rule : Rule} {sites : List (String × Diagnostic)}
    {check : Vocabulary → List Diagnostic} (looks : LooksUp rule sites check) (v : Vocabulary) :
    (check v).filterMap (Diagnostic.reported? rule) =
      (sites.map Prod.fst).filter fun name => !(rule.known v).contains name := by
  have names : ∀ site ∈ sites.filter (fun site => !(rule.known v).contains site.1),
      site.2.reported? rule = some site.1 := by
    intro site member
    exact (looks.reports site (List.mem_filter.mp member).1).2
  rw [looks.found, List.filterMap_map, List.filter_map]
  calc (sites.filter fun site => !(rule.known v).contains site.1).filterMap
        (Diagnostic.reported? rule ∘ Prod.snd)
      = (sites.filter fun site => !(rule.known v).contains site.1).filterMap
          (fun site => some site.1) := List.filterMap_congr names
    _ = (sites.filter fun site => !(rule.known v).contains site.1).map Prod.fst :=
        congrFun List.filterMap_eq_map _

theorem suggested_eq (d : Diagnostic) (property name : String)
    (located : d.property = some property)
    (suggests : d.fix =
      some ("Exempt '" ++ property ++ "' or add '" ++ name ++ "' to the vocabulary.")) :
    d.suggested? = some name := by
  simp only [Diagnostic.suggested?, located, suggests]
  rw [between_eq_some]
  simp only [String.toList_append, List.append_assoc]

theorem unknownFunction_reported (className : String) (d : Declaration) (function : String) :
    (unknownFunction className d function).reported? .functionKnown = some function := by
  have labelled : (unknownFunction className d function).rule = Rule.functionKnown.name := rfl
  unfold Diagnostic.reported?
  rw [if_pos labelled]
  exact suggested_eq _ d.property function rfl rfl

theorem unknownUnit_reported (className : String) (d : Declaration) (unit : String) :
    (unknownUnit className d unit).reported? .unitKnown = some unit := by
  have labelled : (unknownUnit className d unit).rule = Rule.unitKnown.name := rfl
  unfold Diagnostic.reported?
  rw [if_pos labelled]
  exact suggested_eq _ d.property unit rfl rfl

/-- The state is found again in the message, and with it its function. -/
theorem statedFunction_eq (d : Diagnostic) (state : String)
    (message : d.message.toList = "Unknown pseudo-selector '".toList ++ ((state.toList ++
      (Diagnostic.stateMark ++ (Elm.identifier state).toList)) ++ ").".toList)) :
    d.statedFunction? = some (Elm.identifier state) := by
  obtain ⟨stated, spelled⟩ : ∃ stated : String, stated.toList =
      state.toList ++ (Diagnostic.stateMark ++ (Elm.identifier state).toList) :=
    ⟨String.ofList _, String.toList_ofList⟩
  have middle : between? "Unknown pseudo-selector '".toList ").".toList d.message.toList =
      some stated := by
    rw [between_eq_some, message, spelled]
  unfold Diagnostic.statedFunction?
  rw [middle]
  simp only [bind, Option.bind_some]
  cases found : stated.toList.inits.find? fun front => stated.toList ==
      front ++ (Diagnostic.stateMark ++ (Elm.identifier (String.ofList front)).toList) with
  | none =>
    have fails := List.find?_eq_none.mp found state.toList
      ((List.mem_inits _ _).mpr ⟨_, spelled.symm⟩)
    rw [spelled, String.ofList_toList, beq_iff_eq] at fails
    exact absurd rfl fails
  | some front =>
    have holds := List.find?_some found
    rw [beq_iff_eq, spelled] at holds
    have same : state = String.ofList front := by
      apply Elm.stated_unique Diagnostic.stateMark
      rw [holds, String.toList_ofList]
    rw [same]
    rfl

theorem unknownPseudo_reported (className state : String) :
    (unknownPseudo className state).reported? .pseudoKnown = some (Elm.identifier state) := by
  have labelled : (unknownPseudo className state).rule = Rule.pseudoKnown.name := rfl
  have message : (unknownPseudo className state).message = "Unknown pseudo-selector '" ++ state ++
    "' (" ++ "Css" ++ "." ++ Elm.identifier state ++ ")." := rfl
  have mark : Diagnostic.stateMark = "' (".toList ++ "Css".toList ++ ".".toList := by decide
  unfold Diagnostic.reported?
  rw [if_pos labelled]
  apply statedFunction_eq
  rw [message, mark]
  simp only [String.toList_append, List.append_assoc]

/-- The function of a style, as a name to look up. -/
def functionSites (className : String) (style : Style) : List (String × Diagnostic) :=
  style.function?.toList.map fun function =>
    (function, unknownFunction className style.declaration function)

def argumentSites (className : String) (d : Declaration) (a : Argument) :
    List (String × Diagnostic) :=
  if a.isKeyword then [] else [(a.name, unknownUnit className d a.name)]

def pseudoSites (entry : ClassEntry) : List (String × Diagnostic) :=
  entry.state?.toList.map fun state => (Elm.identifier state, unknownPseudo entry.name state)

theorem functionSites_looksUp (className : String) (style : Style) :
    LooksUp .functionKnown (functionSites className style)
      (fun v => checkFunction v className style) where
  found := by
    intro v
    unfold checkFunction functionSites
    cases style.function? with
    | none => rfl
    | some function =>
      by_cases known : function ∈ v.functions
      · simp [Rule.known, known]
      · simp [Rule.known, known]
  reports := by
    intro site member
    obtain ⟨function, -, rfl⟩ := List.mem_map.mp member
    exact ⟨rfl, unknownFunction_reported className style.declaration function⟩

theorem argumentSites_looksUp (className : String) (d : Declaration) (a : Argument) :
    LooksUp .unitKnown (argumentSites className d a) (fun v => checkArgument v className d a) where
  found := by
    intro v
    unfold checkArgument argumentSites
    by_cases keyword : a.isKeyword
    · simp [keyword]
    · by_cases known : a.name ∈ v.units
      · simp [Rule.known, keyword, known]
      · simp [Rule.known, keyword, known]
  reports := by
    intro site member
    unfold argumentSites at member
    split at member
    · cases member
    · cases List.mem_singleton.mp member
      exact ⟨rfl, unknownUnit_reported className d a.name⟩

theorem pseudoSites_looksUp (entry : ClassEntry) :
    LooksUp .pseudoKnown (pseudoSites entry) (fun v => checkPseudo v entry) where
  found := by
    intro v
    unfold checkPseudo pseudoSites
    cases entry.state? with
    | none => rfl
    | some state =>
      by_cases known : Elm.identifier state ∈ v.pseudoClasses
      · simp [Rule.known, known]
      · simp [Rule.known, known]
  reports := by
    intro site member
    obtain ⟨state, -, rfl⟩ := List.mem_map.mp member
    exact ⟨rfl, unknownPseudo_reported entry.name state⟩

/-- The names that a rule looks up for the classes, with their diagnostics. -/
def sites (t : ExemptionTable) (entries : List ClassEntry) : Rule → List (String × Diagnostic)
  | .functionKnown =>
    entries.flatMap fun entry => (styles t entry).flatMap (functionSites entry.name)
  | .unitKnown => entries.flatMap fun entry => (styles t entry).flatMap fun style =>
    style.arguments.flatMap (argumentSites entry.name style.declaration)
  | .pseudoKnown => entries.flatMap pseudoSites
  | .fallbacks => []

theorem findings_looksUp (rule : Rule) (t : ExemptionTable) (entries : List ClassEntry)
    (compares : rule ≠ .fallbacks) :
    LooksUp rule (sites t entries rule) (fun v => rule.findings v t entries) := by
  cases rule with
  | functionKnown => exact .flatMap fun entry => .flatMap (functionSites_looksUp entry.name)
  | unitKnown =>
    exact .flatMap fun entry => .flatMap fun style =>
      .flatMap (argumentSites_looksUp entry.name style.declaration)
  | pseudoKnown => exact .flatMap pseudoSites_looksUp
  | fallbacks => exact absurd rfl compares

theorem sites_names (rule : Rule) (t : ExemptionTable) (entries : List ClassEntry) :
    (sites t entries rule).map Prod.fst = rule.names t entries := by
  cases rule with
  | functionKnown =>
    simp only [sites, Rule.names, List.map_flatMap, List.flatMap_assoc,
      List.filterMap_eq_flatMap_toList]
    refine List.flatMap_congr fun entry _ => List.flatMap_congr fun style _ => ?_
    simp [functionSites, Function.comp_def]
  | unitKnown =>
    simp only [sites, Rule.names, List.map_flatMap, List.flatMap_assoc,
      List.filterMap_eq_flatMap_toList]
    refine List.flatMap_congr fun entry _ => List.flatMap_congr fun style _ =>
      List.flatMap_congr fun a _ => ?_
    by_cases keyword : a.isKeyword <;> simp [argumentSites, keyword]
  | pseudoKnown =>
    simp only [sites, Rule.names, List.map_flatMap, List.filterMap_eq_flatMap_toList]
    refine List.flatMap_congr fun entry _ => ?_
    cases state : entry.state? <;> simp [pseudoSites, state]
  | fallbacks => rfl

/-- Each rule reports the names that it looks up and does not find, and no rule those of another. -/
theorem findings_reported (rule other : Rule) (v : Vocabulary) (t : ExemptionTable)
    (entries : List ClassEntry) :
    (rule.findings v t entries).filterMap (Diagnostic.reported? other) =
      if rule = other then
        (other.names t entries).filter fun name => !(other.known v).contains name
      else [] := by
  split
  next same =>
    subst same
    by_cases remarks : rule = .fallbacks
    · subst remarks
      rw [Rule.names, List.filter_nil, List.filterMap_eq_nil_iff]
      intro d _
      unfold Diagnostic.reported?
      split <;> rfl
    · rw [(findings_looksUp rule t entries remarks).reported v, sites_names]
  next apart =>
    rw [List.filterMap_eq_nil_iff]
    intro d member
    exact reported_other rule other d (rule.findings_labels v t entries d member).1
      (Ne.symm apart)

theorem run_reported (rule : Rule) (v : Vocabulary) (t : ExemptionTable)
    (entries : List ClassEntry) :
    (run v t [] entries).filterMap (Diagnostic.reported? rule) =
      (rule.names t entries).filter fun name => !(rule.known v).contains name := by
  rw [run, List.append_nil, List.filterMap_flatMap]
  simp only [findings_reported]
  cases rule <;> simp [Rule.all]

/-- Adding names to the vocabulary removes the diagnostics that report them and keeps the others, in
their order. -/
theorem run_extend (v added : Vocabulary) (t : ExemptionTable) (entries : List ClassEntry) :
    run (v.extend added.functions added.units added.pseudoClasses) t [] entries =
      (run v t [] entries).filter (!·.settledBy added) := by
  rw [run, run, List.filter_flatMap]
  refine List.flatMap_congr fun rule _ => ?_
  by_cases remarks : rule = .fallbacks
  · subst remarks
    have kept : ∀ d ∈ Rule.fallbacks.findings v t entries, (!d.settledBy added) = true := by
      intro d member
      rw [settledBy_eq .fallbacks added d (Rule.fallbacks.findings_labels v t entries d member).1]
      simp [Rule.known]
    exact (List.filter_eq_self.mpr kept).symm
  · exact (findings_looksUp rule t entries remarks).extend v added

/-- A finding that is no remark reports a name. -/
theorem reported_of_problem (v : Vocabulary) (t : ExemptionTable) (entries : List ClassEntry)
    (d : Diagnostic) (member : d ∈ run v t [] entries) (problem : d.severity ≠ .info) :
    ∃ rule name, d.rule = Rule.name rule ∧ d.reported? rule = some name := by
  rw [run, List.append_nil] at member
  obtain ⟨rule, -, found⟩ := List.mem_flatMap.mp member
  obtain ⟨labelled, severity⟩ := rule.findings_labels v t entries d found
  have compares : rule ≠ .fallbacks := by
    rintro rfl
    exact problem severity
  have looks := findings_looksUp rule t entries compares
  rw [looks.found v] at found
  obtain ⟨site, held, rfl⟩ := List.mem_map.mp found
  exact ⟨rule, site.1, labelled, (looks.reports site (List.mem_filter.mp held).1).2⟩

/-- With all reported names added, only remarks are left. -/
theorem run_extend_reported (v : Vocabulary) (t : ExemptionTable) (entries : List ClassEntry) :
    let reported := fun rule => (run v t [] entries).filterMap (Diagnostic.reported? rule)
    ∀ d ∈ run (v.extend (reported .functionKnown) (reported .unitKnown) (reported .pseudoKnown))
      t [] entries, d.severity = .info := by
  intro reported d member
  rw [run_extend v ⟨reported .functionKnown, reported .unitKnown, reported .pseudoKnown⟩ t entries,
    List.mem_filter] at member
  obtain ⟨found, unsettled⟩ := member
  by_contra problem
  obtain ⟨rule, name, labelled, named⟩ := reported_of_problem v t entries d found problem
  have listed : name ∈ reported rule := List.mem_filterMap.mpr ⟨d, found, named⟩
  rw [settledBy_eq rule _ d labelled, named] at unsettled
  cases rule with
  | functionKnown => simp [Rule.known, listed] at unsettled
  | unitKnown => simp [Rule.known, listed] at unsettled
  | pseudoKnown => simp [Rule.known, listed] at unsettled
  | fallbacks =>
    unfold Diagnostic.reported? at named
    split at named <;> cases named

end Lint

namespace ExemptionTable

/-- The table that exempts all values of a property can be written. -/
theorem ofMembers_wildcard (property : String) (filled : property ≠ "")
    (lowered : Text.isLowered property = true) :
    ofMembers [(property, .string Exemption.wildcard)] = .ok (.of [(property, .all)]) := by
  have member : readMember property (.string Exemption.wildcard) = .ok (property, .all) := by
    simp [readMember, filled, lowered, Exemption.ofJson?]
  have alone : Json.members [(property, Json.Value.string Exemption.wildcard)] =
      [(property, .string Exemption.wildcard)] := rfl
  simp [ofMembers, alone, member, Except.map]

/-- Exempting a property concerns that property only. -/
theorem isExempt_merge (t : ExemptionTable) (property other value : String) :
    (t.merge (.of [(property, .all)])).isExempt other value =
      (decide (other = property) || t.isExempt other value) := by
  have added : (of [(property, .all)]).get? other =
      if other = property then some .all else none :=
    Json.lookup_setMember property Exemption.all [] other
  rw [isExempt, get?_merge, added]
  by_cases same : other = property
  · simp [same, Exemption.covers]
  · simp [same, isExempt]

end ExemptionTable

namespace Lint

theorem styleOf_exempt (t : ExemptionTable) (d : Declaration) (custom : d.isCustom = false) :
    Style.of (t.merge (.of [(d.property, .all)])) d = ⟨d, .generic .exempt⟩ := by
  simp [Style.of, formOf, custom, ExemptionTable.isExempt_merge]

theorem styleOf_other (t : ExemptionTable) (property : String) (d : Declaration)
    (other : d.property ≠ property) :
    Style.of (t.merge (.of [(property, .all)])) d = Style.of t d := by
  simp only [Style.of, formOf, ExemptionTable.isExempt_merge, decide_eq_false other, Bool.false_or]

/-- All findings of a check of styles are about the property of the style. -/
def Located (check : String → Style → List Diagnostic) : Prop :=
  ∀ className style, ∀ d ∈ check className style, d.property = some style.declaration.property

theorem checkFunction_located (v : Vocabulary) : Located (checkFunction v) := by
  intro className style d member
  rw [(functionSites_looksUp className style).found v] at member
  obtain ⟨site, held, rfl⟩ := List.mem_map.mp member
  obtain ⟨function, -, rfl⟩ := List.mem_map.mp (List.mem_filter.mp held).1
  rfl

theorem checkArguments_located (v : Vocabulary) : Located (checkArguments v) := by
  intro className style d member
  obtain ⟨a, -, found⟩ := List.mem_flatMap.mp member
  unfold checkArgument at found
  split at found
  · cases found
  · cases List.mem_singleton.mp found
    rfl

theorem checkFallback_located : Located checkFallback := by
  intro className style d member
  unfold checkFallback at member
  split at member
  · cases member
  · cases List.mem_singleton.mp member
    rfl

theorem onStyles_eq (t : ExemptionTable) (check : String → Style → List Diagnostic)
    (entries : List ClassEntry) :
    onStyles t check entries = entries.flatMap fun entry =>
      entry.declarations.flatMap fun d => check entry.name (Style.of t d) := by
  simp only [onStyles, styles, List.flatMap_map]

/-- The findings about other properties stay as they are. -/
theorem onStyles_other (check : String → Style → List Diagnostic) (located : Located check)
    (t : ExemptionTable) (property : String) (entries : List ClassEntry) :
    (onStyles (t.merge (.of [(property, .all)])) check entries).filter
        (·.property ≠ some property) =
      (onStyles t check entries).filter (·.property ≠ some property) := by
  have gone : ∀ table className d, d.property = property →
      (check className (Style.of table d)).filter (·.property ≠ some property) = [] := by
    intro table className d here
    rw [List.filter_eq_nil_iff]
    intro found member
    simp [located className _ found member, Style.of, here]
  simp only [onStyles_eq, List.filter_flatMap]
  refine List.flatMap_congr fun entry _ => List.flatMap_congr fun d _ => ?_
  by_cases here : d.property = property
  · rw [gone _ _ d here, gone _ _ d here]
  · rw [styleOf_other t property d here]

/-- The findings about the property are those about its exempt declarations. -/
theorem onStyles_here (check : String → Style → List Diagnostic) (located : Located check)
    (t : ExemptionTable) (property : String)
    (custom : ['-', '-'].isPrefixOf property.toList = false) (entries : List ClassEntry) :
    (onStyles (t.merge (.of [(property, .all)])) check entries).filter
        (·.property = some property) =
      entries.flatMap fun entry => (entry.declarations.filter (·.property = property)).flatMap
        fun d => check entry.name ⟨d, .generic .exempt⟩ := by
  have one : ∀ className d,
      (check className (Style.of (t.merge (.of [(property, .all)])) d)).filter
        (·.property = some property) =
      if d.property = property then check className ⟨d, .generic .exempt⟩ else [] := by
    intro className d
    split
    next here =>
      have plain : d.isCustom = false := by
        rw [Declaration.isCustom, here]
        exact custom
      have style := styleOf_exempt t d plain
      rw [here] at style
      rw [style, List.filter_eq_self]
      intro found member
      simp [located className _ found member, here]
    next other =>
      rw [List.filter_eq_nil_iff]
      intro found member
      simp [located className _ found member, Style.of, other]
  simp only [onStyles_eq, List.filter_flatMap, one]
  refine List.flatMap_congr fun entry _ => ?_
  induction entry.declarations with
  | nil => rfl
  | cons d rest ih =>
    by_cases here : d.property = property <;> simp [here, ih]

theorem onStyles_silent (check : String → Style → List Diagnostic) (located : Located check)
    (silent : ∀ className d, check className ⟨d, .generic .exempt⟩ = []) (t : ExemptionTable)
    (property : String) (custom : ['-', '-'].isPrefixOf property.toList = false)
    (entries : List ClassEntry) :
    (onStyles (t.merge (.of [(property, .all)])) check entries).filter
      (·.property = some property) = [] := by
  rw [onStyles_here check located t property custom entries]
  simp only [silent, List.flatMap_eq_nil_iff, implies_true]

theorem run_exempt_other (v : Vocabulary) (t : ExemptionTable) (property : String)
    (entries : List ClassEntry) :
    (run v (t.merge (.of [(property, .all)])) [] entries).filter (·.property ≠ some property) =
      (run v t [] entries).filter (·.property ≠ some property) := by
  simp only [run, List.filter_flatMap]
  refine List.flatMap_congr fun rule _ => ?_
  cases rule with
  | functionKnown =>
    exact onStyles_other (checkFunction v) (checkFunction_located v) t property entries
  | unitKnown =>
    exact onStyles_other (checkArguments v) (checkArguments_located v) t property entries
  | pseudoKnown => rfl
  | fallbacks => exact onStyles_other checkFallback checkFallback_located t property entries

/-- Of the rules only the one on generic forms finds something about an exempt property. -/
theorem run_exempt_here (v : Vocabulary) (t : ExemptionTable) (property : String)
    (custom : ['-', '-'].isPrefixOf property.toList = false) (entries : List ClassEntry) :
    (run v (t.merge (.of [(property, .all)])) [] entries).filter (·.property = some property) =
      entries.flatMap fun entry =>
        (entry.declarations.filter (·.property = property)).map
          (genericRemark entry.name .exempt) := by
  have functions := onStyles_silent (checkFunction v) (checkFunction_located v)
    (fun _ _ => rfl) t property custom entries
  have units := onStyles_silent (checkArguments v) (checkArguments_located v)
    (fun _ _ => rfl) t property custom entries
  have remarks := onStyles_here checkFallback checkFallback_located t property custom entries
  have remark : ∀ className d,
      checkFallback className ⟨d, .generic .exempt⟩ = [genericRemark className .exempt d] :=
    fun _ _ => rfl
  simp only [remark, ← List.map_eq_flatMap] at remarks
  have pseudos : (entries.flatMap (checkPseudo v)).filter (·.property = some property) = [] := by
    rw [List.filter_eq_nil_iff]
    intro d member
    obtain ⟨entry, -, found⟩ := List.mem_flatMap.mp member
    rw [(pseudoSites_looksUp entry).found v] at found
    obtain ⟨site, held, rfl⟩ := List.mem_map.mp found
    obtain ⟨state, -, rfl⟩ := List.mem_map.mp (List.mem_filter.mp held).1
    simp [unknownPseudo]
  simp only [run, Rule.all, List.append_nil, List.flatMap_cons, List.flatMap_nil,
    List.filter_append, Rule.findings, functions, units, pseudos, remarks, List.nil_append]

/-- The fixes that diagnostics suggest. Each rule reports the names that it looks up and that the
vocabulary lacks; adding names removes exactly the diagnostics that report them, so that adding all
reported names leaves remarks only. Exempting a property keeps all diagnostics that are not about it
and gives one remark for each of its declarations. -/
theorem fixes_work_and_are_local (v : Vocabulary) (t : ExemptionTable)
    (entries : List ClassEntry) :
    let found := run v t [] entries
    let reported := fun rule => found.filterMap (Diagnostic.reported? rule)
    ((∀ rule, reported rule =
        (rule.names t entries).filter fun name => !(rule.known v).contains name) ∧
      (∀ functions units pseudos, run (v.extend functions units pseudos) t [] entries =
        found.filter (!·.settledBy ⟨functions, units, pseudos⟩)) ∧
      ∀ d ∈ run (v.extend (reported .functionKnown) (reported .unitKnown) (reported .pseudoKnown))
        t [] entries, d.severity = .info) ∧
    ∀ property, property ≠ "" → Text.isLowered property = true →
      ['-', '-'].isPrefixOf property.toList = false →
      ∃ added, ExemptionTable.ofMembers [(property, .string Exemption.wildcard)] = .ok added ∧
        (run v (t.merge added) [] entries).filter (·.property ≠ some property) =
          found.filter (·.property ≠ some property) ∧
        (run v (t.merge added) [] entries).filter (·.property = some property) =
          entries.flatMap fun entry =>
            (entry.declarations.filter (·.property = property)).map
              (genericRemark entry.name .exempt) := by
  intro found reported
  refine ⟨⟨fun rule => run_reported rule v t entries, ?_, run_extend_reported v t entries⟩, ?_⟩
  · intro functions units pseudos
    exact run_extend v ⟨functions, units, pseudos⟩ t entries
  · intro property filled lowered custom
    exact ⟨(.of [(property, .all)]), ExemptionTable.ofMembers_wildcard property filled lowered,
      run_exempt_other v t property entries, run_exempt_here v t property custom entries⟩

/-- An unknown unit and an unknown function of two properties, under an unknown pseudo-selector that
looks like the end of the message about it. -/
def doubtfulClass : ClassEntry where
  name := "w"
  declarations := [.mk "width" "3zz", .mk "zoom" "1", .mk "width" "calc(1)"]
  pseudo := some "x' (Css.x)."

theorem fixes_work_and_are_local_doubtful :
    Rule.all.map (fun rule =>
        (run .stock .stock [] [doubtfulClass]).filterMap (Diagnostic.reported? rule)) =
      [["zoom"], ["zz"], ["x' (Css.x)."], []] ∧
    run (Vocabulary.stock.extend ["zoom"] [] []) .stock [] [doubtfulClass] =
      (run .stock .stock [] [doubtfulClass]).filter (!·.settledBy ⟨["zoom"], [], []⟩) ∧
    "width" ≠ "" ∧ Text.isLowered "width" = true ∧ ['-', '-'].isPrefixOf "width".toList = false ∧
    ∃ added, ExemptionTable.ofMembers [("width", .string Exemption.wildcard)] = .ok added ∧
      (run .stock (ExemptionTable.stock.merge added) [] [doubtfulClass]).filter
          (·.property ≠ some "width") =
        (run .stock .stock [] [doubtfulClass]).filter (·.property ≠ some "width") ∧
      (run .stock (ExemptionTable.stock.merge added) [] [doubtfulClass]).filter
          (·.property = some "width") =
        [genericRemark "w" .exempt (.mk "width" "3zz"),
          genericRemark "w" .exempt (.mk "width" "calc(1)")] := by
  obtain ⟨⟨-, extended, -⟩, exempted⟩ := fixes_work_and_are_local .stock .stock [doubtfulClass]
  have filled : "width" ≠ "" := by decide
  have lowered : Text.isLowered "width" = true := by decide
  have custom : ['-', '-'].isPrefixOf "width".toList = false := by decide
  exact ⟨by decide +kernel, extended ["zoom"] [] [], filled, lowered, custom,
    exempted "width" filled lowered custom⟩

end Lint

end ElmStyle
