import ElmStyle.Proofs.Lint.Fixes

/-!
# What is rejected

Classes are rejected exactly if one of them is styled in a state that the vocabulary lacks, whatever
is exempt and whichever rules are applied once more. The errors are those of such classes, in the
order of the classes, once for each time that pseudo-selectors are checked.
-/
namespace ElmStyle.Lint

open Css (ClassEntry)

/-- The class is styled in a state whose function the vocabulary lacks. -/
def InUnknownState (v : Vocabulary) (entry : ClassEntry) : Prop :=
  ∃ state, entry.pseudo = some state ∧ state ≠ "" ∧ Elm.identifier state ∉ v.pseudoClasses

/-- The state of a class, if the vocabulary lacks its function. -/
def unknownState? (v : Vocabulary) (entry : ClassEntry) : Option String :=
  entry.pseudo.filter fun state => state ≠ "" ∧ Elm.identifier state ∉ v.pseudoClasses

/-- One error for each class in an unknown state, in the order of the classes. -/
def stateErrors (v : Vocabulary) (entries : List ClassEntry) : List Diagnostic :=
  entries.filterMap fun entry => (unknownState? v entry).map (unknownPseudo entry.name)

theorem unknownState_eq_none (v : Vocabulary) (entry : ClassEntry) :
    unknownState? v entry = none ↔ ¬InUnknownState v entry := by
  simp [unknownState?, InUnknownState, Option.filter_eq_none_iff]

instance (v : Vocabulary) (entry : ClassEntry) : Decidable (InUnknownState v entry) :=
  decidable_of_iff (unknownState? v entry ≠ none) (by rw [Ne, unknownState_eq_none, not_not])

theorem stateErrors_eq_nil (v : Vocabulary) (entries : List ClassEntry) :
    stateErrors v entries = [] ↔ ¬∃ entry ∈ entries, InUnknownState v entry := by
  simp only [stateErrors, List.filterMap_eq_nil_iff, Option.map_eq_none_iff, unknownState_eq_none,
    not_exists, not_and]

theorem stateErrors_append (v : Vocabulary) (front back : List ClassEntry) :
    stateErrors v (front ++ back) = stateErrors v front ++ stateErrors v back :=
  List.filterMap_append

/-- The check of a class finds the error of its unknown state. -/
theorem checkPseudo_eq (v : Vocabulary) (entry : ClassEntry) :
    checkPseudo v entry = ((unknownState? v entry).map (unknownPseudo entry.name)).toList := by
  have looked := (pseudoSites_looksUp entry).found v
  rw [looked, pseudoSites, unknownState?, ClassEntry.state?]
  cases entry.pseudo with
  | none => rfl
  | some state =>
    by_cases empty : state = ""
    · simp [Option.filter_some, empty]
    · by_cases known : Elm.identifier state ∈ v.pseudoClasses <;>
        simp [Rule.known, Option.filter_some, empty, known]

theorem pseudoKnown_findings (v : Vocabulary) (t : ExemptionTable) (entries : List ClassEntry) :
    Rule.pseudoKnown.findings v t entries = stateErrors v entries := by
  rw [stateErrors, List.filterMap_eq_flatMap_toList]
  exact List.flatMap_congr fun entry _ => checkPseudo_eq v entry

/-- Only the rule on pseudo-selectors finds errors. -/
theorem isError_findings (v : Vocabulary) (t : ExemptionTable) (entries : List ClassEntry)
    (rule : Rule) (d : Diagnostic) (member : d ∈ rule.findings v t entries) :
    d.isError = (rule == .pseudoKnown) := by
  rw [Diagnostic.isError, (rule.findings_labels v t entries d member).2]
  cases rule <;> rfl

/-- The errors of a run do not depend on what is exempt, and of the extra rules only on how often
pseudo-selectors are among them. -/
theorem errors_run (v : Vocabulary) (t : ExemptionTable) (extra : List Rule)
    (entries : List ClassEntry) :
    Diagnostic.errors (run v t extra entries) =
      (List.replicate (extra.count .pseudoKnown + 1) (stateErrors v entries)).flatten := by
  have times : (Rule.all ++ extra).count .pseudoKnown = extra.count .pseudoKnown + 1 := by
    rw [List.count_append, Nat.add_comm]
    rfl
  rw [Diagnostic.errors, run,
    filter_run v t entries Diagnostic.isError _ (· == .pseudoKnown) (isError_findings v t entries),
    List.filter_beq, times, List.flatMap_replicate, pseudoKnown_findings]

theorem errors_run_eq_nil (v : Vocabulary) (t : ExemptionTable) (extra : List Rule)
    (entries : List ClassEntry) :
    Diagnostic.errors (run v t extra entries) = [] ↔
      ¬∃ entry ∈ entries, InUnknownState v entry := by
  rw [errors_run, List.replicate_succ, List.flatten_cons, List.append_eq_nil_iff,
    ← stateErrors_eq_nil]
  constructor
  · exact And.left
  · intro empty
    rw [empty, List.flatten_replicate_nil]
    exact ⟨rfl, rfl⟩

theorem accept_error (v : Vocabulary) (t : ExemptionTable) (extra : List Rule)
    (entries : List ClassEntry) (unknown : ∃ entry ∈ entries, InUnknownState v entry) :
    accept v t extra entries =
      .error ⟨(List.replicate (extra.count .pseudoKnown + 1) (stateErrors v entries)).flatten⟩ := by
  rw [← errors_run v t extra entries]
  cases found : Diagnostic.errors (run v t extra entries) with
  | nil => exact absurd unknown ((errors_run_eq_nil v t extra entries).mp found)
  | cons first rest => simp only [accept, found]

theorem accept_ok (v : Vocabulary) (t : ExemptionTable) (extra : List Rule)
    (entries : List ClassEntry) (known : ¬∃ entry ∈ entries, InUnknownState v entry) :
    accept v t extra entries = .ok (run v t extra entries) := by
  have none := (errors_run_eq_nil v t extra entries).mpr known
  simp only [accept, none]

theorem severity_of_no_errors (ds : List Diagnostic) (none : Diagnostic.errors ds = []) :
    ∀ d ∈ ds, d.severity = .warning ∨ d.severity = .info := by
  intro d member
  have harmless := List.filter_eq_nil_iff.mp none d member
  cases severity : d.severity with
  | error => simp [Diagnostic.isError, severity] at harmless
  | warning => exact .inl rfl
  | info => exact .inr rfl

/-- Classes are rejected exactly if one of them is in an unknown state, with one error for each such
class, all of them again for each time that the check is repeated. Otherwise all findings are handed
out, and none is an error. The errors of two rows of classes are those of the first, then those of
the second. -/
theorem accept_by_states (v : Vocabulary) (t : ExemptionTable) (extra : List Rule)
    (entries : List ClassEntry) :
    ((∃ rejection, accept v t extra entries = .error rejection) ↔
      ∃ entry ∈ entries, InUnknownState v entry) ∧
    ((∃ entry ∈ entries, InUnknownState v entry) → accept v t extra entries =
      .error ⟨(List.replicate (extra.count .pseudoKnown + 1) (stateErrors v entries)).flatten⟩) ∧
    ((¬∃ entry ∈ entries, InUnknownState v entry) →
      accept v t extra entries = .ok (run v t extra entries) ∧
      ∀ d ∈ run v t extra entries, d.severity = .warning ∨ d.severity = .info) ∧
    ∀ front back : List ClassEntry,
      Diagnostic.errors (run v t [] (front ++ back)) =
        Diagnostic.errors (run v t [] front) ++ Diagnostic.errors (run v t [] back) := by
  refine ⟨⟨?_, ?_⟩, accept_error v t extra entries, ?_, ?_⟩
  · rintro ⟨rejection, rejected⟩
    by_contra known
    rw [accept_ok v t extra entries known] at rejected
    cases rejected
  · intro unknown
    exact ⟨_, accept_error v t extra entries unknown⟩
  · intro known
    exact ⟨accept_ok v t extra entries known,
      severity_of_no_errors _ ((errors_run_eq_nil v t extra entries).mpr known)⟩
  · intro front back
    simp [errors_run, stateErrors_append]

/-- A known state, two unknown ones, an empty one and none. -/
def mixedStates : List ClassEntry := [
  .mk "f" [.mk "orphans" "1"] (some "hover"), .mk "b" [.mk "--b" "0"] (some "before"),
  .mk "c" [] (some ""), .mk "d" [.mk "height" "3zz"] none, .mk "e" [] (some "read-write")]

theorem accept_by_states_mixed :
    (∃ entry ∈ mixedStates, InUnknownState .stock entry) ∧
    accept .stock .stock [.pseudoKnown, .fallbacks] mixedStates =
      .error ⟨[unknownPseudo "b" "before", unknownPseudo "e" "read-write",
        unknownPseudo "b" "before", unknownPseudo "e" "read-write"]⟩ ∧
    (¬∃ entry ∈ mixedStates.take 1, InUnknownState .stock entry) ∧
    accept .stock .stock [.pseudoKnown, .fallbacks] (mixedStates.take 1) =
      .ok (run .stock .stock [.pseudoKnown, .fallbacks] (mixedStates.take 1)) := by
  have unknown : ∃ entry ∈ mixedStates, InUnknownState .stock entry := by decide
  have known : ¬∃ entry ∈ mixedStates.take 1, InUnknownState .stock entry := by decide
  obtain ⟨-, rejected, -⟩ := accept_by_states .stock .stock [.pseudoKnown, .fallbacks] mixedStates
  obtain ⟨-, -, accepted, -⟩ :=
    accept_by_states .stock .stock [.pseudoKnown, .fallbacks] (mixedStates.take 1)
  exact ⟨unknown, rejected unknown, known, (accepted known).1⟩

end ElmStyle.Lint
