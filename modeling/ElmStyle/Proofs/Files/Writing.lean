import ElmStyle.Files.Tree

/-!
# What writing changes

A file is written after the directories above it have been made. The effect is stated place by
place: the file holds the bytes, directories are where nothing was above it, and all else is as it
was.
-/
namespace ElmStyle.Files

/-- The places at which the steps from a place are taken. -/
def passed (place : Place) : List String → List Place
  | [] => []
  | name :: rest => place :: passed (step place name) rest

theorem passed_concat (place : Place) (names : List String) (last : String) :
    passed place (names ++ [last]) = passed place names ++ [names.foldl step place] := by
  induction names generalizing place with
  | nil => rfl
  | cons name rest ih => simp [passed, ih]

namespace Tree

/-- The place that a path leads to. -/
def placeOf (t : Tree) (path : String) : Place :=
  (names path).foldl step (t.start (rootOf path))

/-- The places at which the steps of a path are taken. -/
def passedBy (t : Tree) (path : String) : List Place :=
  passed (t.start (rootOf path)) (names path)

/-- Where a path starts is a directory. -/
theorem get_start (t : Tree) (root : String) : t.get? (t.start root) = some .directory := by
  unfold start get?
  split <;> simp

theorem start_eq {t other : Tree} (here : other.workingDirectory = t.workingDirectory)
    (root : String) : other.start root = t.start root := by
  rw [start, start, here]

theorem placeOf_eq {t other : Tree} (here : other.workingDirectory = t.workingDirectory)
    (path : String) : other.placeOf path = t.placeOf path := by
  rw [placeOf, placeOf, start_eq here]

theorem passedBy_eq {t other : Tree} (here : other.workingDirectory = t.workingDirectory)
    (path : String) : other.passedBy path = t.passedBy path := by
  rw [passedBy, passedBy, start_eq here]

/-- Steps lead to their place exactly if each is taken in a directory. -/
theorem follow_eq_ok (t : Tree) (place result : Place) (names : List String) :
    t.follow place names = .ok result ↔
      result = names.foldl step place ∧ ∀ p ∈ passed place names, t.get? p = some .directory := by
  induction names generalizing place with
  | nil => simp [follow, passed, eq_comm]
  | cons name rest ih =>
    simp only [follow, passed, List.foldl_cons, List.forall_mem_cons]
    split
    next directory => simp [ih, directory]
    next bytes file => simp [file]
    next missing => simp [missing]

theorem lookup_filter_ne (nodes : List (Place × Node)) (place other : Place)
    (apart : other ≠ place) :
    (nodes.filter (·.1 != place)).lookup other = nodes.lookup other := by
  induction nodes with
  | nil => rfl
  | cons head rest ih =>
    obtain ⟨key, node⟩ := head
    by_cases dropped : key = place
    · subst dropped
      simp [List.lookup_cons, beq_false_of_ne apart, ih]
    · simp [List.lookup_cons, dropped, ih]

@[simp] theorem set_workingDirectory (t : Tree) (place : Place) (node : Node) :
    (t.set place node).workingDirectory = t.workingDirectory := rfl

/-- A node is put at one place, unless there is a directory. -/
theorem get_set (t : Tree) (place other : Place) (node : Node)
    (free : t.get? place ≠ some .directory) :
    (t.set place node).get? other = if other = place then some node else t.get? other := by
  have below : place.isPrefixOf t.workingDirectory = false := by
    cases above : place.isPrefixOf t.workingDirectory with
    | false => rfl
    | true => simp [get?, above] at free
  unfold get?
  by_cases same : other = place
  · simp [same, below, set]
  · simp [same, set, List.lookup_cons, beq_false_of_ne same,
      lookup_filter_ne t.nodes place other same]

/-- There are directories at the places, and nothing else has changed than that some are new. -/
structure MadeAt (before after : Tree) (places : List Place) : Prop where
  here : after.workingDirectory = before.workingDirectory
  there : ∀ place ∈ places, after.get? place = some .directory
  kept : ∀ place, after.get? place = before.get? place ∨
    place ∈ places ∧ before.get? place = none

theorem MadeAt.trans {first second third : Tree} {some more : List Place}
    (made : MadeAt first second some) (again : MadeAt second third more) (less : some ⊆ more) :
    MadeAt first third more where
  here := again.here.trans made.here
  there := again.there
  kept := by
    intro place
    rcases made.kept place with old | ⟨new, missing⟩
    · rw [← old]
      exact again.kept place
    · exact .inr ⟨less new, missing⟩

/-- A directory is made at the place that the names lead to; those above it are there before. -/
theorem makeDirectory_made (t made : Tree) (root : String) (names : List String)
    (success : t.makeDirectory root names = .ok made) :
    MadeAt t made (passed (t.start root) names ++ [names.foldl step (t.start root)]) := by
  unfold makeDirectory at success
  cases followed : t.follow (t.start root) names with
  | error fault => simp [followed, bind, Except.bind] at success
  | ok place =>
    obtain ⟨rfl, through⟩ := (t.follow_eq_ok _ place names).mp followed
    simp only [followed, bind, Except.bind] at success
    split at success
    next old =>
      cases success
      refine ⟨rfl, ?_, fun _ => .inl rfl⟩
      rw [List.forall_mem_append]
      exact ⟨through, by simpa using old⟩
    · cases success
    next missing =>
      cases success
      have changed := fun p => t.get_set _ p .directory (by rw [missing]; simp)
      refine ⟨rfl, ?_, ?_⟩
      · intro p member
        rw [changed]
        split
        · rfl
        next other =>
          rcases List.mem_append.mp member with above | last
          · exact through p above
          · exact absurd (List.mem_singleton.mp last) other
      · intro p
        rw [changed]
        split
        next here => exact .inr ⟨by simp [here], here ▸ missing⟩
        · exact .inl rfl

/-- Directories are made at the place that the names lead to and at those above it. -/
theorem makeDirectories_made (t made : Tree) (root : String) (names : List String)
    (success : t.makeDirectories root names = (.ok (), made)) :
    MadeAt t made
      (passed (t.start root) names.reverse ++ [names.reverse.foldl step (t.start root)]) := by
  induction names generalizing made with
  | nil =>
    cases success
    refine ⟨rfl, ?_, fun _ => .inl rfl⟩
    intro p member
    rw [List.mem_singleton.mp member]
    exact t.get_start root
  | cons name above ih =>
    simp only [makeDirectories] at success
    split at success
    next direct =>
      cases success
      exact t.makeDirectory_made made root _ direct
    next =>
      split at success
      next under parents =>
        split at success
        next direct =>
          cases success
          have higher := ih under parents
          have last := under.makeDirectory_made made root _ direct
          rw [start_eq higher.here] at last
          refine higher.trans last ?_
          rw [List.reverse_cons, passed_concat]
          exact List.subset_append_left _ _
        · cases success
      next failed => exact (failed made success).elim
    · cases success

/-- The directories above a path are those that it passes, unless it is where it starts. -/
theorem makeParents_made (t made : Tree) (path : String) (named : names path ≠ [])
    (success : t.makeParents path = (.ok (), made)) : MadeAt t made (t.passedBy path) := by
  have above := t.makeDirectories_made made _ _ success
  rwa [List.tail_reverse, List.reverse_reverse,
    ← passed_concat _ _ ((names path).getLast named), List.dropLast_concat_getLast named] at above

theorem write_get (t written : Tree) (path : String) (bytes : List UInt8)
    (success : t.write path bytes = (.ok (), written)) :
    written.workingDirectory = t.workingDirectory ∧
    (∀ p ∈ t.passedBy path, t.get? p = some .directory) ∧
    t.get? (t.placeOf path) ≠ some .directory ∧
    ∀ p, written.get? p = if p = t.placeOf path then some (.file bytes) else t.get? p := by
  simp only [write] at success
  split at success
  · cases success
  next place followed =>
    obtain ⟨rfl, through⟩ := (t.follow_eq_ok _ place _).mp followed
    split at success
    · cases success
    next other =>
      cases success
      exact ⟨rfl, through, other, fun p => t.get_set _ p (.file bytes) other⟩

/-- The path holds the bytes; the directories that it passes are there; nothing else has changed
than that some of them are new. -/
structure WrittenAt (before after : Tree) (path : String) (bytes : List UInt8) : Prop where
  here : after.workingDirectory = before.workingDirectory
  holds : after.read path = .ok bytes
  above : ∀ place ∈ before.passedBy path, after.get? place = some .directory
  kept : ∀ place, place ≠ before.placeOf path → after.get? place = before.get? place ∨
    place ∈ before.passedBy path ∧ before.get? place = none

/-- A path is written with the directories above it. -/
theorem writtenAt_of_write (t under written : Tree) (path : String) (bytes : List UInt8)
    (parents : t.makeParents path = (.ok (), under))
    (success : under.write path bytes = (.ok (), written)) : WrittenAt t written path bytes := by
  obtain ⟨here, through, free, changed⟩ := under.write_get written path bytes success
  have named : names path ≠ [] := by
    intro stays
    refine free ?_
    rw [placeOf, stays]
    exact under.get_start _
  have made := t.makeParents_made under path named parents
  simp only [placeOf_eq made.here, passedBy_eq made.here] at through free changed
  -- No directory on the way is where the file is.
  have above : ∀ place ∈ t.passedBy path, written.get? place = some .directory := by
    intro place member
    have apart : place ≠ t.placeOf path := by
      rintro rfl
      exact free (through _ member)
    rw [changed, if_neg apart, through place member]
  refine ⟨here.trans made.here, ?_, above, ?_⟩
  · have held : written.get? (t.placeOf path) = some (.file bytes) := by
      rw [changed, if_pos rfl]
    have followed := (written.follow_eq_ok _ (t.placeOf path) (names path)).mpr ⟨rfl, above⟩
    rw [← start_eq (here.trans made.here)] at followed
    simp [read, find, followed, held, bind, Except.bind]
  · intro place apart
    rw [changed, if_neg apart]
    exact made.kept place

end Tree

end ElmStyle.Files
