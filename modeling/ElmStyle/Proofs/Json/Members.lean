import ElmStyle.Json.Members
import Mathlib.Data.List.Induction
import Mathlib.Data.List.Nodup

/-!
# Members by name

Members stand in a row, but what they say is which value a name has. Setting a member changes that
for its name only. Rows that have each name once say the same exactly if they are reorderings of
each other, and the members of an object are such a row: each name at its first place, with its last
value.
-/
namespace ElmStyle.Json

variable {α : Type}

theorem lookup_isSome_iff (pairs : List (String × α)) (name : String) :
    (pairs.lookup name).isSome ↔ name ∈ names pairs := by
  rw [List.lookup_isSome_iff, names, List.mem_map]
  simp only [beq_iff_eq, @eq_comm String name]

/-! ## Rows with each name once -/

/-- A row with each name once holds a member exactly if it is found by its name. -/
theorem mem_iff_lookup (pairs : List (String × α)) (distinct : (names pairs).Nodup) (name : String)
    (value : α) : (name, value) ∈ pairs ↔ pairs.lookup name = some value := by
  induction pairs with
  | nil => simp
  | cons head rest ih =>
    obtain ⟨key, old⟩ := head
    obtain ⟨fresh, distinct⟩ := List.nodup_cons.mp distinct
    rw [List.mem_cons, List.lookup_cons, ih distinct]
    by_cases same : name = key
    · subst same
      have absent : rest.lookup name ≠ some value := by
        intro found
        exact fresh ((lookup_isSome_iff rest name).mp (by simp [found]))
      simp [absent, eq_comm]
    · simp [same, beq_false_of_ne same]

theorem perm_iff_lookup (pairs others : List (String × α)) (distinct : (names pairs).Nodup)
    (otherDistinct : (names others).Nodup) :
    pairs.Perm others ↔ ∀ name, pairs.lookup name = others.lookup name := by
  rw [List.perm_ext_iff_of_nodup distinct.of_map otherDistinct.of_map]
  constructor
  · intro same name
    refine Option.ext fun value => ?_
    rw [← mem_iff_lookup pairs distinct, ← mem_iff_lookup others otherDistinct, same]
  · rintro same ⟨name, value⟩
    rw [mem_iff_lookup pairs distinct, mem_iff_lookup others otherDistinct, same]

/-- From which end a row is searched does not matter if it has each name once. -/
theorem lookup_reverse (pairs : List (String × α)) (distinct : (names pairs).Nodup)
    (name : String) : pairs.reverse.lookup name = pairs.lookup name := by
  have reversed : (names pairs.reverse).Nodup := by
    rwa [names, List.map_reverse, List.nodup_reverse]
  exact (perm_iff_lookup _ _ reversed distinct).mp (List.reverse_perm pairs) name

/-- The names in order and what they stand for make up the row. -/
theorem filterMap_lookup (pairs : List (String × α)) (distinct : (names pairs).Nodup) :
    ((names pairs).filterMap fun name => (pairs.lookup name).map (name, ·)) = pairs := by
  induction pairs with
  | nil => rfl
  | cons head rest ih =>
    obtain ⟨key, value⟩ := head
    obtain ⟨fresh, distinct⟩ := List.nodup_cons.mp distinct
    have later : ∀ name ∈ names rest, ((key, value) :: rest).lookup name = rest.lookup name := by
      intro name member
      have other : name ≠ key := by
        rintro rfl
        exact fresh member
      rw [List.lookup_cons, beq_false_of_ne other]
    have behind : ((names rest).filterMap fun name =>
        (((key, value) :: rest).lookup name).map (name, ·)) = rest := by
      refine (List.filterMap_congr fun name member => ?_).trans (ih distinct)
      rw [later name member]
    rw [names_cons, List.filterMap_cons_some (b := (key, value)) (by simp), behind]

/-! ## Setting members -/

theorem lookup_setMember (name : String) (value : α) (pairs : List (String × α))
    (other : String) :
    (setMember name value pairs).lookup other =
      if other = name then some value else pairs.lookup other := by
  induction pairs with
  | nil =>
    rw [setMember, List.lookup_cons]
    by_cases same : other = name
    · simp [same]
    · simp [same, beq_false_of_ne same]
  | cons head rest ih =>
    obtain ⟨key, old⟩ := head
    rw [setMember, List.lookup_cons]
    by_cases here : key = name
    · rw [if_pos here, List.lookup_cons]
      by_cases same : other = name
      · simp [same]
      · simp [same, here, beq_false_of_ne same]
    · rw [if_neg here, List.lookup_cons, ih]
      by_cases same : other = key
      · simp [same, here]
      · simp [beq_false_of_ne same]

/-- The last pair with a name settles it, and what was there before stays for the other names. -/
theorem lookup_setMembers (found pairs : List (String × α)) (name : String) :
    (setMembers found pairs).lookup name = (pairs.reverse.lookup name).or (found.lookup name) := by
  induction pairs generalizing found with
  | nil => rfl
  | cons pair rest ih =>
    obtain ⟨key, value⟩ := pair
    have step : setMembers found ((key, value) :: rest) =
        setMembers (setMember key value found) rest := rfl
    rw [step, ih, lookup_setMember, List.reverse_cons, List.lookup_append, Option.or_assoc,
      List.lookup_cons]
    by_cases same : name = key
    · simp [same]
    · simp [same, beq_false_of_ne same]

theorem setMember_fresh (name : String) (value : α) (pairs : List (String × α))
    (fresh : name ∉ names pairs) : setMember name value pairs = pairs ++ [(name, value)] := by
  induction pairs with
  | nil => rfl
  | cons head rest ih =>
    obtain ⟨key, old⟩ := head
    rw [names_cons, List.mem_cons, not_or] at fresh
    rw [setMember, if_neg (Ne.symm fresh.1), ih fresh.2, List.cons_append]

/-- Members with new names come behind those that are there. -/
theorem setMembers_fresh (found pairs : List (String × α))
    (distinct : (names (found ++ pairs)).Nodup) : setMembers found pairs = found ++ pairs := by
  induction pairs generalizing found with
  | nil => exact (List.append_nil found).symm
  | cons pair rest ih =>
    obtain ⟨name, value⟩ := pair
    have fresh : name ∉ names found := by
      rw [names_append, names_cons] at distinct
      exact fun held => (List.disjoint_of_nodup_append distinct) held List.mem_cons_self
    have regrouped : found ++ (name, value) :: rest = (found ++ [(name, value)]) ++ rest := by
      simp
    rw [regrouped] at distinct ⊢
    rw [← ih _ distinct, ← setMember_fresh name value found fresh]
    rfl

/-! ## The members of an object -/

/-- Each name once: at its first place and with its last value. -/
def lastByName (pairs : List (String × α)) : List (String × α) :=
  (names pairs).eraseDups.filterMap fun name => (pairs.reverse.lookup name).map (name, ·)

theorem lookup_members (pairs : List (String × α)) (name : String) :
    (members pairs).lookup name = pairs.reverse.lookup name := by
  rw [members, lookup_setMembers, List.lookup_nil, Option.or_none]

theorem names_members (pairs : List (String × α)) :
    names (members pairs) = (names pairs).eraseDups := by
  induction pairs using List.reverseRecOn with
  | nil => rfl
  | append_singleton earlier pair ih =>
    have step : members (earlier ++ [pair]) = setMember pair.1 pair.2 (members earlier) := by
      simp only [members, setMembers, List.foldl_append, List.foldl_cons, List.foldl_nil]
    obtain ⟨name, value⟩ := pair
    rw [step, names_setMember, ih, names_append, List.eraseDups_append]
    by_cases there : name ∈ names earlier
    · simp [there, List.removeAll]
    · simp [there, List.removeAll, List.eraseDups_cons]

theorem members_eq_lastByName (pairs : List (String × α)) : members pairs = lastByName pairs := by
  have made := filterMap_lookup (members pairs) (nodup_members pairs)
  simp only [names_members, lookup_members] at made
  exact made.symm

/-- A row that has each name once is the members that it writes. -/
theorem members_eq_self (pairs : List (String × α)) (distinct : (names pairs).Nodup) :
    members pairs = pairs :=
  setMembers_fresh [] pairs distinct

theorem nodup_eraseDups (words : List String) : words.eraseDups.Nodup := by
  have spelled : names (words.map fun word => (word, ())) = words := by
    simp [names, Function.comp_def]
  have distinct := nodup_members (words.map fun word => (word, ()))
  rwa [names_members, spelled] at distinct

/-- A member comes from one of the pairs. -/
theorem mem_of_mem_members (pairs : List (String × α)) (pair : String × α)
    (member : pair ∈ members pairs) : pair ∈ pairs := by
  have found := (mem_iff_lookup _ (nodup_members pairs) pair.1 pair.2).mp member
  rw [lookup_members] at found
  obtain ⟨before, after, split, -⟩ := List.lookup_eq_some_iff.mp found
  rw [← List.mem_reverse, split]
  simp

/-- What is found by a name in a row that is made of another one, member by member. -/
theorem lookup_forall₂ {β : Type} {f : α → Option β} {pairs : List (String × α)}
    {results : List (String × β)}
    (made : List.Forall₂ (fun pair result => pair.1 = result.1 ∧ f pair.2 = some result.2)
      pairs results)
    (name : String) : results.lookup name = (pairs.lookup name).bind f := by
  induction made with
  | nil => rfl
  | @cons pair result pairs results first _ ih =>
    obtain ⟨key, value⟩ := pair
    obtain ⟨_, made⟩ := result
    obtain ⟨rfl, given⟩ := first
    rw [List.lookup_cons, List.lookup_cons, ih]
    cases name == key with
    | true => exact given.symm
    | false => rfl

theorem names_forall₂ {β : Type} {pairs : List (String × α)} {results : List (String × β)}
    (made : List.Forall₂ (fun pair result => pair.1 = result.1) pairs results) :
    names pairs = names results := by
  induction made with
  | nil => rfl
  | @cons pair result _ _ first _ ih =>
    obtain ⟨name, value⟩ := pair
    obtain ⟨_, made⟩ := result
    obtain rfl := first
    rw [names_cons, names_cons, ih]

end ElmStyle.Json
