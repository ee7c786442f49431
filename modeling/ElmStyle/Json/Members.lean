/-!
# Members

Members stand in a row, each name once. A name that is set again keeps its place and takes its last
value.
-/
namespace ElmStyle.Json

variable {α : Type}

/-- The names of members, in order. -/
def names (pairs : List (String × α)) : List String := pairs.map Prod.fst

@[simp] theorem names_nil : names ([] : List (String × α)) = [] := rfl

@[simp] theorem names_cons (name : String) (value : α) (rest : List (String × α)) :
    names ((name, value) :: rest) = name :: names rest := rfl

@[simp] theorem names_append (pairs others : List (String × α)) :
    names (pairs ++ others) = names pairs ++ names others :=
  List.map_append

/-- Set a member: a name that is there keeps its place, a new one comes last. -/
def setMember (name : String) (value : α) : List (String × α) → List (String × α)
  | [] => [(name, value)]
  | (other, old) :: rest =>
    if other = name then (name, value) :: rest else (other, old) :: setMember name value rest

theorem names_setMember (name : String) (value : α) (pairs : List (String × α)) :
    names (setMember name value pairs) =
      if name ∈ names pairs then names pairs else names pairs ++ [name] := by
  induction pairs with
  | nil => rfl
  | cons head rest ih =>
    obtain ⟨key, old⟩ := head
    rw [setMember]
    by_cases here : key = name
    · simp [here]
    · have other : name ≠ key := fun same => here same.symm
      rw [if_neg here, names_cons, names_cons, ih]
      by_cases there : name ∈ names rest
      · simp [there]
      · simp [there, other]

/-- Set members in turn. -/
def setMembers (found pairs : List (String × α)) : List (String × α) :=
  pairs.foldl (fun found pair => setMember pair.1 pair.2 found) found

theorem nodup_setMember (name : String) (value : α) (pairs : List (String × α))
    (distinct : (names pairs).Nodup) : (names (setMember name value pairs)).Nodup := by
  rw [names_setMember]
  split
  · exact distinct
  next fresh =>
    rw [List.nodup_append]
    refine ⟨distinct, by simp, fun earlier held last own => ?_⟩
    rw [List.mem_singleton.mp own]
    rintro rfl
    exact fresh held

theorem nodup_setMembers (found pairs : List (String × α)) (distinct : (names found).Nodup) :
    (names (setMembers found pairs)).Nodup := by
  induction pairs generalizing found with
  | nil => exact distinct
  | cons pair rest ih => exact ih _ (nodup_setMember pair.1 pair.2 found distinct)

/-- The members of an object written as these pairs: first place, last value. -/
def members (pairs : List (String × α)) : List (String × α) := setMembers [] pairs

theorem nodup_members (pairs : List (String × α)) : (names (members pairs)).Nodup :=
  nodup_setMembers [] pairs List.nodup_nil

end ElmStyle.Json
