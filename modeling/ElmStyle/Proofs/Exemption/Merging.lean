import ElmStyle.Exemption
import ElmStyle.Proofs.Json.Members
import Mathlib.Data.Finset.Card

/-!
# Merging exemptions

A table says of each property what is exempt, and two tables are the same if they say the same of
all properties. Of merged tables the last one that has a property decides for it. That settles what
a row of tables gives, however brackets are put around it.
-/
namespace ElmStyle.ExemptionTable

/-- The properties that a table has an exemption of, in order. -/
def properties (t : ExemptionTable) : List String := Json.names t.entries

theorem contains_iff (t : ExemptionTable) (property : String) :
    t.contains property ↔ property ∈ t.properties :=
  Json.lookup_isSome_iff t.entries property

theorem mem_entries_iff (t : ExemptionTable) (property : String) (e : Exemption) :
    (property, e) ∈ t.entries ↔ t.get? property = some e :=
  Json.mem_iff_lookup t.entries t.distinct property e

/-! ## Tables that are the same -/

theorem same_iff_perm (t other : ExemptionTable) :
    t.same other ↔ t.entries.Perm other.entries := by
  have found : (t.entries.all fun entry => other.get? entry.1 == some entry.2) = true ↔
      t.entries ⊆ other.entries := by
    simp only [List.all_eq_true, beq_iff_eq, List.subset_def, ← mem_entries_iff]
  rw [same, Bool.and_eq_true, found, beq_iff_eq]
  constructor
  · rintro ⟨sizes, included⟩
    exact (List.subperm_of_subset t.distinct.of_map included).perm_of_length_le sizes.ge
  · intro reordered
    exact ⟨reordered.length_eq, reordered.subset⟩

/-- Two tables are the same exactly if each property has the same exemption in both. -/
theorem same_iff (t other : ExemptionTable) :
    t.same other ↔ ∀ property, t.get? property = other.get? property := by
  rw [same_iff_perm]
  exact Json.perm_iff_lookup t.entries other.entries t.distinct other.distinct

/-! ## Two tables -/

/-- The second table decides for the properties that it has. -/
theorem get?_merge (t other : ExemptionTable) (property : String) :
    (t.merge other).get? property = (other.get? property).or (t.get? property) := by
  rw [get?, merge, Json.lookup_setMembers,
    Json.lookup_reverse other.entries other.distinct property]
  rfl

theorem merge_empty_same (t : ExemptionTable) :
    (t.merge empty).same t ∧ (empty.merge t).same t := by
  simp only [same_iff, get?_merge]
  exact ⟨fun _ => Option.none_or, fun _ => Option.or_none⟩

theorem merge_self_same (t : ExemptionTable) : (t.merge t).same t := by
  simp only [same_iff, get?_merge, Option.or_self, implies_true]

theorem merge_comm_same (t other : ExemptionTable)
    (disjoint : ∀ property, ¬(t.contains property ∧ other.contains property)) :
    (t.merge other).same (other.merge t) := by
  refine (same_iff _ _).mpr fun property => ?_
  rw [get?_merge, get?_merge]
  cases here : t.get? property with
  | none => exact Option.or_none.trans Option.none_or.symm
  | some e =>
    cases there : other.get? property with
    | none => rfl
    | some _ =>
      exact absurd ⟨by simp [contains, here], by simp [contains, there]⟩ (disjoint property)

/-! ## Rows of tables -/

/-- Tables in a row, which may be empty, with brackets around them. -/
inductive Bracketed where
  | nothing
  | single (t : ExemptionTable)
  | pair (first second : Bracketed)

namespace Bracketed

/-- The tables without the brackets. -/
def tables : Bracketed → List ExemptionTable
  | .nothing => []
  | .single t => [t]
  | .pair first second => first.tables ++ second.tables

/-- The tables merged as the brackets say. -/
def merged : Bracketed → ExemptionTable
  | .nothing => empty
  | .single t => t
  | .pair first second => first.merged.merge second.merged

/-- The last table that has a property decides for it. -/
theorem get?_merged (b : Bracketed) (property : String) :
    b.merged.get? property = b.tables.reverse.findSome? (·.get? property) := by
  induction b with
  | nothing => rfl
  | single t => simp [merged, tables]
  | pair first second ihFirst ihSecond =>
    rw [merged, get?_merge, ihFirst, ihSecond, tables, List.reverse_append,
      List.findSome?_append]

end Bracketed

/-- The last of the tables that has an exemption of the property. -/
def lastWith? (tables : List ExemptionTable) (property : String) : Option ExemptionTable :=
  tables.reverse.find? (·.contains property)

theorem findSome_get? (tables : List ExemptionTable) (property : String) :
    tables.findSome? (·.get? property) =
      (tables.find? (·.contains property)).bind (·.get? property) := by
  induction tables with
  | nil => rfl
  | cons t rest ih =>
    rw [List.findSome?_cons, List.find?_cons]
    unfold contains
    cases found : t.get? property with
    | none => exact ih
    | some e => simp [found]

/-- What merging a row of tables gives: all their properties, and of each property the exemption in
the last table that has it. -/
structure RightBiased (tables : List ExemptionTable) (merged : ExemptionTable) : Prop where
  contains : ∀ property, merged.contains property ↔ ∃ t ∈ tables, t.contains property
  size : merged.size = (tables.flatMap properties).toFinset.card
  isExempt : ∀ property value, merged.isExempt property value =
    (lastWith? tables property).any (·.isExempt property value)
  emptied : ∀ property, (lastWith? tables property).bind (·.get? property) = some (.values []) →
    ∀ value, merged.isExempt property value = false

theorem rightBiased_of_get? (tables : List ExemptionTable) (merged : ExemptionTable)
    (last : ∀ property, merged.get? property = tables.reverse.findSome? (·.get? property)) :
    RightBiased tables merged := by
  have contains : ∀ property, merged.contains property ↔ ∃ t ∈ tables, t.contains property := by
    intro property
    rw [ExemptionTable.contains, last, List.findSome?_isSome_iff]
    simp [ExemptionTable.contains]
  have isExempt : ∀ property value, merged.isExempt property value =
      (lastWith? tables property).any (·.isExempt property value) := by
    intro property value
    rw [ExemptionTable.isExempt, last, findSome_get?, lastWith?]
    cases tables.reverse.find? (·.contains property) <;> rfl
  refine ⟨contains, ?_, isExempt, ?_⟩
  · have members : merged.properties.toFinset = (tables.flatMap properties).toFinset := by
      ext property
      simp only [List.mem_toFinset, List.mem_flatMap, ← contains_iff]
      exact contains property
    have once : merged.properties.Nodup := merged.distinct
    rw [← members, List.toFinset_card_of_nodup once]
    exact (List.length_map _).symm
  · intro property emptied value
    rw [isExempt]
    obtain ⟨t, found, rule⟩ := Option.bind_eq_some_iff.mp emptied
    rw [found, Option.any_some, ExemptionTable.isExempt, rule]
    rfl

/-- Merging is an override from the right. Tables in a row give the same however brackets are put
around them, the last table that has a property decides for it, the empty table and the table itself
add nothing, and tables without a common property can be swapped. -/
theorem merge_overrides_from_right (b : Bracketed) :
    (∀ c : Bracketed, c.tables = b.tables → c.merged.same b.merged) ∧
    RightBiased b.tables b.merged ∧
    (∀ t : ExemptionTable,
      (t.merge empty).same t ∧ (empty.merge t).same t ∧ (t.merge t).same t) ∧
    ∀ t other : ExemptionTable,
      (∀ property, ¬(t.contains property ∧ other.contains property)) →
      (t.merge other).same (other.merge t) := by
  refine ⟨?_, rightBiased_of_get? b.tables b.merged b.get?_merged, ?_, merge_comm_same⟩
  · intro c same
    refine (same_iff _ _).mpr fun property => ?_
    rw [c.get?_merged, b.get?_merged, same]
  · intro t
    obtain ⟨right, left⟩ := merge_empty_same t
    exact ⟨right, left, merge_self_same t⟩

/-- Three tables: the second takes back all exemptions of a property of the first. -/
def threeTables : Bracketed :=
  .pair
    (.pair (.single (.of [("width", .all), ("gap", .values ["0"])]))
      (.single (.of [("width", .values [])])))
    (.single (.of [("order", .values ["1"]), ("gap", .all)]))

theorem merge_overrides_from_right_three :
    let once : ExemptionTable := .of [("width", .values [])]
    let later : ExemptionTable := .of [("order", .values ["1"]), ("gap", .all)]
    let other : Bracketed :=
      .pair (.single (.of [("width", .all), ("gap", .values ["0"])]))
        (.pair (.single once) (.single later))
    other.tables = threeTables.tables ∧ other.merged.same threeTables.merged ∧
    threeTables.merged.size = 3 ∧
    (∀ value, threeTables.merged.isExempt "width" value = false) ∧
    threeTables.merged.isExempt "gap" "1rem" = true ∧
    (later.merge later).same later ∧
    (∀ property, ¬(once.contains property ∧ later.contains property)) ∧
    (once.merge later).same (later.merge once) := by
  intro once later other
  obtain ⟨anyBrackets, biased, neutral, swapped⟩ := merge_overrides_from_right threeTables
  have apart : ∀ property, ¬(once.contains property ∧ later.contains property) := by
    intro property
    rw [contains_iff, contains_iff]
    rintro ⟨here, there⟩
    cases List.mem_singleton.mp here
    exact absurd there (by decide)
  exact ⟨rfl, anyBrackets other rfl, biased.size, biased.emptied "width" (by decide),
    biased.isExempt "gap" "1rem", (neutral later).2.2, apart, swapped once later apart⟩

end ElmStyle.ExemptionTable
