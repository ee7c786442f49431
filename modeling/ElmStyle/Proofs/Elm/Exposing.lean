import ElmStyle.Proofs.Elm.Unambiguous
import ElmStyle.Proofs.Text.Cutting
import Mathlib.Data.List.FinRange

/-!
# The exposing list and the definitions

The head of a module and its definitions are made apart from each other: the head sorts the names of
the classes, the definitions keep the order of the classes. Cut at its separators, the exposing list
is the sorted row of the names that the definitions define. Another order of the classes changes the
order of the definitions and nothing else.
-/
namespace ElmStyle

namespace Elm.Code

open Css (ClassEntry)

/-- The name that a definition defines, read from its text: the same name stands before the type and
before the batch, which is closed at the end. -/
def definedName? (type : String) (text : List Char) : Option String := do
  let text ← text.dropPrefix? "\n\n".toList
  let name := text.takeWhile (· != ' ')
  let text ← (text.dropWhile (· != ' ')).dropPrefix? (definitionOpening type name)
  let _ ← text.dropSuffix? "\n    ]\n".toList
  return String.ofList name

theorem definedName_definition (type : String) (t : ExemptionTable) (entry : ClassEntry)
    (named : isValueName entry.name.toList) :
    definedName? type (definition type t entry).toList = some entry.name := by
  have closed : ∀ inside : List Char,
      (inside ++ "\n    ]\n".toList).dropSuffix? "\n    ]\n".toList = some inside := by
    intro inside
    rw [List.dropSuffix?_eq_some_iff]
    exact ⟨_, rfl, by simp⟩
  obtain ⟨nameRead, afterName⟩ := name_ends type entry.name.toList
    ((inState entry.pseudo (styleSeparator.intercalate (Outline.of t entry).styles)).toList ++
      "\n    ]\n".toList) named
  rw [definition_toList]
  simp only [definedName?, bind, dropPrefix_append, Option.bind_some, nameRead, afterName, closed,
    pure, String.ofList_toList]

/-- A sorted row of names is settled by which names there are and how often. -/
theorem exportedNames_eq_of_perm {entries others : List ClassEntry} (same : entries.Perm others) :
    exportedNames entries = exportedNames others :=
  Text.sorted_eq (Text.sorted_pairwise _)
    ((same.map ClassEntry.name).trans (Text.sorted_perm _).symm)

theorem header_eq_of_perm (moduleName : String) {entries others : List ClassEntry}
    (same : entries.Perm others) : header moduleName entries = header moduleName others := by
  rw [header, header, exports, exports, exportedNames_eq_of_perm same]

/-- Names of values lack the line break that starts a separator. -/
theorem splitOn_exports (entries : List ClassEntry) (filled : entries ≠ [])
    (named : ∀ entry ∈ entries, isValueName entry.name.toList) :
    Text.splitOn exportSeparator (exports entries) = exportedNames entries := by
  have members : ∀ name ∈ exportedNames entries, '\n' ∉ name.toList := by
    intro name member broken
    obtain ⟨entry, held, rfl⟩ := List.mem_map.mp (Text.mem_sorted.mp member)
    exact absurd (mem_valueName _ (named entry held) '\n' broken) (by decide)
  have some : exportedNames entries ≠ [] := by
    intro none
    have length := (Text.sorted_perm (entries.map ClassEntry.name)).length_eq
    rw [← exportedNames, none, List.length_map] at length
    exact filled (List.length_eq_zero_iff.mp length.symm)
  exact Text.splitOn_intercalate '\n' "    , ".toList exportSeparator rfl _ some members

/-- The classes in another order. -/
def reordered (entries : List ClassEntry) (order : Equiv.Perm (Fin entries.length)) :
    List ClassEntry :=
  List.ofFn fun place => entries.get (order place)

theorem reordered_perm (entries : List ClassEntry) (order : Equiv.Perm (Fin entries.length)) :
    (reordered entries order).Perm entries := by
  have moved := Equiv.Perm.ofFn_comp_perm order entries.get
  rwa [List.ofFn_get] at moved

/-- The text after the header is the definitions, one after the other. -/
theorem source_toList (spec : ModuleSpec) (entries : List ClassEntry) :
    (spec.source entries).toList = (header spec.moduleName entries).toList ++
      (entries.map (definition spec.styleType spec.exemptions)).flatMap String.toList := by
  rw [ModuleSpec.source, String.toList_append, definitions, String.toList_join]

/-- The names that texts of definitions define, in order. -/
def definedNames (type : String) (texts : List String) : List String :=
  texts.filterMap fun text => definedName? type text.toList

theorem definedNames_definitions (type : String) (t : ExemptionTable) (entries : List ClassEntry)
    (named : ∀ entry ∈ entries, isValueName entry.name.toList) :
    definedNames type (entries.map (definition type t)) = entries.map ClassEntry.name := by
  rw [definedNames, List.filterMap_map, ← List.filterMap_eq_map]
  refine List.filterMap_congr ?_
  intro entry held
  exact definedName_definition type t entry (named entry held)

/-- The exposing list, cut at its separators, is sorted and holds each name as often as the
definitions define it, which follow the order of the classes; where the definitions can be read
back, they are found in the source with these names. In another order of the classes the header is
the same, and the definitions are the same in that order. -/
theorem exposing_matches_definitions (spec : ModuleSpec) (entries : List ClassEntry)
    (filled : entries ≠ []) (named : ∀ entry ∈ entries, isValueName entry.name.toList) :
    let texts := entries.map (definition spec.styleType spec.exemptions)
    let body := texts.flatMap String.toList
    let exposed := Text.splitOn exportSeparator (exports entries)
    ((spec.source entries).toList = (header spec.moduleName entries).toList ++ body ∧
      definedNames spec.styleType texts = entries.map ClassEntry.name ∧
      ((∀ entry ∈ entries, LegibleClass spec.exemptions entry) →
        (readDefinitions spec.styleType body).map (·.map Outline.name) =
          some (definedNames spec.styleType texts))) ∧
    (exposed.Pairwise (· ≤ ·) ∧ exposed.Perm (definedNames spec.styleType texts)) ∧
    ∀ order : Equiv.Perm (Fin entries.length),
      (spec.source (reordered entries order)).toList = (header spec.moduleName entries).toList ++
        (List.ofFn fun place => definition spec.styleType spec.exemptions
          (entries.get (order place))).flatMap String.toList := by
  intro texts body exposed
  have defined : definedNames spec.styleType texts = entries.map ClassEntry.name :=
    definedNames_definitions spec.styleType spec.exemptions entries named
  have cut : exposed = exportedNames entries := splitOn_exports entries filled named
  refine ⟨⟨source_toList spec entries, defined, ?_⟩, ⟨?_, ?_⟩, ?_⟩
  · intro legible
    have read := readDefinitions_definitions spec.styleType spec.exemptions entries legible
    rw [definitions, String.toList_join] at read
    rw [read, defined, Option.map_some, List.map_map]
    rfl
  · rw [cut]
    exact Text.sorted_pairwise _
  · rw [cut, defined]
    exact Text.sorted_perm _
  · intro order
    rw [source_toList, header_eq_of_perm spec.moduleName (reordered_perm entries order), reordered,
      List.map_ofFn]
    rfl

/-- A name twice and not in order, an empty class, and a value that looks like a separator. -/
def repeatedClasses : List ClassEntry := [
  .mk "mt_2" [.mk "margin-top" "2px"] none,
  .mk "a" [] (some "hover"),
  .mk "mt_2" [.mk "--hint" exportSeparator] none]

theorem repeatedClasses_legible : ∀ entry ∈ repeatedClasses, LegibleClass .stock entry := by
  have names : repeatedClasses.all fun entry => isValueName entry.name.toList := by decide
  have pseudos : repeatedClasses.all fun entry =>
      entry.pseudo.all fun p => p.toList.all isKebabChar := by decide
  have properties : repeatedClasses.all fun entry =>
      entry.declarations.all fun d => d.property.toList.all isKebabChar := by decide
  have colourless : repeatedClasses.all fun entry => entry.declarations.all fun d =>
      (Style.of .stock d).arguments.all (·.name ≠ "hex") := by decide +kernel
  simp only [List.all_eq_true] at names pseudos properties colourless
  intro entry held
  refine ⟨names entry held, ?_, fun d declared => ⟨properties entry held d declared, ?_⟩⟩
  · intro p given
    simpa [given] using pseudos entry held
  · intro text member
    exact absurd rfl (of_decide_eq_true (colourless entry held d declared _ member))

theorem exposing_matches_definitions_repeated :
    repeatedClasses ≠ [] ∧ (∀ entry ∈ repeatedClasses, isValueName entry.name.toList) ∧
    (∀ entry ∈ repeatedClasses, LegibleClass .stock entry) ∧
    let texts := repeatedClasses.map (definition "Css.Style" .stock)
    let swapped : Equiv.Perm (Fin repeatedClasses.length) :=
      Equiv.swap ⟨0, by decide⟩ ⟨1, by decide⟩
    definedNames "Css.Style" texts = ["mt_2", "a", "mt_2"] ∧
    (readDefinitions "Css.Style" (texts.flatMap String.toList)).map (·.map Outline.name) =
      some ["mt_2", "a", "mt_2"] ∧
    (Text.splitOn exportSeparator (exports repeatedClasses)).Perm
      (definedNames "Css.Style" texts) ∧
    (ModuleSpec.source ⟨"M", "Css.Style", .stock⟩ (reordered repeatedClasses swapped)).toList =
      (header "M" repeatedClasses).toList ++ (List.ofFn fun place =>
        definition "Css.Style" .stock (repeatedClasses.get (swapped place))).flatMap
          String.toList := by
  have filled : repeatedClasses ≠ [] := by decide
  have named : ∀ entry ∈ repeatedClasses, isValueName entry.name.toList :=
    List.all_eq_true.mp (by decide)
  obtain ⟨⟨-, defined, read⟩, ⟨-, listed⟩, moved⟩ :=
    exposing_matches_definitions ⟨"M", "Css.Style", .stock⟩ repeatedClasses filled named
  have found := read repeatedClasses_legible
  rw [defined] at found
  exact ⟨filled, named, repeatedClasses_legible, defined, found, listed, moved _⟩

end Elm.Code

end ElmStyle
