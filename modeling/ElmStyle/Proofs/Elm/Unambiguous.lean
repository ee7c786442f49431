import ElmStyle.Elm.Module
import ElmStyle.Proofs.Elm.Literal

/-!
# Definitions can be read back

A reader of the definitions of a module, which knows their layout and string literals and nothing
else. On the definitions of any classes it gives the name, the state and the styles of each class in
order, although a value may hold text that looks like a definition. Hence two rows of classes with
the same definitions agree in all of these.
-/
namespace ElmStyle.Elm.Code

open Css (ClassEntry)

/-- What a definition says about a class. -/
structure Outline where
  name : String
  state : Option String
  styles : List String
  deriving DecidableEq, Repr

def Outline.of (t : ExemptionTable) (entry : ClassEntry) : Outline where
  name := entry.name
  state := entry.state?.map identifier
  styles := (Elm.styles t entry).map Style.expression

/-- The styles at the start of a text, and the text after them. -/
def readStyles (text : List Char) : List String × List Char :=
  let (style, rest) := splitAtStop .code text
  if style = [] then ([], text)
  else match rest.dropPrefix? styleSeparator.toList with
    | none => ([String.ofList style], rest)
    | some later =>
      if later.length < text.length then
        (String.ofList style :: (readStyles later).1, (readStyles later).2)
      else ([String.ofList style], rest)
termination_by text.length

/-- What follows the function of a state up to the first style in it. -/
def stateOpening : String := "[\n        "

/-- The function of the state that the styles are in, and the text from the styles on. -/
def readState (text : List Char) : Option String × List Char :=
  let (front, rest) := splitAtStop .code text
  match rest.dropPrefix? stateOpening.toList with
  | some styles => (some (String.ofList (front.drop (cssModule.length + 1)).dropLast), styles)
  | none => (none, text)

/-- What stands between the name of a definition and its styles. -/
def definitionOpening (type : String) (name : List Char) : List Char :=
  (" : " ++ type ++ "\n").toList ++ name ++ (" =\n    " ++ cssModule ++ ".batch [\n      ").toList

/-- What stands after the styles of a definition. -/
def definitionClosing (state : Option String) : String :=
  if state.isSome then "\n      ]\n    ]\n" else "\n    ]\n"

/-- The definition at the start of a text, and the text after it. -/
def readDefinition (type : String) (text : List Char) : Option (Outline × List Char) := do
  let text ← text.dropPrefix? "\n\n".toList
  let name := text.takeWhile (· != ' ')
  let text ← (text.dropWhile (· != ' ')).dropPrefix? (definitionOpening type name)
  let (state, text) := readState text
  let (styles, text) := readStyles text
  let text ← text.dropPrefix? (definitionClosing state).toList
  return (⟨String.ofList name, state, styles⟩, text)

/-- All definitions of a text. -/
def readDefinitions (type : String) (text : List Char) : Option (List Outline) :=
  if text = [] then some []
  else match readDefinition type text with
    | none => none
    | some (outline, rest) =>
      if rest.length < text.length then (readDefinitions type rest).map (outline :: ·) else none
termination_by text.length

theorem dropPrefix_append (start rest : List Char) :
    (start ++ rest).dropPrefix? start = some rest :=
  List.dropPrefix?_append_of_beq rest (by simp)

theorem dropPrefix_cons_ne (first head : Char) (start text : List Char) (differ : first ≠ head) :
    (first :: text).dropPrefix? (head :: start) = none := by
  simp [List.dropPrefix?, differ]

/-- Closed styles are read back from whatever follows them, up to the line break after the last. -/
theorem readStyles_append (codes : List String) (rest : List Char)
    (closed : ∀ code ∈ codes, Closed code.toList) (filled : ∀ code ∈ codes, code.toList ≠ []) :
    readStyles ((styleSeparator.intercalate codes).toList ++ '\n' :: rest) =
      (codes, '\n' :: rest) := by
  induction codes with
  | nil =>
    have stopped : splitAtStop .code ('\n' :: rest) = ([], '\n' :: rest) :=
      splitAtStop_append .code [] ('\n' :: rest) rfl rfl
    rw [readStyles]
    simp [stopped]
  | cons code later ih =>
    have first := closed code (by simp)
    have nonempty := filled code (by simp)
    cases later with
    | nil =>
      have stopped := splitAtStop_append .code code.toList ('\n' :: rest) rfl first
      have last : ('\n' :: rest).dropPrefix? styleSeparator.toList = none :=
        dropPrefix_cons_ne _ _ _ _ (by decide)
      rw [readStyles]
      simp [stopped, nonempty, last]
    | cons next others =>
      have ih := ih (fun c member => closed c (by simp [member]))
        (fun c member => filled c (by simp [member]))
      rw [String.intercalate_cons_cons, String.toList_append, String.toList_append,
        List.append_assoc, List.append_assoc]
      generalize (styleSeparator.intercalate (next :: others)).toList ++ '\n' :: rest = later
        at ih ⊢
      have stopped :=
        splitAtStop_append .code code.toList (styleSeparator.toList ++ later) rfl first
      have shorter : later.length <
          (code.toList ++ (styleSeparator.toList ++ later)).length := by
        simp [styleSeparator]
        omega
      rw [readStyles]
      simp only [stopped, if_neg nonempty, dropPrefix_append, if_pos shorter, ih,
        String.ofList_toList]

/-- Styles that are in no state do not look like a state, since no style holds a bracket outside
its literals. -/
theorem readState_styles (codes : List String) (rest : List Char)
    (closed : ∀ code ∈ codes, Closed code.toList) :
    readState ((styleSeparator.intercalate codes).toList ++ '\n' :: rest) =
      (none, (styleSeparator.intercalate codes).toList ++ '\n' :: rest) := by
  have refused : ∀ front tail : List Char, Closed front → (tail.head?.any fun c => c != '[') →
      tail.head?.any isStop → readState (front ++ tail) = (none, front ++ tail) := by
    intro front tail first other stops
    have stopped := splitAtStop_append .code front tail stops first
    cases tail with
    | nil => simp at stops
    | cons c later =>
      have differ : c ≠ '[' := by simpa using other
      have unopened : (c :: later).dropPrefix? stateOpening.toList = none :=
        dropPrefix_cons_ne _ _ _ _ differ
      simp only [readState, stopped, unopened]
  cases codes with
  | nil => exact refused [] ('\n' :: rest) rfl rfl rfl
  | cons code later =>
    have first := closed code (by simp)
    cases later with
    | nil => exact refused code.toList ('\n' :: rest) first rfl rfl
    | cons next others =>
      rw [String.intercalate_cons_cons, String.toList_append, String.toList_append,
        List.append_assoc, List.append_assoc]
      exact refused code.toList _ first rfl rfl

theorem readState_state (name : String) (styles : List Char)
    (plain : ∀ c ∈ name.toList, isPlain c) :
    readState ((cssModule ++ "." ++ name ++ " ").toList ++ (stateOpening.toList ++ styles)) =
      (some name, styles) := by
  have front : Closed (cssModule ++ "." ++ name ++ " ").toList := by
    simp only [String.toList_append]
    have start : Closed (cssModule.toList ++ ".".toList) := closed_text "Css." (by decide)
    exact (start.append (closed_of_plain _ plain)).append (closed_text " " (by decide))
  have stopped := splitAtStop_append .code (cssModule ++ "." ++ name ++ " ").toList
    (stateOpening.toList ++ styles) rfl front
  have cut : ((cssModule ++ "." ++ name ++ " ").toList.drop (cssModule.length + 1)).dropLast =
      name.toList := by
    have four : cssModule.length + 1 = 4 := by decide
    rw [four]
    simp [cssModule]
  simp only [readState, stopped, dropPrefix_append, cut, String.ofList_toList]

/-- A class whose definition can be read back. Its pseudo-selector may be absent or empty. -/
structure LegibleClass (t : ExemptionTable) (entry : ClassEntry) : Prop where
  name : isValueName entry.name.toList
  pseudo : ∀ p, entry.pseudo = some p → ∀ c ∈ p.toList, isKebabChar c
  declarations : ∀ d ∈ entry.declarations, Legible t d

/-- The layout of a definition, with the styles that are already joined. -/
theorem definition_toList (type : String) (t : ExemptionTable) (entry : ClassEntry) :
    (definition type t entry).toList =
      "\n\n".toList ++ (entry.name.toList ++ (definitionOpening type entry.name.toList ++
        ((inState entry.pseudo (styleSeparator.intercalate (Outline.of t entry).styles)).toList ++
          "\n    ]\n".toList))) := by
  delta definition
  simp [definitionOpening, Outline.of, cssModule]

theorem styles_closed (t : ExemptionTable) (entry : ClassEntry) (legible : LegibleClass t entry) :
    ∀ code ∈ (Outline.of t entry).styles, Closed code.toList ∧ code.toList ≠ [] := by
  intro code member
  simp only [Outline.of, Elm.styles, List.map_map, List.mem_map, Function.comp_apply] at member
  obtain ⟨d, held, rfl⟩ := member
  exact ⟨style_closed t d (legible.declarations d held), style_filled _⟩

/-- The contents of a batch give the state and the styles, both outside and inside a state. -/
theorem read_batch (t : ExemptionTable) (entry : ClassEntry) (legible : LegibleClass t entry)
    (rest : List Char) :
    ∃ text, readState ((inState entry.pseudo
          (styleSeparator.intercalate (Outline.of t entry).styles)).toList ++
            ("\n    ]\n".toList ++ rest)) = ((Outline.of t entry).state, text) ∧
      readStyles text = ((Outline.of t entry).styles,
        (definitionClosing (Outline.of t entry).state).toList ++ rest) := by
  have closed := fun code member => (styles_closed t entry legible code member).1
  have filled := fun code member => (styles_closed t entry legible code member).2
  cases state : entry.state? with
  | none =>
    have outside : (Outline.of t entry).state = none := by simp [Outline.of, state]
    have plain : entry.pseudo.filter (· != "") = none := state
    simp only [inState, plain, outside]
    exact ⟨_, readState_styles _ ("    ]\n".toList ++ rest) closed,
      readStyles_append _ ("    ]\n".toList ++ rest) closed filled⟩
  | some p =>
    have inside : (Outline.of t entry).state = some (identifier p) := by simp [Outline.of, state]
    have given : entry.pseudo.filter (· != "") = some p := state
    have name : ∀ c ∈ (identifier p).toList, isPlain c := by
      intro c member
      have kebab := legible.pseudo p (Option.filter_eq_some_iff.mp given).1
      exact isPlain_of_isCamelChar c (identifier_camel p kebab c member)
    refine ⟨(styleSeparator.intercalate (Outline.of t entry).styles).toList ++
      ("\n      ]\n    ]\n".toList ++ rest), ?_, ?_⟩
    · rw [inside, ← readState_state (identifier p) _ name]
      simp [inState, given, stateOpening]
    · have shut : definitionClosing (some (identifier p)) = "\n      ]\n    ]\n" := by
        simp [definitionClosing]
      rw [inside, shut]
      exact readStyles_append _ ("      ]\n    ]\n".toList ++ rest) closed filled

/-- A name ends where the first blank is. -/
theorem name_ends (type : String) (name rest : List Char) (named : isValueName name) :
    (name ++ (definitionOpening type name ++ rest)).takeWhile (· != ' ') = name ∧
      (name ++ (definitionOpening type name ++ rest)).dropWhile (· != ' ') =
        definitionOpening type name ++ rest := by
  have solid : ' ' ∉ name := by
    intro member
    exact absurd (mem_valueName name named ' ' member) (by decide)
  obtain ⟨tail, opens⟩ : ∃ tail, definitionOpening type name ++ rest = ' ' :: tail := by
    simp [definitionOpening]
  rw [opens]
  exact Text.upTo_mark ' ' name tail solid

theorem readDefinition_definition (type : String) (t : ExemptionTable) (entry : ClassEntry)
    (legible : LegibleClass t entry) (rest : List Char) :
    readDefinition type ((definition type t entry).toList ++ rest) =
      some (Outline.of t entry, rest) := by
  obtain ⟨text, stateRead, stylesRead⟩ := read_batch t entry legible rest
  obtain ⟨nameRead, afterName⟩ := name_ends type entry.name.toList
    ((inState entry.pseudo (styleSeparator.intercalate (Outline.of t entry).styles)).toList ++
      ("\n    ]\n".toList ++ rest)) legible.name
  rw [definition_toList]
  simp only [List.append_assoc] at *
  simp only [readDefinition, bind, dropPrefix_append, Option.bind_some, nameRead, afterName,
    stateRead, stylesRead, pure]
  simp [Outline.of]

theorem definition_filled (type : String) (t : ExemptionTable) (entry : ClassEntry) :
    0 < (definition type t entry).toList.length := by
  rw [definition_toList]
  simp

/-- Reading inverts writing, class by class and to the end of the text. -/
theorem readDefinitions_definitions (type : String) (t : ExemptionTable)
    (entries : List ClassEntry) (legible : ∀ entry ∈ entries, LegibleClass t entry) :
    readDefinitions type (definitions type t entries).toList =
      some (entries.map (Outline.of t)) := by
  induction entries with
  | nil =>
    rw [readDefinitions]
    simp [definitions]
  | cons entry later ih =>
    have first := readDefinition_definition type t entry (legible entry (by simp))
      (definitions type t later).toList
    have text : (definitions type t (entry :: later)).toList =
        (definition type t entry).toList ++ (definitions type t later).toList := by
      simp [definitions]
    have size := definition_filled type t entry
    have filled : (definition type t entry).toList ++ (definitions type t later).toList ≠ [] := by
      intro empty
      simp [(List.append_eq_nil_iff.mp empty).1] at size
    have shorter : (definitions type t later).toList.length <
        ((definition type t entry).toList ++ (definitions type t later).toList).length := by
      rw [List.length_append]
      omega
    rw [text, readDefinitions, if_neg filled]
    simp only [first, if_pos shorter, ih (fun e member => legible e (by simp [member])),
      Option.map_some, List.map_cons]

/-- Two rows of classes with the same definitions have, place by place, the same names, the same
states and the same styles in the same order. The exemptions may differ, and values may hold any
text at all. -/
theorem definitions_unambiguous (type : String) (t₁ t₂ : ExemptionTable)
    (entries₁ entries₂ : List ClassEntry)
    (legible₁ : ∀ entry ∈ entries₁, LegibleClass t₁ entry)
    (legible₂ : ∀ entry ∈ entries₂, LegibleClass t₂ entry)
    (same : definitions type t₁ entries₁ = definitions type t₂ entries₂) :
    List.Forall₂ (fun a b => a.name = b.name ∧
      a.state?.map identifier = b.state?.map identifier ∧
      (Elm.styles t₁ a).map Style.expression = (Elm.styles t₂ b).map Style.expression)
      entries₁ entries₂ := by
  have read₁ := readDefinitions_definitions type t₁ entries₁ legible₁
  have read₂ := readDefinitions_definitions type t₂ entries₂ legible₂
  rw [same, read₂, Option.some.injEq] at read₁
  have outlines :
      List.Forall₂ Eq (entries₁.map (Outline.of t₁)) (entries₂.map (Outline.of t₂)) := by
    rw [List.forall₂_eq_eq_eq]
    exact read₁.symm
  rw [List.forall₂_map_left_iff, List.forall₂_map_right_iff] at outlines
  refine outlines.imp ?_
  intro a b equal
  simpa [Outline.of] using equal

/-- A value that forges the end of its own definition and the start of another one. -/
def forgedValue : String := "\"\n    ]\n\n\nm_1 : Css.Style\nm_1 =\n    Css.batch [\n      "

def forgingClass (margin : String) (pseudo : Option String) : ClassEntry where
  name := "m_0"
  declarations := [.mk "margin" margin, .mk "color" "#fff", .mk "--note" forgedValue]
  pseudo := pseudo

theorem forgingClass_legible (t : ExemptionTable) (margin : String) (pseudo : Option String)
    (known : pseudo = none ∨ pseudo = some "" ∨ pseudo = some "focus-within")
    (colours : ∀ d ∈ (forgingClass margin pseudo).declarations,
      ∀ a ∈ (Style.of t d).arguments, a = .hex "#fff" ∨ a.name ≠ "hex") :
    LegibleClass t (forgingClass margin pseudo) := by
  have properties : ∀ name ∈ ["margin", "color", "--note"], name.toList.all isKebabChar := by
    decide
  refine ⟨(by decide : isValueName "m_0".toList), ?_, ?_⟩
  · intro p given
    rcases known with rfl | rfl | rfl
    · cases given
    · cases given
      exact List.all_eq_true.mp (by decide)
    · cases given
      exact List.all_eq_true.mp (by decide)
  · intro d held
    refine ⟨?_, ?_⟩
    · simp only [forgingClass, List.mem_cons, List.not_mem_nil, or_false] at held
      rcases held with rfl | rfl | rfl <;> exact List.all_eq_true.mp (properties _ (by simp))
    · intro text member
      rcases colours d held _ member with white | other
      · cases white
        constructor <;> decide
      · exact absurd rfl other

/-- Blanks in a value and an empty pseudo-selector leave no trace in the definitions, and the forged
definition is read as part of its value. -/
theorem definitions_unambiguous_forging :
    definitions "Css.Style" .stock [forgingClass "0  auto" (some "focus-within"),
        forgingClass "0" none] =
      definitions "Css.Style" .empty [forgingClass "0 auto" (some "focus-within"),
        forgingClass "0" (some "")] ∧
    List.Forall₂ (fun a b => a.name = b.name ∧
      a.state?.map identifier = b.state?.map identifier ∧
      (Elm.styles .stock a).map Style.expression = (Elm.styles .empty b).map Style.expression)
      [forgingClass "0  auto" (some "focus-within"), forgingClass "0" none]
      [forgingClass "0 auto" (some "focus-within"), forgingClass "0" (some "")] := by
  have same : definitions "Css.Style" .stock [forgingClass "0  auto" (some "focus-within"),
        forgingClass "0" none] =
      definitions "Css.Style" .empty [forgingClass "0 auto" (some "focus-within"),
        forgingClass "0" (some "")] := by decide +kernel
  refine ⟨same, definitions_unambiguous "Css.Style" .stock .empty _ _ ?_ ?_ same⟩
  · intro entry held
    simp only [List.mem_cons, List.not_mem_nil, or_false] at held
    rcases held with rfl | rfl
    · exact forgingClass_legible _ _ _ (by simp) (by decide +kernel)
    · exact forgingClass_legible _ _ _ (by simp) (by decide +kernel)
  · intro entry held
    simp only [List.mem_cons, List.not_mem_nil, or_false] at held
    rcases held with rfl | rfl
    · exact forgingClass_legible _ _ _ (by simp) (by decide +kernel)
    · exact forgingClass_legible _ _ _ (by simp) (by decide +kernel)

end ElmStyle.Elm.Code
