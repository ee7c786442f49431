import ElmStyle.Proofs.Elm.Sanitizing

/-!
# Names in the two styles

Whatever a class and its affix are called, the definition gets a name of Elm, and the names of a
style are exactly the texts that it leaves as they are. The styles repair a bad first letter at
different moments, before the humps are made or after it, and with different texts. Still the
camel-cased name is the camel case of the snake-cased one, unless there is nothing to name.
-/
namespace ElmStyle.Elm

/-- The names of a style are names of Elm values; in camel case only the last character may be an
underscore. -/
def NameStyle.Admits : NameStyle → List Char → Prop
  | .snake, name => isValueName name
  | .camel, name => isValueName name ∧ '_' ∉ name.dropLast

theorem isValueName_iff (cs : List Char) :
    isValueName cs ↔ cs.head?.any Char.isLower ∧ ∀ c ∈ cs, isNameChar c := by
  constructor
  · intro named
    refine ⟨?_, mem_valueName cs named⟩
    cases cs with
    | nil => cases named
    | cons first rest => exact (Bool.and_eq_true_iff.mp named).1
  · rintro ⟨lower, allowed⟩
    cases cs with
    | nil => cases lower
    | cons first rest =>
      exact Bool.and_eq_true_iff.mpr
        ⟨lower, List.all_eq_true.mpr fun c member => allowed c (by simp [member])⟩

/-- No underscore stands before the end of a text: neither at its start, if that is not its end, nor
before the end of the rest. -/
theorem underscore_last_cons (c : Char) (rest : List Char) :
    '_' ∉ (c :: rest).dropLast ↔ rest = [] ∨ c ≠ '_' ∧ '_' ∉ rest.dropLast := by
  cases rest with
  | nil => simp
  | cons next later => simp [ne_comm]

/-- The first letter of a hump is a character of names, and neither an underscore nor small. -/
theorem hump_char (c : Char) (allowed : isNameChar c) (other : c ≠ '_') :
    isNameChar c.toUpper ∧ c.toUpper ≠ '_' ∧ c.toUpper.isLower = false ∧
      (c.isLower = false → c.toUpper = c) :=
  Text.forall_char_below 128
    (fun c => isNameChar c → c ≠ '_' → isNameChar c.toUpper ∧ c.toUpper ≠ '_' ∧
      c.toUpper.isLower = false ∧ (c.isLower = false → c.toUpper = c))
    (by decide) c (isNameChar_ascii c allowed) allowed other

section Humps

variable (pending : Bool)

theorem humps_underscore (rest : List Char) : humps pending ('_' :: rest) = humps true rest := by
  rw [humps, if_pos rfl]

theorem humps_other (c : Char) (rest : List Char) (other : c ≠ '_') :
    humps pending (c :: rest) = (if pending then c.toUpper else c) :: humps false rest := by
  rw [humps, if_neg other]

/-- Humps are made of characters of names, and no underscore is left but at the end. -/
theorem humps_chars (cs : List Char) (allowed : ∀ c ∈ cs, isNameChar c) :
    (∀ x ∈ humps pending cs, isNameChar x) ∧ '_' ∉ (humps pending cs).dropLast := by
  -- What is pending decides only whether the next character is raised, so it may be anything.
  induction cs generalizing pending with
  | nil =>
    have underscore : isNameChar '_' := by decide
    cases pending <;> simp [humps, underscore]
  | cons c rest ih =>
    have later := fun pending => ih pending fun x member => allowed x (by simp [member])
    by_cases underscore : c = '_'
    · rw [underscore, humps_underscore]
      exact later true
    · have here := allowed c (by simp)
      obtain ⟨capital, other, -⟩ := hump_char c here underscore
      have first : isNameChar (if pending then c.toUpper else c) ∧
          (if pending then c.toUpper else c) ≠ '_' := by
        cases pending
        · exact ⟨here, underscore⟩
        · exact ⟨capital, other⟩
      rw [humps_other pending c rest underscore, List.forall_mem_cons, underscore_last_cons]
      exact ⟨⟨first.1, (later false).1⟩, .inr ⟨first.2, (later false).2⟩⟩

end Humps

/-- A text without underscores before its end is left as it is. -/
theorem humps_eq_self (cs : List Char) (last : '_' ∉ cs.dropLast) : humps false cs = cs := by
  induction cs with
  | nil => rfl
  | cons c rest ih =>
    rcases (underscore_last_cons c rest).mp last with rfl | ⟨other, later⟩
    · by_cases underscore : c = '_'
      · rw [underscore]
        rfl
      · rw [humps_other false c [] underscore]
        rfl
    · rw [humps_other false c rest other, ih later]
      rfl

theorem humps_true_start (cs : List Char) (allowed : ∀ c ∈ cs, isNameChar c) :
    (humps true cs).head?.any Char.isLower = false := by
  induction cs with
  | nil => rfl
  | cons c rest ih =>
    by_cases underscore : c = '_'
    · rw [underscore, humps_underscore]
      exact ih fun x member => allowed x (by simp [member])
    · rw [humps_other true c rest underscore]
      exact (hump_char c (allowed c (by simp)) underscore).2.2.1

/-- Underscores in front change nothing in a text that starts with no small letter. -/
theorem humps_true_eq (cs : List Char) (allowed : ∀ c ∈ cs, isNameChar c) (filled : cs ≠ [])
    (start : cs.head?.any Char.isLower = false) : humps true cs = humps false cs := by
  obtain ⟨c, rest, rfl⟩ := List.exists_cons_of_ne_nil filled
  by_cases underscore : c = '_'
  · rw [underscore, humps_underscore, humps_underscore]
  · rw [humps_other true c rest underscore, humps_other false c rest underscore]
    have same : c.toUpper = c := (hump_char c (allowed c (by simp)) underscore).2.2.2 start
    simp [same]

theorem withLead_valueName (lead : String) (cs : List Char) (named : isValueName lead.toList)
    (allowed : ∀ c ∈ cs, isNameChar c) : isValueName (withLead lead cs) := by
  obtain ⟨lower, letters⟩ := (isValueName_iff lead.toList).mp named
  unfold withLead
  split
  next start => exact (isValueName_iff cs).mpr ⟨start, allowed⟩
  next =>
    rw [isValueName_iff]
    constructor
    · cases front : lead.toList with
      | nil => rw [front] at lower; cases lower
      | cons first rest => rwa [front] at lower
    · intro c member
      rcases List.mem_append.mp member with inLead | inText
      · exact letters c inLead
      · exact allowed c inText

theorem withLead_eq_self (lead : String) (cs : List Char) (named : isValueName cs) :
    withLead lead cs = cs :=
  if_pos ((isValueName_iff cs).mp named).1

theorem withLead_camel (cs : List Char) (start : cs.head?.any Char.isLower = false) :
    withLead "c" cs = 'c' :: cs := by
  rw [withLead, start]
  rfl

/-- Making the humps of a text with a lead in front comes to the same as making its humps first. -/
theorem camel_withLead (cs : List Char) (allowed : ∀ c ∈ cs, isNameChar c) (filled : cs ≠ []) :
    withLead "c" (humps false (withLead "c_" cs)) = withLead "c" (humps false cs) := by
  cases start : cs.head?.any Char.isLower with
  | true =>
    have kept : withLead "c_" cs = cs := if_pos start
    rw [kept]
  | false =>
    -- The underscore of the lead asks for a hump, but the text starts with no letter to raise.
    have led : withLead "c_" cs = 'c' :: '_' :: cs := by
      rw [withLead, start]
      rfl
    have joined : humps false ('c' :: '_' :: cs) = 'c' :: humps true cs := by
      rw [humps_other false 'c' _ (by decide), humps_underscore]
      rfl
    rw [led, joined, ← humps_true_eq cs allowed filled start,
      withLead_camel _ (humps_true_start cs allowed)]
    rfl

theorem toList_snake (className affix : String) :
    (definitionName className affix .snake).toList =
      withLead "c_" (sanitize (affix.toList ++ spellNegative className.toList)) := by
  simp only [definitionName, String.toList_ofList]

theorem toList_camel (className affix : String) :
    (definitionName className affix .camel).toList =
      withLead "c" (humps false (sanitize (affix.toList ++ spellNegative className.toList))) := by
  simp only [definitionName, String.toList_ofList]

theorem spellNegative_eq_self (name : List Char) (named : isValueName name) :
    spellNegative name = name := by
  unfold spellNegative
  split
  next rest =>
    have lower : Char.isLower '-' := ((isValueName_iff _).mp named).1
    exact absurd lower (by decide)
  next => rfl

theorem spellNegative_eq_nil (cs : List Char) : spellNegative cs = [] ↔ cs = [] := by
  unfold spellNegative
  split <;> simp

/-- A name of Elm is its own plain text. -/
theorem sanitize_valueName (name : String) (named : isValueName name.toList) :
    sanitize ("".toList ++ spellNegative name.toList) = name.toList := by
  rw [spellNegative_eq_self _ named]
  exact sanitize_eq_self _ (mem_valueName _ named)

theorem definitionName_admitted (className affix : String) (style : NameStyle) :
    style.Admits (definitionName className affix style).toList := by
  have allowed := sanitize_chars (affix.toList ++ spellNegative className.toList)
  cases style with
  | snake =>
    rw [toList_snake]
    exact withLead_valueName "c_" _ (by decide) allowed
  | camel =>
    obtain ⟨letters, last⟩ := humps_chars false _ allowed
    rw [toList_camel]
    refine ⟨withLead_valueName "c" _ (by decide) letters, ?_⟩
    cases start : (humps false _).head?.any Char.isLower with
    | true => rwa [withLead, if_pos start]
    | false =>
      rw [withLead_camel _ start, underscore_last_cons]
      exact .inr ⟨by decide, last⟩

theorem definitionName_of_admitted (name : String) (style : NameStyle)
    (admitted : style.Admits name.toList) : definitionName name "" style = name := by
  apply String.toList_injective
  cases style with
  | snake => rw [toList_snake, sanitize_valueName name admitted, withLead_eq_self "c_" _ admitted]
  | camel =>
    obtain ⟨named, last⟩ := admitted
    rw [toList_camel, sanitize_valueName name named, humps_eq_self _ last,
      withLead_eq_self "c" _ named]

/-- Every name is one that its style admits and leaves as it is, and every text that a style admits
is such a name. -/
theorem definitionName_normalises (className affix : String) (style : NameStyle) :
    style.Admits (definitionName className affix style).toList ∧
    definitionName (definitionName className affix style) "" style =
      definitionName className affix style ∧
    ∀ name : String, definitionName name "" style = name ↔ style.Admits name.toList := by
  have admitted := definitionName_admitted className affix style
  refine ⟨admitted, definitionName_of_admitted _ style admitted, fun name => ⟨?_, ?_⟩⟩
  · intro kept
    rw [← kept]
    exact definitionName_admitted name "" style
  · exact definitionName_of_admitted name style

/-- The camel-cased name is the camel case of the snake-cased one. Only without any text to name do
the two leads show. -/
theorem camel_of_snake (className affix : String) :
    definitionName className affix .camel =
        definitionName (definitionName className affix .snake) "" .camel ↔
      ¬(className = "" ∧ affix = "") := by
  constructor
  · rintro same ⟨rfl, rfl⟩
    exact absurd same (by decide)
  · intro given
    have named : isValueName (definitionName className affix .snake).toList :=
      definitionName_admitted className affix .snake
    have filled : sanitize (affix.toList ++ spellNegative className.toList) ≠ [] := by
      rw [Ne, sanitize_eq_nil, List.append_eq_nil_iff, spellNegative_eq_nil,
        String.toList_eq_nil_iff, String.toList_eq_nil_iff]
      exact fun empty => given empty.symm
    apply String.toList_injective
    rw [toList_camel, toList_camel _ "", sanitize_valueName _ named, toList_snake,
      camel_withLead _ (sanitize_chars _) filled]

example : definitionName "" "" .camel = "c" ∧
    definitionName (definitionName "" "" .snake) "" .camel = "c_" := by decide

end ElmStyle.Elm
