import ElmStyle.Elm.Name
import ElmStyle.Proofs.Elm.Characters

/-!
# Plain text of names

A class name and the affix in front of it are rewritten by one replacement after another. Taken
together the replacements are one substitution, character by character: none of them meets what an
earlier one has put in, and none reaches over the place where affix and class name meet. So an affix
matters for a name only through its own plain text.
-/
namespace ElmStyle.Elm

/-- What stands for a character in a name. -/
def nameText (c : Char) : List Char :=
  if c = ':' then "__".toList
  else if c = '/' then "_over_".toList
  else if c = '.' then "_dot_".toList
  else if c = '%' then "pct".toList
  else if isNameChar c then [c]
  else ['_']

/-- The text with every character in the form that a name can hold. -/
def plainText (s : String) : String := String.ofList (s.toList.flatMap nameText)

theorem nameText_spelled : ∀ spelling ∈ spellings, nameText spelling.1 = spelling.2.toList := by
  decide

theorem nameText_other (c : Char) (other : ∀ spelling ∈ spellings, spelling.1 ≠ c) :
    nameText c = [if isNameChar c then c else '_'] := by
  have apart : c ≠ ':' ∧ c ≠ '/' ∧ c ≠ '.' ∧ c ≠ '%' := by
    simpa [spellings, ne_comm] using other
  by_cases allowed : isNameChar c <;> simp [nameText, apart, allowed]

/-- A character has a spelling, or one character stands for it. -/
theorem nameText_cases (c : Char) :
    (∃ spelling ∈ spellings, spelling.1 = c ∧ nameText c = spelling.2.toList) ∨
      (∀ spelling ∈ spellings, spelling.1 ≠ c) ∧
        nameText c = [if isNameChar c then c else '_'] := by
  by_cases spelled : ∃ spelling ∈ spellings, spelling.1 = c
  · obtain ⟨spelling, member, rfl⟩ := spelled
    exact .inl ⟨spelling, member, rfl, nameText_spelled spelling member⟩
  · have other : ∀ spelling ∈ spellings, spelling.1 ≠ c := fun spelling member same =>
      spelled ⟨spelling, member, same⟩
    exact .inr ⟨other, nameText_other c other⟩

theorem nameText_chars (c x : Char) (member : x ∈ nameText c) : isNameChar x := by
  rcases nameText_cases c with ⟨spelling, listed, -, text⟩ | ⟨-, text⟩
  · have letters : ∀ spelling ∈ spellings, spelling.2.toList.all isNameChar := by decide
    rw [text] at member
    exact List.all_eq_true.mp (letters spelling listed) x member
  · rw [text, List.mem_singleton] at member
    rw [member]
    split
    next allowed => exact allowed
    next => decide

theorem nameText_filled (c : Char) : nameText c ≠ [] := by
  rcases nameText_cases c with ⟨spelling, listed, -, text⟩ | ⟨-, text⟩
  · have filled : ∀ spelling ∈ spellings, spelling.2.toList ≠ [] := by decide
    rw [text]
    exact filled spelling listed
  · simp [text]

theorem nameText_of_isNameChar (c : Char) (allowed : isNameChar c) : nameText c = [c] := by
  have unspelled : ∀ spelling ∈ spellings, isNameChar spelling.1 = false := by decide
  have other : ∀ spelling ∈ spellings, spelling.1 ≠ c := by
    rintro spelling member rfl
    rw [unspelled spelling member] at allowed
    cases allowed
  rw [nameText_other c other, if_pos allowed]

theorem foldl_spell_append (table : List (Char × String)) (front back : List Char) :
    table.foldl spell (front ++ back) = table.foldl spell front ++ table.foldl spell back := by
  induction table generalizing front back with
  | nil => rfl
  | cons spelling table ih =>
    have parts : spell (front ++ back) spelling = spell front spelling ++ spell back spelling :=
      List.flatMap_append
    rw [List.foldl_cons, List.foldl_cons, List.foldl_cons, parts, ih]

theorem foldl_spell_absent (table : List (Char × String)) (c : Char)
    (absent : ∀ spelling ∈ table, spelling.1 ≠ c) : table.foldl spell [c] = [c] := by
  induction table with
  | nil => rfl
  | cons spelling table ih =>
    have kept : spell [c] spelling = [c] := by
      rw [spell, List.flatMap_singleton, if_neg (absent spelling (by simp)).symm]
    rw [List.foldl_cons, kept, ih fun other member => absent other (by simp [member])]

/-- Replacing does not look beyond one character, so a text is rewritten part by part. -/
theorem sanitize_append (front back : List Char) :
    sanitize (front ++ back) = sanitize front ++ sanitize back := by
  rw [sanitize, foldl_spell_append, List.map_append]
  rfl

theorem sanitize_singleton (c : Char) : sanitize [c] = nameText c := by
  rcases nameText_cases c with ⟨spelling, member, rfl, text⟩ | ⟨other, text⟩
  · -- No later replacement touches the spelling, since it holds characters of names only.
    have unchanged : ∀ spelling ∈ spellings, sanitize [spelling.1] = spelling.2.toList := by decide
    rw [text, unchanged spelling member]
  · rw [text, sanitize, foldl_spell_absent spellings c other, List.map_singleton]

theorem sanitize_eq_flatMap (cs : List Char) : sanitize cs = cs.flatMap nameText := by
  induction cs with
  | nil => rfl
  | cons c rest ih =>
    rw [← List.singleton_append, sanitize_append, sanitize_singleton, ih, List.singleton_append,
      List.flatMap_cons]

theorem sanitize_chars (cs : List Char) : ∀ x ∈ sanitize cs, isNameChar x := by
  intro x member
  rw [sanitize_eq_flatMap] at member
  obtain ⟨c, -, inside⟩ := List.mem_flatMap.mp member
  exact nameText_chars c x inside

theorem sanitize_eq_self (cs : List Char) (allowed : ∀ c ∈ cs, isNameChar c) :
    sanitize cs = cs := by
  have each : ∀ c ∈ cs, nameText c = [c] := fun c member =>
    nameText_of_isNameChar c (allowed c member)
  rw [sanitize_eq_flatMap, List.flatMap_congr each, List.flatMap_singleton']

theorem sanitize_eq_nil (cs : List Char) : sanitize cs = [] ↔ cs = [] := by
  rw [sanitize_eq_flatMap, List.flatMap_eq_nil_iff]
  constructor
  · intro empty
    cases cs with
    | nil => rfl
    | cons c rest => exact absurd (empty c (by simp)) (nameText_filled c)
  · rintro rfl
    simp

theorem toList_plainText (s : String) : (plainText s).toList = sanitize s.toList := by
  rw [plainText, String.toList_ofList, sanitize_eq_flatMap]

/-- Affixes that are rewritten to the same text give the same names. -/
theorem definitionName_affix (className one two : String) (style : NameStyle)
    (same : sanitize one.toList = sanitize two.toList) :
    definitionName className one style = definitionName className two style := by
  simp only [definitionName, sanitize_append, same]

/-- The replacements, one after another, are one substitution, and an affix enters a name as what
the substitution makes of it. -/
theorem affix_enters_as_plainText :
    (∀ cs : List Char, sanitize cs = cs.flatMap nameText) ∧
    ∀ (className : String) (style : NameStyle),
      (∀ one two : String, plainText one = plainText two →
        definitionName className one style = definitionName className two style) ∧
      ∀ affix : String,
        definitionName className affix style =
          definitionName className (plainText affix) style := by
  refine ⟨sanitize_eq_flatMap, fun className style => ⟨?_, ?_⟩⟩
  · intro one two same
    apply definitionName_affix
    rw [← toList_plainText, ← toList_plainText, same]
  · intro affix
    apply definitionName_affix
    rw [toList_plainText, sanitize_eq_self _ (sanitize_chars _)]

/-- An affix whose spelling is already written out is the same affix. -/
theorem affix_enters_as_plainText_spelled :
    plainText "1/2.5%:" = plainText "1_over_2_dot_5pct--" ∧
    definitionName "-mt-4" "1/2.5%:" .camel =
      definitionName "-mt-4" "1_over_2_dot_5pct--" .camel := by
  have same : plainText "1/2.5%:" = plainText "1_over_2_dot_5pct--" := by decide
  exact ⟨same, (affix_enters_as_plainText.2 "-mt-4" .camel).1 _ _ same⟩

end ElmStyle.Elm
