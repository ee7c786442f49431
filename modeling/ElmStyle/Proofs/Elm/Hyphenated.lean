import ElmStyle.Proofs.Elm.Characters

/-!
# Hyphenated names

The names of CSS are words joined by hyphens. In camel case every word but the first shows by its
capital where it starts, so the hyphens can be put back and different names stay different. Only
`nowrap` gets a capital that stands for no hyphen: it is named as `no-wrap` would be.
-/
namespace ElmStyle.Elm

/-- A lower-case letter, then lower-case letters and digits. -/
def IsWord (word : List Char) : Prop :=
  ∃ first rest, word = first :: rest ∧ first.isLower ∧ ∀ c ∈ rest, c.isLower ∨ c.isDigit

/-- Lower-case letters only. -/
def IsLetters (word : List Char) : Prop := word ≠ [] ∧ ∀ c ∈ word, c.isLower

/-- Words of a kind, joined by single hyphens. -/
def Hyphenated (kind : List Char → Prop) (name : List Char) : Prop :=
  ∃ words : List (List Char), words ≠ [] ∧ (∀ word ∈ words, kind word) ∧
    name = ['-'].intercalate words

theorem IsLetters.isWord {word : List Char} (letters : IsLetters word) : IsWord word := by
  obtain ⟨filled, each⟩ := letters
  obtain ⟨first, rest, rfl⟩ := List.exists_cons_of_ne_nil filled
  exact ⟨first, rest, rfl, each first (by simp), fun c member => .inl (each c (by simp [member]))⟩

theorem Hyphenated.imp {kind other : List Char → Prop} {name : List Char}
    (every : ∀ word, kind word → other word) (hyphenated : Hyphenated kind name) :
    Hyphenated other name := by
  obtain ⟨words, filled, each, joined⟩ := hyphenated
  exact ⟨words, filled, fun word member => every word (each word member), joined⟩

/-- A name holds hyphens and the characters of its words. -/
theorem Hyphenated.chars {kind : List Char → Prop} {name : List Char}
    (hyphenated : Hyphenated kind name) : ∀ c ∈ name, c = '-' ∨ ∃ word, kind word ∧ c ∈ word := by
  obtain ⟨words, -, each, rfl⟩ := hyphenated
  induction words with
  | nil => simp
  | cons word later ih =>
    have here := each word (by simp)
    intro c member
    cases later with
    | nil =>
      rw [List.intercalate_singleton] at member
      exact .inr ⟨word, here, member⟩
    | cons next others =>
      rw [List.intercalate_cons_cons, List.mem_append, List.mem_append,
        List.mem_singleton] at member
      rcases member with (inside | hyphen) | behind
      · exact .inr ⟨word, here, inside⟩
      · exact .inl hyphen
      · exact ih (fun word member => each word (by simp [member])) c behind

theorem IsWord.chars {word : List Char} (isWord : IsWord word) :
    ∀ c ∈ word, c.isLower ∨ c.isDigit := by
  obtain ⟨first, rest, rfl, lower, each⟩ := isWord
  intro c member
  rcases List.mem_cons.mp member with rfl | later
  · exact .inl lower
  · exact each c later

/-- A character of a word is no hyphen and no capital. -/
theorem wordChar_plain (c : Char) (char : c.isLower ∨ c.isDigit) : c ≠ '-' ∧ c.isUpper = false := by
  have ascii : c.toNat < 128 := by
    apply isKebabChar_ascii
    simpa [isKebabChar] using Or.inl char
  exact Text.forall_char_below 128
    (fun c => (c.isLower ∨ c.isDigit) → c ≠ '-' ∧ c.isUpper = false) (by decide) c ascii char

/-- A letter is read back from its capital. -/
theorem capital_of_lower (c : Char) (lower : c.isLower) :
    c ≠ '\n' ∧ Text.upper c = [c.toUpper] ∧ c.toUpper.isUpper ∧ c.toUpper.toLower = c := by
  have ascii := isLower_ascii c lower
  have each : c ≠ '\n' ∧ c.toUpper.isUpper ∧ c.toUpper.toLower = c :=
    Text.forall_char_below 128
      (fun c => c.isLower → c ≠ '\n' ∧ c.toUpper.isUpper ∧ c.toUpper.toLower = c) (by decide)
      c ascii lower
  exact ⟨each.1, by rw [Text.upper, if_pos ascii], each.2⟩

theorem camelCase_append (word rest : List Char) (plain : ∀ c ∈ word, c ≠ '-') :
    camelCase (word ++ rest) = word ++ camelCase rest := by
  induction word with
  | nil => rfl
  | cons c later ih =>
    rw [List.cons_append, camelCase_cons c _ (plain c (by simp)),
      ih (fun x member => plain x (by simp [member])), List.cons_append]

theorem camelCase_hyphen (c : Char) (rest : List Char) (lower : c.isLower) :
    camelCase ('-' :: c :: rest) = c.toUpper :: camelCase rest := by
  obtain ⟨other, raised, -⟩ := capital_of_lower c lower
  rw [camelCase, if_neg other, raised, List.singleton_append]

/-- Camel-casing a longer text never gives fewer characters: a hyphen at the end stays, and one that
is followed gives way to a character at least. -/
theorem camelCase_length_append (front back : List Char) :
    (camelCase front).length ≤ (camelCase (front ++ back)).length := by
  induction front using camelCase.induct with
  | case1 => simp [camelCase]
  | case2 rest ih => simpa [camelCase] using ih
  | case3 c rest other ih => simpa [camelCase, other] using ih
  | case4 c rest plain ih =>
    by_cases hyphen : c = '-'
    · cases rest with
      | cons next later => exact (plain next later hyphen rfl).elim
      | nil =>
        subst hyphen
        cases back with
        | nil => simp
        | cons next later =>
          have filled := List.length_pos_iff.mpr (Text.upper_filled next)
          by_cases line : next = '\n'
          · simp [camelCase, line]
          · simp [camelCase, line]
            omega
    · rw [List.cons_append, camelCase_cons c rest hyphen, camelCase_cons c _ hyphen]
      simpa using ih

theorem identifier_length (name : String) :
    (identifier name).toList.length = (camelCase name.toList).length := by
  unfold identifier
  split
  next spelled =>
    subst spelled
    decide +kernel
  · rw [String.toList_ofList]

/-- The word with a capital. -/
def capitalized : List Char → List Char
  | [] => []
  | c :: rest => c.toUpper :: rest

theorem intercalate_hyphens (word : List Char) (later : List (List Char)) :
    ['-'].intercalate (word :: later) = word ++ later.flatMap ('-' :: ·) := by
  induction later generalizing word with
  | nil => simp
  | cons next others ih =>
    rw [List.intercalate_cons_cons, ih, List.flatMap_cons, List.append_assoc, List.singleton_append,
      List.cons_append]

/-- Every word after the first has a capital in place of its hyphen. -/
theorem camelCase_words (word : List Char) (later : List (List Char))
    (plain : ∀ c ∈ word, c ≠ '-') (each : ∀ word ∈ later, IsWord word) :
    camelCase (word ++ later.flatMap ('-' :: ·)) = word ++ later.flatMap capitalized := by
  rw [camelCase_append word _ plain]
  congr 1
  induction later with
  | nil => rfl
  | cons next others ih =>
    have chars := (each next (by simp)).chars
    obtain ⟨first, rest, rfl, lower, -⟩ := each next (by simp)
    have restPlain : ∀ c ∈ rest, c ≠ '-' := fun c member =>
      (wordChar_plain c (chars c (List.mem_cons_of_mem _ member))).1
    rw [List.flatMap_cons, List.cons_append, List.cons_append, camelCase_hyphen first _ lower,
      camelCase_append rest _ restPlain, ih fun word member => each word (by simp [member])]
    rfl

theorem Hyphenated.camelCase_eq {name : List Char} (hyphenated : Hyphenated IsWord name) :
    ∃ (word : List Char) (later : List (List Char)), IsWord word ∧ (∀ word ∈ later, IsWord word) ∧
      name = word ++ later.flatMap ('-' :: ·) ∧
      camelCase name = word ++ later.flatMap capitalized := by
  obtain ⟨words, filled, each, rfl⟩ := hyphenated
  obtain ⟨word, later, rfl⟩ := List.exists_cons_of_ne_nil filled
  have isWord := each word (by simp)
  have others : ∀ word ∈ later, IsWord word := fun word member => each word (by simp [member])
  have plain : ∀ c ∈ word, c ≠ '-' := fun c member => (wordChar_plain c (isWord.chars c member)).1
  rw [intercalate_hyphens]
  exact ⟨word, later, isWord, others, rfl, camelCase_words word later plain others⟩

/-- The name with a hyphen before each capital, which becomes a small letter. -/
def hyphenate (name : List Char) : List Char :=
  name.flatMap fun c => if c.isUpper then ['-', c.toLower] else [c]

theorem hyphenate_plain (word : List Char) (plain : ∀ c ∈ word, c.isUpper = false) :
    hyphenate word = word := by
  induction word with
  | nil => rfl
  | cons c later ih =>
    have here := plain c (by simp)
    have rest := ih fun x member => plain x (by simp [member])
    rw [hyphenate, List.flatMap_cons, ← hyphenate, rest]
    simp [here]

theorem hyphenate_capitalized (word : List Char) (isWord : IsWord word) :
    hyphenate (capitalized word) = '-' :: word := by
  have chars := isWord.chars
  obtain ⟨first, rest, rfl, lower, -⟩ := isWord
  obtain ⟨-, -, capital, back⟩ := capital_of_lower first lower
  have small := hyphenate_plain rest fun c member =>
    (wordChar_plain c (chars c (List.mem_cons_of_mem _ member))).2
  rw [capitalized, hyphenate, List.flatMap_cons, ← hyphenate, small]
  simp [capital, back]

/-- The hyphens of a name can be put back. -/
theorem hyphenate_camelCase (name : List Char) (hyphenated : Hyphenated IsWord name) :
    hyphenate (camelCase name) = name := by
  obtain ⟨word, later, isWord, each, joined, camel⟩ := hyphenated.camelCase_eq
  have small := hyphenate_plain word fun c member => (wordChar_plain c (isWord.chars c member)).2
  have others : hyphenate (later.flatMap capitalized) = later.flatMap ('-' :: ·) := by
    rw [hyphenate, List.flatMap_assoc]
    exact List.flatMap_congr fun word member => hyphenate_capitalized word (each word member)
  rw [camel, joined, hyphenate, List.flatMap_append, ← hyphenate, ← hyphenate, small, others]

/-- Different names have different camel-cased forms. -/
theorem camelCase_injective (one two : List Char) (first : Hyphenated IsWord one)
    (second : Hyphenated IsWord two) (same : camelCase one = camelCase two) : one = two := by
  rw [← hyphenate_camelCase one first, same, hyphenate_camelCase two second]

theorem letters_chars {name : List Char} (hyphenated : Hyphenated IsLetters name) :
    ∀ c ∈ name, c = '-' ∨ c.isLower := by
  intro c member
  rcases hyphenated.chars c member with hyphen | ⟨word, letters, inside⟩
  · exact .inl hyphen
  · exact .inr (letters.2 c inside)

theorem letters_kebab {name : List Char} (hyphenated : Hyphenated IsLetters name) :
    ∀ c ∈ name, isKebabChar c := by
  intro c member
  rcases letters_chars hyphenated c member with rfl | lower
  · decide
  · simp [isKebabChar, lower]

/-- A name without digits gets none by camel-casing. -/
theorem identifier_digitless (name : String) (letters : Hyphenated IsLetters name.toList) :
    ∀ c ∈ (identifier name).toList, c.isDigit = false := by
  have ascii : ∀ c ∈ name.toList, c.toNat < 128 := fun c member =>
    isKebabChar_ascii c (letters_kebab letters c member)
  have digitless : ∀ c ∈ name.toList, c.isDigit = false ∧ c.toUpper.isDigit = false := by
    intro c member
    exact Text.forall_char_below 128
      (fun c => (c = '-' ∨ c.isLower) → c.isDigit = false ∧ c.toUpper.isDigit = false) (by decide)
      c (ascii c member) (letters_chars letters c member)
  intro c member
  rcases mem_identifier name c member with kept | ⟨x, held, raised⟩
  · exact (digitless c kept).1
  · rw [Text.upper, if_pos (ascii x held), List.mem_singleton] at raised
    rw [raised]
    exact (digitless x held).2

/-- The name under which camel case gives the name of elm-css. -/
def spelledOut (name : String) : String := if name = "nowrap" then "no-wrap" else name

theorem identifier_spelledOut (name : String) :
    identifier name = String.ofList (camelCase (spelledOut name).toList) := by
  unfold identifier spelledOut
  split
  · decide
  · rfl

theorem noWrap_hyphenated : Hyphenated IsWord "no-wrap".toList := by
  refine ⟨["no".toList, "wrap".toList], by simp, ?_, by decide⟩
  intro word member
  simp only [List.mem_cons, List.not_mem_nil, or_false] at member
  rcases member with rfl | rfl
  · exact IsLetters.isWord ⟨by decide, List.all_eq_true.mp (by decide)⟩
  · exact IsLetters.isWord ⟨by decide, List.all_eq_true.mp (by decide)⟩

theorem spelledOut_hyphenated {name : String} (hyphenated : Hyphenated IsWord name.toList) :
    Hyphenated IsWord (spelledOut name).toList := by
  unfold spelledOut
  split
  · exact noWrap_hyphenated
  · exact hyphenated

theorem identifier_eq_iff {one two : String} (first : Hyphenated IsWord one.toList)
    (second : Hyphenated IsWord two.toList) :
    identifier one = identifier two ↔ spelledOut one = spelledOut two := by
  rw [identifier_spelledOut, identifier_spelledOut]
  constructor
  · intro same
    exact String.toList_injective (camelCase_injective _ _ (spelledOut_hyphenated first)
      (spelledOut_hyphenated second) (String.ofList_injective same))
  · intro same
    rw [same]

theorem identifier_injective (one two : String) (first : Hyphenated IsLetters one.toList)
    (second : Hyphenated IsLetters two.toList) (notFirst : one ≠ "nowrap")
    (notSecond : two ≠ "nowrap") (same : identifier one = identifier two) : one = two := by
  rw [identifier_eq_iff (first.imp fun _ => IsLetters.isWord)
    (second.imp fun _ => IsLetters.isWord)] at same
  rwa [spelledOut, if_neg notFirst, spelledOut, if_neg notSecond] at same

/-- A lower-case letter, then letters and digits. -/
def IsCamelName (name : List Char) : Prop :=
  ∃ first rest, name = first :: rest ∧ first.isLower ∧ ∀ c ∈ rest, c.isAlphanum

theorem wordChar_alphanum (c : Char) (char : c.isLower ∨ c.isDigit) :
    c.isAlphanum ∧ c.toUpper.isAlphanum := by
  have ascii : c.toNat < 128 := by
    apply isKebabChar_ascii
    simpa [isKebabChar] using Or.inl char
  exact Text.forall_char_below 128
    (fun c => (c.isLower ∨ c.isDigit) → c.isAlphanum ∧ c.toUpper.isAlphanum) (by decide) c ascii
    char

theorem capitalized_alphanum {word : List Char} (isWord : IsWord word) :
    ∀ c ∈ capitalized word, c.isAlphanum := by
  have chars := isWord.chars
  obtain ⟨first, rest, rfl, -, -⟩ := isWord
  intro c member
  rcases List.mem_cons.mp member with rfl | later
  · exact (wordChar_alphanum first (chars first (by simp))).2
  · exact (wordChar_alphanum c (chars c (List.mem_cons_of_mem _ later))).1

theorem camelCase_isCamelName {name : List Char} (hyphenated : Hyphenated IsWord name) :
    IsCamelName (camelCase name) := by
  obtain ⟨word, later, isWord, each, -, camel⟩ := hyphenated.camelCase_eq
  obtain ⟨first, rest, rfl, lower, digits⟩ := isWord
  refine ⟨first, rest ++ later.flatMap capitalized, camel, lower, fun c member => ?_⟩
  rcases List.mem_append.mp member with inside | behind
  · exact (wordChar_alphanum c (digits c inside)).1
  · obtain ⟨word, listed, held⟩ := List.mem_flatMap.mp behind
    exact capitalized_alphanum (each word listed) c held

theorem spelledOut_eq_iff (one two : String) :
    spelledOut one = spelledOut two ↔
      one = two ∨ one = "nowrap" ∧ two = "no-wrap" ∨ one = "no-wrap" ∧ two = "nowrap" := by
  unfold spelledOut
  split
  next isFirst =>
    split
    next isSecond => simp [isFirst, isSecond]
    next notSecond => simp [isFirst, Ne.symm notSecond, eq_comm]
  next notFirst =>
    split
    next isSecond => simp [isSecond, notFirst]
    next notSecond => simp [notFirst, notSecond]

/-- Hyphenated names give camel-cased names, and different ones give different ones; only `nowrap`
is taken for `no-wrap`. -/
theorem identifier_faithful (one two : String) (first : Hyphenated IsWord one.toList)
    (second : Hyphenated IsWord two.toList) :
    IsCamelName (identifier one).toList ∧
      (identifier one = identifier two ↔
        one = two ∨ one = "nowrap" ∧ two = "no-wrap" ∨ one = "no-wrap" ∧ two = "nowrap") ∧
      (identifier one = "noWrap" ↔ one = "nowrap" ∨ one = "no-wrap") := by
  have shared : "noWrap" = identifier "no-wrap" := by decide
  refine ⟨?_, ?_, ?_⟩
  · rw [identifier_spelledOut, String.toList_ofList]
    exact camelCase_isCamelName (spelledOut_hyphenated first)
  · rw [identifier_eq_iff first second, spelledOut_eq_iff]
  · rw [shared, identifier_eq_iff first noWrap_hyphenated, spelledOut_eq_iff]
    simp [or_comm]

/-- The two names that are one in elm-css. -/
theorem identifier_faithful_noWrap :
    IsCamelName (identifier "nowrap").toList ∧ identifier "nowrap" = identifier "no-wrap" ∧
      identifier "nowrap" = "noWrap" := by
  have single : Hyphenated IsWord "nowrap".toList := by
    refine ⟨["nowrap".toList], by simp, fun word member => ?_, by decide⟩
    rw [List.mem_singleton.mp member]
    exact IsLetters.isWord ⟨by decide, List.all_eq_true.mp (by decide)⟩
  obtain ⟨camel, same, shared⟩ :=
    identifier_faithful "nowrap" "no-wrap" single noWrap_hyphenated
  exact ⟨camel, same.mpr (.inr (.inl ⟨rfl, rfl⟩)), shared.mpr (.inl rfl)⟩

end ElmStyle.Elm
