import ElmStyle.Text.Blank
import Mathlib.Data.List.DropRight
import Mathlib.Data.List.TakeDrop

/-!
# Words and stripped texts

What cutting and stripping leave: the words of a text hold no blank, and a stripped text stays as it
is when it is stripped again. A stripped text with one word is that word.
-/
namespace ElmStyle.Text

/-- A text ends where the first mark is that it does not hold itself. -/
theorem upTo_mark (mark : Char) (front rest : List Char) (absent : mark ∉ front) :
    (front ++ mark :: rest).takeWhile (· != mark) = front ∧
      (front ++ mark :: rest).dropWhile (· != mark) = mark :: rest := by
  have whole : ∀ c ∈ front, (c != mark) = true := by
    intro c member
    rw [bne_iff_ne]
    rintro rfl
    exact absent member
  rw [List.takeWhile_append_of_pos whole, List.dropWhile_append_of_pos whole]
  simp

/-- A span is the run of a class at the start of a text, with nothing of the class right after it.
-/
theorem span_eq_iff (belongs : Char → Bool) (cs run rest : List Char) :
    cs.span belongs = (run, rest) ↔
      cs = run ++ rest ∧ (∀ c ∈ run, belongs c) ∧ ∀ c, rest.head? = some c → belongs c = false := by
  rw [List.span_eq_takeWhile_dropWhile]
  constructor
  · intro spanned
    cases spanned
    refine ⟨List.takeWhile_append_dropWhile.symm, fun c => List.mem_takeWhile_imp, ?_⟩
    intro c first
    simpa [first] using List.head?_dropWhile_not belongs cs
  · rintro ⟨rfl, each, stops⟩
    rw [List.takeWhile_append_of_pos each, List.dropWhile_append_of_pos each]
    cases rest with
    | nil => simp
    | cons c later => simp [stops c rfl]

theorem mem_pieces_not_cut (cut : Char → Bool) (cs piece : List Char)
    (member : piece ∈ pieces cut cs) : ∀ c ∈ piece, cut c = false := by
  induction cs generalizing piece with
  | nil =>
    simp only [pieces, List.mem_singleton] at member
    simp [member]
  | cons head rest ih =>
    by_cases stop : cut head
    · simp only [pieces, stop, if_true, List.mem_cons] at member
      rcases member with rfl | later
      · simp
      · exact ih piece later
    · simp only [pieces, if_neg stop] at member
      cases split : pieces cut rest with
      | nil =>
        simp only [split, pushFront, List.mem_singleton] at member
        simpa [member] using stop
      | cons first others =>
        simp only [split, pushFront, List.mem_cons] at member
        rcases member with rfl | later
        · intro c held
          rcases List.mem_append.mp held with front | behind
          · simp only [List.mem_singleton] at front
            simpa [front] using stop
          · exact ih first (by simp [split]) c behind
        · exact ih piece (by simp [split, later])

/-- A word is not empty and holds no blank, so a value of blanks only has no word. -/
theorem mem_words (s word : String) (member : word ∈ words s) :
    word ≠ "" ∧ ∀ c ∈ word.toList, isBlank c = false := by
  simp only [words, List.mem_map, List.mem_filter] at member
  obtain ⟨piece, ⟨cutOut, filled⟩, rfl⟩ := member
  refine ⟨?_, ?_⟩
  · intro none
    have empty : piece = [] := by simpa using congrArg String.toList none
    simp [empty] at filled
  · simpa only [String.toList_ofList] using mem_pieces_not_cut isBlank s.toList piece cutOut

theorem pieces_ne_nil (cut : Char → Bool) (cs : List Char) : pieces cut cs ≠ [] := by
  cases cs with
  | nil => simp [pieces]
  | cons c rest =>
    by_cases stop : cut c
    · simp [pieces, stop]
    · cases later : pieces cut rest <;> simp [pieces, stop, later, pushFront]

/-- A cut stands between the pieces before it and those after it. -/
theorem pieces_append_cut (cut : Char → Bool) (before after : List Char) (c : Char)
    (stop : cut c) : pieces cut (before ++ c :: after) = pieces cut before ++ pieces cut after := by
  induction before with
  | nil => simp [pieces, stop]
  | cons d rest ih =>
    rw [List.cons_append, pieces, pieces, ih]
    by_cases first : cut d
    · simp [first]
    · obtain ⟨piece, others, split⟩ := List.exists_cons_of_ne_nil (pieces_ne_nil cut rest)
      simp [first, split, pushFront]

theorem pieces_of_solid (cut : Char → Bool) (cs : List Char) (solid : ∀ c ∈ cs, cut c = false) :
    pieces cut cs = [cs] := by
  induction cs with
  | nil => rfl
  | cons c rest ih =>
    obtain ⟨first, later⟩ := List.forall_mem_cons.mp solid
    rw [pieces, ih later]
    simp [first, pushFront]

theorem words_append_blank (before after : List Char) (c : Char) (blank : isBlank c) :
    words (String.ofList (before ++ c :: after)) =
      words (String.ofList before) ++ words (String.ofList after) := by
  simp only [words, String.toList_ofList, pieces_append_cut isBlank before after c blank,
    List.filter_append, List.map_append]

theorem words_of_solid (s : String) (filled : s ≠ "")
    (solid : ∀ c ∈ s.toList, isBlank c = false) : words s = [s] := by
  rw [words, pieces_of_solid isBlank s.toList solid]
  simp [filled]

/-- A text with a character that is no blank has a word. -/
theorem words_ne_nil (cs : List Char) (c : Char) (member : c ∈ cs) (solid : isBlank c = false) :
    words (String.ofList cs) ≠ [] := by
  induction cs with
  | nil => cases member
  | cons d rest ih =>
    by_cases blank : isBlank d
    · have later : c ∈ rest := by
        rcases List.mem_cons.mp member with rfl | later
        · rw [solid] at blank
          cases blank
        · exact later
      have passed := words_append_blank [] rest d blank
      rw [List.nil_append] at passed
      rw [passed]
      exact List.append_ne_nil_of_right_ne_nil _ (ih later)
    · intro none
      have pieces : ∃ piece others, Text.pieces isBlank rest = piece :: others :=
        List.exists_cons_of_ne_nil (pieces_ne_nil isBlank rest)
      obtain ⟨piece, others, split⟩ := pieces
      simp [words, Text.pieces, blank, split, pushFront] at none

theorem stripBy_eq (drop : Char → Bool) (cs : List Char) :
    stripBy drop cs = (cs.dropWhile drop).rdropWhile drop := rfl

/-- What is left starts with a character that stays, since only the other end is shortened. -/
theorem dropWhile_stripBy (drop : Char → Bool) (cs : List Char) :
    (stripBy drop cs).dropWhile drop = stripBy drop cs := by
  rw [List.dropWhile_eq_self_iff]
  intro filled
  obtain ⟨tail, shortened⟩ := List.rdropWhile_prefix drop (l := cs.dropWhile drop)
  rw [← stripBy_eq] at shortened
  have longer : 0 < (cs.dropWhile drop).length := by
    rw [← shortened, List.length_append]
    omega
  have first := List.dropWhile_get_zero_not drop cs longer
  simp only [← shortened, List.get_eq_getElem] at first
  rwa [List.getElem_append_left filled] at first

theorem stripBy_stripBy (drop : Char → Bool) (cs : List Char) :
    stripBy drop (stripBy drop cs) = stripBy drop cs := by
  rw [stripBy_eq drop (stripBy drop cs), dropWhile_stripBy, stripBy_eq, List.rdropWhile_idempotent]

theorem dropWhile_append_stop (drop : Char → Bool) (front rest : List Char) (stop : Char)
    (first : rest.head? = some stop) (kept : drop stop = false) :
    (front ++ rest).dropWhile drop = front.dropWhile drop ++ rest := by
  induction front with
  | nil =>
    obtain ⟨later, rfl⟩ := List.head?_eq_some_iff.mp first
    simp [kept]
  | cons c front ih =>
    by_cases dropped : drop c
    · simp [dropped, ih]
    · simp [dropped]

/-- Only what stands around is stripped from a text that starts and ends with characters that stay.
-/
theorem stripBy_around (drop : Char → Bool) (front body back : List Char) (start stop : Char)
    (first : body.head? = some start) (last : body.getLast? = some stop)
    (kept : drop start = false ∧ drop stop = false) :
    stripBy drop (front ++ (body ++ back)) =
      front.dropWhile drop ++ (body ++ back.rdropWhile drop) := by
  have whole : (body ++ back).head? = some start := by simp [first]
  have ends : (front.dropWhile drop ++ body).reverse.head? = some stop := by simp [last]
  rw [stripBy, dropWhile_append_stop drop front _ start whole kept.1, ← List.append_assoc,
    List.reverse_append, dropWhile_append_stop drop _ _ stop ends kept.2]
  simp [List.rdropWhile]

/-- A stripped text starts and ends with characters that stay. -/
theorem ends_of_stripped (drop : Char → Bool) (cs : List Char) (stripped : stripBy drop cs = cs) :
    (∀ c, cs.head? = some c → drop c = false) ∧ ∀ c, cs.getLast? = some c → drop c = false := by
  have front : cs.dropWhile drop = cs := by
    rw [← stripped]
    exact dropWhile_stripBy drop cs
  have back : cs.rdropWhile drop = cs := by
    rw [stripBy_eq, front] at stripped
    exact stripped
  constructor
  · intro c head
    simpa [front, head] using List.head?_dropWhile_not drop cs
  · intro c last
    have filled : cs ≠ [] := by
      rintro rfl
      cases last
    rw [List.getLast?_eq_some_getLast filled, Option.some.injEq] at last
    simpa [last] using List.rdropWhile_eq_self_iff.mp back filled

/-- A blank inside of a stripped text stands between two words. -/
theorem eq_of_words_eq_singleton (s word : String) (stripped : strip s = s)
    (one : words s = [word]) : s = word := by
  by_cases solid : ∀ c ∈ s.toList, isBlank c = false
  · have filled : s ≠ "" := by
      rintro rfl
      cases one
    rw [words_of_solid s filled solid] at one
    exact List.singleton_inj.mp one
  · simp only [not_forall, Bool.not_eq_false] at solid
    obtain ⟨c, member, blank⟩ := solid
    obtain ⟨before, after, split⟩ := List.append_of_mem member
    obtain ⟨first, last⟩ := ends_of_stripped isBlank s.toList
      (by simpa [strip] using congrArg String.toList stripped)
    have front : words (String.ofList before) ≠ [] := by
      cases before with
      | nil => simp [first c (by simp [split])] at blank
      | cons d more => exact words_ne_nil _ d (by simp) (first d (by simp [split]))
    have back : words (String.ofList after) ≠ [] := by
      cases final : after.getLast? with
      | none =>
        rw [List.getLast?_eq_none_iff.mp final] at split
        simp [last c (by simp [split])] at blank
      | some d =>
        refine words_ne_nil _ d (List.mem_of_getLast? final) (last d ?_)
        rw [split, List.getLast?_append, List.getLast?_cons, final]
        rfl
    have two : words s = words (String.ofList before) ++ words (String.ofList after) := by
      rw [← words_append_blank before after c blank, ← split, String.ofList_toList]
    rw [one] at two
    have count := congrArg List.length two
    rw [List.length_append, List.length_singleton] at count
    have frontCount := List.length_pos_iff.mpr front
    have backCount := List.length_pos_iff.mpr back
    omega

theorem strip_strip (s : String) : strip (strip s) = strip s := by
  simp only [strip, String.toList_ofList, stripBy_stripBy]

end ElmStyle.Text
