import ElmStyle.Css.Selector
import ElmStyle.Proofs.Text.Words

/-!
# Compounds of a selector

A compound is a row of symbols, each of them a character by itself or a character after a backslash.
A selector is laid out as compounds with breaks between them, and with breaks before and after them
or none. Cutting a selector gives back its compounds as they are written, and so what it styles is
told by its last class alone.
-/
namespace ElmStyle.Css.Selector

/-- A character of a compound as it is written: by itself, or after a backslash. -/
inductive Symbol where
  | bare (c : Char) (solid : c ≠ '\\' ∧ isBreak c = false)
  | escaped (c : Char) (solid : Text.isBlank c = false)

namespace Symbol

def char : Symbol → Char
  | .bare c _ => c
  | .escaped c _ => c

/-- The character, if it stands by itself. -/
def bare? : Symbol → Option Char
  | .bare c _ => some c
  | .escaped _ _ => none

def text : Symbol → List Char
  | .bare c _ => [c]
  | .escaped c _ => ['\\', c]

end Symbol

/-- A row of symbols as it is written. -/
def written (us : List Symbol) : List Char := us.flatMap Symbol.text

/-- The characters that a row of symbols stands for. -/
def spelled (us : List Symbol) : List Char := us.map Symbol.char

/-- A row of characters that stand by themselves. -/
def bareRow (cs : List Char) (solid : ∀ c ∈ cs, c ≠ '\\' ∧ isBreak c = false) : List Symbol :=
  cs.pmap Symbol.bare solid

theorem written_cons (u : Symbol) (us : List Symbol) : written (u :: us) = u.text ++ written us :=
  List.flatMap_cons

theorem written_append (us vs : List Symbol) : written (us ++ vs) = written us ++ written vs :=
  List.flatMap_append

theorem bare_not_blank {c : Char} (solid : c ≠ '\\' ∧ isBreak c = false) :
    Text.isBlank c = false := by
  have solid := solid.2
  simp only [isBreak, Bool.or_eq_false_iff] at solid
  exact solid.1.1.1.1

theorem ne_newline {c : Char} (solid : Text.isBlank c = false) : c ≠ '\n' := by
  rintro rfl
  exact absurd solid (by decide)

theorem ne_backslash {c : Char} (stops : isBreak c) : c ≠ '\\' := by
  rintro rfl
  exact absurd stops (by decide)

theorem unescape_bare (c : Char) (rest : List Char) (plain : c ≠ '\\') :
    unescape (c :: rest) = c :: unescape rest := by
  rw [unescape]
  intro _ _ backslash
  exact absurd backslash plain

/-- Every symbol gives its character. -/
theorem unescape_written (us : List Symbol) : unescape (written us) = spelled us := by
  induction us with
  | nil => rfl
  | cons u rest ih =>
    rw [written_cons, spelled, List.map_cons, ← spelled, ← ih]
    cases u with
    | bare c solid => exact unescape_bare c _ solid.1
    | escaped c solid =>
      change unescape ('\\' :: c :: written rest) = c :: unescape (written rest)
      rw [unescape, if_neg (ne_newline solid)]

theorem cut_bare (c : Char) (rest : List Char) (plain : c ≠ '\\') :
    cut (c :: rest) = if isBreak c then [] :: cut rest else Text.pushFront [c] (cut rest) := by
  -- the equations by pattern would compute `isBreak` on the patterns
  rw [cut.eq_def]
  split
  next empty => cases empty
  next escape => exact absurd (List.cons.inj escape).1 plain
  next same =>
    cases same
    rfl

theorem cut_escaped (c : Char) (rest : List Char) (line : c ≠ '\n') :
    cut ('\\' :: c :: rest) = Text.pushFront ['\\', c] (cut rest) := by
  rw [cut.eq_def]
  exact if_neg line

theorem pushFront_pushFront (front middle : List Char) (pieces : List (List Char)) :
    Text.pushFront front (Text.pushFront middle pieces) =
      Text.pushFront (front ++ middle) pieces := by
  cases pieces <;> simp [Text.pushFront]

theorem pushFront_ne_nil (front : List Char) (pieces : List (List Char)) :
    Text.pushFront front pieces ≠ [] := by
  cases pieces <;> simp [Text.pushFront]

theorem cut_ne_nil (cs : List Char) : cut cs ≠ [] := by
  fun_cases cut cs with
  | case1 => exact List.cons_ne_nil _ _
  | case2 => exact pushFront_ne_nil _ _
  | case3 => exact pushFront_ne_nil _ _
  | case4 => exact List.cons_ne_nil _ _
  | case5 => exact pushFront_ne_nil _ _

/-- No symbol is cut, and none reaches over its end. -/
theorem cut_written (us : List Symbol) (rest : List Char) :
    cut (written us ++ rest) = Text.pushFront (written us) (cut rest) := by
  induction us with
  | nil =>
    obtain ⟨first, later, pieces⟩ := List.exists_cons_of_ne_nil (cut_ne_nil rest)
    simp [written, pieces, Text.pushFront]
  | cons u us ih =>
    rw [written_cons, List.append_assoc, ← pushFront_pushFront, ← ih]
    cases u with
    | bare c solid => exact (cut_bare c _ solid.1).trans (if_neg (by simp [solid.2]))
    | escaped c solid => exact cut_escaped c _ (ne_newline solid)

/-- A compound has one symbol at least. -/
structure Compound where
  symbols : List Symbol
  filled : symbols ≠ []

namespace Compound

def text (c : Compound) : List Char := written c.symbols

/-- A class starts with a point. -/
def isClass (c : Compound) : Bool := c.text.head? == some '.'

end Compound

/-- A row of breaks. -/
structure Gap where
  text : List Char
  breaks : ∀ c ∈ text, isBreak c

/-- A selector as it is laid out: compounds with a break at least between any two of them. -/
structure Layout where
  lead : Gap
  row : List (Compound × { gap : Gap // gap.text ≠ [] })
  last : Compound
  trail : Gap

namespace Layout

def compounds (l : Layout) : List Compound := l.row.map Prod.fst ++ [l.last]

/-- From the first compound to the last one. -/
def body (l : Layout) : List Char :=
  l.row.flatMap (fun part => part.1.text ++ part.2.val.text) ++ l.last.text

def text (l : Layout) : List Char := l.lead.text ++ (l.body ++ l.trail.text)

end Layout

/-- The pieces between the breaks that are not empty. -/
def parts (cs : List Char) : List (List Char) := (cut cs).filter (!·.isEmpty)

theorem cut_break (c : Char) (rest : List Char) (stops : isBreak c) :
    cut (c :: rest) = [] :: cut rest := by
  rw [cut_bare c rest (ne_backslash stops), if_pos stops]

theorem parts_gap (gap rest : List Char) (breaks : ∀ c ∈ gap, isBreak c) :
    parts (gap ++ rest) = parts rest := by
  induction gap with
  | nil => rfl
  | cons c gap ih =>
    rw [← ih fun d member => breaks d (by simp [member]), parts, List.cons_append,
      cut_break c _ (breaks c (by simp))]
    rfl

theorem Symbol.text_ne_nil (u : Symbol) : u.text ≠ [] := by
  cases u <;> exact List.cons_ne_nil _ _

theorem Compound.text_ne_nil (c : Compound) : c.text ≠ [] := by
  obtain ⟨u, us, symbols⟩ := List.exists_cons_of_ne_nil c.filled
  rw [Compound.text, symbols, written_cons]
  exact List.append_ne_nil_of_left_ne_nil u.text_ne_nil _

/-- A compound is a part by itself if a break follows it or nothing. -/
theorem parts_compound (c : Compound) (rest : List Char)
    (stops : ∀ next, rest.head? = some next → isBreak next) :
    parts (c.text ++ rest) = c.text :: parts rest := by
  have ends : ∃ later, cut rest = [] :: later := by
    cases rest with
    | nil => exact ⟨[], by rw [cut.eq_def]⟩
    | cons next rest => exact ⟨cut rest, cut_break next rest (stops next rfl)⟩
  obtain ⟨later, pieces⟩ := ends
  have whole : cut (c.text ++ rest) = c.text :: later := by
    rw [Compound.text, cut_written, pieces, Text.pushFront, List.append_nil]
  simp [parts, whole, pieces, c.text_ne_nil]

theorem Gap.head (gap : Gap) (filled : gap.text ≠ []) (rest : List Char) :
    ∀ next, (gap.text ++ rest).head? = some next → isBreak next := by
  obtain ⟨c, later, text⟩ := List.exists_cons_of_ne_nil filled
  intro next first
  rw [text, List.cons_append, List.head?_cons, Option.some.injEq] at first
  exact gap.breaks next (by simp [text, first])

/-- The parts are the compounds in order, whatever the breaks are. -/
theorem parts_layout (l : Layout) : parts l.text = l.compounds.map Compound.text := by
  rw [Layout.text, parts_gap _ _ l.lead.breaks, Layout.body, Layout.compounds]
  induction l.row with
  | nil =>
    have stops : ∀ next, l.trail.text.head? = some next → isBreak next :=
      fun next first => l.trail.breaks next (List.mem_of_mem_head? first)
    have none : parts l.trail.text = [] := by
      have gap := parts_gap l.trail.text [] l.trail.breaks
      rwa [List.append_nil, show parts [] = [] by decide] at gap
    simp [parts_compound l.last _ stops, none]
  | cons part row ih =>
    obtain ⟨c, gap, filled⟩ := part
    simp only [List.flatMap_cons, List.append_assoc, List.map_cons, List.cons_append] at ih ⊢
    rw [parts_compound c _ (gap.head filled _), parts_gap _ _ gap.breaks, ih]

theorem Compound.head_solid (c : Compound) (rest : List Char) :
    ∃ start, (c.text ++ rest).head? = some start ∧ Text.isBlank start = false := by
  obtain ⟨u, us, symbols⟩ := List.exists_cons_of_ne_nil c.filled
  rw [Compound.text, symbols, written_cons, List.append_assoc]
  cases u with
  | bare c solid => exact ⟨c, rfl, bare_not_blank solid⟩
  | escaped c solid => exact ⟨'\\', rfl, by decide⟩

theorem Symbol.char_solid (u : Symbol) : Text.isBlank u.char = false := by
  cases u with
  | bare c solid => exact bare_not_blank solid
  | escaped c solid => exact solid

/-- A row ends in the character of its last symbol, escaped or not. -/
theorem written_getLast (us : List Symbol) : (written us).getLast? = (spelled us).getLast? := by
  cases us using List.reverseRecOn with
  | nil => rfl
  | append_singleton us u =>
    rw [written_append, spelled, List.map_append, List.getLast?_append, List.getLast?_append]
    cases u <;> rfl

theorem Compound.getLast_solid (c : Compound) :
    ∃ stop, c.text.getLast? = some stop ∧ Text.isBlank stop = false := by
  refine ⟨(c.symbols.getLast c.filled).char, ?_, Symbol.char_solid _⟩
  rw [Compound.text, written_getLast, spelled, List.getLast?_map,
    List.getLast?_eq_getLast_of_ne_nil c.filled, Option.map_some]

theorem Layout.body_head (l : Layout) :
    ∃ start, l.body.head? = some start ∧ Text.isBlank start = false := by
  unfold Layout.body
  cases l.row with
  | nil => simpa using l.last.head_solid []
  | cons part row =>
    simp only [List.flatMap_cons, List.append_assoc]
    exact part.1.head_solid _

theorem Layout.body_getLast (l : Layout) :
    ∃ stop, l.body.getLast? = some stop ∧ Text.isBlank stop = false := by
  obtain ⟨stop, last, solid⟩ := l.last.getLast_solid
  refine ⟨stop, ?_, solid⟩
  rw [Layout.body, List.getLast?_append, last, Option.some_or]

/-- Stripping a selector only shortens the breaks around it. -/
theorem compounds_layout (l : Layout) : compounds l.text = l.compounds.map Compound.text := by
  obtain ⟨start, first, kept⟩ := l.body_head
  obtain ⟨stop, last, kept'⟩ := l.body_getLast
  rw [compounds, Layout.text, Text.stripBy_around _ _ _ _ start stop first last ⟨kept, kept'⟩]
  exact parts_layout { l with
    lead := ⟨_, fun c member => l.lead.breaks c ((List.dropWhile_sublist _).subset member)⟩
    trail := ⟨_, fun c member => l.trail.breaks c ((List.rdropWhile_prefix _ _).subset member)⟩ }

theorem className_text (c : Compound) :
    className? c.text = if c.isClass then some c.text.tail else none := by
  unfold Compound.isClass className?
  split
  next name point => simp [point]
  next other =>
    have pointless : c.text.head? ≠ some '.' := by
      intro point
      obtain ⟨name, text⟩ := List.head?_eq_some_iff.mp point
      exact other name text
    simp [pointless]

theorem classNames_text (cs : List Compound) :
    (cs.map Compound.text).filterMap className? =
      (cs.filter Compound.isClass).map (·.text.tail) := by
  induction cs with
  | nil => rfl
  | cons c cs ih =>
    rw [List.map_cons, List.filterMap_cons, className_text, ih]
    cases class? : c.isClass <;> simp [class?]

/-- Of all compounds the target is the last class, without its point. -/
theorem target_class (cs : List Compound) (c : Compound)
    (last : (cs.filter Compound.isClass).getLast? = some c) :
    target (cs.map Compound.text) = c.text.tail := by
  simp only [target, classNames_text, List.getLast?_map, last, Option.map_some]

/-- A compound alone is a selector. -/
def Compound.layout (c : Compound) : Layout where
  lead := ⟨[], by simp⟩
  row := []
  last := c
  trail := ⟨[], by simp⟩

theorem compounds_text (c : Compound) : compounds c.text = [c.text] := by
  have alone := compounds_layout c.layout
  simpa [Compound.layout, Layout.text, Layout.body, Layout.compounds] using alone

/-- A selector with a class styles what its last class styles by itself: no other compound counts,
and neither do the breaks. -/
theorem styled_last_class (l : Layout) (class? : ∃ c ∈ l.compounds, c.isClass) :
    ∃ c, (l.compounds.filter Compound.isClass).getLast? = some c ∧
      styled (String.ofList l.text) = styled (String.ofList c.text) := by
  obtain ⟨d, member, point⟩ := class?
  have filled : l.compounds.filter Compound.isClass ≠ [] :=
    List.ne_nil_of_mem (List.mem_filter.mpr ⟨member, point⟩)
  obtain ⟨c, last⟩ := Option.isSome_iff_exists.mp (List.getLast?_isSome.mpr filled)
  have isClass := (List.mem_filter.mp (List.mem_of_getLast? last)).2
  have alone : ([c].filter Compound.isClass).getLast? = some c := by simp [isClass]
  refine ⟨c, last, ?_⟩
  rw [styled, styled, String.toList_ofList, String.toList_ofList, compounds_layout,
    compounds_text, target_class _ c last, ← target_class [c] c alone]
  rfl

theorem solid_of_all {cs : List Char} (each : cs.all fun c => c != '\\' && !isBreak c) :
    ∀ c ∈ cs, c ≠ '\\' ∧ isBreak c = false := by
  simpa using each

/-- A class in a hovered group, with an escaped combinator in its name, before another element. -/
def hoveredGroup : Layout where
  lead := ⟨['\n', ' '], List.all_eq_true.mp (by decide)⟩
  row := [
    (⟨bareRow ".group:hover".toList (solid_of_all (by decide)), by simp [bareRow]⟩,
      ⟨⟨" > ".toList, List.all_eq_true.mp (by decide)⟩, by decide⟩),
    (⟨bareRow ".m".toList (solid_of_all (by decide)) ++ .escaped '>' (by decide) ::
        bareRow ":focus".toList (solid_of_all (by decide)), by simp⟩,
      ⟨⟨['+'], List.all_eq_true.mp (by decide)⟩, by decide⟩)]
  last := ⟨[.bare '*' (by decide)], by simp⟩
  trail := ⟨", ".toList, List.all_eq_true.mp (by decide)⟩

theorem styled_last_class_hoveredGroup :
    String.ofList hoveredGroup.text = "\n .group:hover > .m\\>:focus+*, " ∧
    (∃ c ∈ hoveredGroup.compounds, c.isClass) ∧
    ∃ c, (hoveredGroup.compounds.filter Compound.isClass).getLast? = some c ∧
      String.ofList c.text = ".m\\>:focus" ∧
      styled (String.ofList hoveredGroup.text) = styled (String.ofList c.text) := by
  have class? : ∃ c ∈ hoveredGroup.compounds, c.isClass :=
    ⟨_, List.mem_cons_self, by decide⟩
  obtain ⟨c, last, same⟩ := styled_last_class hoveredGroup class?
  have text : (hoveredGroup.compounds.filter Compound.isClass).getLast?.map
      (fun c => String.ofList c.text) = some ".m\\>:focus" := by decide
  rw [last, Option.map_some, Option.some.injEq] at text
  exact ⟨by decide, class?, c, last, text, same⟩

end ElmStyle.Css.Selector
