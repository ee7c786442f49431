import ElmStyle.Proofs.Css.States
import ElmStyle.Proofs.Elm.Characters

/-!
# Escaped names

A name is written in a selector with a backslash before each character other than letters, digits,
underscores and hyphens. Reading the class gives the name back, by itself and with a state.
-/
namespace ElmStyle.Css.Selector

/-- A character that a name holds without a backslash. -/
def isSafe (c : Char) : Bool := c.isAlphanum || c == '_' || c == '-'

/-- A character of a name as it is written. -/
def safely (c : Char) : List Char := if isSafe c then [c] else ['\\', c]

/-- A name as it is written in a selector. -/
def escapeName (name : String) : String := String.ofList (name.toList.flatMap safely)

theorem isSafe_ascii (c : Char) (safe : isSafe c) : c.toNat < 128 := by
  rcases Bool.or_eq_true_iff.mp safe with allowed | hyphen
  · exact Elm.isNameChar_ascii c allowed
  · rw [beq_iff_eq.mp hyphen]
    decide

theorem isSafe_solid (c : Char) (safe : isSafe c) : c ≠ '\\' ∧ isBreak c = false ∧ c ≠ ':' :=
  Text.forall_char_below 128 (fun c => isSafe c → c ≠ '\\' ∧ isBreak c = false ∧ c ≠ ':')
    (by decide) c (isSafe_ascii c safe) safe

theorem isSafe_of_isStateChar (c : Char) (char : isStateChar c) : isSafe c := by
  simp only [isStateChar, Bool.or_eq_true, beq_iff_eq] at char
  rcases char with lower | rfl
  · delta isSafe Char.isAlphanum Char.isAlpha
    simp [lower]
  · decide

/-- A written name is a row of symbols that spell it, without a bare colon among them. -/
theorem exists_nameSymbols (name : List Char) (solid : ∀ c ∈ name, Text.isBlank c = false) :
    ∃ us, written us = name.flatMap safely ∧ spelled us = name ∧
      ∀ u ∈ us, u.bare? ≠ some ':' := by
  induction name with
  | nil => exact ⟨[], rfl, rfl, by simp⟩
  | cons c name ih =>
    obtain ⟨us, text, spells, colonless⟩ := ih fun d member => solid d (by simp [member])
    by_cases safe : isSafe c
    · obtain ⟨plain, unbroken, other⟩ := isSafe_solid c safe
      refine ⟨.bare c ⟨plain, unbroken⟩ :: us, ?_, by simp [spelled, Symbol.char, ← spells], ?_⟩
      · rw [written_cons, text, List.flatMap_cons, safely, if_pos safe]
        rfl
      · simpa [Symbol.bare?, other] using colonless
    · have unblank := solid c (by simp)
      refine ⟨.escaped c unblank :: us, ?_, by simp [spelled, Symbol.char, ← spells], ?_⟩
      · rw [written_cons, text, List.flatMap_cons, safely, if_neg safe]
        rfl
      · simpa [Symbol.bare?] using colonless

theorem exists_bare (cs : List Char) (solid : ∀ c ∈ cs, c ≠ '\\' ∧ isBreak c = false) :
    ∃ us : List Symbol, us.map Symbol.bare? = cs.map some :=
  ⟨bareRow cs solid, by simp [bareRow, List.map_pmap, Symbol.bare?, List.pmap_eq_map]⟩

/-- The text of a state after as many colons can be written with bare symbols. -/
theorem exists_stateSymbols (colons : Nat) (state : List Char) (named : IsState state) :
    ∃ us : List Symbol, us.map Symbol.bare? = (List.replicate colons ':' ++ state).map some := by
  apply exists_bare
  intro c member
  rcases List.mem_append.mp member with colon | later
  · obtain rfl := List.eq_of_mem_replicate colon
    decide
  · obtain ⟨plain, unbroken, -⟩ := isSafe_solid c (isSafe_of_isStateChar c (named.chars c later))
    exact ⟨plain, unbroken⟩

/-- A class of that name in a state is read as the name and the state. -/
theorem styled_escaped_state (name state : String) (colons : Nat)
    (solid : ∀ c ∈ name.toList, Text.isBlank c = false) (few : colons = 1 ∨ colons = 2)
    (bare : name.toList.getLast? ≠ some '\\') (named : IsState state.toList) :
    styled ("." ++ escapeName name ++ String.ofList (List.replicate colons ':') ++ state) =
      ⟨name, some state⟩ := by
  obtain ⟨us, text, spells, colonless⟩ := exists_nameSymbols name.toList solid
  obtain ⟨tail, row⟩ := exists_stateSymbols colons state.toList named
  have ends : EndsInState (us ++ tail) us colons state.toList := by
    refine ⟨⟨tail, rfl, row⟩, few, fun _ colon => ?_, named⟩
    obtain ⟨u, last, mark⟩ := Option.bind_eq_some_iff.mp colon
    exact colonless u (List.mem_of_getLast? last) mark
  have whole : "." ++ escapeName name ++ String.ofList (List.replicate colons ':') ++ state =
      classText (us ++ tail) := by
    apply String.toList_injective
    simp [classText, escapeName, written_append, text, (bare_text tail _ row).1]
  rw [whole, styled_state ends (by rwa [spells]), spells, String.ofList_toList,
    String.ofList_toList]

/-- Reading a class undoes the escapes of its name. A state after it is told apart from the name,
with one colon or two, unless the name ends in a backslash. -/
theorem styled_escaped (name : String) (solid : ∀ c ∈ name.toList, Text.isBlank c = false) :
    styled ("." ++ escapeName name) = ⟨name, none⟩ ∧
    ∀ state : String, name.toList.getLast? ≠ some '\\' → IsState state.toList →
      styled ("." ++ escapeName name ++ ":" ++ state) = ⟨name, some state⟩ ∧
      styled ("." ++ escapeName name ++ "::" ++ state) = ⟨name, some state⟩ := by
  constructor
  · obtain ⟨us, text, spells, colonless⟩ := exists_nameSymbols name.toList solid
    have absent : ∀ before colons state, ¬EndsInState us before colons state := by
      intro before colons state ends
      obtain ⟨tail, rfl, row⟩ := ends.row
      have colon : some ':' ∈ tail.map Symbol.bare? := by
        rcases ends.few with rfl | rfl <;> simp [row]
      obtain ⟨u, member, mark⟩ := List.mem_map.mp colon
      exact colonless u (List.mem_append_right _ member) mark
    have whole : "." ++ escapeName name = classText us := by
      apply String.toList_injective
      simp [classText, escapeName, text]
    rw [whole, styled_stateless absent, spells, String.ofList_toList]
  · intro state bare named
    exact ⟨styled_escaped_state name state 1 solid (.inl rfl) bare named,
      styled_escaped_state name state 2 solid (.inr rfl) bare named⟩

/-- Combinators, points, backslashes and colons in a name are no part of the selector around it. -/
theorem styled_escaped_odd :
    (∀ c ∈ "a\\:b.>,c:".toList, Text.isBlank c = false) ∧
    escapeName "a\\:b.>,c:" = "a\\\\\\:b\\.\\>\\,c\\:" ∧
    styled ".a\\\\\\:b\\.\\>\\,c\\:" = ⟨"a\\:b.>,c:", none⟩ ∧
    "a\\:b.>,c:".toList.getLast? ≠ some '\\' ∧ IsState "hover".toList ∧
    styled ".a\\\\\\:b\\.\\>\\,c\\::hover" = ⟨"a\\:b.>,c:", some "hover"⟩ := by
  have solid : ∀ c ∈ "a\\:b.>,c:".toList, Text.isBlank c = false := by
    have each : "a\\:b.>,c:".toList.all (!Text.isBlank ·) := by decide
    simpa using each
  have last : "a\\:b.>,c:".toList.getLast? ≠ some '\\' := by decide
  have read := styled_escaped "a\\:b.>,c:" solid
  exact ⟨solid, by decide, read.1, last, hover_isState, (read.2 "hover" last hover_isState).1⟩

end ElmStyle.Css.Selector
