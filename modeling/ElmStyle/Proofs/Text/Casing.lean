import ElmStyle.Text.Upper
import Mathlib.Data.String.Basic

/-!
# Upper case

What upper-casing a character gives: one character at least, and a line break only from a line
break. Facts about ASCII are checked character by character.
-/
namespace ElmStyle.Text

/-- A property of the characters below a bound is settled by checking each of them. -/
theorem forall_char_below (bound : Nat) (P : Char → Prop)
    (each : ∀ n : Nat, n < bound → P (Char.ofNat n)) (c : Char) (below : c.toNat < bound) :
    P c := by
  have holds := each c.toNat below
  rwa [Char.ofNat_toNat] at holds

theorem ofNat_eq_newline (n : Nat) (equal : Char.ofNat n = '\n') : n = 10 := by
  unfold Char.ofNat at equal
  by_cases valid : n.isValidChar
  · rw [dif_pos valid] at equal
    exact congrArg Char.toNat equal
  · rw [dif_neg valid] at equal
    exact absurd equal (by decide)

theorem expansions_no_newline :
    ∀ entry ∈ upperExpansions, ∀ n ∈ entry.2, n ≠ 10 := by decide +kernel

theorem runs_above_newline : ∀ run ∈ upperRuns, 10 < run.2.2.2 := by decide +kernel

theorem runTarget_above_newline (n target : Nat) (found : runTarget? n upperRuns = some target) :
    10 < target := by
  unfold runTarget? at found
  obtain ⟨run, hit, rfl⟩ := Option.map_eq_some_iff.mp found
  have above := runs_above_newline run (List.mem_of_find?_eq_some hit)
  exact Nat.lt_of_lt_of_le above (Nat.le_add_right _ _)

/-- Upper-casing brings in no line break. -/
theorem newline_not_mem_upper (c : Char) (other : c ≠ '\n') : '\n' ∉ upper c := by
  unfold upper
  split
  next ascii =>
    have kept : Char.toUpper c ≠ '\n' :=
      forall_char_below 128 (fun c => c ≠ '\n' → c.toUpper ≠ '\n') (by decide) c ascii other
    simpa using kept.symm
  next =>
    split
    next expansion found =>
      intro member
      obtain ⟨n, listed, equal⟩ := List.mem_map.mp member
      obtain ⟨before, after, split, -⟩ := List.lookup_eq_some_iff.mp found
      have entry : (c.toNat, expansion) ∈ upperExpansions := by simp [split]
      exact expansions_no_newline _ entry n listed (ofNat_eq_newline n equal)
    next =>
      split
      next target found =>
        have above := runTarget_above_newline c.toNat target found
        intro member
        have equal := ofNat_eq_newline target (List.mem_singleton.mp member).symm
        omega
      next => simpa using other.symm

theorem expansions_filled : ∀ entry ∈ upperExpansions, entry.2 ≠ [] := by decide +kernel

theorem upper_filled (c : Char) : upper c ≠ [] := by
  unfold upper
  split
  · simp
  · split
    next expansion found =>
      obtain ⟨before, after, split, -⟩ := List.lookup_eq_some_iff.mp found
      have entry : (c.toNat, expansion) ∈ upperExpansions := by simp [split]
      simpa using expansions_filled _ entry
    · split <;> simp

end ElmStyle.Text
