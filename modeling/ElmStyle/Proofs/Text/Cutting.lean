import ElmStyle.Text.Pieces
import Mathlib.Data.String.Basic

/-!
# Cutting at a separator

A joined text is cut at its separators, found from the left. Cutting undoes joining if no piece has
the first character of the separator.
-/
namespace ElmStyle.Text

/-- The pieces of a text between the places where a separator stands, found from the left. `passing`
is how much of a separator is still to be passed. -/
def cutAt (separator : List Char) (passing : Nat) : List Char → List (List Char)
  | [] => [[]]
  | c :: rest => match passing with
    | left + 1 => cutAt separator left rest
    | 0 =>
      if separator.isPrefixOf (c :: rest) then
        [] :: cutAt separator (separator.length - 1) rest
      else pushFront [c] (cutAt separator 0 rest)

/-- The pieces of a text between the separators. -/
def splitOn (separator text : String) : List String :=
  (cutAt separator.toList 0 text.toList).map String.ofList

theorem cutAt_passing (separator passed rest : List Char) :
    cutAt separator passed.length (passed ++ rest) = cutAt separator 0 rest := by
  induction passed with
  | nil => rfl
  | cons c later ih => exact ih

/-- A piece that lacks the first character of the separator ends where the separator stands. -/
theorem cutAt_piece (head : Char) (tail piece rest : List Char) (absent : head ∉ piece) :
    cutAt (head :: tail) 0 (piece ++ (head :: tail) ++ rest) =
      piece :: cutAt (head :: tail) 0 rest := by
  induction piece with
  | nil =>
    have stands : (head :: tail).isPrefixOf (head :: (tail ++ rest)) = true := by
      simp
    rw [List.nil_append, List.cons_append, cutAt, if_pos stands]
    exact congrArg _ (cutAt_passing _ tail rest)
  | cons c later ih =>
    have other : head ≠ c := by
      rintro rfl
      exact absent (by simp)
    have ih := ih (fun member => absent (by simp [member]))
    have fails : (head :: tail).isPrefixOf (c :: (later ++ (head :: tail) ++ rest)) = false := by
      simp [List.isPrefixOf, other]
    rw [List.cons_append, List.cons_append, cutAt, fails, if_neg Bool.false_ne_true, ih]
    rfl

theorem cutAt_last (head : Char) (tail piece : List Char) (absent : head ∉ piece) :
    cutAt (head :: tail) 0 piece = [piece] := by
  induction piece with
  | nil => rfl
  | cons c later ih =>
    have other : head ≠ c := by
      rintro rfl
      exact absent (by simp)
    have ih := ih (fun member => absent (by simp [member]))
    have fails : (head :: tail).isPrefixOf (c :: later) = false := by
      simp [List.isPrefixOf, other]
    rw [cutAt, fails, if_neg Bool.false_ne_true, ih]
    rfl

/-- Cutting undoes joining, if no piece has the first character of the separator. -/
theorem cutAt_intercalate (head : Char) (tail : List Char) (separator : String)
    (spelled : separator.toList = head :: tail) (texts : List String) (filled : texts ≠ [])
    (absent : ∀ text ∈ texts, head ∉ text.toList) :
    cutAt (head :: tail) 0 (separator.intercalate texts).toList = texts.map String.toList := by
  induction texts with
  | nil => exact absurd rfl filled
  | cons text later ih =>
    have first := absent text (by simp)
    cases later with
    | nil => simpa using cutAt_last head tail text.toList first
    | cons next others =>
      have ih := ih (by simp) (fun other member => absent other (by simp [member]))
      rw [String.intercalate_cons_cons, String.toList_append, String.toList_append, spelled,
        cutAt_piece head tail text.toList _ first, ih]
      rfl

theorem splitOn_intercalate (head : Char) (tail : List Char) (separator : String)
    (spelled : separator.toList = head :: tail) (texts : List String) (filled : texts ≠ [])
    (absent : ∀ text ∈ texts, head ∉ text.toList) :
    splitOn separator (separator.intercalate texts) = texts := by
  rw [splitOn, spelled, cutAt_intercalate head tail separator spelled texts filled absent,
    List.map_map]
  simp

end ElmStyle.Text
