/-!
# The order of texts

Texts are ordered by their code points, from the first place where they differ.
-/
namespace ElmStyle.Text

/-- The texts in order, each as often as it is given. -/
def sorted (texts : List String) : List String := texts.mergeSort fun a b => decide (a ≤ b)

theorem sorted_perm (texts : List String) : (sorted texts).Perm texts :=
  List.mergeSort_perm _ _

@[simp] theorem mem_sorted {text : String} {texts : List String} :
    text ∈ sorted texts ↔ text ∈ texts :=
  List.mem_mergeSort

theorem sorted_pairwise (texts : List String) : (sorted texts).Pairwise (· ≤ ·) := by
  refine (List.pairwise_mergeSort ?_ ?_ texts).imp of_decide_eq_true
  · intro a b c first second
    exact decide_eq_true (String.le_trans (of_decide_eq_true first) (of_decide_eq_true second))
  · intro a b
    rw [Bool.or_eq_true, decide_eq_true_eq, decide_eq_true_eq]
    exact String.le_total a b

/-- A row in order is settled by which texts it has and how often. -/
theorem sorted_eq {texts row : List String} (ordered : row.Pairwise (· ≤ ·))
    (same : texts.Perm row) : sorted texts = row :=
  ((sorted_perm texts).trans same).eq_of_pairwise
    (fun _ _ _ _ upTo downTo => String.le_antisymm upTo downTo) (sorted_pairwise texts) ordered

end ElmStyle.Text
