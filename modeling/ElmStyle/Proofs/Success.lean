import Mathlib.Data.List.Forall2

/-!
# Steps that succeed

What is known of the steps of a computation that has succeeded.
-/
namespace ElmStyle

variable {ε δ α β : Type}

theorem map_success {f : α → β} {step : Except ε α} {value : β} (success : step.map f = .ok value) :
    ∃ x, step = .ok x ∧ f x = value := by
  cases step with
  | error e => cases success
  | ok x => exact ⟨x, rfl, Except.ok.inj success⟩

theorem mapError_success {f : ε → δ} {step : Except ε α} {value : α}
    (success : step.mapError f = .ok value) : step = .ok value := by
  cases step with
  | error e => cases success
  | ok x => exact congrArg Except.ok (Except.ok.inj success)

theorem bind_success {step : Except ε α} {next : α → Except ε β} {value : β}
    (success : (step >>= next) = .ok value) : ∃ x, step = .ok x ∧ next x = .ok value := by
  cases step with
  | error e => cases success
  | ok x => exact ⟨x, rfl, success⟩

/-- A row of steps that all succeed gives their results in order. -/
theorem mapM_success (f : α → Except ε β) (xs : List α) (ys : List β)
    (success : xs.mapM f = .ok ys) : List.Forall₂ (fun x y => f x = .ok y) xs ys := by
  induction xs generalizing ys with
  | nil =>
    cases success
    exact .nil
  | cons x rest ih =>
    rw [List.mapM_cons] at success
    obtain ⟨y, first, success⟩ := bind_success success
    obtain ⟨zs, later, success⟩ := bind_success success
    cases success
    exact .cons first (ih zs later)

/-- A row of steps fails exactly if one of them does. -/
theorem mapM_failure_iff (f : α → Except ε β) (xs : List α) :
    (∃ e, xs.mapM f = .error e) ↔ ∃ x ∈ xs, ∃ e, f x = .error e := by
  induction xs with
  | nil => simp [pure, Except.pure]
  | cons x rest ih =>
    rw [List.mapM_cons, List.exists_mem_cons_iff, ← ih]
    cases f x <;> cases rest.mapM f <;> simp [bind, Except.bind, pure, Except.pure]

/-- The failure of a row of steps is that of the first step that fails. -/
theorem mapM_first_failure (f : α → Except ε β) (xs : List α) (e : ε)
    (failure : xs.mapM f = .error e) :
    ∃ before x after, xs = before ++ x :: after ∧ (∀ y ∈ before, ∃ value, f y = .ok value) ∧
      f x = .error e := by
  induction xs with
  | nil => cases failure
  | cons x rest ih =>
    rw [List.mapM_cons] at failure
    cases first : f x with
    | error e =>
      rw [first] at failure
      cases failure
      exact ⟨[], x, rest, rfl, by simp, first⟩
    | ok value =>
      cases later : rest.mapM f with
      | error e =>
        rw [first, later] at failure
        cases failure
        obtain ⟨before, y, after, rfl, passed, failed⟩ := ih later
        exact ⟨x :: before, y, after, rfl,
          List.forall_mem_cons.mpr ⟨⟨value, first⟩, passed⟩, failed⟩
      | ok values =>
        rw [first, later] at failure
        cases failure

theorem mapM_mapError (f : α → Except ε β) (g : ε → δ) (xs : List α) :
    xs.mapM (fun x => (f x).mapError g) = (xs.mapM f).mapError g := by
  induction xs with
  | nil => rfl
  | cons x rest ih =>
    rw [List.mapM_cons, List.mapM_cons, ih]
    cases f x <;> cases rest.mapM f <;> rfl

theorem forM_eq_ok (f : α → Except ε Unit) (items : List α) :
    items.forM f = .ok () ↔ ∀ item ∈ items, f item = .ok () := by
  induction items with
  | nil => simp [pure, Except.pure]
  | cons item rest ih =>
    rw [List.forall_mem_cons, ← ih]
    change (f item >>= fun _ => rest.forM f) = .ok () ↔ _
    cases f item <;> simp [bind, Except.bind]

/-- Every result comes from one of the items. -/
theorem forall₂_mem_right {R : α → β → Prop} {xs : List α} {ys : List β}
    (related : List.Forall₂ R xs ys) (y : β) (member : y ∈ ys) : ∃ x ∈ xs, R x y := by
  induction related with
  | nil => cases member
  | cons first _ ih =>
    rcases List.mem_cons.mp member with rfl | later
    · exact ⟨_, List.mem_cons_self, first⟩
    · obtain ⟨x, held, related⟩ := ih later
      exact ⟨x, List.mem_cons_of_mem _ held, related⟩

/-- What each item is related to, in a row. -/
theorem exists_forall₂ {R : α → β → Prop} (xs : List α) (each : ∀ x ∈ xs, ∃ y, R x y) :
    ∃ ys, List.Forall₂ R xs ys := by
  induction xs with
  | nil => exact ⟨[], .nil⟩
  | cons x rest ih =>
    obtain ⟨y, first⟩ := each x (by simp)
    obtain ⟨ys, later⟩ := ih (fun x member => each x (by simp [member]))
    exact ⟨y :: ys, .cons first later⟩

end ElmStyle
