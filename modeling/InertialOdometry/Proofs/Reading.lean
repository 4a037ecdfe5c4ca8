import Mathlib.Data.List.Forall2
import InertialOdometry.Failure

/-!
Rows that are read member by member. What is read of a row is a row as long as it, with what
is read of each member in its place.
-/

namespace InertialOdometry

theorem mapM_eq_some_iff {β γ : Type} {read : β → Option γ} {xs : List β} {ys : List γ} :
    xs.mapM read = some ys ↔ List.Forall₂ (fun x y => read x = some y) xs ys := by
  induction xs generalizing ys with
  | nil => simp [eq_comm]
  | cons x xs ih =>
      rw [List.mapM_cons, List.forall₂_cons_left_iff]
      constructor
      · intro h
        obtain ⟨y, hy, h⟩ := Option.bind_eq_some_iff.mp h
        obtain ⟨rest, hrest, h⟩ := Option.bind_eq_some_iff.mp h
        cases h
        exact ⟨y, rest, hy, ih.mp hrest, rfl⟩
      · rintro ⟨y, rest, hy, hrest, rfl⟩
        rw [hy, ih.mpr hrest]
        rfl

/-- What is read of a row leaves out no member of which something is read. -/
theorem forall₂_filterMap {β γ : Type} {read : β → Option γ} {xs : List β}
    (h : ∀ x ∈ xs, ∃ y, read x = some y) :
    List.Forall₂ (fun x y => read x = some y) xs (xs.filterMap read) := by
  induction xs with
  | nil => exact .nil
  | cons x xs ih =>
      obtain ⟨y, hy⟩ := h x List.mem_cons_self
      rw [List.filterMap_cons, hy]
      exact .cons hy (ih fun z hz => h z (List.mem_cons_of_mem x hz))

/-- Something is read of a whole row where something is read of each member. -/
theorem exists_forall₂_iff {β γ : Type} {read : β → Option γ} {xs : List β} :
    (∃ ys, List.Forall₂ (fun x y => read x = some y) xs ys) ↔
      ∀ x ∈ xs, ∃ y, read x = some y := by
  constructor
  · rintro ⟨ys, hys⟩ x hx
    induction hys with
    | nil => cases hx
    | cons hy hrest ih =>
        rcases List.mem_cons.mp hx with rfl | hx
        · exact ⟨_, hy⟩
        · exact ih hx
  · intro h
    exact ⟨_, forall₂_filterMap h⟩

/-- A row is read member by member, or not at all. -/
theorem Failure.mapM_eq_ok_iff {β γ : Type} {read : β → Except Failure γ} {xs : List β}
    {ys : List γ} :
    xs.mapM read = .ok ys ↔ List.Forall₂ (fun x y => read x = .ok y) xs ys := by
  induction xs generalizing ys with
  | nil => simp [pure, Except.pure, eq_comm]
  | cons x xs ih =>
      rw [List.mapM_cons, List.forall₂_cons_left_iff]
      constructor
      · intro h
        obtain ⟨y, hy, h⟩ := Failure.of_bind_ok h
        obtain ⟨rest, hrest, h⟩ := Failure.of_bind_ok h
        cases h
        exact ⟨y, rest, hy, ih.mp hrest, rfl⟩
      · rintro ⟨y, rest, hy, hrest, rfl⟩
        rw [hy, ih.mpr hrest]
        rfl

end InertialOdometry
