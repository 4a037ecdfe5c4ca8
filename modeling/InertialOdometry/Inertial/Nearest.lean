import InertialOdometry.Scalar

/-!
The nearest of several timed items to a given time. Items from the past, or of the very time, are
preferred however near the future ones are; among equally near items the first one counts.
-/

namespace InertialOdometry

/-- The best candidates found so far on either side of the time. -/
structure Candidates (β : Type) where
  past : Option β
  future : Option β

namespace Candidates

variable {α β : Type} [Scalar α]

/-- Weighs one more item. An item replaces a candidate on its side only if it is strictly nearer. -/
def weigh (time : β → α) (t : α) (best : Candidates β) (item : β) : Candidates β :=
  let gap := time item - t
  if gap ≤ Scalar.zero then
    match best.past with
    | none => { best with past := some item }
    | some old =>
      if Scalar.abs gap < Scalar.abs (time old - t) then { best with past := some item } else best
  else
    match best.future with
    | none => { best with future := some item }
    | some old => if gap < time old - t then { best with future := some item } else best

end Candidates

/-- The item nearest to the time `t`; there is one unless there are no items. -/
def nearest? {α β : Type} [Scalar α] (time : β → α) (t : α) (items : List β) : Option β :=
  let best := items.foldl (Candidates.weigh time t) ⟨none, none⟩
  best.past <|> best.future

section

variable {α β : Type} [Scalar α]

/-- Weighing an item leaves a candidate on its side. -/
theorem Candidates.found_weigh (time : β → α) (t : α) (best : Candidates β) (item : β) :
    (best.weigh time t item).past ≠ none ∨ (best.weigh time t item).future ≠ none := by
  unfold weigh
  by_cases hpast : time item - t ≤ Scalar.zero
  · left
    cases hold : best.past with
    | none => simp [hpast]
    | some old =>
        by_cases hnear : Scalar.abs (time item - t) < Scalar.abs (time old - t) <;>
          simp [hpast, hold, hnear]
  · right
    cases hold : best.future with
    | none => simp [hpast]
    | some old =>
        by_cases hnear : time item - t < time old - t <;> simp [hpast, hold, hnear]

theorem Candidates.found_foldl (time : β → α) (t : α) (items : List β) {best : Candidates β}
    (h : best.past ≠ none ∨ best.future ≠ none) :
    (items.foldl (weigh time t) best).past ≠ none ∨
      (items.foldl (weigh time t) best).future ≠ none := by
  induction items generalizing best with
  | nil => exact h
  | cons item rest ih => exact ih (best.found_weigh time t item)

/-- Weighing an item leaves the candidate from the past alone or makes the item the candidate. -/
theorem Candidates.past_weigh (time : β → α) (t : α) (best : Candidates β) (item : β) :
    (best.weigh time t item).past = best.past ∨ (best.weigh time t item).past = some item := by
  unfold weigh
  by_cases hpast : time item - t ≤ Scalar.zero
  · cases hold : best.past with
    | none => simp [hpast]
    | some old =>
        by_cases hnear : Scalar.abs (time item - t) < Scalar.abs (time old - t) <;>
          simp [hpast, hold, hnear]
  · left
    cases hold : best.future with
    | none => simp [hpast]
    | some old =>
        by_cases hnear : time item - t < time old - t <;> simp [hpast, hnear]

/-- The candidate from the past is one of the items. -/
theorem Candidates.mem_of_past {time : β → α} {t : α} {items : List β} {best : Candidates β} {x : β}
    (h : (items.foldl (weigh time t) best).past = some x) : best.past = some x ∨ x ∈ items := by
  induction items generalizing best with
  | nil => exact Or.inl h
  | cons item rest ih =>
      rcases ih h with hpast | hrest
      · rcases best.past_weigh time t item with hkept | htaken
        · exact Or.inl (hkept.symm.trans hpast)
        · rw [htaken] at hpast
          cases hpast
          exact Or.inr List.mem_cons_self
      · exact Or.inr (List.mem_cons_of_mem item hrest)

/-- Among items there is a nearest one, whatever their times are. -/
theorem nearest?_ne_none (time : β → α) (t : α) {items : List β} (h : items ≠ []) :
    nearest? time t items ≠ none := by
  cases items with
  | nil => exact absurd rfl h
  | cons item rest =>
      intro hnone
      simp only [nearest?, List.foldl_cons, Option.orElse_eq_orElse, Option.orElse_eq_or,
        Option.or_eq_none_iff] at hnone
      obtain ⟨hpast, hfuture⟩ := hnone
      rcases Candidates.found_foldl time t rest (Candidates.found_weigh time t ⟨none, none⟩ item) with
        hfound | hfound
      · exact hfound hpast
      · exact hfound hfuture

end

end InertialOdometry
