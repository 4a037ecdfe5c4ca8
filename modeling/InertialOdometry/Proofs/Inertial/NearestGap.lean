import Mathlib.Data.List.Find
import InertialOdometry.Proofs.Inertial.Nearest
import InertialOdometry.Proofs.Scalar.Sign

/-!
Which item the search for the nearest one finds, told by the gaps that the search computes.
Nothing is asked of the times: they come in any order, they repeat, and a gap may be no
number. Where some gap is zero or less, the item found is the first of those with the
largest such gap; else, as long as all gaps are numbers, it is the first of those with the
smallest gap.
-/

namespace InertialOdometry

variable {α β : Type} [Scalar α]

/-- The item `x` has the largest of the gaps to the time `t` that are zero or less. -/
def LatestPast (time : β → α) (t : α) (items : List β) (x : β) : Prop :=
  time x - t ≤ Scalar.zero ∧
    ∀ y ∈ items, time y - t ≤ Scalar.zero → time y - t ≤ time x - t

/-- The item `x` has the smallest of all gaps to the time `t`. -/
def Soonest (time : β → α) (t : α) (items : List β) (x : β) : Prop :=
  ∀ y ∈ items, time x - t ≤ time y - t

instance (time : β → α) (t : α) (items : List β) : DecidablePred (LatestPast time t items) :=
  fun x => inferInstanceAs (Decidable (time x - t ≤ Scalar.zero ∧
    ∀ y ∈ items, time y - t ≤ Scalar.zero → time y - t ≤ time x - t))

instance (time : β → α) (t : α) (items : List β) : DecidablePred (Soonest time t items) :=
  fun x => inferInstanceAs (Decidable (∀ y ∈ items, time x - t ≤ time y - t))

namespace Candidates

/-- Being nearer, for items that can be compared with one another; ties are left open. -/
structure Ranks (nearer : β → β → Bool) (items : List β) : Prop where
  asymm : ∀ x ∈ items, ∀ y ∈ items, nearer x y = true → nearer y x = false
  trans : ∀ x ∈ items, ∀ y ∈ items, ∀ z ∈ items,
    nearer x y = true → nearer z y = false → nearer x z = true

omit [Scalar α] in
theorem Ranks.mono {nearer : β → β → Bool} {items some : List β} (h : Ranks nearer items)
    (hsome : some ⊆ items) : Ranks nearer some where
  asymm x hx y hy := h.asymm x (hsome hx) y (hsome hy)
  trans x hx y hy z hz := h.trans x (hsome hx) y (hsome hy) z (hsome hz)

omit [Scalar α] in
private theorem eq_nil_of_foldl_keep {nearer : β → β → Bool} {items : List β}
    (h : items.foldl (keep nearer) none = none) : items = [] := by
  cases items using List.reverseRecOn with
  | nil => rfl
  | append_singleton items last =>
      rw [List.foldl_append, List.foldl_cons, List.foldl_nil] at h
      unfold keep at h
      split at h
      · cases h
      · split at h <;> cases h

omit [Scalar α] in
/-- An item that is nearer than all before it and as near as all after it has no nearer one. -/
theorem Ranks.best_of_split {nearer : β → β → Bool} {items front back : List β} {x : β}
    (h : Ranks nearer items) (hitems : items = front ++ x :: back)
    (hfront : ∀ y ∈ front, nearer x y = true) (hback : ∀ y ∈ back, nearer y x = false) :
    ∀ y ∈ items, nearer y x = false := by
  have hx : x ∈ items := by simp [hitems]
  intro y hy
  obtain hbefore | rfl | hafter : y ∈ front ∨ y = x ∨ y ∈ back := by simpa [hitems] using hy
  · exact h.asymm x hx y hy (hfront y hbefore)
  · refine Bool.eq_false_of_not_eq_true fun hself => ?_
    exact Bool.false_ne_true ((h.asymm y hy y hy hself).symm.trans hself)
  · exact hback y hafter

omit [Scalar α] in
/-- The item kept is nearer than all before it, and none after it is nearer. -/
theorem exists_split_of_foldl_keep {nearer : β → β → Bool} {items : List β} {x : β}
    (hranks : Ranks nearer items) (h : items.foldl (keep nearer) none = some x) :
    ∃ front back, items = front ++ x :: back ∧ (∀ y ∈ front, nearer x y = true) ∧
      ∀ y ∈ back, nearer y x = false := by
  -- The induction is on the item that comes last: it is kept only if it is nearer than the
  -- item kept before it, and then it is nearer than all the others.
  induction items using List.reverseRecOn generalizing x with
  | nil => cases h
  | append_singleton items last ih =>
      rw [List.foldl_append, List.foldl_cons, List.foldl_nil] at h
      have hinit := hranks.mono (List.subset_append_left items [last])
      cases hbest : items.foldl (keep nearer) none with
      | none =>
          obtain rfl := eq_nil_of_foldl_keep hbest
          cases h
          exact ⟨[], [], rfl, by simp, by simp⟩
      | some old =>
          obtain ⟨front, back, hitems, hfront, hback⟩ := ih hinit hbest
          have hold : old ∈ items := by simp [hitems]
          simp only [hbest, keep] at h
          split at h <;> rename_i hlast <;> cases h
          · exact ⟨items, [], rfl, fun y hy => hranks.trans last (by simp) old (by simp [hold]) y
              (by simp [hy]) hlast (hinit.best_of_split hitems hfront hback y hy), by simp⟩
          · refine ⟨front, back ++ [last], by simp [hitems], hfront, ?_⟩
            intro y hy
            rw [List.mem_append, List.mem_singleton] at hy
            rcases hy with hy | rfl
            · exact hback y hy
            · exact Bool.eq_false_of_not_eq_true hlast

omit [Scalar α] in
/-- What is kept is the first item that no other is nearer than. -/
theorem foldl_keep_eq_find? {nearer : β → β → Bool} {items : List β}
    (hranks : Ranks nearer items) :
    items.foldl (keep nearer) none =
      items.find? fun x => decide (∀ y ∈ items, nearer y x = false) := by
  cases hkept : items.foldl (keep nearer) none with
  | none => rw [eq_nil_of_foldl_keep hkept, List.find?_nil]
  | some x =>
      obtain ⟨front, back, hitems, hfront, hback⟩ := exists_split_of_foldl_keep hranks hkept
      have hx : x ∈ items := by simp [hitems]
      refine (List.find?_eq_some_iff_append.mpr ⟨?_, front, back, hitems, ?_⟩).symm
      · rw [decide_eq_true_iff]
        exact hranks.best_of_split hitems hfront hback
      · intro y hy
        have hnearer : ∃ z ∈ items, nearer z y = true := ⟨x, hx, hfront y hy⟩
        simpa using hnearer

/-- A comparison of keys that are numbers. -/
theorem ranks_of_lt [SignedScalar α] {nearer : β → β → Bool} {items : List β} {key : β → α}
    (hnumber : ∀ x ∈ items, key x ≤ key x)
    (hnearer : ∀ x ∈ items, ∀ y ∈ items, nearer x y = true ↔ key x < key y) :
    Ranks nearer items where
  asymm x hx y hy h := Bool.eq_false_of_not_eq_true fun hyx =>
    Scalar.not_lt_of_lt ((hnearer x hx y hy).mp h) ((hnearer y hy x hx).mp hyx)
  trans x hx y hy z hz hxy hzy := by
    have hle : key y ≤ key z := (Scalar.not_lt_iff (hnumber z hz) (hnumber y hy)).mp fun hlt =>
      Bool.false_ne_true (hzy.symm.trans ((hnearer z hz y hy).mpr hlt))
    exact (hnearer x hx z hz).mpr (Scalar.lt_of_lt_of_le ((hnearer x hx y hy).mp hxy) hle)

end Candidates

section

variable [SignedScalar α] {time : β → α} {t : α} {items : List β}

/-- Of two items that are not after the time the nearer one has the larger gap. -/
theorem nearer_eq_false_iff {x y : β} (hx : time x - t ≤ Scalar.zero)
    (hy : time y - t ≤ Scalar.zero) :
    decide (Scalar.abs (time y - t) < Scalar.abs (time x - t)) = false ↔
      time y - t ≤ time x - t := by
  rw [decide_eq_false_iff_not, Scalar.abs_lt_abs_iff hy hx,
    Scalar.not_lt_iff (Scalar.le_self_of_le hx) (Scalar.le_self_of_le hy)]

private theorem ranks_past (hpast : ∀ x ∈ items, time x - t ≤ Scalar.zero) :
    Candidates.Ranks
      (fun x y => decide (Scalar.abs (time x - t) < Scalar.abs (time y - t))) items := by
  refine Candidates.ranks_of_lt (fun x hx => ?_) fun x _ y _ => decide_eq_true_iff
  exact (Scalar.abs_le_abs_iff (hpast x hx) (hpast x hx)).mpr (Scalar.le_self_of_le (hpast x hx))

/-- Among gaps some of which are zero or less, the search finds the first of those with the
largest such gap. -/
theorem nearest?_eq_find?_latestPast (hpast : ∃ y ∈ items, time y - t ≤ Scalar.zero) :
    nearest? time t items = items.find? fun x => decide (LatestPast time t items x) := by
  set past := items.filter fun x => decide (time x - t ≤ Scalar.zero) with hdef
  have hmem {x : β} : x ∈ past ↔ x ∈ items ∧ time x - t ≤ Scalar.zero := by
    rw [hdef, List.mem_filter, decide_eq_true_iff]
  have hkept : (past.foldl (Candidates.keep fun x y =>
      decide (Scalar.abs (time x - t) < Scalar.abs (time y - t))) none).isSome = true := by
    obtain ⟨y, hy, hle⟩ := hpast
    rw [Option.isSome_iff_ne_none]
    intro hnone
    exact List.ne_nil_of_mem (hmem.mpr ⟨hy, hle⟩) (Candidates.eq_nil_of_foldl_keep hnone)
  rw [nearest?, Candidates.foldl_weigh, Option.orElse_eq_orElse, Option.orElse_eq_or,
    Option.or_of_isSome hkept,
    Candidates.foldl_keep_eq_find? (ranks_past fun x hx => (hmem.mp hx).2), hdef,
    List.find?_filter]
  refine List.find?_congr fun x hx => ?_
  simp only [decide_eq_true_iff]
  rw [decide_eq_decide]
  refine and_congr_right fun hle => ⟨fun hbest y hy hyle => ?_, fun hbest y hy => ?_⟩
  · exact (nearer_eq_false_iff hle hyle).mp (hbest y (hmem.mpr ⟨hy, hyle⟩))
  · obtain ⟨hyitems, hyle⟩ := hmem.mp hy
    exact (nearer_eq_false_iff hle hyle).mpr (hbest y hyitems hyle)

/-- Where all gaps are numbers above zero, the search finds the first of those with the
smallest gap. -/
theorem nearest?_eq_find?_soonest (hfuture : ∀ y ∈ items, ¬time y - t ≤ Scalar.zero)
    (hnumber : ∀ y ∈ items, Scalar.isNaN (time y - t) = false) :
    nearest? time t items = items.find? fun x => decide (Soonest time t items x) := by
  have hself : ∀ x ∈ items, time x - t ≤ time x - t := fun x hx =>
    Scalar.isNaN_eq_false_iff.mp (hnumber x hx)
  have hnone : items.filter (fun x => decide (time x - t ≤ Scalar.zero)) = [] := by
    simpa using hfuture
  have hall : items.filter (fun x => !decide (time x - t ≤ Scalar.zero)) = items := by
    simpa using hfuture
  rw [nearest?, Candidates.foldl_weigh, hnone, hall, List.foldl_nil, Option.orElse_eq_orElse,
    Option.orElse_eq_or, Option.none_or, Candidates.foldl_keep_eq_find?
      (Candidates.ranks_of_lt hself fun x _ y _ => decide_eq_true_iff)]
  refine List.find?_congr fun x hx => ?_
  rw [decide_eq_decide]
  refine forall₂_congr fun y hy => ?_
  rw [decide_eq_false_iff_not, Scalar.not_lt_iff (hself y hy) (hself x hx)]

end

end InertialOdometry
