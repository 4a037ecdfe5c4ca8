import InertialOdometry.Inertial.BoundedQueue
import InertialOdometry.Inertial.Nearest
import InertialOdometry.Proofs.Exact.Real

/-!
Which item is the nearest to a time, where times are compared exactly: the latest of those
that are not after it or, where there is none, the earliest of all; of several such items
the first. A later time never has an earlier nearest item, and neither do items that are
joined by later ones while the oldest are given up.
-/

namespace InertialOdometry

variable {α β : Type} [Scalar α]

/-- Times that are compared exactly. None of them is incomparable with itself, and what is
told from the gaps between them is what they tell themselves. -/
structure ExactTimes (times : List α) : Prop where
  total : ∀ a ∈ times, ∀ b ∈ times, a ≤ b ∨ b ≤ a
  trans : ∀ a ∈ times, ∀ b ∈ times, ∀ c ∈ times, a ≤ b → b ≤ c → a ≤ c
  lt_iff : ∀ a ∈ times, ∀ b ∈ times, a < b ↔ ¬b ≤ a
  gap_nonpos : ∀ a ∈ times, ∀ t ∈ times, a - t ≤ Scalar.zero ↔ a ≤ t
  gap_lt : ∀ a ∈ times, ∀ b ∈ times, ∀ t ∈ times, a - t < b - t ↔ a < b
  abs_gap_lt : ∀ a ∈ times, ∀ b ∈ times, ∀ t ∈ times, a ≤ t → b ≤ t →
    (Scalar.abs (a - t) < Scalar.abs (b - t) ↔ b < a)

instance (times : List α) : Decidable (ExactTimes times) :=
  decidable_of_iff
    ((∀ a ∈ times, ∀ b ∈ times, a ≤ b ∨ b ≤ a) ∧
      (∀ a ∈ times, ∀ b ∈ times, ∀ c ∈ times, a ≤ b → b ≤ c → a ≤ c) ∧
      (∀ a ∈ times, ∀ b ∈ times, a < b ↔ ¬b ≤ a) ∧
      (∀ a ∈ times, ∀ t ∈ times, a - t ≤ Scalar.zero ↔ a ≤ t) ∧
      (∀ a ∈ times, ∀ b ∈ times, ∀ t ∈ times, a - t < b - t ↔ a < b) ∧
      ∀ a ∈ times, ∀ b ∈ times, ∀ t ∈ times, a ≤ t → b ≤ t →
        (Scalar.abs (a - t) < Scalar.abs (b - t) ↔ b < a))
    ⟨fun ⟨htotal, htrans, hlt, hnonpos, hgap, habs⟩ => ⟨htotal, htrans, hlt, hnonpos, hgap, habs⟩,
      fun h => ⟨h.total, h.trans, h.lt_iff, h.gap_nonpos, h.gap_lt, h.abs_gap_lt⟩⟩

/-- Exact arithmetic compares all times exactly. -/
theorem exactTimes_real (times : List ℝ) : ExactTimes times where
  total a _ b _ := le_total a b
  trans a _ b _ c _ := le_trans
  lt_iff a _ b _ := not_le.symm
  gap_nonpos a _ t _ := by rw [Scalar.zero_real, sub_nonpos]
  gap_lt a _ b _ t _ := sub_lt_sub_iff_right t
  abs_gap_lt a _ b _ t _ ha hb := by
    rw [Scalar.abs_real, Scalar.abs_real, abs_of_nonpos (sub_nonpos.mpr ha),
      abs_of_nonpos (sub_nonpos.mpr hb), neg_lt_neg_iff, sub_lt_sub_iff_right]

theorem ExactTimes.mono {times some : List α} (h : ExactTimes times) (hsome : some ⊆ times) :
    ExactTimes some where
  total a ha b hb := h.total a (hsome ha) b (hsome hb)
  trans a ha b hb c hc := h.trans a (hsome ha) b (hsome hb) c (hsome hc)
  lt_iff a ha b hb := h.lt_iff a (hsome ha) b (hsome hb)
  gap_nonpos a ha t ht := h.gap_nonpos a (hsome ha) t (hsome ht)
  gap_lt a ha b hb t ht := h.gap_lt a (hsome ha) b (hsome hb) t (hsome ht)
  abs_gap_lt a ha b hb t ht := h.abs_gap_lt a (hsome ha) b (hsome hb) t (hsome ht)

section

variable {times : List α} {a b c : α}

theorem ExactTimes.le_refl (h : ExactTimes times) (ha : a ∈ times) : a ≤ a :=
  (h.total a ha a ha).elim id id

theorem ExactTimes.le_of_lt (h : ExactTimes times) (ha : a ∈ times) (hb : b ∈ times)
    (hab : a < b) : a ≤ b :=
  (h.total a ha b hb).resolve_right ((h.lt_iff a ha b hb).mp hab)

theorem ExactTimes.lt_of_le_of_lt (h : ExactTimes times) (ha : a ∈ times) (hb : b ∈ times)
    (hc : c ∈ times) (hab : a ≤ b) (hbc : b < c) : a < c :=
  (h.lt_iff a ha c hc).mpr fun hca =>
    (h.lt_iff b hb c hc).mp hbc (h.trans c hc a ha b hb hca hab)

theorem ExactTimes.lt_of_lt_of_le (h : ExactTimes times) (ha : a ∈ times) (hb : b ∈ times)
    (hc : c ∈ times) (hab : a < b) (hbc : b ≤ c) : a < c :=
  (h.lt_iff a ha c hc).mpr fun hca =>
    (h.lt_iff a ha b hb).mp hab (h.trans b hb c hc a ha hbc hca)

end

/-- An item of a list that is the nearest to the time `t`. -/
inductive Nearest (time : β → α) (t : α) : List β → β → Prop where
  | past {front back : List β} {x : β} (hx : time x ≤ t)
      (hfront : ∀ y ∈ front, time y ≤ t → time y < time x)
      (hback : ∀ y ∈ back, time y ≤ t → time y ≤ time x) :
      Nearest time t (front ++ x :: back) x
  | future {front back : List β} {x : β} (hnone : ∀ y ∈ front ++ x :: back, ¬time y ≤ t)
      (hfront : ∀ y ∈ front, time x < time y) (hback : ∀ y ∈ back, time x ≤ time y) :
      Nearest time t (front ++ x :: back) x

/-! ### The search -/

namespace Candidates

/-- The better one of a candidate and an item; an item has to be nearer to be better. -/
def keep (nearer : β → β → Bool) (best : Option β) (item : β) : Option β :=
  match best with
  | none => some item
  | some old => if nearer item old then some item else some old

omit [Scalar α] in
private theorem foldl_keep_of_best {nearer : β → β → Bool} {x : β} {back : List β}
    (hback : ∀ y ∈ back, nearer y x = false) : back.foldl (keep nearer) (some x) = some x := by
  induction back with
  | nil => rfl
  | cons y back ih =>
      have hy := hback y List.mem_cons_self
      have hrest := ih fun z hz => hback z (List.mem_cons_of_mem y hz)
      simpa [keep, hy] using hrest

private theorem mem_of_foldl_keep {nearer : β → β → Bool} {items : List β} {best : Option β} {x : β}
    (h : items.foldl (keep nearer) best = some x) : best = some x ∨ x ∈ items := by
  induction items generalizing best with
  | nil => exact Or.inl h
  | cons item rest ih =>
      rcases ih h with hkept | hrest
      · unfold keep at hkept
        split at hkept
        · cases hkept
          exact Or.inr List.mem_cons_self
        · split at hkept <;> cases hkept
          · exact Or.inr List.mem_cons_self
          · exact Or.inl rfl
      · exact Or.inr (List.mem_cons_of_mem item hrest)

/-- An item that is nearer than all before it, and as near as all after it, is found. -/
theorem foldl_keep {nearer : β → β → Bool} {front back : List β} {x : β}
    (hfront : ∀ y ∈ front, nearer x y = true) (hback : ∀ y ∈ back, nearer y x = false) :
    (front ++ x :: back).foldl (keep nearer) none = some x := by
  rw [List.foldl_append, List.foldl_cons]
  have htaken : keep nearer (front.foldl (keep nearer) none) x = some x := by
    cases hbest : front.foldl (keep nearer) none with
    | none => rfl
    | some old =>
        have hmem : old ∈ front := by simpa using mem_of_foldl_keep hbest
        simp [keep, hfront old hmem]
  rw [htaken]
  exact foldl_keep_of_best hback

/-- The candidates on the two sides are searched for apart. -/
theorem foldl_weigh (time : β → α) (t : α) (items : List β) (best : Candidates β) :
    items.foldl (weigh time t) best =
      ⟨(items.filter fun x => decide (time x - t ≤ Scalar.zero)).foldl
          (keep fun x y => decide (Scalar.abs (time x - t) < Scalar.abs (time y - t)))
          best.past,
        (items.filter fun x => !decide (time x - t ≤ Scalar.zero)).foldl
          (keep fun x y => decide (time x - t < time y - t)) best.future⟩ := by
  induction items generalizing best with
  | nil => rfl
  | cons item rest ih =>
      rw [List.foldl_cons, ih]
      by_cases hpast : time item - t ≤ Scalar.zero
      · cases hold : best.past with
        | none => simp [weigh, keep, hpast, hold]
        | some old =>
            by_cases hnear : Scalar.abs (time item - t) < Scalar.abs (time old - t) <;>
              simp [weigh, keep, hpast, hold, hnear]
      · cases hold : best.future with
        | none => simp [weigh, keep, hpast, hold]
        | some old =>
            by_cases hnear : time item - t < time old - t <;>
              simp [weigh, keep, hpast, hold, hnear]

end Candidates

section

variable {time : β → α} {t : α} {items : List β} {x : β}

/-- The item found is one of the items, whatever their times are. -/
theorem mem_of_nearest? (h : nearest? time t items = some x) : x ∈ items := by
  rw [nearest?, Candidates.foldl_weigh, Option.orElse_eq_orElse, Option.orElse_eq_or,
    Option.or_eq_some_iff] at h
  rcases h with hpast | ⟨-, hfuture⟩
  · rcases Candidates.mem_of_foldl_keep hpast with hnone | hmem
    · cases hnone
    · exact List.mem_of_mem_filter hmem
  · rcases Candidates.mem_of_foldl_keep hfuture with hnone | hmem
    · cases hnone
    · exact List.mem_of_mem_filter hmem

theorem Nearest.mem (h : Nearest time t items x) : x ∈ items := by
  cases h <;> simp

/-- The nearest item is the latest one that is not after the time, or the earliest of all
where each of them is. -/
theorem Nearest.best (h : Nearest time t items x) (hexact : ExactTimes (items.map time)) :
    (time x ≤ t ∧ ∀ y ∈ items, time y ≤ t → time y ≤ time x) ∨
      ((∀ y ∈ items, ¬time y ≤ t) ∧ ∀ y ∈ items, time x ≤ time y) := by
  have hmem : ∀ {y}, y ∈ items → time y ∈ items.map time := List.mem_map_of_mem
  have hx : time x ∈ items.map time := hmem h.mem
  have hrefl : time x ≤ time x := hexact.le_refl hx
  cases h with
  | past hpast hfront hback =>
      refine Or.inl ⟨hpast, fun y hy hypast => ?_⟩
      rcases List.mem_append.mp hy with hyfront | hyback
      · exact hexact.le_of_lt (hmem hy) hx (hfront y hyfront hypast)
      · rcases List.mem_cons.mp hyback with rfl | hyback
        · exact hrefl
        · exact hback y hyback hypast
  | future hnone hfront hback =>
      refine Or.inr ⟨hnone, fun y hy => ?_⟩
      rcases List.mem_append.mp hy with hyfront | hyback
      · exact hexact.le_of_lt hx (hmem hy) (hfront y hyfront)
      · rcases List.mem_cons.mp hyback with rfl | hyback
        · exact hrefl
        · exact hback y hyback

/-- The search finds an item that is the nearest. -/
theorem Nearest.nearest?_eq (h : Nearest time t items x)
    (hexact : ExactTimes (t :: items.map time)) : nearest? time t items = some x := by
  have ht : t ∈ t :: items.map time := List.mem_cons_self
  have hmem : ∀ {y}, y ∈ items → time y ∈ t :: items.map time := fun hy =>
    List.mem_cons_of_mem t (List.mem_map_of_mem hy)
  have hx := hmem h.mem
  simp only [nearest?, Candidates.foldl_weigh]
  cases h with
  | @past front back _ hpast hfront hback =>
      have hxgap := (hexact.gap_nonpos _ hx t ht).mpr hpast
      rw [List.filter_append, List.filter_cons_of_pos (by simpa using hxgap),
        Candidates.foldl_keep]
      · rfl
      · intro y hy
        obtain ⟨hy, hygap⟩ := List.mem_filter.mp hy
        have hymem := hmem (List.mem_append_left (x :: back) hy)
        have hypast := (hexact.gap_nonpos _ hymem t ht).mp (of_decide_eq_true hygap)
        have hlt := hfront y hy hypast
        exact decide_eq_true
          ((hexact.abs_gap_lt _ hx _ hymem t ht hpast hypast).mpr hlt)
      · intro y hy
        obtain ⟨hy, hygap⟩ := List.mem_filter.mp hy
        have hymem := hmem (List.mem_append_right front (List.mem_cons_of_mem x hy))
        have hypast := (hexact.gap_nonpos _ hymem t ht).mp (of_decide_eq_true hygap)
        have hnot : ¬time x < time y := fun hlt =>
          (hexact.lt_iff _ hx _ hymem).mp hlt (hback y hy hypast)
        exact decide_eq_false
          (mt (hexact.abs_gap_lt _ hymem _ hx t ht hypast hpast).mp hnot)
  | @future front back _ hnone hfront hback =>
      have hfuture : ∀ y ∈ front ++ x :: back, ¬time y - t ≤ Scalar.zero := fun y hy hygap =>
        hnone y hy ((hexact.gap_nonpos _ (hmem hy) t ht).mp hygap)
      rw [List.filter_eq_nil_iff.mpr fun y hy => by simpa using hfuture y hy,
        List.filter_eq_self.mpr fun y hy => by simpa using hfuture y hy,
        Candidates.foldl_keep]
      · rfl
      · intro y hy
        have hymem := hmem (List.mem_append_left (x :: back) hy)
        exact decide_eq_true ((hexact.gap_lt _ hx _ hymem t ht).mpr (hfront y hy))
      · intro y hy
        have hymem := hmem (List.mem_append_right front (List.mem_cons_of_mem x hy))
        have hnot : ¬time y < time x := fun hlt =>
          (hexact.lt_iff _ hymem _ hx).mp hlt (hback y hy)
        exact decide_eq_false (mt (hexact.gap_lt _ hymem _ hx t ht).mp hnot)

/-- Where an item comes to others, the nearest of them stays so unless it is the new one. -/
theorem Nearest.concat (h : Nearest time t items x) {item : β}
    (hexact : ExactTimes ((items ++ [item]).map time)) :
    Nearest time t (items ++ [item]) x ∨ Nearest time t (items ++ [item]) item := by
  have hmem : ∀ {y}, y ∈ items → time y ∈ (items ++ [item]).map time := fun hy =>
    List.mem_map_of_mem (List.mem_append_left [item] hy)
  have hitem : time item ∈ (items ++ [item]).map time := by simp
  have hx := hmem h.mem
  have hbest := h.best (hexact.mono (by simp))
  cases h with
  | @past front back _ hpast hfront hback =>
      rcases hbest with ⟨-, hbest⟩ | ⟨hnone, -⟩
      · by_cases hlater : time item ≤ t ∧ ¬time item ≤ time x
        · have hlt := (hexact.lt_iff _ hx _ hitem).mpr hlater.2
          refine Or.inr (.past hlater.1 (fun y hy hypast => ?_) (by simp))
          exact hexact.lt_of_le_of_lt (hmem hy) hx hitem (hbest y hy hypast) hlt
        · rw [List.append_assoc, List.cons_append]
          refine Or.inl (.past hpast hfront fun y hy hypast => ?_)
          rcases List.mem_append.mp hy with hyback | hylast
          · exact hback y hyback hypast
          · rw [List.mem_singleton.mp hylast] at hypast ⊢
            by_contra hnot
            exact hlater ⟨hypast, hnot⟩
      · exact absurd hpast (hnone x (by simp))
  | @future front back _ hnone hfront hback =>
      by_cases hpast : time item ≤ t
      · exact Or.inr (.past hpast (fun y hy hypast => absurd hypast (hnone y hy)) (by simp))
      · have hnone' : ∀ y ∈ front ++ x :: back ++ [item], ¬time y ≤ t := by
          simpa [or_imp, forall_and, hpast] using hnone
        rcases hbest with ⟨hxpast, -⟩ | ⟨-, hbest⟩
        · exact absurd hxpast (hnone x (by simp))
        · by_cases hearlier : time x ≤ time item
          · rw [List.append_assoc, List.cons_append] at hnone' ⊢
            refine Or.inl (.future hnone' hfront fun y hy => ?_)
            rcases List.mem_append.mp hy with hyback | hylast
            · exact hback y hyback
            · rwa [List.mem_singleton.mp hylast]
          · have hlt := (hexact.lt_iff _ hitem _ hx).mpr hearlier
            refine Or.inr (.future hnone' (fun y hy => ?_) (by simp))
            exact hexact.lt_of_lt_of_le hitem hx (hmem hy) hlt (hbest y hy)

/-- Among items there is a nearest one. -/
theorem exists_nearest (hitems : items ≠ []) (hexact : ExactTimes (items.map time)) :
    ∃ x, Nearest time t items x := by
  induction items using List.reverseRecOn with
  | nil => exact absurd rfl hitems
  | append_singleton items item ih =>
      rcases List.eq_nil_or_concat items with rfl | ⟨front, last, hlast⟩
      · by_cases hpast : time item ≤ t
        · have hnearest : Nearest time t ([] ++ item :: []) item :=
            .past hpast (by simp) (by simp)
          exact ⟨item, hnearest⟩
        · have hnearest : Nearest time t ([] ++ item :: []) item :=
            .future (by simpa using hpast) (by simp) (by simp)
          exact ⟨item, hnearest⟩
      · have hsome : items ≠ [] := by simp [hlast]
        obtain ⟨x, hx⟩ := ih hsome (hexact.mono (by simp))
        rcases hx.concat hexact with hold | hnew
        · exact ⟨x, hold⟩
        · exact ⟨item, hnew⟩

/-- Where times are compared exactly, the item that is found is the nearest. -/
theorem nearest?_eq_some_iff (hexact : ExactTimes (t :: items.map time)) :
    nearest? time t items = some x ↔ Nearest time t items x := by
  refine ⟨fun h => ?_, fun h => h.nearest?_eq hexact⟩
  have hitems : items ≠ [] := by
    rintro rfl
    cases h
  obtain ⟨y, hy⟩ := exists_nearest (t := t) hitems (hexact.mono (List.subset_cons_self t _))
  rw [hy.nearest?_eq hexact] at h
  cases h
  exact hy

/-- The nearest item to a later time is not an earlier one, even if later items have come
and the oldest have been given up by then. -/
theorem Nearest.le_of_later {t' : α} {dropped kept more : List β} {y : β}
    (hx : Nearest time t items x) (hy : Nearest time t' kept y)
    (hkept : items ++ more = dropped ++ kept) (ht : t ≤ t')
    (hsorted : ((items ++ more).map time).Pairwise (· ≤ ·))
    (hexact : ExactTimes (t :: t' :: (items ++ more).map time)) : time x ≤ time y := by
  have hall : ExactTimes ((items ++ more).map time) :=
    hexact.mono (fun _ hz => List.mem_cons_of_mem t (List.mem_cons_of_mem t' hz))
  have hxmem := List.mem_append_left more hx.mem
  have hymem : y ∈ items ++ more := hkept ▸ List.mem_append_right dropped hy.mem
  rcases hx.best (hall.mono (List.map_subset time (List.subset_append_left items more)))
    with ⟨hpast, -⟩ | ⟨-, hearliest⟩
  · -- The item from the past was given up, or it is from the past for the later time too.
    have hpast' : time x ≤ t' :=
      hexact.trans _ (by simp [List.mem_map_of_mem hx.mem]) t (by simp) t' (by simp) hpast ht
    rw [hkept] at hxmem hsorted hall
    rcases List.mem_append.mp hxmem with hgone | hleft
    · rw [List.map_append, List.pairwise_append] at hsorted
      exact hsorted.2.2 _ (List.mem_map_of_mem hgone) _ (List.mem_map_of_mem hy.mem)
    · rcases hy.best (hall.mono (List.map_subset time (List.subset_append_right dropped kept)))
        with ⟨-, hlatest⟩ | ⟨hnone, -⟩
      · exact hlatest x hleft hpast'
      · exact absurd hpast' (hnone x hleft)
  · rcases List.mem_append.mp hymem with hold | hnew
    · exact hearliest y hold
    · rw [List.map_append, List.pairwise_append] at hsorted
      exact hsorted.2.2 _ (List.mem_map_of_mem hx.mem) _ (List.mem_map_of_mem hnew)

/-- An item after the time does not take the place of one that is not. -/
theorem Nearest.concat_of_past (h : Nearest time t items x) (hpast : time x ≤ t) {item : β}
    (hitem : ¬time item ≤ t) : Nearest time t (items ++ [item]) x := by
  cases h with
  | @past front back _ hx hfront hback =>
      rw [List.append_assoc, List.cons_append]
      refine .past hx hfront fun y hy hypast => ?_
      rcases List.mem_append.mp hy with hyback | hylast
      · exact hback y hyback hypast
      · exact absurd (List.mem_singleton.mp hylast ▸ hypast) hitem
  | future hnone hfront hback => exact absurd hpast (hnone x (by simp))

theorem Nearest.tail (h : Nearest time t items x) (hhead : items.head? ≠ some x) :
    Nearest time t items.tail x := by
  cases h with
  | @past front back _ hx hfront hback =>
      cases front with
      | nil => exact absurd rfl hhead
      | cons y front => exact .past hx (fun z hz => hfront z (List.mem_cons_of_mem y hz)) hback
  | @future front back _ hnone hfront hback =>
      cases front with
      | nil => exact absurd rfl hhead
      | cons y front =>
          exact .future (fun z hz => hnone z (List.mem_cons_of_mem y hz))
            (fun z hz => hfront z (List.mem_cons_of_mem y hz)) hback

/-- An item that is pushed after the time does not change which one is the nearest, where
one is not after it and the queue does not give up the nearest for the new one. -/
theorem nearest?_push {queue : BoundedQueue β} {item : β} (hcapacity : 0 < queue.capacity)
    (hsize : queue.size ≤ queue.capacity)
    (hexact : ExactTimes (t :: time item :: queue.items.map time)) (hitem : t < time item)
    (hpast : ∃ y ∈ queue.items, time y ≤ t)
    (hkept : queue.isFull = false ∨ nearest? time t queue.items ≠ queue.items.head?) :
    nearest? time t (queue.push item).items = nearest? time t queue.items := by
  have hall : ExactTimes ((queue.items ++ [item]).map time) := by
    refine hexact.mono fun a ha => List.mem_cons_of_mem t ?_
    simpa [or_comm] using ha
  have hold : ExactTimes (queue.items.map time) :=
    hall.mono (List.map_subset time (List.subset_append_left _ _))
  have hfuture : ¬time item ≤ t := (hexact.lt_iff t (by simp) _ (by simp)).mp hitem
  obtain ⟨y, hymem, hy⟩ := hpast
  obtain ⟨x, hx⟩ := exists_nearest (t := t) (List.ne_nil_of_mem hymem) hold
  have hxpast : time x ≤ t := by
    rcases hx.best hold with ⟨hxpast, -⟩ | ⟨hnone, -⟩
    · exact hxpast
    · exact absurd hy (hnone y hymem)
  have hfound : nearest? time t queue.items = some x :=
    hx.nearest?_eq (hexact.mono (List.cons_subset_cons t (List.subset_cons_self _ _)))
  have hleft : Nearest time t queue.kept x := by
    unfold BoundedQueue.kept
    split
    · rename_i hfull
      refine hx.tail fun hhead => ?_
      rcases hkept with hnotFull | hnotHead
      · simp [BoundedQueue.isFull, hfull] at hnotFull
      · exact hnotHead (hfound.trans hhead.symm)
    · exact hx
  rw [hfound, queue.items_push_eq_kept item hcapacity hsize]
  refine (hleft.concat_of_past hxpast hfuture).nearest?_eq (hexact.mono ?_)
  rw [← queue.items_push_eq_kept item hcapacity hsize, queue.items_push]
  refine List.cons_subset_cons t fun a ha => ?_
  have hsome := List.map_subset time (List.drop_subset _ _) ha
  simpa [or_comm] using hsome

/-- An item that is the nearest among some is not later than another one that is the nearest
among others, where each of them is among both. -/
theorem Nearest.le_of_mem {other : List β} {y : β} (hx : Nearest time t items x)
    (hy : Nearest time t other y) (hxmem : x ∈ other) (hymem : y ∈ items)
    (hexact : ExactTimes (items.map time)) (hexact' : ExactTimes (other.map time)) :
    time x ≤ time y := by
  rcases hx.best hexact with ⟨hxpast, -⟩ | ⟨hnone, hearliest⟩
  · rcases hy.best hexact' with ⟨-, hlatest⟩ | ⟨hnone', -⟩
    · exact hlatest x hxmem hxpast
    · exact absurd hxpast (hnone' x hxmem)
  · exact hearliest y hymem

/-- Where no two items are of the same time, it does not matter in which order they are
searched. -/
theorem nearest?_perm {other : List β} (hperm : items.Perm other)
    (hdistinct : items.Pairwise fun x y => time x < time y ∨ time y < time x)
    (hexact : ExactTimes (t :: items.map time)) :
    nearest? time t other = nearest? time t items := by
  have hexact' : ExactTimes (t :: other.map time) :=
    hexact.mono (List.cons_subset_cons t (hperm.map time).symm.subset)
  have hall := hexact.mono (List.subset_cons_self t _)
  have hall' := hexact'.mono (List.subset_cons_self t _)
  by_cases hitems : items = []
  · subst hitems
    rw [hperm.nil_eq]
  · have hother : other ≠ [] := by
      rintro rfl
      exact hitems hperm.eq_nil
    obtain ⟨x, hx⟩ := exists_nearest (t := t) hitems hall
    obtain ⟨y, hy⟩ := exists_nearest (t := t) hother hall'
    have hxmem : x ∈ other := hperm.subset hx.mem
    have hymem : y ∈ items := hperm.symm.subset hy.mem
    have hxtime : time x ∈ t :: items.map time :=
      List.mem_cons_of_mem t (List.mem_map_of_mem hx.mem)
    have hytime : time y ∈ t :: items.map time :=
      List.mem_cons_of_mem t (List.mem_map_of_mem hymem)
    have hsame : x = y := by
      have hsymm : Std.Symm fun x y => time x < time y ∨ time y < time x :=
        ⟨fun _ _ => Or.symm⟩
      by_contra hne
      rcases hdistinct.forall hx.mem hymem hne with hxy | hyx
      · exact (hexact.lt_iff _ hxtime _ hytime).mp hxy
          (hy.le_of_mem hx hymem hxmem hall' hall)
      · exact (hexact.lt_iff _ hytime _ hxtime).mp hyx
          (hx.le_of_mem hy hxmem hymem hall hall')
    rw [hx.nearest?_eq hexact, hy.nearest?_eq hexact', hsame]

/-- Of items in strict order, none of them after the time, the last one is the nearest,
also where only some of the last are left. -/
theorem nearest?_lastItems {n : Nat} (hn : 0 < n)
    (hsorted : (items.map time).Pairwise (· < ·)) (hpast : ∀ y ∈ items, time y ≤ t)
    (hexact : ExactTimes (t :: items.map time)) :
    nearest? time t (BoundedQueue.lastItems n items) = items.getLast? := by
  rcases List.eq_nil_or_concat items with rfl | ⟨front, last, rfl⟩
  · simp [BoundedQueue.lastItems, nearest?]
  · rw [List.concat_eq_append] at *
    have hleft : BoundedQueue.lastItems n (front ++ [last]) =
        front.drop (front.length + 1 - n) ++ [last] := by
      rw [BoundedQueue.lastItems, List.length_append, List.length_singleton,
        List.drop_append_of_le_length (by omega)]
    have hsome := List.drop_sublist (front.length + 1 - n) front
    rw [List.map_append, List.pairwise_append] at hsorted
    rw [hleft, List.getLast?_concat]
    refine Nearest.nearest?_eq (.past (hpast last (by simp)) (fun y hy _ => ?_) (by simp))
      (hexact.mono (List.cons_subset_cons t (List.map_subset time ?_)))
    · exact hsorted.2.2 _ (List.mem_map_of_mem (hsome.subset hy)) _ (by simp)
    · exact (hsome.append (List.Sublist.refl [last])).subset

end

end InertialOdometry
