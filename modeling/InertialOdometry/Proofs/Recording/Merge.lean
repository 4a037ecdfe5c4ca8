import Mathlib.Data.List.TakeWhile
import InertialOdometry.Recording.Event

/-!
Merged streams. A merge has all samples and all scans, each in their order. Where both
streams are in the order of their times, every scan stands where it belongs: the samples
before it are those that are not later than it.
-/

namespace InertialOdometry

variable {α : Type}

namespace Event

def sample? : Event α → Option (Sample α)
  | sample x => some x
  | scan _ => none

def scan? : Event α → Option Nat
  | sample _ => none
  | scan index => some index

def samplesIn (events : List (Event α)) : List (Sample α) := events.filterMap sample?

theorem samplesIn_append (front back : List (Event α)) :
    samplesIn (front ++ back) = samplesIn front ++ samplesIn back :=
  List.filterMap_append

@[simp]
theorem samplesIn_nil : samplesIn ([] : List (Event α)) = [] := rfl

@[simp]
theorem samplesIn_scan (index : Nat) (rest : List (Event α)) :
    samplesIn (scan index :: rest) = samplesIn rest := rfl

@[simp]
theorem samplesIn_sample (x : Sample α) (rest : List (Event α)) :
    samplesIn (sample x :: rest) = x :: samplesIn rest := rfl

def scansIn (events : List (Event α)) : List Nat := events.filterMap scan?

theorem scansIn_append (front back : List (Event α)) :
    scansIn (front ++ back) = scansIn front ++ scansIn back :=
  List.filterMap_append

@[simp]
theorem scansIn_scan (index : Nat) (rest : List (Event α)) :
    scansIn (scan index :: rest) = index :: scansIn rest := rfl

@[simp]
theorem scansIn_map_sample (samples : List (Sample α)) :
    scansIn (samples.map sample) = [] := by
  induction samples with
  | nil => rfl
  | cons x rest ih => exact ih

@[simp]
theorem samplesIn_map_sample (samples : List (Sample α)) :
    samplesIn (samples.map sample) = samples := by
  induction samples with
  | nil => rfl
  | cons x rest ih => exact congrArg (List.cons x) ih

/-- A scan that comes after some samples and a scan is this scan or comes after it. -/
theorem scan_split {samples : List (Sample α)} {first index : Nat}
    {rest before after : List (Event α)}
    (h : samples.map sample ++ scan first :: rest = before ++ scan index :: after) :
    (before = samples.map sample ∧ first = index ∧ rest = after) ∨
      ∃ more, before = samples.map sample ++ scan first :: more ∧
        rest = more ++ scan index :: after := by
  induction samples generalizing before with
  | nil =>
      cases before with
      | nil =>
          cases h
          exact Or.inl ⟨rfl, rfl, rfl⟩
      | cons event more =>
          cases h
          exact Or.inr ⟨more, rfl, rfl⟩
  | cons x samples ih =>
      cases before with
      | nil => cases h
      | cons event before =>
          obtain ⟨rfl, hrest⟩ := List.cons_eq_cons.mp h
          rcases ih hrest with ⟨rfl, hindex, hafter⟩ | ⟨more, rfl, hmore⟩
          · exact Or.inl ⟨rfl, hindex, hafter⟩
          · exact Or.inr ⟨more, rfl, hmore⟩

variable [Scalar α]

/-- No sample is lost or added by the merge, and none overtakes another. -/
theorem samplesIn_merge (samples : List (Sample α)) (stamps : List (Nat × α)) :
    samplesIn (merge samples stamps) = samples := by
  induction stamps generalizing samples with
  | nil => exact samplesIn_map_sample samples
  | cons first rest ih =>
      simp only [merge, samplesIn_append, samplesIn_map_sample, samplesIn_scan, ih,
        List.takeWhile_append_dropWhile]

/-- Every scan is in the merge once, and none overtakes another. -/
theorem scansIn_merge (samples : List (Sample α)) (stamps : List (Nat × α)) :
    scansIn (merge samples stamps) = stamps.map Prod.fst := by
  induction stamps generalizing samples with
  | nil => exact scansIn_map_sample samples
  | cons first rest ih =>
      simp only [merge, scansIn_append, scansIn_map_sample, scansIn_scan, ih,
        List.nil_append, List.map_cons]

/-- Samples that are left when all that are due were taken are later. -/
theorem not_le_of_mem_dropWhile {samples : List (Sample α)} {t : α} {times : List α}
    (htrans : ∀ a ∈ times, ∀ b ∈ times, ∀ c ∈ times, a ≤ b → b ≤ c → a ≤ c)
    (htimes : t :: samples.map Sample.time ⊆ times)
    (hsorted : (samples.map Sample.time).Pairwise (· ≤ ·)) {x : Sample α}
    (hx : x ∈ samples.dropWhile fun y => decide (y.time ≤ t)) : ¬x.time ≤ t := by
  have hsub := List.dropWhile_sublist (fun y : Sample α => decide (y.time ≤ t)) (l := samples)
  have hfirst := List.head?_dropWhile_not (fun y : Sample α => decide (y.time ≤ t)) samples
  have hsorted' := hsorted.sublist (hsub.map Sample.time)
  generalize samples.dropWhile (fun y => decide (y.time ≤ t)) = left at hx hsub hfirst hsorted'
  cases left with
  | nil => cases hx
  | cons first rest =>
      have hlater : ¬first.time ≤ t := by simpa using hfirst
      rcases List.mem_cons.mp hx with rfl | hrest
      · exact hlater
      · intro hle
        have hmem : ∀ {y}, y ∈ first :: rest → y.time ∈ times := fun hy =>
          htimes (List.mem_cons_of_mem t (List.mem_map_of_mem (hsub.subset hy)))
        rw [List.map_cons, List.pairwise_cons] at hsorted'
        have hbefore := hsorted'.1 _ (List.mem_map_of_mem hrest)
        exact hlater (htrans _ (hmem List.mem_cons_self) _ (hmem hx) t
          (htimes List.mem_cons_self) hbefore hle)

/-- Where both streams are in order, the samples before a scan are not later than it, and
those after it are. -/
theorem merge_split {samples : List (Sample α)} {stamps : List (Nat × α)}
    {before after : List (Event α)} {index : Nat}
    (h : merge samples stamps = before ++ scan index :: after) {times : List α}
    (htrans : ∀ a ∈ times, ∀ b ∈ times, ∀ c ∈ times, a ≤ b → b ≤ c → a ≤ c)
    (htimes : stamps.map Prod.snd ++ samples.map Sample.time ⊆ times)
    (hsamples : (samples.map Sample.time).Pairwise (· ≤ ·))
    (hstamps : (stamps.map Prod.snd).Pairwise (· ≤ ·)) :
    ∃ t, (index, t) ∈ stamps ∧ (∀ x ∈ samplesIn before, x.time ≤ t) ∧
      ∀ x ∈ samplesIn after, ¬x.time ≤ t := by
  induction stamps generalizing samples before with
  | nil =>
      have hscan : scan index ∈ samples.map sample := by
        rw [merge] at h
        simp [h]
      simp at hscan
  | cons first rest ih =>
      obtain ⟨place, t⟩ := first
      rw [List.map_cons, List.pairwise_cons] at hstamps
      obtain ⟨htimesStamps, htimesSamples⟩ := List.append_subset.mp htimes
      have ht : t ∈ times := htimesStamps List.mem_cons_self
      have hdue : ∀ x ∈ samples.takeWhile (fun y => decide (y.time ≤ t)), x.time ≤ t := by
        intro x hx
        have hdecided : decide (x.time ≤ t) = true :=
          List.mem_takeWhile_imp (p := fun y : Sample α => decide (y.time ≤ t)) hx
        exact of_decide_eq_true hdecided
      simp only [merge] at h
      rcases scan_split h with ⟨rfl, rfl, rfl⟩ | ⟨more, rfl, hrest⟩
      · refine ⟨t, List.mem_cons_self, fun x hx => ?_, fun x hx => ?_⟩
        · rw [samplesIn_map_sample] at hx
          exact hdue x hx
        · rw [samplesIn_merge] at hx
          exact not_le_of_mem_dropWhile htrans
            (List.cons_subset.mpr ⟨ht, htimesSamples⟩) hsamples hx
      · have hsub := List.dropWhile_sublist (fun y : Sample α => decide (y.time ≤ t))
          (l := samples)
        have htimes' := List.Subset.trans
          ((List.sublist_cons_self t _).append (hsub.map Sample.time)).subset htimes
        obtain ⟨u, hu, hbefore, hafter⟩ :=
          ih hrest htimes' (hsamples.sublist (hsub.map Sample.time)) hstamps.2
        have huRest : u ∈ rest.map Prod.snd := List.mem_map_of_mem hu
        refine ⟨u, List.mem_cons_of_mem _ hu, fun x hx => ?_, hafter⟩
        rw [samplesIn_append, samplesIn_map_sample, List.mem_append] at hx
        rcases hx with htaken | hmore
        · -- The samples taken by the first scan are due at the later one, too.
          have hxmem := (List.takeWhile_sublist _).subset htaken
          exact htrans _ (htimesSamples (List.mem_map_of_mem hxmem)) t ht u
            (htimesStamps (List.mem_cons_of_mem _ huRest)) (hdue x htaken)
            (hstamps.1 u huRest)
        · exact hbefore x hmore

end Event

end InertialOdometry
