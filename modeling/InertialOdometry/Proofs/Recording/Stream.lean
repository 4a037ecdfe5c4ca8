import InertialOdometry.Proofs.Recording.Merge
import InertialOdometry.Proofs.Recording.ScanOrder
import InertialOdometry.Proofs.Scalar.Order

/-!
What a recording delivers while it is replayed. Whatever its times are, that is every sample
and every scan, each once and in its own order. Where both are in the order of their times,
exactly the samples that are not later than a scan come before it, so all that is delivered
is in the order of its time.
-/

namespace InertialOdometry

variable {α P : Type}

theorem Event.mem_scansIn_iff {events : List (Event α)} {index : Nat} :
    index ∈ scansIn events ↔ scan index ∈ events := by
  rw [scansIn, List.mem_filterMap]
  constructor
  · rintro ⟨event, hevent, hscan⟩
    cases event with
    | sample x => cases hscan
    | scan place =>
        cases hscan
        exact hevent
  · intro h
    exact ⟨scan index, h, rfl⟩

namespace Recording

open Event

def Readable (r : Recording α P) : Prop :=
  ∀ index < r.scans.length, ∃ scan, r.scan index = .ok scan

/-- What an event brings: its sample, or the scan at its place. -/
def deliver (r : Recording α P) : Event α → Except Failure (Sample α ⊕ Scan α P)
  | .sample x => .ok (.inl x)
  | .scan index => (r.scan index).map .inr

/-- What is delivered for events, as far as the scans can be read. -/
def delivered (r : Recording α P) (events : List (Event α)) : List (Sample α ⊕ Scan α P) :=
  events.filterMap fun event => (r.deliver event).toOption

section

variable {r : Recording α P} {events : List (Event α)}

@[simp]
theorem toOption_deliver_sample (r : Recording α P) (x : Sample α) :
    (r.deliver (.sample x)).toOption = some (.inl x) := rfl

@[simp]
theorem toOption_deliver_scan (r : Recording α P) (index : Nat) :
    (r.deliver (.scan index)).toOption = (r.scan index).toOption.map .inr := by
  cases hscan : r.scan index <;> simp [deliver, hscan, Except.map, Except.toOption]

private theorem getLeft_delivered :
    (r.delivered events).filterMap Sum.getLeft? = samplesIn events := by
  rw [delivered, List.filterMap_filterMap, samplesIn]
  refine List.filterMap_congr fun event _ => ?_
  cases event with
  | sample x => rfl
  | scan index => cases hscan : (r.scan index).toOption <;> simp [hscan, sample?]

private theorem getRight_delivered :
    (r.delivered events).filterMap Sum.getRight? =
      (scansIn events).filterMap fun index : Nat => (r.scan index).toOption := by
  rw [delivered, List.filterMap_filterMap, scansIn, List.filterMap_filterMap]
  refine List.filterMap_congr fun event _ => ?_
  cases event with
  | sample x => rfl
  | scan index => cases hscan : (r.scan index).toOption <;> simp [hscan, scan?]

/-- What comes before and after a scan was delivered for the events before and after it. -/
theorem exists_split_of_delivered {before after : List (Sample α ⊕ Scan α P)}
    {scan : Scan α P} (h : r.delivered events = before ++ .inr scan :: after) :
    ∃ (index : Nat) (front back : List (Event α)), events = front ++ .scan index :: back ∧
      r.scan index = .ok scan ∧ before = r.delivered front ∧ after = r.delivered back := by
  obtain ⟨front, rest, rfl, hbefore, hrest⟩ := List.filterMap_eq_append_iff.mp h
  obtain ⟨skipped, event, back, rfl, hskipped, hevent, hafter⟩ :=
    List.filterMap_eq_cons_iff.mp hrest
  cases event with
  | sample x => cases hevent
  | scan index =>
      rw [toOption_deliver_scan, Option.map_eq_some_iff] at hevent
      obtain ⟨found, hfound, hscan⟩ := hevent
      cases hscan
      refine ⟨index, front ++ skipped, back, by simp, Failure.of_toOption hfound, ?_,
        hafter.symm⟩
      have hnone : r.delivered skipped = [] := List.filterMap_eq_nil_iff.mpr hskipped
      rw [← hbefore, delivered, List.filterMap_append]
      exact ((congrArg _ hnone).trans (List.append_nil _)).symm

private theorem exists_deliver (hreadable : r.Readable)
    (hevents : ∀ index ∈ scansIn events, index < r.scans.length) {event : Event α}
    (h : event ∈ events) : ∃ item, r.deliver event = .ok item := by
  cases event with
  | sample x => exact ⟨.inl x, rfl⟩
  | scan index =>
      obtain ⟨scan, hscan⟩ := hreadable index (hevents index (mem_scansIn_iff.mpr h))
      exact ⟨.inr scan, by rw [deliver, hscan]; rfl⟩

end

variable [Scalar α]

def stream (r : Recording α P) : Except Failure (List (Sample α ⊕ Scan α P)) := do
  (← r.events).mapM r.deliver

def timeOf : Sample α ⊕ Scan α P → α := Sum.elim Sample.time Scan.time

/-- The scans of a recording come with its stamps. -/
theorem map_time_scans {r : Recording α P} (hreadable : r.Readable) :
    ((r.stamps.map Prod.fst).filterMap fun index : Nat => (r.scan index).toOption).map
      Scan.time = r.scans.map (·.stamp) := by
  rw [List.filterMap_map, List.map_filterMap, ← map_snd_stamps, ← List.filterMap_eq_map]
  refine List.filterMap_congr fun ⟨index, t⟩ hstamp => ?_
  obtain ⟨file, hfile, -⟩ := mem_stamps_iff.mp hstamp
  obtain ⟨hindex, -⟩ := List.getElem?_eq_some_iff.mp hfile
  obtain ⟨scan, hscan⟩ := hreadable index hindex
  have htime := time_of_mem_stamps hstamp hscan
  simp [hscan, Except.toOption, htime]

/-- Where both streams are in order, the samples before a scan are all that are not later
than it. -/
theorem samplesIn_split [OrderedScalar α] {r : Recording α P} {samples : List (Sample α)}
    {before after : List (Event α)} {index : Nat} {file : ScanFile α}
    (h : merge samples r.stamps = before ++ .scan index :: after)
    (hfile : r.scans[index]? = some file)
    (hsamples : (samples.map Sample.time).Pairwise (· ≤ ·))
    (hscans : (r.scans.map (·.stamp)).Pairwise (· ≤ ·)) :
    samplesIn before = samples.filter (fun x => decide (x.time ≤ file.stamp)) ∧
      samplesIn after = samples.filter (fun x => !decide (x.time ≤ file.stamp)) := by
  rw [← map_snd_stamps] at hscans
  obtain ⟨t, ht, hbefore, hafter⟩ :=
    merge_split h (fun _ _ _ _ _ _ => Scalar.le_trans) (List.Subset.refl _) hsamples hscans
  obtain ⟨found, hfound, rfl⟩ := mem_stamps_iff.mp ht
  cases hfile.symm.trans hfound
  have hall : samples = samplesIn before ++ samplesIn after := by
    rw [← samplesIn_merge samples r.stamps, h, samplesIn_append, samplesIn_scan]
  rw [hall, List.filter_append, List.filter_append]
  constructor
  · rw [List.filter_eq_self.mpr fun x hx => by simpa using hbefore x hx,
      List.filter_eq_nil_iff.mpr fun x hx => by simpa using hafter x hx, List.append_nil]
  · rw [List.filter_eq_nil_iff.mpr fun x hx => by simpa using hbefore x hx,
      List.filter_eq_self.mpr fun x hx => by simpa using hafter x hx, List.nil_append]

/-- Streams in order stay so together, if every scan has its place among the samples. -/
theorem pairwise_timeOf {items : List (Sample α ⊕ Scan α P)}
    (hsamples : ((items.filterMap Sum.getLeft?).map Sample.time).Pairwise (· ≤ ·))
    (hscans : ((items.filterMap Sum.getRight?).map Scan.time).Pairwise (· ≤ ·))
    (hplaced : ∀ before scan after, items = before ++ .inr scan :: after →
      (∀ x ∈ before.filterMap Sum.getLeft?, x.time ≤ scan.time) ∧
        ∀ x ∈ after.filterMap Sum.getLeft?, scan.time ≤ x.time) :
    (items.map timeOf).Pairwise (· ≤ ·) := by
  rw [List.pairwise_map, List.pairwise_iff_forall_sublist] at hsamples hscans ⊢
  intro first second hsub
  obtain ⟨front, back, hitems, hfirst, hsecond⟩ := List.cons_sublist_iff.mp hsub
  rw [List.singleton_sublist] at hsecond
  cases first with
  | inl x =>
      cases second with
      | inl y => exact hsamples (hsub.filterMap Sum.getLeft?)
      | inr scan =>
          obtain ⟨between, after, rfl⟩ := List.append_of_mem hsecond
          obtain ⟨hbefore, -⟩ := hplaced (front ++ between) scan after (by simp [hitems])
          exact hbefore x (List.mem_filterMap.mpr
            ⟨.inl x, List.mem_append_left _ hfirst, rfl⟩)
  | inr scan =>
      cases second with
      | inl x =>
          obtain ⟨before, between, rfl⟩ := List.append_of_mem hfirst
          obtain ⟨-, hafter⟩ := hplaced before scan (between ++ back) (by simp [hitems])
          exact hafter x (List.mem_filterMap.mpr
            ⟨.inl x, List.mem_append_right _ hsecond, rfl⟩)
      | inr later => exact hscans (hsub.filterMap Sum.getRight?)

/-- A recording whose scans can be read delivers all of its samples and all of its scans,
each once and in its own order, whatever their times are. Where all times are numbers and
both streams are in order, the samples that come before a scan are those that are not later
than it, and what is delivered is in the order of its time. -/
theorem stream_in_order [OrderedScalar α] {r : Recording α P} {samples : List (Sample α)}
    (hsamples : r.samples = .ok samples) (hreadable : r.Readable) :
    ∃ items, r.stream = .ok items ∧
      items.filterMap Sum.getLeft? = samples ∧
      (List.range r.scans.length).mapM (fun index : Nat => r.scan index) =
        .ok (items.filterMap Sum.getRight?) ∧
      (items.filterMap Sum.getRight?).map Scan.time = r.scans.map (·.stamp) ∧
      ((∀ t ∈ r.scans.map (·.stamp) ++ samples.map Sample.time, Scalar.isNaN t = false) →
        (samples.map Sample.time).Pairwise (· ≤ ·) →
        (r.scans.map (·.stamp)).Pairwise (· ≤ ·) →
        (∀ before scan after, items = before ++ .inr scan :: after →
          before.filterMap Sum.getLeft? =
              samples.filter (fun x => decide (x.time ≤ scan.time)) ∧
            after.filterMap Sum.getLeft? =
              samples.filter (fun x => !decide (x.time ≤ scan.time))) ∧
        (items.map timeOf).Pairwise (· ≤ ·)) := by
  have hevents : r.events = .ok (merge samples r.stamps) := by
    rw [events, hsamples]
    rfl
  have hplaces : scansIn (merge samples r.stamps) = List.range r.scans.length := by
    rw [scansIn_merge, map_fst_stamps]
  have hdelivered : ∀ event ∈ merge samples r.stamps, ∃ item, r.deliver event = .ok item := by
    intro event hevent
    refine exists_deliver hreadable (fun index hindex => ?_) hevent
    rwa [hplaces, List.mem_range] at hindex
  have hscans : ∀ index ∈ List.range r.scans.length, ∃ scan, r.scan index = .ok scan :=
    fun index hindex => hreadable index (List.mem_range.mp hindex)
  have hlefts : (r.delivered (merge samples r.stamps)).filterMap Sum.getLeft? = samples := by
    rw [getLeft_delivered, samplesIn_merge]
  have hrights : (r.delivered (merge samples r.stamps)).filterMap Sum.getRight? =
      (r.stamps.map Prod.fst).filterMap fun index : Nat => (r.scan index).toOption := by
    rw [getRight_delivered, scansIn_merge]
  have htimes := map_time_scans hreadable
  rw [← hrights] at htimes
  refine ⟨r.delivered (merge samples r.stamps), ?_, hlefts, ?_, htimes, ?_⟩
  · rw [stream, hevents]
    exact Failure.mapM_eq_filterMap hdelivered
  · rw [hrights, map_fst_stamps]
    exact Failure.mapM_eq_filterMap hscans
  · intro hnumbers hsorted hstamps
    have hplaced : ∀ before scan after,
        r.delivered (merge samples r.stamps) = before ++ .inr scan :: after →
        before.filterMap Sum.getLeft? =
            samples.filter (fun x => decide (x.time ≤ scan.time)) ∧
          after.filterMap Sum.getLeft? =
            samples.filter (fun x => !decide (x.time ≤ scan.time)) := by
      intro before scan after hsplit
      obtain ⟨index, front, back, hmerge, hscan, rfl, rfl⟩ := exists_split_of_delivered hsplit
      obtain ⟨file, hfile, hreal, -⟩ := file_of_scan hscan
      have htime : scan.time = file.stamp := congrArg Numeral.value hreal
      rw [getLeft_delivered, getLeft_delivered, htime]
      exact samplesIn_split hmerge hfile hsorted hstamps
    refine ⟨hplaced, pairwise_timeOf (by rwa [hlefts]) (by rwa [htimes]) ?_⟩
    intro before scan after hsplit
    obtain ⟨hbefore, hafter⟩ := hplaced before scan after hsplit
    have hscan : scan.time ∈ r.scans.map (·.stamp) := by
      rw [← htimes, hsplit, List.filterMap_append]
      exact List.mem_map_of_mem (List.mem_append_right _ List.mem_cons_self)
    rw [hbefore, hafter]
    constructor
    · intro x hx
      simpa using (List.mem_filter.mp hx).2
    · intro x hx
      obtain ⟨hmem, hlater⟩ := List.mem_filter.mp hx
      exact Scalar.le_of_not_le
        (hnumbers _ (List.mem_append_right _ (List.mem_map_of_mem hmem)))
        (hnumbers _ (List.mem_append_left _ hscan)) (by simpa using hlater)

/-- Two samples and two scans at the same time, a scan before them and a sample after. -/
def coincident : Recording Float Nat where
  directory := .ofText "run"
  scans := [⟨"0.pcd", 0⟩, ⟨"1.pcd", 1⟩, ⟨"2.pcd", 1⟩]
  attitudes := some
    [⟨.int 1, .int 0, .int 0, .int 0, .int 1⟩, ⟨.int 1, .int 0, .int 0, .int 0, .int 1⟩,
      ⟨.int 2, .int 0, .int 0, .int 0, .int 1⟩]
  points := [("0.pcd", some 0), ("1.pcd", some 1), ("2.pcd", some 2)]

/-- The samples come first where the times are the same. -/
theorem stream_in_order_of_coincidence :
    let samples : List (Sample Float) := [⟨.identity, 1⟩, ⟨.identity, 1⟩, ⟨.identity, 2⟩]
    coincident.samples = .ok samples ∧ coincident.Readable ∧
      (∀ t ∈ coincident.scans.map (·.stamp) ++ samples.map Sample.time,
        Scalar.isNaN t = false) ∧
      (samples.map Sample.time).Pairwise (· ≤ ·) ∧
      (coincident.scans.map (·.stamp)).Pairwise (· ≤ ·) ∧
      ∃ items, coincident.stream = .ok items ∧
        items.map Sum.isLeft = [false, true, true, false, false, true] ∧
        (items.map timeOf).Pairwise (· ≤ ·) := by
  intro samples
  have hsamples : coincident.samples = .ok samples := Failure.of_toOption (by decide +kernel)
  have hreadable : coincident.Readable
    | 0, _ => ⟨_, rfl⟩
    | 1, _ => ⟨_, rfl⟩
    | 2, _ => ⟨_, rfl⟩
  have hkinds : (coincident.stream.toOption.map fun items => items.map Sum.isLeft) =
      some [false, true, true, false, false, true] := by decide +kernel
  have hnumbers : ∀ t ∈ coincident.scans.map (·.stamp) ++ samples.map Sample.time,
      Scalar.isNaN t = false := by decide +kernel
  have hsorted : (samples.map Sample.time).Pairwise (· ≤ ·) := by decide +kernel
  have hstamps : (coincident.scans.map (·.stamp)).Pairwise (· ≤ ·) := by decide +kernel
  obtain ⟨items, hitems, -, -, -, hordered⟩ := stream_in_order hsamples hreadable
  obtain ⟨-, htimes⟩ := hordered hnumbers hsorted hstamps
  rw [hitems] at hkinds
  exact ⟨hsamples, hreadable, hnumbers, hsorted, hstamps, items, hitems,
    Option.some.inj hkinds, htimes⟩

end Recording

end InertialOdometry
