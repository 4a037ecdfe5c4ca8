import InertialOdometry.Proofs.Recording.Lead
import InertialOdometry.Proofs.Recording.ScanOrder

/-!
Replays of recordings. The events of a recording come in the order of their times. So every
scan is aligned by the last sample before it, which is the last one received and therefore
in every buffer; and as long as the deltas that stale estimates leave behind find room, the
capacity of the queues plays no part.
-/

namespace InertialOdometry

variable {α P : Type} [Scalar α] [HasSingularValues α]

namespace Replay

open Odometry Event

variable {engine : Nat → Engine α P} {load : Nat → Except Failure (Scan α P)}

/-- The events come in the order of their times: samples get later and later, and every
scan comes right before the samples that are later than it. All times are compared
exactly. -/
structure Timely (load : Nat → Except Failure (Scan α P)) (events : List (Event α)) :
    Prop where
  sorted : ((samplesIn events).map Sample.time).Pairwise (· < ·)
  placed : ∀ before index after scan, events = before ++ .scan index :: after →
    load index = .ok scan →
      ExactTimes (scan.time :: (samplesIn events).map Sample.time) ∧
        (∀ x ∈ samplesIn before, x.time ≤ scan.time) ∧
        ∀ x ∈ samplesIn after, ¬x.time ≤ scan.time

omit [HasSingularValues α] in
theorem Timely.of_concat {events : List (Event α)} {event : Event α}
    (h : Timely load (events ++ [event])) : Timely load events := by
  obtain ⟨hsorted, hplaced⟩ := h
  rw [samplesIn_append, List.map_append] at hsorted
  refine ⟨hsorted.sublist (List.sublist_append_left _ _), ?_⟩
  intro before index after scan hevents hload
  obtain ⟨hexact, hbefore, hafter⟩ :=
    hplaced before index (after ++ [event]) scan (by simp [hevents]) hload
  rw [samplesIn_append] at hafter
  refine ⟨hexact.mono (List.cons_subset_cons _ (List.map_subset _ ?_)), hbefore,
    fun x hx => hafter x (List.mem_append_left _ hx)⟩
  rw [samplesIn_append]
  exact List.subset_append_left _ _

section

variable {before after : List (Event α)} {index : Nat} {scan : Scan α P}

omit [HasSingularValues α] in
private theorem Timely.exact_before (h : Timely load (before ++ .scan index :: after))
    (hload : load index = .ok scan) :
    ExactTimes (scan.time :: (samplesIn before).map Sample.time) := by
  obtain ⟨hexact, -⟩ := h.placed before index after scan rfl hload
  rw [samplesIn_append, List.map_append] at hexact
  exact hexact.mono (List.cons_subset_cons _ (List.subset_append_left _ _))

omit [HasSingularValues α] in
/-- The nearest sample to a scan is the last one before it, and every buffer has it. -/
theorem Timely.nearest?_eq (h : Timely load (before ++ .scan index :: after))
    (hload : load index = .ok scan) {capacity : Nat} (hcapacity : 0 < capacity) :
    nearest? Sample.time scan.time
        (BoundedQueue.lastItems capacity (samplesIn before)) =
      (samplesIn before).getLast? := by
  obtain ⟨-, hbefore, -⟩ := h.placed before index after scan rfl hload
  have hsorted := h.sorted
  rw [samplesIn_append, List.map_append] at hsorted
  exact nearest?_lastItems hcapacity (hsorted.sublist (List.sublist_append_left _ _)) hbefore
    (h.exact_before hload)

omit [HasSingularValues α] in
/-- The last sample before a scan is the last of all that are not later than the scan. -/
theorem Timely.le_last (h : Timely load (before ++ .scan index :: after))
    (hload : load index = .ok scan) {x y : Sample α}
    (hlast : (samplesIn before).getLast? = some x)
    (hy : y ∈ samplesIn before ++ samplesIn after) (hyt : y.time ≤ scan.time) :
    y.time ≤ x.time := by
  obtain ⟨-, -, hafter⟩ := h.placed before index after scan rfl hload
  rcases List.mem_append.mp hy with hybefore | hyafter
  · have hexact := h.exact_before hload
    have hall : BoundedQueue.lastItems (samplesIn before).length (samplesIn before) =
        samplesIn before := BoundedQueue.lastItems_of_length_le (Nat.le_refl _)
    have hnearest := h.nearest?_eq hload (List.length_pos_of_mem hybefore)
    rw [hall, hlast, nearest?_eq_some_iff hexact] at hnearest
    rcases hnearest.best (hexact.mono (List.subset_cons_self _ _))
      with ⟨-, hlatest⟩ | ⟨hnone, -⟩
    · exact hlatest y hybefore hyt
    · exact absurd hyt (hnone y hybefore)
  · exact absurd hyt (hafter y hyafter)

end

/-- An estimate shows how far the last sample was that is not later than its scan. -/
theorem timeGap_of_mem_estimates {s : Settings α} (huse : s.useInertial = true)
    {events : List (Event α)} (h : Timely load events) {e : Estimate α P}
    (he : e ∈ (lead engine load s events).estimates) :
    ∃ x ∈ samplesIn events, x.time ≤ e.stamp.value ∧
      (∀ y ∈ samplesIn events, y.time ≤ e.stamp.value → y.time ≤ x.time) ∧
      e.timeGap = some (.real (x.time - e.stamp.value)) := by
  obtain ⟨before, index, after, scan, rfl, hok, hload, answer, hresult⟩ :=
    exists_scan_of_mem_estimates he
  obtain ⟨hconfigured, hbuffer⟩ := received_lead s before hok
  obtain ⟨-, hstamp, alignment, aligner, halign, htimeGap⟩ :=
    exists_aligns_of_estimate hresult
  have htime : e.stamp.value = scan.time := by
    rw [hstamp]
    rfl
  cases halign with
  | unused hunused =>
      rw [hconfigured.settings] at hunused
      cases huse.symm.trans hunused
  | @bySample previous x hused hprevious hnearest =>
      have hlast : (samplesIn before).getLast? = some x := by
        rw [← h.nearest?_eq hload s.capacity_pos, ← hnearest, hbuffer]
        rfl
      have hx : x ∈ samplesIn before := List.mem_of_getLast? hlast
      obtain ⟨-, hbefore, -⟩ := h.placed before index after scan rfl hload
      rw [htime, samplesIn_append, samplesIn_scan]
      exact ⟨x, List.mem_append_left _ hx, hbefore x hx,
        fun y hy hyt => h.le_last hload hlast hy hyt, htimeGap⟩

omit [HasSingularValues α] in
/-- Before a scan, a pipeline finds what it looks for in the queues of another capacity as
well, as long as no queue of deltas is full. -/
theorem Timely.fits {s : Settings α} {before after : List (Event α)} {index : Nat}
    {scan : Scan α P} (h : Timely load (before ++ .scan index :: after))
    (hload : load index = .ok scan) {o : Odometry α P} (hconfigured : Configured s o)
    (hbuffer : o.buffer = .holding s.capacity (samplesIn before)) {capacity : Nat}
    (hcapacity : 0 < capacity) (hroom : o.aligner.deltas.size < min s.capacity capacity) :
    o.Fits scan.time capacity (.holding capacity (samplesIn before)) := by
  refine ⟨by rw [hbuffer]; rfl, ?_, fun d => ?_⟩
  · have hother := h.nearest?_eq hload hcapacity
    have hown := h.nearest?_eq hload s.capacity_pos
    rw [hbuffer]
    exact hother.trans hown.symm
  · have hroom' : o.aligner.deltas.size < o.aligner.deltas.capacity := by
      rw [hconfigured.deltas]
      omega
    have hother : (o.aligner.deltas.resized capacity).size < capacity := by
      have hsame : (o.aligner.deltas.resized capacity).size = o.aligner.deltas.size := rfl
      omega
    rw [BoundedQueue.items_push_of_lt hroom', BoundedQueue.items_push_of_lt hother]
    rfl

/-- A pipeline with queues of another capacity goes along with a pipeline, as long as
there is room for the deltas that stale estimates leave behind. -/
theorem lead_withCapacity {s : Settings α} {events : List (Event α)}
    (h : Timely load events) {capacity : Nat} (hcapacity : 0 < capacity)
    (hroom : staleCount s (lead engine load s events).estimates < min s.capacity capacity) :
    (lead engine load (s.withCapacity capacity hcapacity) events).shown =
        (lead engine load s events).shown ∧
      ((lead engine load s events).failure = none →
        (lead engine load (s.withCapacity capacity hcapacity) events).odometry =
          (lead engine load s events).odometry.refit capacity hcapacity
            (.holding capacity (samplesIn events))) := by
  induction events using List.reverseRecOn with
  | nil =>
      refine ⟨rfl, fun _ => ?_⟩
      rw [samplesIn_nil, SampleBuffer.holding_nil]
      rfl
  | append_singleton events event ih =>
      obtain ⟨more, hmore⟩ := exists_estimates_concat engine load s events event
      -- Stale estimates only get more, so there was room before the event as well.
      have hroom' : staleCount s (lead engine load s events).estimates <
          min s.capacity capacity := by
        rw [hmore, staleCount_append] at hroom
        omega
      obtain ⟨hshown, hodometry⟩ := ih h.of_concat hroom'
      have hfailures : (lead engine load (s.withCapacity capacity hcapacity) events).failure =
          (lead engine load s events).failure := congrArg (·.2.2) hshown
      cases hfailure : (lead engine load s events).failure with
      | some f =>
          rw [hfailure] at hfailures
          rw [lead_concat_of_failure hfailure, lead_concat_of_failure hfailures]
          refine ⟨hshown, fun hnone => ?_⟩
          cases hfailure.symm.trans hnone
      | none =>
          obtain ⟨hconfigured, hbuffer⟩ := received_lead s events hfailure
          have hsize := size_deltas_lead s events hfailure
          rw [hfailure] at hfailures
          rw [lead_concat_of_none hfailure, lead_concat_of_none hfailures, samplesIn_append]
          refine step_refit hshown (hodometry hfailure) ?_
          rintro index scan rfl hload
          exact h.fits hload hconfigured hbuffer hcapacity (Nat.lt_of_le_of_lt hsize hroom')

omit [HasSingularValues α] in
/-- The events of a recording come in the order of their times, whatever the order of the
files in its folder. -/
theorem timely_merge {location : String} {folder : Folder P} {limit : Option Int}
    {r : Recording α P} {journal : Journal α}
    (hopen : Recording.openAt location (some folder) limit = .ok (r, journal))
    {files : List (ScanFile α)} (hfiles : folder.scanFiles = .ok files)
    {samples : List (Sample α)}
    (hexact : ExactTimes (files.map (·.stamp) ++ samples.map Sample.time))
    (hsorted : (samples.map Sample.time).Pairwise (· < ·)) :
    Timely (fun index => r.scan index) (merge samples r.stamps) := by
  obtain ⟨hsub, hscans⟩ := Recording.pairwise_scans_of_openAt hopen hfiles
    (hexact.mono (List.subset_append_left _ _))
  have hstamps : r.stamps.map Prod.snd ⊆ files.map (·.stamp) := by
    rw [Recording.map_snd_stamps]
    exact List.map_subset _ hsub
  have hpresented : ExactTimes (r.stamps.map Prod.snd ++ samples.map Sample.time) := by
    refine hexact.mono fun t ht => List.mem_append.mpr ?_
    exact (List.mem_append.mp ht).imp_left fun hstamp => hstamps hstamp
  rw [← Recording.map_snd_stamps] at hscans
  refine ⟨by rwa [samplesIn_merge], fun before index after scan hevents hload => ?_⟩
  have hordered : (samples.map Sample.time).Pairwise (· ≤ ·) :=
    hsorted.imp_of_mem fun ha hb hab => hpresented.le_of_lt
      (List.mem_append_right _ ha) (List.mem_append_right _ hb) hab
  obtain ⟨t, ht, hbefore, hafter⟩ :=
    merge_split hevents hpresented.trans (List.Subset.refl _) hordered hscans
  obtain rfl : scan.time = t := Recording.time_of_mem_stamps ht hload
  refine ⟨hpresented.mono ?_, hbefore, hafter⟩
  rw [samplesIn_merge]
  refine List.cons_subset.mpr ⟨?_, List.subset_append_right _ _⟩
  exact List.mem_append_left _ (List.mem_map_of_mem ht)

/-- The replay of a recording by a new pipeline that uses the sensor. The samples get later
and later, and the stamps of the scans are compared with their times exactly. Then every
estimate shows how far the last sample was, of all in the recording, that is not later than
its scan. The capacity of the queues plays no part in this, and none in the replay either,
as long as the gate does not turn away as many samples as they hold: with another capacity
the estimates are the same, and so are the failure that ends them and what the engine is
asked. -/
theorem replay_regardless_of_capacity (engine : Nat → Engine α P) {s : Settings α}
    (huse : s.useInertial = true) {location : String} {folder : Folder P}
    {limit : Option Int} {r : Recording α P} {journal : Journal α}
    (hopen : Recording.openAt location (some folder) limit = .ok (r, journal))
    {files : List (ScanFile α)} (hfiles : folder.scanFiles = .ok files)
    {samples : List (Sample α)} (hsamples : r.samples = .ok samples)
    (hexact : ExactTimes (files.map (·.stamp) ++ samples.map Sample.time))
    (hsorted : (samples.map Sample.time).Pairwise (· < ·)) :
    ∃ events, r.events = .ok events ∧
      let replay (s : Settings α) := lead engine (fun index => r.scan index) s events
      (∀ e ∈ (replay s).estimates, ∃ x ∈ samples, x.time ≤ e.stamp.value ∧
        (∀ y ∈ samples, y.time ≤ e.stamp.value → y.time ≤ x.time) ∧
        e.timeGap = some (.real (x.time - e.stamp.value))) ∧
      ∀ capacity hcapacity, s.checkInertial = false ∨
          staleCount s (replay s).estimates < min s.capacity capacity →
        (replay (s.withCapacity capacity hcapacity)).shown = (replay s).shown := by
  have htimely := timely_merge hopen hfiles hexact hsorted
  refine ⟨merge samples r.stamps, ?_, fun e he => ?_, fun capacity hcapacity hroom => ?_⟩
  · rw [Recording.events, hsamples]
    rfl
  · have hgap := timeGap_of_mem_estimates huse htimely he
    rwa [samplesIn_merge] at hgap
  · have hroom' : staleCount s (lead engine (fun index => r.scan index) s
        (merge samples r.stamps)).estimates < min s.capacity capacity := by
      rcases hroom with hunchecked | hroom
      · rw [staleCount_of_unchecked hunchecked]
        exact Nat.lt_min.mpr ⟨s.capacity_pos, hcapacity⟩
      · exact hroom
    exact (lead_withCapacity htimely hcapacity hroom').1

end Replay

/-- A folder with two scans, the second of them a second after the first of two samples and
a second before the other. -/
def Folder.brief : Folder Nat :=
  ⟨some [("0.pcd", some 0), ("1.pcd", some 0)], none,
    some "timestamp,qx,qy,qz,qw\n0,0,0,0,1\n2,0,0,0,1\n"⟩

def Recording.brief : Recording Float Nat where
  directory := .ofText "run"
  scans := [⟨"0.pcd", 0⟩, ⟨"1.pcd", 1⟩]
  attitudes := some
    [⟨.int 0, .int 0, .int 0, .int 0, .int 1⟩, ⟨.int 2, .int 0, .int 0, .int 0, .int 1⟩]
  points := [("0.pcd", some 0), ("1.pcd", some 0)]

private theorem ScanFile.namesOf_brief : namesOf ["0.pcd", "1.pcd"] = ["0.pcd", "1.pcd"] := by
  rw [namesOf, List.filter_eq_self.mpr (by decide +kernel)]
  exact List.mergeSort_of_pairwise (by decide +kernel)

private theorem Folder.scanFiles_brief : brief.scanFiles = .ok Recording.brief.scans := by
  have hstamped : (brief.scanFiles : Except Failure (List (ScanFile Float))) =
      ScanFile.stamped none (ScanFile.namesOf ["0.pcd", "1.pcd"]) := rfl
  rw [hstamped, ScanFile.namesOf_brief]
  rfl

private theorem Recording.openAt_brief :
    openAt "run" (some .brief) none = .ok (brief, [.datasetOpened 2 2]) := by
  have hinOrder : ScanFile.inOrder brief.scans = brief.scans :=
    Table.sortBy_eq_self (by decide +kernel) (by decide +kernel)
  have hrows : Table.sortBy AttitudeRow.time (brief.attitudes.getD []) =
      brief.attitudes.getD [] :=
    Table.sortBy_eq_self (by decide +kernel) (by decide +kernel)
  have hscans : ScanFile.ofDirectory (scanDirectory (.ofText "run")) ["0.pcd", "1.pcd"]
      none none = .ok brief.scans := by
    rw [ScanFile.ofDirectory, ScanFile.namesOf_brief, ← hinOrder]
    rfl
  have hattitudes : AttitudeRow.ofText "timestamp,qx,qy,qz,qw\n0,0,0,0,1\n2,0,0,0,1\n" =
      .ok (brief.attitudes.getD []) := by
    rw [← hrows]
    rfl
  simp only [openAt, Folder.brief, List.map_cons, List.map_nil]
  rw [hscans]
  simp only [Option.mapM_some]
  rw [hattitudes]
  rfl

open Odometry Replay in
/-- The gate turns away the sample of one scan, and queues for two show the same as queues
for three. -/
theorem Replay.replay_regardless_of_capacity_of_stale_scan :
    let replay (s : Settings Float) := lead (fun _ => .still)
      (fun index => Recording.brief.scan index) s
      [.sample ⟨.identity, 0⟩, .scan 0, .scan 1, .sample ⟨.identity, 2⟩]
    Recording.openAt "run" (some .brief) none = .ok (.brief, [.datasetOpened 2 2]) ∧
      (replay .checked).estimates.map (·.timeGap) = [some (.real (-1))] ∧
      staleCount .checked (replay .checked).estimates = 1 ∧
      (replay (Settings.checked.withCapacity 3 (by decide))).shown =
        (replay .checked).shown := by
  intro replay
  have hsamples : Recording.brief.samples = .ok [⟨.identity, 0⟩, ⟨.identity, 2⟩] :=
    Failure.of_toOption (by decide +kernel)
  have hevents : Recording.brief.events =
      .ok [.sample ⟨.identity, 0⟩, .scan 0, .scan 1, .sample ⟨.identity, 2⟩] :=
    Failure.of_toOption (by decide +kernel)
  obtain ⟨events, hmerged, -, hcapacity⟩ :=
    replay_regardless_of_capacity (fun _ => .still) (s := .checked) rfl
      Recording.openAt_brief Folder.scanFiles_brief hsamples (by decide +kernel)
      (by decide +kernel)
  cases hevents.symm.trans hmerged
  have hstale : staleCount .checked (replay .checked).estimates = 1 := by decide +kernel
  refine ⟨Recording.openAt_brief, by decide +kernel, hstale, ?_⟩
  exact hcapacity 3 (by decide) (Or.inr (hstale.trans_lt (by decide)))

end InertialOdometry
