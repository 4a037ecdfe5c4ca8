import InertialOdometry.Proofs.Odometry.Chronology
import InertialOdometry.Proofs.Odometry.Interleaving

/-!
Samples that arrive out of order. Between two scans samples may change places with each
other, as long as the same sample comes first and the buffer has room for all that come:
then the buffer holds the same samples in another order, the rest of the pipeline is the
same, and so is what each scan shows.
-/

namespace InertialOdometry

variable {α P : Type}

/-- A sample, or a question that leaves the pipeline as it is. -/
def Call.Arrives : Call α P → Prop
  | .sample _ | .lastScan => True
  | .scan _ _ | .clearBuffer | .reset => False

private theorem Call.arrives_of_perm {some same : List (Call α P)}
    (harrive : ∀ call ∈ some, call.Arrives) (hperm : some.Perm same) :
    ∀ call ∈ same, call.Arrives := fun call hcall =>
  harrive call (hperm.symm.subset hcall)

/-- The same calls in another order. Samples change places with each other and with
questions, but not with a scan nor with a call that empties the buffer. -/
inductive Reordered : List (Call α P) → List (Call α P) → Prop where
  | nil : Reordered [] []
  | call {calls other : List (Call α P)} (call : Call α P) (h : Reordered calls other) :
      Reordered (calls ++ [call]) (other ++ [call])
  | arrivals {calls other some same : List (Call α P)}
      (harrive : ∀ call ∈ some, call.Arrives) (hperm : some.Perm same)
      (h : Reordered calls other) : Reordered (calls ++ some) (other ++ same)

theorem received_arrivals (calls : List (Call α P)) {arrivals : List (Call α P)}
    (h : ∀ call ∈ arrivals, call.Arrives) :
    received (calls ++ arrivals) = received calls ++ samplesOf arrivals := by
  induction arrivals using List.reverseRecOn with
  | nil => simp [samplesOf]
  | append_singleton arrivals call ih =>
      have hbefore := ih fun c hc => h c (List.mem_append_left _ hc)
      have hcall : call.Arrives := h call (by simp)
      rw [← List.append_assoc, received_concat, hbefore, samplesOf_concat]
      cases call with
      | sample x => exact List.append_assoc _ _ _
      | lastScan => exact (List.append_nil _).symm ▸ rfl
      | scan engine scan => cases hcall
      | clearBuffer => cases hcall
      | reset => cases hcall

/-- The same samples are received in another order. -/
theorem Reordered.received_perm {calls other : List (Call α P)} (h : Reordered calls other) :
    (received calls).Perm (received other) := by
  induction h with
  | nil => exact List.Perm.refl _
  | call call h ih =>
      rw [received_concat, received_concat]
      cases call with
      | sample x => exact ih.append_right [x]
      | scan engine scan => exact ih
      | lastScan => exact ih
      | clearBuffer => exact List.Perm.refl _
      | reset => exact List.Perm.refl _
  | @arrivals calls other some same harrive hperm h ih =>
      have harrive' := Call.arrives_of_perm harrive hperm
      rw [received_arrivals calls harrive, received_arrivals other harrive']
      exact ih.append (hperm.filterMap _)

theorem Reordered.received_eq_nil_iff {calls other : List (Call α P)}
    (h : Reordered calls other) : received other = [] ↔ received calls = [] := by
  rw [← List.length_eq_zero_iff, ← List.length_eq_zero_iff, h.received_perm.length_eq]

variable [Scalar α]

/-- All times are compared exactly, those of the samples are distinct, and none of the
samples that came since the buffer was last empty is ever given up. -/
structure Retained (s : Settings α) (calls : List (Call α P)) : Prop where
  exact : ExactTimes (scanTimes calls ++ (samplesOf calls).map Sample.time)
  distinct : (samplesOf calls).Pairwise fun x y => x.time < y.time ∨ y.time < x.time
  room : ∀ earlier, earlier <+: calls → (received earlier).length ≤ s.capacity

private theorem Retained.of_append {s : Settings α} {calls more : List (Call α P)}
    (h : Retained s (calls ++ more)) : Retained s calls := by
  obtain ⟨hexact, hdistinct, hroom⟩ := h
  have hsamples : samplesOf (calls ++ more) = samplesOf calls ++ samplesOf more :=
    List.filterMap_append
  have hscans : scanTimes (calls ++ more) = scanTimes calls ++ scanTimes more :=
    List.filterMap_append
  rw [hsamples, hscans, List.map_append] at hexact
  rw [hsamples] at hdistinct
  refine ⟨hexact.mono ?_, hdistinct.sublist (List.sublist_append_left _ _), ?_⟩
  · exact ((List.sublist_append_left _ _).append (List.sublist_append_left _ _)).subset
  · intro earlier hearlier
    exact hroom earlier (hearlier.trans (List.prefix_append _ _))

namespace Odometry

section

/-- The sample that a call brings, where none has come since the buffer was last empty. -/
def first? (o : Odometry α P) : Call α P → Option (Sample α)
  | .sample x => if o.buffer.hasReceived then none else some x
  | _ => none

variable [HasSingularValues α]

/-- The first samples of a run: the one that comes first of all, and after each call that
empties the buffer the one that comes next. -/
def firsts (o : Odometry α P) (calls : List (Call α P)) : List (Sample α) :=
  collect first? o calls

theorem first?_run (s : Settings α) (calls : List (Call α P)) (call : Call α P) :
    ((create s).run calls).first? call =
      if received calls = [] then call.sample? else none := by
  cases call with
  | sample x =>
      have hfirst : ((create s).run calls).buffer.first = (received calls).head? := by
        rw [buffer_run]
        rfl
      simp only [first?, SampleBuffer.hasReceived, hfirst, Call.sample?]
      cases received calls <;> rfl
  | scan engine scan => simp [first?, Call.sample?]
  | lastScan => simp [first?, Call.sample?]
  | clearBuffer => simp [first?, Call.sample?]
  | reset => simp [first?, Call.sample?]

private theorem firsts_concat (s : Settings α) (calls : List (Call α P)) (call : Call α P) :
    (create s).firsts (calls ++ [call]) = (create s).firsts calls ++
      (if received calls = [] then call.sample? else none).toList := by
  rw [firsts, collect_concat, first?_run]
  rfl

private theorem firsts_arrivals (s : Settings α) (calls : List (Call α P))
    {arrivals : List (Call α P)} (h : ∀ call ∈ arrivals, call.Arrives) :
    (create s).firsts (calls ++ arrivals) = (create s).firsts calls ++
      (if received calls = [] then (samplesOf arrivals).head? else none).toList := by
  induction arrivals using List.reverseRecOn with
  | nil => simp [samplesOf]
  | append_singleton arrivals call ih =>
      have harrive : ∀ call ∈ arrivals, call.Arrives := fun c hc =>
        h c (List.mem_append_left _ hc)
      rw [← List.append_assoc, firsts_concat, ih harrive, received_arrivals calls harrive,
        samplesOf_concat]
      by_cases hnone : received calls = []
      · cases samplesOf arrivals <;> cases call.sample? <;> simp [hnone]
      · simp [hnone]

end

variable [HasSingularValues α]

/-- Where runs have the same first samples, they had so before their last call. -/
theorem firsts_of_concat {s : Settings α} {calls other : List (Call α P)}
    (h : Reordered calls other) {call : Call α P}
    (hfirsts : (create s).firsts (other ++ [call]) = (create s).firsts (calls ++ [call])) :
    (create s).firsts other = (create s).firsts calls := by
  rw [firsts_concat, firsts_concat] at hfirsts
  simp only [h.received_eq_nil_iff] at hfirsts
  exact List.append_cancel_right hfirsts

/-- Where runs have the same first samples, they had so before samples that have changed
places, and of these the first is the same where none came before. -/
theorem firsts_of_arrivals {s : Settings α} {calls other some same : List (Call α P)}
    (h : Reordered calls other) (harrive : ∀ call ∈ some, call.Arrives)
    (hperm : some.Perm same)
    (hfirsts : (create s).firsts (other ++ same) = (create s).firsts (calls ++ some)) :
    (create s).firsts other = (create s).firsts calls ∧
      (received calls = [] → (samplesOf same).head? = (samplesOf some).head?) := by
  have harrive' := Call.arrives_of_perm harrive hperm
  have hsamples : (samplesOf same).Perm (samplesOf some) := hperm.symm.filterMap _
  rw [firsts_arrivals s calls harrive, firsts_arrivals s other harrive'] at hfirsts
  simp only [h.received_eq_nil_iff] at hfirsts
  by_cases hempty : received calls = []
  · simp only [hempty, if_true] at hfirsts
    have hlength : (samplesOf same).head?.toList.length =
        (samplesOf some).head?.toList.length := by
      have hsame := hsamples.length_eq
      cases hlast : samplesOf same <;> cases hfront : samplesOf some <;>
        simp [hlast, hfront] at hsame ⊢
    obtain ⟨hbefore, hlast⟩ := List.append_inj' hfirsts hlength
    refine ⟨hbefore, fun _ => Option.ext fun x => ?_⟩
    rw [← Option.mem_toList, hlast, Option.mem_toList]
  · simp only [hempty, if_false, Option.toList_none, List.append_nil] at hfirsts
    exact ⟨hfirsts, fun hnil => absurd hnil hempty⟩

/-- Where the first samples are the same ones, so is the one that a buffer remembers. -/
theorem head?_received_of_reordered (s : Settings α) {calls other : List (Call α P)}
    (h : Reordered calls other) (hfirsts : (create s).firsts other = (create s).firsts calls) :
    (received other).head? = (received calls).head? := by
  induction h with
  | nil => rfl
  | call call h ih =>
      have hhead := ih (firsts_of_concat h hfirsts)
      rw [received_concat, received_concat]
      cases call with
      | sample x => simp only [Call.receive, List.head?_append, hhead]
      | scan engine scan => exact hhead
      | lastScan => exact hhead
      | clearBuffer => rfl
      | reset => rfl
  | @arrivals calls other some same harrive hperm h ih =>
      have harrive' := Call.arrives_of_perm harrive hperm
      obtain ⟨hbefore, hfirst⟩ := firsts_of_arrivals h harrive hperm hfirsts
      rw [received_arrivals calls harrive, received_arrivals other harrive', List.head?_append,
        List.head?_append, ih hbefore]
      cases hempty : received calls with
      | nil => simpa using hfirst hempty
      | cons x rest => rfl

/-- Arrivals change the sample buffer and nothing else. -/
theorem run_arrivals (o : Odometry α P) {arrivals : List (Call α P)}
    (h : ∀ call ∈ arrivals, call.Arrives) :
    o.run arrivals = { o with buffer := (o.run arrivals).buffer } := by
  induction arrivals generalizing o with
  | nil => rfl
  | cons call rest ih =>
      have hcall : call.Arrives := h call List.mem_cons_self
      have hrest := ih (o.after call) fun c hc => h c (List.mem_cons_of_mem call hc)
      rw [run_cons, hrest]
      cases call with
      | sample x => rfl
      | lastScan => rfl
      | scan engine scan => cases hcall
      | clearBuffer => cases hcall
      | reset => cases hcall

/-- A scan finds the same in a buffer that the samples have reached in another order. -/
theorem fits_reordered (s : Settings α) {calls other : List (Call α P)} {engine : Engine α P}
    {scan : Scan α P} (h : Reordered calls other)
    (hfirsts : (create s).firsts other = (create s).firsts calls)
    (hretained : Retained s (calls ++ [.scan engine scan])) :
    ((create s).run calls).Fits scan.time s.capacity ((create s).run other).buffer := by
  have hsamples : samplesOf (calls ++ [.scan engine scan]) = samplesOf calls :=
    (samplesOf_concat calls _).trans (List.append_nil _)
  have hscan : scan.time ∈ scanTimes (calls ++ [.scan engine scan]) := by
    simp [scanTimes_concat, Call.scanTime?]
  have hperm := h.received_perm
  have hroom : (received calls).length ≤ s.capacity :=
    hretained.room calls (List.prefix_append _ _)
  have hroom' : (received other).length ≤ s.capacity := by
    rwa [← hperm.length_eq]
  refine ⟨?_, ?_, fun d => ?_⟩
  · rw [buffer_run, buffer_run]
    exact head?_received_of_reordered s h hfirsts
  · rw [samples_run, samples_run, BoundedQueue.lastItems_of_length_le hroom,
      BoundedQueue.lastItems_of_length_le hroom']
    have hsub := (received_suffix calls).sublist
    rw [← hsamples] at hsub
    refine nearest?_perm hperm (hretained.distinct.sublist hsub) (hretained.exact.mono ?_)
    intro a ha
    rcases List.mem_cons.mp ha with rfl | ha
    · exact List.mem_append_left _ hscan
    · exact List.mem_append_right _ ((hsub.map Sample.time).subset ha)
  · rw [← (configured_run s calls).deltas]
    rfl

theorem outcomes_arrivals (o : Odometry α P) {arrivals : List (Call α P)}
    (h : ∀ call ∈ arrivals, call.Arrives) : o.outcomes arrivals = [] := by
  apply List.eq_nil_iff_forall_not_mem.mpr
  intro out hout
  obtain ⟨earlier, call, later, rfl, hcall⟩ := mem_collect_iff.mp hout
  have harrive : call.Arrives := h call (by simp)
  cases call with
  | sample x => cases hcall
  | lastScan => cases hcall
  | scan engine scan => cases harrive
  | clearBuffer => cases harrive
  | reset => cases harrive

private theorem outcomes_append_arrivals (o : Odometry α P) (calls : List (Call α P))
    {arrivals : List (Call α P)} (h : ∀ call ∈ arrivals, call.Arrives) :
    o.outcomes (calls ++ arrivals) = o.outcomes calls := by
  have hnone := outcomes_arrivals (o.run calls) h
  rw [outcomes] at hnone ⊢
  rw [collect_append, hnone, List.append_nil, outcomes]

/-- A scan does the same and shows the same, with another buffer in which it finds the same. -/
theorem update_of_fits {s : Settings α} {o : Odometry α P} (h : Configured s o)
    (engine : Engine α P) {scan : Scan α P} {buffer : SampleBuffer α}
    (hfits : o.Fits scan.time s.capacity buffer) :
    ({ o with buffer := buffer }.update engine scan).state =
        { (o.update engine scan).state with buffer := buffer } ∧
      ({ o with buffer := buffer }.update engine scan).shown =
        (o.update engine scan).shown := by
  have hnext : Configured s (o.update engine scan).state := h.after (.scan engine scan)
  have hboth := update_refit engine s.capacity_pos fun _ => hfits
  rwa [h.refit_eq, hnext.refit_eq] at hboth

/-- Runs that differ in the order of their samples lead to the same state but for the
buffer, and show the same. -/
theorem run_reordered (s : Settings α) {calls other : List (Call α P)}
    (h : Reordered calls other) (hfirsts : (create s).firsts other = (create s).firsts calls)
    (hretained : Retained s calls) :
    (∃ buffer, (create s).run other = { (create s).run calls with buffer := buffer }) ∧
      ((create s).outcomes other).map CycleOutcome.shown =
        ((create s).outcomes calls).map CycleOutcome.shown := by
  induction h with
  | nil => exact ⟨⟨_, rfl⟩, rfl⟩
  | @call calls other call h ih =>
      have hbefore := firsts_of_concat h hfirsts
      obtain ⟨⟨buffer, hstate⟩, hshown⟩ := ih hbefore hretained.of_append
      rw [run_concat, run_concat, outcomes_concat, outcomes_concat, List.map_append,
        List.map_append, hshown]
      cases call with
      | scan engine scan =>
          have hfits := fits_reordered s h hbefore hretained
          rw [hstate] at hfits
          obtain ⟨hnext, hout⟩ := update_of_fits (configured_run s calls) engine hfits
          rw [hstate]
          refine ⟨⟨buffer, hnext⟩, ?_⟩
          simp only [outcome?, Option.toList_some, List.map_singleton, hout]
      | sample x =>
          rw [hstate]
          exact ⟨⟨_, rfl⟩, rfl⟩
      | lastScan => exact ⟨⟨buffer, hstate⟩, rfl⟩
      | clearBuffer =>
          rw [hstate]
          exact ⟨⟨_, rfl⟩, rfl⟩
      | reset =>
          rw [hstate]
          exact ⟨⟨_, rfl⟩, rfl⟩
  | @arrivals calls other some same harrive hperm h ih =>
      have harrive' := Call.arrives_of_perm harrive hperm
      obtain ⟨hbefore, -⟩ := firsts_of_arrivals h harrive hperm hfirsts
      obtain ⟨⟨buffer, hstate⟩, hshown⟩ := ih hbefore hretained.of_append
      rw [outcomes_append_arrivals _ calls harrive, outcomes_append_arrivals _ other harrive']
      refine ⟨?_, hshown⟩
      rw [run_append, run_append, run_arrivals _ harrive, run_arrivals _ harrive', hstate]
      exact ⟨_, rfl⟩

/-- Samples may arrive out of order. Where samples change places between two scans, every
scan has the same result and asks the engine the same, whether it returns an estimate, none
or fails: as long as all times are compared exactly, those of the samples are distinct, the
same samples come first and the buffer has room for all that come. -/
theorem outcomes_out_of_order (s : Settings α) (o : Odometry α P) (hfresh : Fresh s o)
    (calls other : List (Call α P)) (h : Reordered calls other)
    (hfirsts : o.firsts other = o.firsts calls) (hretained : Retained s calls) :
    (o.outcomes other).map CycleOutcome.shown = (o.outcomes calls).map CycleOutcome.shown := by
  rw [hfresh.eq_create] at hfirsts ⊢
  exact (run_reordered s h hfirsts hretained).2

/-- With room for three samples: after the first one those at 2 and 1 come in either order,
and the scan at 3 is aligned by the one at 2. -/
theorem outcomes_out_of_order_of_swap :
    let s := Settings.checked.withCapacity 3 (by decide)
    let o : Odometry Float Nat := create s
    let turned : Call Float Nat := .sample ⟨⟨⟨0, -1, 0⟩, ⟨1, 0, 0⟩, ⟨0, 0, 1⟩⟩, 2⟩
    let calls : List (Call Float Nat) := [.upright 0, .still 0, turned, .upright 1, .still 3]
    let other : List (Call Float Nat) := [.upright 0, .still 0, .upright 1, turned, .still 3]
    Fresh s o ∧ Reordered calls other ∧ o.firsts other = o.firsts calls ∧ Retained s calls ∧
      (o.outcomes other).map CycleOutcome.shown =
        (o.outcomes calls).map CycleOutcome.shown := by
  intro s o turned calls other
  have hstart : Reordered [.upright 0, .still 0]
      ([.upright 0, .still 0] : List (Call Float Nat)) :=
    .call (.still 0) (.call (.upright 0) .nil)
  have harrive : ∀ call ∈ [turned, .upright 1], call.Arrives := by
    simp [turned, Call.upright, Call.Arrives]
  have hreordered : Reordered calls other :=
    .call (.still 3) (.arrivals harrive (List.Perm.swap _ _ []) hstart)
  have hfirsts : o.firsts other = o.firsts calls := by decide +kernel
  have hretained : Retained s calls := by
    refine ⟨by decide +kernel, by decide +kernel, fun earlier hearlier => ?_⟩
    have hroom : ∀ earlier ∈ calls.inits, (received earlier).length ≤ s.capacity := by
      decide +kernel
    exact hroom earlier ((List.mem_inits _ _).mpr hearlier)
  exact ⟨.created, hreordered, hfirsts, hretained,
    outcomes_out_of_order s o .created calls other hreordered hfirsts hretained⟩

end Odometry

end InertialOdometry
