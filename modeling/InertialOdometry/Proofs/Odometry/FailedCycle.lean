import InertialOdometry.Proofs.Odometry.Advance
import InertialOdometry.Proofs.Odometry.DeltaLag

/-!
What a cycle that fails leaves behind. Only a running pipeline can fail, and no failure
touches the trajectory, the counters or the samples. A scan that the alignment turns
away leaves nothing but its stamp. Every later failure finds the scans moved up and one
delta queued; whether one was taken as well depends on how far the cycle came.
-/

namespace InertialOdometry

namespace Odometry

variable {α P : Type} [Scalar α] [HasSingularValues α]

/-- A call has queued a delta, and has taken the oldest if it came to take one. -/
structure TurnedOver (o : Odometry α P) (call : Call α P) (d : Tensor α)
    (next : BoundedQueue (Tensor α)) : Prop where
  queued : ¬o.ReachesPop call → next.items = o.aligner.deltas.kept ++ [d]
  taken : o.ReachesPop call → next.items = (o.aligner.deltas.kept ++ [d]).tail

/-- The alignment has turned a scan away for want of samples. -/
structure TurnedAway (o : Odometry α P) (f : Failure) (out : CycleOutcome α P) :
    Prop where
  used : o.settings.useInertial = true
  empty : o.buffer.samples = []
  failure : f = .emptySnapshot
  unasked : out.call = none
  aligner : out.state.aligner = o.aligner
  integrator : out.state.integrator = o.integrator

/-- A cycle has failed after its alignment: in the engine, or because of a matrix. -/
structure BrokenOff (engine : Engine α P) (o : Odometry α P) (scan : Scan α P)
    (f : Failure) (out : CycleOutcome α P) : Prop where
  stocked : o.settings.useInertial = true → o.buffer.samples ≠ []
  asked : ∃ reference, out.call = some (scan.points, reference) ∧
    o.integrator.query = some reference ∧
    (engine scan.points reference = .error f ∨ f.IsGeometric)
  moved : o.MovedOn scan out.state
  unused : o.settings.useInertial = false → out.state.aligner = o.aligner
  deltas : o.settings.useInertial = true → ∃ sample previous,
    nearest? Sample.time scan.time o.buffer.samples = some sample ∧
      o.aligner.previous = some previous ∧
      o.TurnedOver (.scan engine scan)
        (.ofMat3 (relativeRotation sample.attitude previous)) out.state.aligner.deltas

/-- No call makes the queue longer than it may be. -/
theorem DeltaTurn.size_le {o : Odometry α P} {call : Call α P}
    {next : BoundedQueue (Tensor α)} {capacity : Nat} (h : DeltaTurn o call next)
    (hcapacity : o.aligner.deltas.capacity = capacity)
    (hsize : o.aligner.deltas.size ≤ capacity) : next.size ≤ capacity := by
  cases h with
  | untouched hpush hpop => exact hsize
  | queued hpush hpop =>
      rw [BoundedQueue.size_push, hcapacity]
      omega
  | @taken d x left hpush hpop htaken htilt =>
      have hbefore := o.aligner.deltas.size_push d
      obtain ⟨hitems, -⟩ := BoundedQueue.pop?_eq_some htaken
      rw [BoundedQueue.size, hitems, List.length_cons, hcapacity] at hbefore
      have hnext : next.size = next.items.length := rfl
      omega

private theorem size_deltas_le (s : Settings α) (calls : List (Call α P)) :
    ((create s).run calls).aligner.deltas.size ≤ s.capacity := by
  induction calls using List.reverseRecOn with
  | nil => exact Nat.zero_le _
  | append_singleton calls call ih =>
      rw [run_concat]
      by_cases hreset : call = .reset
      · subst hreset
        exact Nat.zero_le _
      · have hcapacity := (configured_run s calls).deltas
        exact (deltaTurn_run s calls hreset).size_le hcapacity ih

theorem DeltaTurn.turnedOver {o : Odometry α P} {call : Call α P} {d : Tensor α}
    {next : BoundedQueue (Tensor α)} (h : DeltaTurn o call next)
    (hpush : o.pushed? call = some d) (hcapacity : 0 < o.aligner.deltas.capacity)
    (hsize : o.aligner.deltas.size ≤ o.aligner.deltas.capacity) :
    o.TurnedOver call d next := by
  have hitems := o.aligner.deltas.items_push_eq_kept d hcapacity hsize
  cases h with
  | untouched hnone hpop => cases hpush.symm.trans hnone
  | @queued d' hd hpop =>
      obtain rfl : d = d' := Option.some.inj (hpush.symm.trans hd)
      exact ⟨fun _ => hitems, fun hreach => absurd hreach hpop⟩
  | @taken d' x left hd hpop htaken htilt =>
      obtain rfl : d = d' := Option.some.inj (hpush.symm.trans hd)
      obtain ⟨hqueued, -⟩ := BoundedQueue.pop?_eq_some htaken
      refine ⟨fun hnot => absurd hpop hnot, fun _ => ?_⟩
      rw [← hitems, hqueued, List.tail_cons]

/-- A failure comes with no estimate, and so there is nothing to credit. -/
theorem retains_of_error {engine : Engine α P} {o : Odometry α P} {scan : Scan α P}
    {f : Failure} (hfail : (o.update engine scan).result = .error f) :
    o.Retains (o.update engine scan).state := by
  obtain ⟨next, hretains, hstate, -⟩ := update_credit engine o scan
  have hnone : (o.update engine scan).estimate? = none := by
    rw [CycleOutcome.estimate?, hfail]
  rw [hstate, hnone]
  exact hretains

/-- A failure comes from the alignment, or from the engine and what is made of its
answer. -/
theorem Advance.turnedAway_or_brokenOff {engine : Engine α P} {o : Odometry α P}
    {scan : Scan α P} {out : CycleOutcome α P} {f : Failure}
    (h : Advance engine o scan out) (hrunning : o.initialized = true)
    (hfail : out.result = .error f)
    (hturn : DeltaTurn o (.scan engine scan) out.state.aligner.deltas)
    (hcapacity : 0 < o.aligner.deltas.capacity)
    (hsize : o.aligner.deltas.size ≤ o.aligner.deltas.capacity) :
    o.TurnedAway f out ∨ o.BrokenOff engine scan f out := by
  cases h with
  | refused hscan huse hempty =>
      cases hfail
      exact Or.inl ⟨huse, hempty, rfl, rfl, rfl, rfl⟩
  | @asked alignment aligner reference deltas said result halign hquery hcause =>
      obtain rfl := Failure.of_map_error hfail
      have hmoved := halign.movedOn hquery deltas none
      have hpush := halign.pushed?_eq engine hrunning
      have hasked := hcause f rfl
      cases halign with
      | unused hnot =>
          have hkept : deltas = o.aligner.deltas := by
            cases hturn with
            | untouched hnone hpop => rfl
            | queued hd hpop => cases hpush.symm.trans hd
            | taken hd hpop htaken htilt => cases hpush.symm.trans hd
          refine Or.inr ⟨?_, ⟨reference, rfl, hquery, hasked⟩, hmoved, ?_, ?_⟩
          · intro huse
            cases huse.symm.trans hnot
          · intro _
            subst hkept
            rfl
          · intro huse
            cases huse.symm.trans hnot
      | @bySample previous sample huse hprevious hnearest =>
          refine Or.inr ⟨?_, ⟨reference, rfl, hquery, hasked⟩, hmoved, ?_, ?_⟩
          · intro _ hempty
            rw [hempty] at hnearest
            cases hnearest
          · intro hnot
            cases huse.symm.trans hnot
          · intro _
            exact ⟨sample, previous, hnearest, hprevious,
              hturn.turnedOver hpush hcapacity hsize⟩

/-- In every state that calls of any kind have led to, a scan that fails finds the
pipeline running and leaves it so, with the trajectory, the counters and the samples as
they were and the stamp of the scan. Either it was turned away, and nothing else has
moved; or the cycle broke off later, and the scans, and with the sensor in use the
attitude and the deltas, have moved on to the scan. -/
theorem failed_cycle (s : Settings α) (calls : List (Call α P)) (engine : Engine α P)
    (scan : Scan α P) (f : Failure)
    (hfail : (((create s).run calls).update engine scan).result = .error f) :
    let o := (create s).run calls
    let out := o.update engine scan
    o.initialized = true ∧ o.Retains out.state ∧
      out.state.initialized = o.initialized ∧ out.state.stamp = some scan.stamp ∧
      (o.TurnedAway f out ∨ o.BrokenOff engine scan f out) := by
  intro o out
  have hconfigured : Configured s o := configured_run s calls
  have hcapacity : 0 < o.aligner.deltas.capacity := by
    rw [hconfigured.deltas]
    exact s.capacity_pos
  have hsize : o.aligner.deltas.size ≤ o.aligner.deltas.capacity := by
    rw [hconfigured.deltas]
    exact size_deltas_le s calls
  cases hrunning : o.initialized with
  | false =>
      rw [update_of_not_initialized engine scan hrunning] at hfail
      cases hfail
  | true =>
      have hadvance := (primed_run s calls).advance hrunning engine scan
      have hturn := deltaTurn_run s calls (by simp : Call.scan engine scan ≠ .reset)
      obtain ⟨hstill, hstamp⟩ := (course_update engine scan hrunning).initialized_and_stamp
      exact ⟨rfl, retains_of_error hfail, hstill.trans hrunning, hstamp,
        hadvance.turnedAway_or_brokenOff hrunning hfail hturn hcapacity hsize⟩

/-- A sample without orientation makes the cycle break off after its delta was taken:
the delta is lost, and the scans have moved up. -/
theorem failed_cycle_of_degenerate_attitude :
    let calls : List (Call Float Nat) :=
      [.upright 0, .still 0, .sample ⟨⟨⟨0, 0, 0⟩, ⟨0, 0, 0⟩, ⟨0, 0, 0⟩⟩, 1⟩]
    let o : Odometry Float Nat := (create .checked).run calls
    let scan : Scan Float Nat := ⟨7, .real 1, 1⟩
    let out := o.update .still scan
    ∃ f, out.result = .error f ∧ o.initialized = true ∧ o.Retains out.state ∧
      o.BrokenOff .still scan f out ∧ out.state.aligner.deltas.items = [] := by
  intro calls o scan out
  have hstops : out.result.toBool = false := by decide +kernel
  have hcall : out.call = some (7, 0) := by decide +kernel
  have hpop : o.ReachesPop (.scan .still scan) := by decide +kernel
  have hkept : o.aligner.deltas.kept = [] := by decide +kernel
  cases hresult : out.result with
  | ok estimate =>
      rw [hresult] at hstops
      cases hstops
  | error f =>
      obtain ⟨hrunning, hretains, -, -, hstage⟩ :=
        failed_cycle .checked calls .still scan f hresult
      rcases hstage with haway | hbroken
      · cases haway.unasked.symm.trans hcall
      · obtain ⟨sample, previous, -, -, hturned⟩ := hbroken.deltas rfl
        have hitems := hturned.taken hpop
        rw [hkept] at hitems
        exact ⟨f, rfl, hrunning, hretains, hbroken, hitems⟩

end Odometry

end InertialOdometry
