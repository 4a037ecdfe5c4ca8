import InertialOdometry.Odometry.Replay
import InertialOdometry.Proofs.Odometry.Received
import InertialOdometry.Proofs.Odometry.Refit
import InertialOdometry.Proofs.Recording.Merge

/-!
New pipelines that are led through events, up to the first failure. As long as there is
none, a pipeline has received all samples so far, and no more deltas wait in it than it has
returned stale estimates. An event goes the same way with other queues in which a scan finds
what it looks for.
-/

namespace InertialOdometry

variable {α P : Type} [Scalar α] [HasSingularValues α]

namespace Replay

open Odometry Event

theorem odometry_present (engine : Engine α P) (r : Replay α P) (scan : Scan α P) :
    (r.present engine scan).odometry = (r.odometry.update engine scan).state := by
  cases hresult : (r.odometry.update engine scan).result with
  | error f => simp [present, hresult]
  | ok estimate => cases estimate <;> simp [present, record, hresult]

private theorem calls_present (engine : Engine α P) (r : Replay α P) (scan : Scan α P) :
    (r.present engine scan).calls =
      r.calls ++ (r.odometry.update engine scan).call.toList := by
  cases hresult : (r.odometry.update engine scan).result with
  | error f => simp [present, hresult]
  | ok estimate => cases estimate <;> simp [present, record, hresult]

theorem estimates_present (engine : Engine α P) (r : Replay α P) (scan : Scan α P) :
    (r.present engine scan).estimates =
      r.estimates ++ (r.odometry.update engine scan).estimate?.toList := by
  cases hresult : (r.odometry.update engine scan).result with
  | error f => simp [present, CycleOutcome.estimate?, hresult]
  | ok estimate =>
      cases estimate <;> simp [present, record, CycleOutcome.estimate?, hresult]

/-- A replay fails with a scan whose cycle fails. -/
theorem failure_present (engine : Engine α P) (r : Replay α P) (scan : Scan α P) :
    (r.present engine scan).failure =
      match (r.odometry.update engine scan).result with
      | .error f => some f
      | .ok _ => r.failure := by
  cases hresult : (r.odometry.update engine scan).result with
  | error f => simp [present, hresult]
  | ok estimate => cases estimate <;> simp [present, record, hresult]

variable (engine : Nat → Engine α P) (load : Nat → Except Failure (Scan α P))

private theorem step_scan_of_error {r : Replay α P} {index : Nat} {f : Failure}
    (h : load index = .error f) :
    r.step engine load (.scan index) = { r with failure := some f } := by
  simp [step, h]

theorem step_scan_of_ok {r : Replay α P} {index : Nat} {scan : Scan α P}
    (h : load index = .ok scan) :
    r.step engine load (.scan index) = r.present (engine r.calls.length) scan := by
  simp [step, h]

/-- A new pipeline that is led through events. -/
def lead (s : Settings α) (events : List (Event α)) : Replay α P :=
  run engine load (start (create s)) events

private theorem lead_concat (s : Settings α) (events : List (Event α)) (event : Event α) :
    lead engine load s (events ++ [event]) =
      if (lead engine load s events).failure.isSome then lead engine load s events
      else (lead engine load s events).step engine load event := by
  rw [lead, run, List.foldl_append]
  rfl

/-- An event takes no estimate back. -/
theorem exists_estimates_concat (s : Settings α) (events : List (Event α))
    (event : Event α) :
    ∃ more, (lead engine load s (events ++ [event])).estimates =
      (lead engine load s events).estimates ++ more := by
  rw [lead_concat]
  split
  · exact ⟨[], (List.append_nil _).symm⟩
  · cases event with
    | sample x => exact ⟨[], (List.append_nil _).symm⟩
    | scan index =>
        cases hload : load index with
        | error f =>
            rw [step_scan_of_error engine load hload]
            exact ⟨[], (List.append_nil _).symm⟩
        | ok scan =>
            rw [step_scan_of_ok engine load hload, estimates_present]
            exact ⟨_, rfl⟩

variable {engine load}

/-- Nothing happens after a failure. -/
theorem lead_concat_of_failure {s : Settings α} {events : List (Event α)} {f : Failure}
    (h : (lead engine load s events).failure = some f) (event : Event α) :
    lead engine load s (events ++ [event]) = lead engine load s events := by
  rw [lead_concat, if_pos (by simp [h])]

theorem lead_concat_of_none {s : Settings α} {events : List (Event α)}
    (h : (lead engine load s events).failure = none) (event : Event α) :
    lead engine load s (events ++ [event]) =
      (lead engine load s events).step engine load event := by
  rw [lead_concat, if_neg (by simp [h])]

private theorem failure_of_concat {s : Settings α} {events : List (Event α)} {event : Event α}
    (h : (lead engine load s (events ++ [event])).failure = none) :
    (lead engine load s events).failure = none := by
  cases hfailure : (lead engine load s events).failure with
  | none => rfl
  | some f => rwa [lead_concat_of_failure hfailure, hfailure] at h

/-- As long as it has not failed, a pipeline has received all samples so far. -/
theorem received_lead (s : Settings α) (events : List (Event α))
    (h : (lead engine load s events).failure = none) :
    Configured s (lead engine load s events).odometry ∧
      (lead engine load s events).odometry.buffer =
        .holding s.capacity (samplesIn events) := by
  induction events using List.reverseRecOn with
  | nil => exact ⟨configured_create s, (SampleBuffer.holding_nil s.capacity).symm⟩
  | append_singleton events event ih =>
      have hbefore := failure_of_concat h
      obtain ⟨hconfigured, hbuffer⟩ := ih hbefore
      rw [lead_concat_of_none hbefore] at h ⊢
      cases event with
      | sample x =>
          rw [samplesIn_append]
          exact ⟨hconfigured.after (.sample x), buffer_after hbuffer (.sample x)⟩
      | scan index =>
          rw [samplesIn_append, samplesIn_scan]
          cases hload : load index with
          | error f =>
              rw [step_scan_of_error engine load hload] at h
              cases h
          | ok scan =>
              rw [step_scan_of_ok engine load hload, odometry_present, buffer_update,
                samplesIn_nil, List.append_nil]
              exact ⟨hconfigured.after (.scan _ scan), hbuffer⟩

/-- An estimate was returned for a scan among the events. -/
theorem exists_scan_of_mem_estimates {s : Settings α} {events : List (Event α)}
    {e : Estimate α P} (h : e ∈ (lead engine load s events).estimates) :
    ∃ before index after scan, events = before ++ .scan index :: after ∧
      (lead engine load s before).failure = none ∧ load index = .ok scan ∧
      ∃ answer, ((lead engine load s before).odometry.update answer scan).result =
        .ok (some e) := by
  induction events using List.reverseRecOn with
  | nil => cases h
  | append_singleton events event ih =>
      have hextend : e ∈ (lead engine load s events).estimates →
          ∃ before index after scan, events ++ [event] = before ++ .scan index :: after ∧
            (lead engine load s before).failure = none ∧ load index = .ok scan ∧
            ∃ answer, ((lead engine load s before).odometry.update answer scan).result =
              .ok (some e) := by
        intro hold
        obtain ⟨before, index, after, scan, rfl, hrest⟩ := ih hold
        exact ⟨before, index, after ++ [event], scan, by simp, hrest⟩
      cases hfailure : (lead engine load s events).failure with
      | some f =>
          rw [lead_concat_of_failure hfailure] at h
          exact hextend h
      | none =>
          rw [lead_concat_of_none hfailure] at h
          cases event with
          | sample x => exact hextend h
          | scan index =>
              cases hload : load index with
              | error f =>
                  rw [step_scan_of_error engine load hload] at h
                  exact hextend h
              | ok scan =>
                  rw [step_scan_of_ok engine load hload, estimates_present,
                    List.mem_append, Option.mem_toList] at h
                  rcases h with hold | hnew
                  · exact hextend hold
                  · exact ⟨events, index, [], scan, rfl, hfailure, hload, _,
                      CycleOutcome.estimate?_eq_some_iff.mp hnew⟩

/-- The deltas that wait in a pipeline are those that stale estimates have left behind. -/
theorem size_deltas_lead (s : Settings α) (events : List (Event α))
    (h : (lead engine load s events).failure = none) :
    (lead engine load s events).odometry.aligner.deltas.size ≤
      staleCount s (lead engine load s events).estimates := by
  induction events using List.reverseRecOn with
  | nil => exact Nat.zero_le _
  | append_singleton events event ih =>
      have hbefore := failure_of_concat h
      obtain ⟨hconfigured, -⟩ := received_lead s events hbefore
      have hsize := ih hbefore
      rw [lead_concat_of_none hbefore] at h ⊢
      cases event with
      | sample x => exact hsize
      | scan index =>
          cases hload : load index with
          | error f =>
              rw [step_scan_of_error engine load hload] at h
              cases h
          | ok scan =>
              rw [step_scan_of_ok engine load hload] at h ⊢
              rw [failure_present] at h
              have hok : ∀ f, ((lead engine load s events).odometry.update
                  (engine (lead engine load s events).calls.length) scan).result ≠
                    .error f := by
                intro f hresult
                rw [hresult] at h
                cases h
              have hnext := size_deltas_update hconfigured _ scan hok
              rw [odometry_present, estimates_present, staleCount_append]
              exact hnext.trans (Nat.add_le_add_right hsize _)

/-- What a replay shows to the outside. -/
def shown (r : Replay α P) : List (Estimate α P) × List (P × P) × Option Failure :=
  (r.estimates, r.calls, r.failure)

/-- A scan shows the same in two replays of pipelines with different queues, if it finds the
same in them. -/
theorem present_refit (answer : Engine α P) {r other : Replay α P} {scan : Scan α P}
    {capacity : Nat} {hcapacity : 0 < capacity} {buffer : SampleBuffer α}
    (hshown : other.shown = r.shown)
    (hodometry : other.odometry = r.odometry.refit capacity hcapacity buffer)
    (hfits : r.odometry.Fits scan.time capacity buffer) :
    (other.present answer scan).shown = (r.present answer scan).shown ∧
      (other.present answer scan).odometry =
        (r.present answer scan).odometry.refit capacity hcapacity buffer := by
  obtain ⟨hstate, hout⟩ := update_refit answer hcapacity fun _ => hfits
  rw [← hodometry] at hstate hout
  simp only [shown, CycleOutcome.shown, Prod.mk.injEq] at hshown hout ⊢
  obtain ⟨hestimates, hcalls, hfailure⟩ := hshown
  obtain ⟨hresult, hcall⟩ := hout
  have hestimate : (other.odometry.update answer scan).estimate? =
      (r.odometry.update answer scan).estimate? := by
    rw [CycleOutcome.estimate?, hresult]
    rfl
  refine ⟨⟨?_, ?_, ?_⟩, ?_⟩
  · rw [estimates_present, estimates_present, hestimates, hestimate]
  · rw [calls_present, calls_present, hcalls, hcall]
  · rw [failure_present, failure_present, hresult, hfailure]
  · rw [odometry_present, odometry_present, hstate]

/-- An event goes the same way in two replays of pipelines with different queues, if a scan
finds the same in them. -/
theorem step_refit {r other : Replay α P} {event : Event α} {capacity : Nat}
    {hcapacity : 0 < capacity} {received : List (Sample α)} (hshown : other.shown = r.shown)
    (hodometry : other.odometry =
      r.odometry.refit capacity hcapacity (.holding capacity received))
    (hfits : ∀ index scan, event = .scan index → load index = .ok scan →
      r.odometry.Fits scan.time capacity (.holding capacity received)) :
    (other.step engine load event).shown = (r.step engine load event).shown ∧
      ((r.step engine load event).failure = none →
        (other.step engine load event).odometry =
          (r.step engine load event).odometry.refit capacity hcapacity
            (.holding capacity (received ++ samplesIn [event]))) := by
  cases event with
  | sample x =>
      refine ⟨hshown, fun _ => ?_⟩
      rw [samplesIn_sample, samplesIn_nil, ← SampleBuffer.push_holding]
      exact congrArg (fun o => (o.pushSample x).1) hodometry
  | scan index =>
      rw [samplesIn_scan, samplesIn_nil, List.append_nil]
      cases hload : load index with
      | error f =>
          rw [step_scan_of_error engine load hload, step_scan_of_error engine load hload]
          simp only [shown, Prod.mk.injEq] at hshown ⊢
          refine ⟨⟨hshown.1, hshown.2.1, trivial⟩, fun hnone => ?_⟩
          cases hnone
      | ok scan =>
          have hcalls : other.calls = r.calls := congrArg (·.2.1) hshown
          rw [step_scan_of_ok engine load hload, step_scan_of_ok engine load hload, hcalls]
          obtain ⟨hnext, hstate⟩ :=
            present_refit _ hshown hodometry (hfits index scan rfl hload)
          exact ⟨hnext, fun _ => hstate⟩

end Replay

end InertialOdometry
