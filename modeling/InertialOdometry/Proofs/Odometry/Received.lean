import InertialOdometry.Proofs.Inertial.SampleBuffer
import InertialOdometry.Proofs.Odometry.Frame

/-!
What a sample buffer holds. Whatever calls a pipeline was through, its buffer is told by
the samples that came since it was last emptied: it holds the last of them, as many as it
may, and remembers the first.
-/

namespace InertialOdometry

variable {α P : Type}

def Call.receive (received : List (Sample α)) : Call α P → List (Sample α)
  | .sample x => received ++ [x]
  | .clearBuffer | .reset => []
  | .scan _ _ | .lastScan => received

/-- The samples that have come since the buffer was last emptied. -/
def received (calls : List (Call α P)) : List (Sample α) := calls.foldl Call.receive []

@[simp]
theorem received_concat (calls : List (Call α P)) (call : Call α P) :
    received (calls ++ [call]) = call.receive (received calls) := by
  simp [received]

def Call.sample? : Call α P → Option (Sample α)
  | .sample x => some x
  | _ => none

def samplesOf (calls : List (Call α P)) : List (Sample α) := calls.filterMap Call.sample?

@[simp]
theorem samplesOf_concat (calls : List (Call α P)) (call : Call α P) :
    samplesOf (calls ++ [call]) = samplesOf calls ++ call.sample?.toList := by
  cases call <;> simp [samplesOf, Call.sample?]

/-- What was received since the buffer was last emptied came last. -/
theorem received_suffix (calls : List (Call α P)) : received calls <:+ samplesOf calls := by
  induction calls using List.reverseRecOn with
  | nil => exact List.suffix_rfl
  | append_singleton calls call ih =>
      rw [received_concat, samplesOf_concat]
      cases call with
      | sample x => exact List.suffix_append_self_iff.mpr ih
      | scan engine scan => simpa [Call.receive, Call.sample?] using ih
      | lastScan => simpa [Call.receive, Call.sample?] using ih
      | clearBuffer => exact List.nil_suffix
      | reset => exact List.nil_suffix

namespace Odometry

variable [Scalar α] [HasSingularValues α]

theorem buffer_after {o : Odometry α P} {capacity : Nat} {received : List (Sample α)}
    (h : o.buffer = .holding capacity received) (call : Call α P) :
    (o.after call).buffer = .holding capacity (call.receive received) := by
  cases call with
  | sample x =>
      simp only [Odometry.after, pushSample, h, SampleBuffer.push_holding]
      rfl
  | scan engine scan =>
      simp only [Odometry.after, buffer_update]
      exact h
  | lastScan => exact h
  | clearBuffer =>
      simp only [Odometry.after, clearBuffer, h, SampleBuffer.clear_holding]
      rfl
  | reset =>
      simp only [Odometry.after, reset, h, SampleBuffer.clear_holding]
      rfl

/-- The buffer holds the last of the samples received. -/
theorem buffer_run (s : Settings α) (calls : List (Call α P)) :
    ((create s).run calls).buffer = .holding s.capacity (received calls) := by
  induction calls using List.reverseRecOn with
  | nil => exact (SampleBuffer.holding_nil s.capacity).symm
  | append_singleton calls call ih =>
      rw [run_concat, received_concat]
      exact buffer_after ih call

/-- The buffer of a run has the last samples that were received. -/
theorem samples_run (s : Settings α) (calls : List (Call α P)) :
    ((create s).run calls).buffer.samples =
      BoundedQueue.lastItems s.capacity (received calls) := by
  rw [SampleBuffer.samples, buffer_run]
  rfl

end Odometry

end InertialOdometry
