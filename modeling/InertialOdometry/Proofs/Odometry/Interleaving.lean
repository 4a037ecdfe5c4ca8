import InertialOdometry.Proofs.Inertial.Nearest
import InertialOdometry.Proofs.Odometry.Received
import InertialOdometry.Proofs.Odometry.Refit

/-!
A sample and a scan that come at the same time. Whether a sample from after a scan is
taken in before the scan or after it makes no difference, as long as it does not drive the
sample out of the buffer that the scan is aligned by.
-/

namespace InertialOdometry

namespace Odometry

variable {α P : Type} [Scalar α]

omit [Scalar α] in
theorem Configured.refit_eq {s : Settings α} {o : Odometry α P} (h : Configured s o)
    (buffer : SampleBuffer α) :
    o.refit s.capacity s.capacity_pos buffer = { o with buffer := buffer } := by
  obtain ⟨rfl, -, hdeltas, -⟩ := h
  have haligner : o.aligner.resized o.settings.capacity = o.aligner := by
    rw [← hdeltas]
    rfl
  rw [refit, haligner]
  rfl

omit [Scalar α] in
/-- A buffer that has received a sample before keeps the one to start by. -/
theorem first_push {buffer : SampleBuffer α} (h : buffer.first ≠ none) (x : Sample α) :
    (buffer.push x).1.first = buffer.first := by
  unfold SampleBuffer.push
  cases hfirst : buffer.first with
  | none => exact absurd hfirst h
  | some first => rfl

omit [Scalar α] in
private theorem samples_push (buffer : SampleBuffer α) (x : Sample α) :
    (buffer.push x).1.samples = (buffer.queue.push x).items := by
  unfold SampleBuffer.push
  cases buffer.first <;> rfl

omit [Scalar α] in
private theorem size_holding_le (capacity : Nat) (received : List (Sample α)) :
    (SampleBuffer.holding capacity received).queue.size ≤ capacity := by
  simp [SampleBuffer.holding, BoundedQueue.size, BoundedQueue.length_lastItems]

/-- A sample from after a scan leaves all that the scan looks for in its place, unless it
drives the nearest sample out of a full buffer. -/
theorem fits_push {s : Settings α} {o : Odometry α P} (h : Configured s o)
    {received : List (Sample α)} (hbuffer : o.buffer = .holding s.capacity received)
    {t : α} {m : Sample α}
    (hexact : ExactTimes (t :: m.time :: o.buffer.samples.map Sample.time))
    (hlater : t < m.time) (hpast : ∃ x ∈ o.buffer.samples, x.time ≤ t)
    (hkept : o.buffer.queue.isFull = false ∨
      nearest? Sample.time t o.buffer.samples ≠ o.buffer.samples.head?) :
    o.Fits t s.capacity (o.buffer.push m).1 := by
  have hcapacity : 0 < o.buffer.queue.capacity := by
    rw [h.samples]
    exact s.capacity_pos
  have hsize : o.buffer.queue.size ≤ o.buffer.queue.capacity := by
    rw [h.samples, hbuffer]
    exact size_holding_le s.capacity received
  refine ⟨?_, ?_, fun d => ?_⟩
  · refine first_push ?_ m
    obtain ⟨x, hx, -⟩ := hpast
    rw [hbuffer] at hx ⊢
    have hreceived : x ∈ received := List.mem_of_mem_drop hx
    simpa [SampleBuffer.holding] using List.ne_nil_of_mem hreceived
  · rw [samples_push]
    exact nearest?_push hcapacity hsize hexact hlater hpast hkept
  · rw [← h.deltas]
    rfl

variable [HasSingularValues α]

/-- A sample from after a scan, in any state that a pipeline can come to. Where the sensor
is not in use, or the buffer holds a sample that is not from after the scan and does not
give up the one nearest to it, the two can be swapped: the scan has the same result and
asks the engine the same, and the state that they leave is the same. -/
theorem sample_scan_comm (s : Settings α) (calls : List (Call α P)) (engine : Engine α P)
    (scan : Scan α P) (m : Sample α) :
    let o := (create s).run calls
    ExactTimes (scan.time :: m.time :: o.buffer.samples.map Sample.time) →
    scan.time < m.time →
    s.useInertial = false ∨
      ((∃ x ∈ o.buffer.samples, x.time ≤ scan.time) ∧
        (o.buffer.queue.isFull = false ∨
          nearest? Sample.time scan.time o.buffer.samples ≠ o.buffer.samples.head?)) →
    ((o.after (.sample m)).update engine scan).shown = (o.update engine scan).shown ∧
      ((o.after (.sample m)).after (.scan engine scan)) =
        (o.after (.scan engine scan)).after (.sample m) := by
  intro o hexact hlater hkept
  have hconfigured : Configured s o := configured_run s calls
  have hfits : o.settings.useInertial = true →
      o.Fits scan.time s.capacity (o.buffer.push m).1 := by
    intro huse
    rw [hconfigured.settings] at huse
    rcases hkept with hunused | ⟨hpast, hkept⟩
    · cases huse.symm.trans hunused
    · exact fits_push hconfigured (buffer_run s calls) hexact hlater hpast hkept
  obtain ⟨hstate, hshown⟩ := update_refit engine s.capacity_pos hfits
  have hnext : Configured s (o.update engine scan).state :=
    hconfigured.after (.scan engine scan)
  rw [hconfigured.refit_eq] at hstate hshown
  rw [hnext.refit_eq] at hstate
  refine ⟨hshown, hstate.trans ?_⟩
  simp only [Odometry.after, pushSample, buffer_update]

/-- The buffer is full, and the sample that comes drives out the oldest one; the scan
before it is aligned by the other. -/
theorem sample_scan_comm_of_full_buffer :
    let o : Odometry Float Nat := (create .checked).run [.upright 0, .still 0, .upright 1]
    let scan : Scan Float Nat := ⟨0, .real 2, 0⟩
    ExactTimes (scan.time :: 3 :: o.buffer.samples.map Sample.time) ∧ scan.time < 3 ∧
      o.buffer.queue.isFull = true ∧
      ((o.after (.upright 3)).update .still scan).shown = (o.update .still scan).shown ∧
      (o.after (.upright 3)).after (.scan .still scan) =
        (o.after (.scan .still scan)).after (.upright 3) := by
  intro o scan
  have hexact : ExactTimes (scan.time :: 3 :: o.buffer.samples.map Sample.time) := by
    decide +kernel
  have hlater : scan.time < 3 := by decide +kernel
  have hpast : ∃ x ∈ o.buffer.samples, x.time ≤ scan.time := by decide +kernel
  have hkept : nearest? Sample.time scan.time o.buffer.samples ≠ o.buffer.samples.head? := by
    decide +kernel
  have hcomm := sample_scan_comm .checked [.upright 0, .still 0, .upright 1] .still scan
    ⟨.identity, 3⟩ hexact hlater (Or.inr ⟨hpast, Or.inr hkept⟩)
  exact ⟨hexact, hlater, by decide +kernel, hcomm⟩

end Odometry

end InertialOdometry
