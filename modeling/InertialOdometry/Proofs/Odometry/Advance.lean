import InertialOdometry.Proofs.Odometry.Deltas
import InertialOdometry.Proofs.Odometry.Failures

/-!
How a scan advances a running pipeline. A pipeline that was started has a scan to
compare with, and with the sensor in use an attitude to come from; only a reset takes
these away, not even an emptied buffer. That leaves two ways for a scan to go. The
alignment refuses it for want of samples, and nothing moves; or the engine is asked, and
then the aligner and the scans have moved on together, whatever comes of the answer.
-/

namespace InertialOdometry

variable {α P : Type} [Scalar α] [HasSingularValues α]

namespace Odometry

/-- What a running pipeline never lacks: the scan before, and with the sensor in use the
attitude before. -/
structure Primed (o : Odometry α P) : Prop where
  query : o.initialized = true → o.integrator.query ≠ none
  previous : o.initialized = true → o.settings.useInertial = true →
    o.aligner.previous ≠ none

/-- The scans and the attitude have moved on to a scan. -/
structure MovedOn (o : Odometry α P) (scan : Scan α P) (next : Odometry α P) :
    Prop where
  query : next.integrator.query = some scan.points
  reference : next.integrator.reference = o.integrator.query
  unused : o.settings.useInertial = false → next.aligner.previous = o.aligner.previous
  used : o.settings.useInertial = true → ∃ sample,
    nearest? Sample.time scan.time o.buffer.samples = some sample ∧
      next.aligner.previous = some sample.attitude

/-- How a scan can advance a running pipeline: not at all, or up to the question to the
engine and from there as far as the answer carries. -/
inductive Advance (engine : Engine α P) (o : Odometry α P) (scan : Scan α P) :
    CycleOutcome α P → Prop where
  | refused (hscan : o.alignScan scan = .error .emptySnapshot)
      (huse : o.settings.useInertial = true) (hempty : o.buffer.samples = []) :
      Advance engine o scan ⟨o.stamped scan, [], none, .error .emptySnapshot⟩
  | asked {alignment : Option (Alignment α)} {aligner : Aligner α} {reference : P}
      (deltas : BoundedQueue (Tensor α)) (said : Journal α)
      (result : Except Failure (Estimate α P))
      (halign : Aligns o scan alignment aligner)
      (hquery : o.integrator.query = some reference)
      (hcause : ∀ f, result = .error f →
        engine scan.points reference = .error f ∨ f.IsGeometric) :
      Advance engine o scan
        ⟨(((o.stamped scan).facing aligner scan.points reference).withDeltas
            deltas).credit result.toOption,
          said, some (scan.points, reference), result.map some⟩

omit [HasSingularValues α] in
theorem primed_create (s : Settings α) : (create s : Odometry α P).Primed where
  query h := by cases h
  previous h := by cases h

/-- A running pipeline that lacks nothing advances, or it stays as it is. -/
theorem Primed.advance {o : Odometry α P} (h : o.Primed) (hrunning : o.initialized = true)
    (engine : Engine α P) (scan : Scan α P) :
    Advance engine o scan (o.update engine scan) := by
  have hcourse := course_update engine scan hrunning
  generalize o.update engine scan = out at hcourse ⊢
  cases hcourse with
  | unaligned hfail =>
      have hscan : o.alignScan scan = .error _ := alignScan_error_congr hfail rfl rfl rfl
      obtain ⟨huse, ⟨-, hprevious⟩ | ⟨rfl, hnearest⟩⟩ := alignScan_error hscan
      · exact absurd hprevious (h.previous hrunning huse)
      · refine .refused hscan huse ?_
        by_contra hstocked
        exact nearest?_ne_none Sample.time scan.time hstocked hnearest
  | unpaired halign hquery hquiet => exact absurd hquery (h.query hrunning)
  | @unregistered alignment aligner said reference f halign hquery hengine hquiet =>
      refine .asked aligner.deltas said (.error f) halign.of_stamped hquery ?_
      intro f' hf
      cases hf
      exact Or.inl hengine
  | @registered alignment aligner final said last reference registration result
      halign hquery hengine hquiet habsorb =>
      obtain ⟨deltas, -, hfinal, -⟩ := habsorb.final_eq
      subst hfinal
      refine .asked deltas (said ++ last) result halign.of_stamped hquery ?_
      rintro f rfl
      exact Or.inr habsorb.error_geometric

omit [HasSingularValues α] in
theorem Warmed.primed {o : Odometry α P} {scan : Scan α P}
    {out : Odometry α P × Journal α} (h : Warmed o scan out) (hprimed : o.Primed) :
    out.1.Primed := by
  cases h with
  | unused huse =>
      refine ⟨fun _ => Option.some_ne_none _, ?_⟩
      intro _ hused
      cases huse.symm.trans hused
  | waiting huse hfirst => exact ⟨fun _ => Option.some_ne_none _, hprimed.previous⟩
  | bySample huse hfirst =>
      exact ⟨fun _ => Option.some_ne_none _, fun _ _ => Option.some_ne_none _⟩

omit [HasSingularValues α] in
/-- Wherever the cycle stops after the question to the engine, it has moved on. -/
theorem Aligns.movedOn {o : Odometry α P} {scan : Scan α P}
    {alignment : Option (Alignment α)} {aligner : Aligner α} {reference : P}
    (h : Aligns o scan alignment aligner)
    (hquery : o.integrator.query = some reference) (deltas : BoundedQueue (Tensor α))
    (estimate : Option (Estimate α P)) :
    o.MovedOn scan ((((o.stamped scan).facing aligner scan.points reference).withDeltas
      deltas).credit estimate) := by
  obtain ⟨_, _, _, _, _, hcredit⟩ := credit_eq
    (((o.stamped scan).facing aligner scan.points reference).withDeltas deltas) estimate
  rw [hcredit]
  refine ⟨rfl, hquery.symm, ?_, ?_⟩
  · intro hnot
    cases h with
    | unused huse => rfl
    | bySample huse hprevious hnearest => cases huse.symm.trans hnot
  · intro hused
    cases h with
    | unused huse => cases huse.symm.trans hused
    | bySample huse hprevious hnearest => exact ⟨_, hnearest, rfl⟩

omit [HasSingularValues α] in
theorem MovedOn.primed {o next : Odometry α P} {scan : Scan α P}
    (h : o.MovedOn scan next) (hsettings : next.settings = o.settings) : next.Primed := by
  refine ⟨?_, ?_⟩
  · intro _
    rw [h.query]
    exact Option.some_ne_none _
  · intro _ huse
    rw [hsettings] at huse
    obtain ⟨sample, -, hprevious⟩ := h.used huse
    rw [hprevious]
    exact Option.some_ne_none _

/-- No call leaves a running pipeline without what it needs. -/
theorem Primed.after {o : Odometry α P} (h : o.Primed) (call : Call α P) :
    (o.after call).Primed := by
  cases call with
  | sample x => exact ⟨h.query, h.previous⟩
  | scan engine scan =>
      simp only [Odometry.after]
      cases hrunning : o.initialized with
      | false =>
          rw [update_of_not_initialized engine scan hrunning]
          exact (warmed_warmUp _ scan).primed ⟨h.query, h.previous⟩
      | true =>
          have hadvance := h.advance hrunning engine scan
          have hsettings := settings_update engine o scan
          generalize o.update engine scan = out at hadvance hsettings ⊢
          cases hadvance with
          | refused hscan huse hempty => exact ⟨h.query, h.previous⟩
          | asked deltas said result halign hquery hcause =>
              exact (halign.movedOn hquery deltas result.toOption).primed hsettings
  | lastScan => exact h
  | clearBuffer => exact ⟨h.query, h.previous⟩
  | reset =>
      refine ⟨?_, ?_⟩ <;>
        · intro hrunning
          cases hrunning

/-- A pipeline that was created never lacks anything while it runs. -/
theorem primed_run (s : Settings α) (calls : List (Call α P)) :
    ((create s).run calls).Primed := by
  induction calls using List.reverseRecOn with
  | nil => exact primed_create s
  | append_singleton calls call ih =>
      rw [run_concat]
      exact ih.after call

end Odometry

end InertialOdometry
