import InertialOdometry.Proofs.Odometry.Course

/-!
What calls leave alone. A scan changes the state of a pipeline in few places, and
all that its estimate adds is one step of the trajectory. Settings, capacities and
the initial pose outlast every run, so that a pipeline which is reset becomes the
pipeline that it once was created as.
-/

namespace InertialOdometry

variable {α P : Type} [Scalar α] [HasSingularValues α]

theorem Fusion.Combined.capacity_eq {deltas left : BoundedQueue (Tensor α)}
    {raw : RigidTransform α} {active : Bool}
    {fused : Except Failure (Fusion α × Journal α)}
    (h : Combined deltas raw active (left, fused)) :
    left.capacity = deltas.capacity := by
  cases h with
  | angleless hrpy => rfl
  | inactive hrpy hactive => rfl
  | drained hrpy hactive hpop => rfl
  | taken hrpy hactive hpop hdelta => exact (BoundedQueue.pop?_eq_some hpop).2

namespace Odometry

omit [HasSingularValues α] in
theorem Aligns.capacity_eq {o : Odometry α P} {scan : Scan α P}
    {alignment : Option (Alignment α)} {aligner : Aligner α}
    (h : Aligns o scan alignment aligner) :
    aligner.deltas.capacity = o.aligner.deltas.capacity := by
  cases h with
  | unused huse => rfl
  | bySample huse hprevious hnearest => rfl

/-- The pipeline with an estimate taken into its trajectory, if there is one. -/
def credit (o : Odometry α P) : Option (Estimate α P) → Odometry α P
  | none => o
  | some e => o.integrated e.incremental e.accepted

omit [HasSingularValues α] in
/-- An estimate is credited to the trajectory and its counters, and to nothing else. -/
theorem credit_eq (o : Odometry α P) (estimate : Option (Estimate α P)) :
    ∃ pose increment accepted rejected cycles, o.credit estimate = { o with
      integrator := { o.integrator with
        integrated := pose
        incremental := increment
        accepted := accepted
        rejected := rejected }
      cycles := cycles } := by
  cases estimate with
  | none => exact ⟨_, _, _, _, _, rfl⟩
  | some e =>
      simp only [credit, integrated, PoseIntegrator.integrate]
      cases e.accepted <;> exact ⟨_, _, _, _, _, rfl⟩

/-- Taking in a registration changes the deltas alone, but for the credit of the
estimate that comes of it. -/
theorem Absorbed.final_eq {o final : Odometry α P} {scan : Scan α P}
    {gap : Option α} {active : Bool} {query reference : P}
    {registration : Registration α} {journal : Journal α}
    {result : Except Failure (Estimate α P)}
    (h : Absorbed o scan gap active query reference registration
      (final, journal, result)) :
    ∃ deltas, deltas.capacity = o.aligner.deltas.capacity ∧
      final = (o.withDeltas deltas).credit result.toOption ∧
      ∀ e, result = .ok e → e.integrated = final.integrator.integrated := by
  cases h with
  | unread hmatrix => exact ⟨o.aligner.deltas, rfl, rfl, by simp⟩
  | unfused hmatrix hfuse => exact ⟨_, hfuse.capacity_eq, rfl, by simp⟩
  | unjudged hmatrix hfuse hguard => exact ⟨_, hfuse.capacity_eq, rfl, by simp⟩
  | judged hmatrix hfuse hguard =>
      refine ⟨_, hfuse.capacity_eq, rfl, ?_⟩
      intro e he
      cases he
      rfl

/-- The next state agrees with a state in all but the scans, the attitude and deltas
at hand, and what is known of the start: no increment was taken in between. -/
structure Retains (o next : Odometry α P) : Prop where
  settings : next.settings = o.settings
  buffer : next.buffer = o.buffer
  capacity : next.aligner.deltas.capacity = o.aligner.deltas.capacity
  cycles : next.cycles = o.cycles
  initialPose : next.integrator.initialPose = o.integrator.initialPose
  integrated : next.integrator.integrated = o.integrator.integrated
  incremental : next.integrator.incremental = o.integrator.incremental
  accepted : next.integrator.accepted = o.integrator.accepted
  rejected : next.integrator.rejected = o.integrator.rejected

/-- All that a cycle does to the trajectory is what its estimate says. -/
theorem Course.credit_estimate {engine : Engine α P} {o : Odometry α P}
    {scan : Scan α P} {out : CycleOutcome α P} (h : Course engine o scan out) :
    ∃ next, o.Retains next ∧ out.state = next.credit out.estimate? ∧
      ∀ e, out.estimate? = some e → e.integrated = out.state.integrator.integrated := by
  cases h with
  | unaligned hfail =>
      refine ⟨o, ?_, rfl, by simp [CycleOutcome.estimate?]⟩
      exact ⟨rfl, rfl, rfl, rfl, rfl, rfl, rfl, rfl, rfl⟩
  | @unpaired alignment aligner said halign hquery hquiet =>
      refine ⟨{ o with aligner := aligner }, ?_, rfl, ?_⟩
      · exact ⟨rfl, rfl, halign.capacity_eq, rfl, rfl, rfl, rfl, rfl, rfl⟩
      · simp [CycleOutcome.estimate?]
  | @unregistered alignment aligner said reference f halign hquery hengine hquiet =>
      refine ⟨o.facing aligner scan.points reference, ?_, rfl, ?_⟩
      · exact ⟨rfl, rfl, halign.capacity_eq, rfl, rfl, rfl, rfl, rfl, rfl⟩
      · simp [CycleOutcome.estimate?]
  | @registered alignment aligner final said last reference registration result
      halign hquery hengine hquiet habsorb =>
      obtain ⟨deltas, hcapacity, hfinal, hintegrated⟩ := habsorb.final_eq
      refine ⟨(o.facing aligner scan.points reference).withDeltas deltas, ?_, ?_, ?_⟩
      · exact ⟨rfl, rfl, hcapacity.trans halign.capacity_eq, rfl, rfl, rfl, rfl, rfl, rfl⟩
      · rw [hfinal]
        cases result with
        | error f => rfl
        | ok e => rfl
      · intro e he
        cases result with
        | error f => cases he
        | ok estimate =>
            cases he
            exact hintegrated e rfl

/-- A cycle neither stops a pipeline nor starts one, and leaves its stamp alone. -/
theorem Course.initialized_and_stamp {engine : Engine α P} {o : Odometry α P}
    {scan : Scan α P} {out : CycleOutcome α P} (h : Course engine o scan out) :
    out.state.initialized = o.initialized ∧ out.state.stamp = o.stamp := by
  cases h with
  | unaligned hfail => exact ⟨rfl, rfl⟩
  | unpaired halign hquery hquiet => exact ⟨rfl, rfl⟩
  | unregistered halign hquery hengine hquiet => exact ⟨rfl, rfl⟩
  | @registered alignment aligner final said last reference registration result
      halign hquery hengine hquiet habsorb =>
      obtain ⟨deltas, -, hfinal, -⟩ := habsorb.final_eq
      obtain ⟨_, _, _, _, _, hcredit⟩ := credit_eq
        ((o.facing aligner scan.points reference).withDeltas deltas) result.toOption
      rw [hfinal, hcredit]
      exact ⟨rfl, rfl⟩

omit [HasSingularValues α] in
theorem Warmed.retains {o : Odometry α P} {scan : Scan α P}
    {out : Odometry α P × Journal α} (h : Warmed o scan out) : o.Retains out.1 := by
  cases h with
  | unused huse => exact ⟨rfl, rfl, rfl, rfl, rfl, rfl, rfl, rfl, rfl⟩
  | waiting huse hfirst => exact ⟨rfl, rfl, rfl, rfl, rfl, rfl, rfl, rfl, rfl⟩
  | bySample huse hfirst => exact ⟨rfl, rfl, rfl, rfl, rfl, rfl, rfl, rfl, rfl⟩

/-- All that a scan does to the trajectory is what its estimate says, if there is
one. -/
theorem update_credit (engine : Engine α P) (o : Odometry α P) (scan : Scan α P) :
    ∃ next, o.Retains next ∧
      (o.update engine scan).state = next.credit (o.update engine scan).estimate? ∧
      ∀ e, (o.update engine scan).estimate? = some e →
        e.integrated = (o.update engine scan).state.integrator.integrated := by
  cases hrunning : o.initialized with
  | true =>
      obtain ⟨next, hretains, hstate, hintegrated⟩ :=
        (course_update engine scan hrunning).credit_estimate
      exact ⟨next, { hretains with }, hstate, hintegrated⟩
  | false =>
      rw [update_of_not_initialized engine scan hrunning]
      have hretains := (warmed_warmUp (o.stamped scan) scan).retains
      exact ⟨_, { hretains with }, rfl, by simp [CycleOutcome.estimate?]⟩

/-- A scan takes no sample out of the buffer. -/
theorem buffer_update (engine : Engine α P) (o : Odometry α P) (scan : Scan α P) :
    (o.update engine scan).state.buffer = o.buffer := by
  obtain ⟨next, hretains, hstate, -⟩ := update_credit engine o scan
  obtain ⟨_, _, _, _, _, hcredit⟩ := next.credit_eq (o.update engine scan).estimate?
  rw [hstate, hcredit]
  exact hretains.buffer

theorem settings_update (engine : Engine α P) (o : Odometry α P) (scan : Scan α P) :
    (o.update engine scan).state.settings = o.settings := by
  obtain ⟨next, hretains, hstate, -⟩ := update_credit engine o scan
  obtain ⟨_, _, _, _, _, hcredit⟩ := next.credit_eq (o.update engine scan).estimate?
  rw [hstate, hcredit]
  exact hretains.settings

/-- What is settled when a pipeline is created and outlasts all calls. -/
structure Configured (s : Settings α) (o : Odometry α P) : Prop where
  settings : o.settings = s
  samples : o.buffer.queue.capacity = s.capacity
  deltas : o.aligner.deltas.capacity = s.capacity
  initialPose : o.integrator.initialPose = s.initialPose

omit [HasSingularValues α] in
theorem configured_create (s : Settings α) : Configured s (create s : Odometry α P) :=
  ⟨rfl, rfl, rfl, rfl⟩

/-- No call changes what was settled when the pipeline was created. -/
theorem Configured.after {s : Settings α} {o : Odometry α P} (h : Configured s o)
    (call : Call α P) : Configured s (o.after call) := by
  cases call with
  | sample x =>
      refine ⟨h.settings, ?_, h.deltas, h.initialPose⟩
      simp only [Odometry.after, pushSample, SampleBuffer.push]
      split <;> exact h.samples
  | scan engine scan =>
      obtain ⟨next, hretains, hstate, -⟩ := update_credit engine o scan
      simp only [Odometry.after, hstate]
      have hnext : Configured s next :=
        ⟨hretains.settings.trans h.settings, by rw [hretains.buffer, h.samples],
          hretains.capacity.trans h.deltas, hretains.initialPose.trans h.initialPose⟩
      cases (o.update engine scan).estimate? with
      | none => exact hnext
      | some e =>
          refine ⟨hnext.settings, hnext.samples, hnext.deltas, ?_⟩
          simp only [credit, integrated, PoseIntegrator.integrate]
          split <;> exact hnext.initialPose
  | lastScan => exact h
  | clearBuffer => exact ⟨h.settings, h.samples, h.deltas, h.initialPose⟩
  | reset => exact ⟨h.settings, h.samples, h.deltas, h.initialPose⟩

theorem configured_run (s : Settings α) (calls : List (Call α P)) :
    Configured s ((create s).run calls) := by
  induction calls using List.reverseRecOn with
  | nil => exact configured_create s
  | append_singleton calls call ih =>
      rw [run_concat]
      exact ih.after call

omit [HasSingularValues α] in
/-- A configured pipeline that is reset is the pipeline that its settings create. -/
theorem Configured.reset_eq {s : Settings α} {o : Odometry α P} (h : Configured s o) :
    o.reset.1 = create s := by
  obtain ⟨hsettings, hsamples, hdeltas, hpose⟩ := h
  subst hsettings
  simp only [reset, create, SampleBuffer.clear, BoundedQueue.clear, Aligner.reset,
    PoseIntegrator.reset, hsamples, hdeltas, hpose, SampleBuffer.empty,
    BoundedQueue.empty, Aligner.empty]

/-- A pipeline without a past is as it was created. -/
theorem Fresh.eq_create {s : Settings α} {o : Odometry α P} (h : Fresh s o) :
    o = create s := by
  cases h with
  | created => rfl
  | reset calls => exact (configured_run s calls).reset_eq

/-- Whatever a pipeline has been through, once it is reset every run goes as on a new
pipeline: each scan meets the same state and has the same outcome, the question to the
engine and the messages included. -/
theorem reset_then_run (s : Settings α) (before later : List (Call α P)) :
    let reset : Odometry α P := ((create s).run before).reset.1
    let fresh : Odometry α P := create s
    reset.outcomes later = fresh.outcomes later ∧ reset.run later = fresh.run later := by
  intro reset fresh
  have hreset : reset = fresh := (configured_run s before).reset_eq
  rw [hreset]
  exact ⟨rfl, rfl⟩

end Odometry

end InertialOdometry
