import InertialOdometry.Proofs.Odometry.Frame

/-!
What the increment of an estimate is made of. It is the transform that the engine has
answered, or that transform with a rotation made of angles; and it has passed before the
guard, whose verdict the estimate shows.
-/

namespace InertialOdometry

variable {α P : Type} [Scalar α] [HasSingularValues α]

namespace Fusion

/-- What fusion can make of a registered transform: nothing, or a transform with another
rotation. -/
inductive Yields (raw : RigidTransform α) : RigidTransform α → Prop where
  | asRegistered : Yields raw raw
  | rotated (angles : Rpy α) {rotation : Mat3 α} (hangles : angles.toMat3 = .ok rotation) :
      Yields raw (raw.withRotation rotation)

private theorem yields_of_withDelta {raw : RigidTransform α} {angles : Rpy α} {delta : Tensor α}
    {fusion : Fusion α} {journal : Journal α}
    (h : withDelta raw angles delta = .ok (fusion, journal)) :
    Yields raw fusion.transform := by
  unfold withDelta at h
  obtain ⟨attitude, -, h⟩ := Failure.of_bind_ok h
  obtain ⟨tilt, -, h⟩ := Failure.of_bind_ok h
  obtain ⟨rotation, hrotation, h⟩ := Failure.of_bind_ok h
  obtain ⟨correction, -, h⟩ := Failure.of_bind_ok h
  cases h
  exact .rotated ⟨tilt.roll, tilt.pitch, angles.yaw⟩ hrotation

theorem Combined.yields {deltas left : BoundedQueue (Tensor α)} {raw : RigidTransform α}
    {active : Bool} {fusion : Fusion α} {journal : Journal α}
    (h : Combined deltas raw active (left, .ok (fusion, journal))) :
    Yields raw fusion.transform := by
  cases h with
  | inactive hrpy hactive => exact .asRegistered
  | drained hrpy hactive hpop => exact .asRegistered
  | taken hrpy hactive hpop hdelta => exact yields_of_withDelta hdelta

end Fusion

namespace Engine

def Answers (engine : Engine α P) (query reference : P) (a : RigidTransform α) : Prop :=
  ∃ registration, engine query reference = .ok registration ∧
    RigidTransform.ofTensor registration.transformation = .ok a

def constant (a : RigidTransform α) : Engine α P := fun _ _ =>
  .ok ⟨⟨[4, 4], a.toMat4.toRows.flatten⟩, .real Scalar.zero, .real Scalar.zero, 0⟩

omit [HasSingularValues α] in
theorem constant_answers_iff {a b : RigidTransform α} {query reference : P} :
    (constant a).Answers query reference b ↔ b = a := by
  constructor
  · rintro ⟨registration, hengine, hmatrix⟩
    cases hengine
    cases hmatrix
    rfl
  · rintro rfl
    exact ⟨_, rfl, rfl⟩

end Engine

namespace Odometry

/-- The transform that a call gets from the engine, where it asks the engine and the
answer is a homogeneous matrix. -/
def registered? (o : Odometry α P) : Call α P → Option (RigidTransform α)
  | .scan engine scan => do
    let (query, reference) ← (o.update engine scan).call
    let registration ← (engine query reference).toOption
    (RigidTransform.ofTensor registration.transformation).toOption
  | _ => none

def registered (o : Odometry α P) (calls : List (Call α P)) : List (RigidTransform α) :=
  collect registered? o calls

/-- The increment of an estimate comes of a registered transform, and the guard has
judged it. -/
structure Judged (s : Settings α) (raw : RigidTransform α) (e : Estimate α P) : Prop where
  yields : Fusion.Yields raw e.incremental
  verdict : ∃ verdict, s.guard.check e.incremental = .ok verdict ∧
    verdict.accepted = e.accepted

theorem Absorbed.judged_estimate {o final : Odometry α P} {scan : Scan α P} {gap : Option α}
    {active : Bool} {query reference : P} {registration : Registration α}
    {journal : Journal α} {e : Estimate α P}
    (h : Absorbed o scan gap active query reference registration
      (final, journal, .ok e)) :
    ∃ raw, RigidTransform.ofTensor registration.transformation = .ok raw ∧
      Judged o.settings raw e := by
  cases h with
  | @judged raw deltas fusion said verdict hmatrix hfuse hguard =>
      exact ⟨raw, hmatrix, hfuse.yields, verdict, hguard, rfl⟩

private theorem scan_of_estimate? {o : Odometry α P} {call : Call α P} {e : Estimate α P}
    (h : o.estimate? call = some e) :
    ∃ engine scan, call = .scan engine scan ∧
      (o.update engine scan).result = .ok (some e) := by
  cases call with
  | scan engine scan =>
      exact ⟨engine, scan, rfl, CycleOutcome.estimate?_eq_some_iff.mp h⟩
  | sample x => cases h
  | lastScan => cases h
  | clearBuffer => cases h
  | reset => cases h

theorem integrated_of_estimate? {o : Odometry α P} {call : Call α P} {e : Estimate α P}
    (h : o.estimate? call = some e) :
    e.integrated = (o.after call).integrator.integrated := by
  obtain ⟨engine, scan, rfl, hresult⟩ := scan_of_estimate? h
  obtain ⟨-, -, -, hshown⟩ := update_credit engine o scan
  exact hshown e (CycleOutcome.estimate?_eq_some_iff.mpr hresult)

private theorem judged_of_estimate? {o : Odometry α P} {call : Call α P} {e : Estimate α P}
    (h : o.estimate? call = some e) :
    ∃ raw, o.registered? call = some raw ∧ Judged o.settings raw e := by
  obtain ⟨engine, scan, rfl, hresult⟩ := scan_of_estimate? h
  cases hrunning : o.initialized with
  | false =>
      rw [update_of_not_initialized engine scan hrunning] at hresult
      cases hresult
  | true =>
      have hcourse := course_update engine scan hrunning
      simp only [registered?]
      generalize o.update engine scan = out at hcourse hresult ⊢
      cases hcourse with
      | unaligned hfail => cases hresult
      | unpaired halign hquery hquiet => cases hresult
      | unregistered halign hquery hengine hquiet => cases hresult
      | @registered alignment aligner final said last reference registration result
          halign hquery hengine hquiet habsorb =>
          cases result with
          | error f => cases hresult
          | ok estimate =>
              cases hresult
              obtain ⟨raw, hmatrix, hjudged⟩ := habsorb.judged_estimate
              refine ⟨raw, ?_, hjudged⟩
              simp [hengine, hmatrix, Except.toOption]

/-- Every estimate of a run comes of a transform that an engine gave. -/
theorem judged_of_mem_estimates {s : Settings α} {calls : List (Call α P)}
    {e : Estimate α P} (h : e ∈ (create s).estimates calls) :
    ∃ raw ∈ (create s).registered calls, Judged s raw e := by
  obtain ⟨earlier, call, later, rfl, hestimate⟩ := mem_collect_iff.mp h
  obtain ⟨raw, hraw, hjudged⟩ := judged_of_estimate? hestimate
  rw [(configured_run s earlier).settings] at hjudged
  exact ⟨raw, mem_collect_iff.mpr ⟨earlier, call, later, rfl, hraw⟩, hjudged⟩

theorem exists_answer_of_mem_registered {o : Odometry α P} {calls : List (Call α P)}
    {raw : RigidTransform α} (h : raw ∈ o.registered calls) :
    ∃ engine scan query reference, .scan engine scan ∈ calls ∧
      engine.Answers query reference raw := by
  obtain ⟨earlier, call, later, rfl, hread⟩ := mem_collect_iff.mp h
  cases call with
  | scan engine scan =>
      obtain ⟨⟨query, reference⟩, -, hread⟩ := Option.bind_eq_some_iff.mp hread
      obtain ⟨registration, hengine, hmatrix⟩ := Option.bind_eq_some_iff.mp hread
      exact ⟨engine, scan, query, reference, by simp, registration,
        Failure.of_toOption hengine, Failure.of_toOption hmatrix⟩
  | sample x => cases hread
  | lastScan => cases hread
  | clearBuffer => cases hread
  | reset => cases hread

/-! ### Without the sensor -/

omit [Scalar α] [HasSingularValues α] in
/-- A running pipeline that does not use the sensor, with the scan it compares with. -/
structure Unaided (s : Settings α) (o : Odometry α P) (reference : P) : Prop where
  running : o.initialized = true
  settings : o.settings = s
  unused : s.useInertial = false
  query : o.integrator.query = some reference

theorem unaided_create {s : Settings α} (h : s.useInertial = false) (engine : Engine α P)
    (scan : Scan α P) :
    Unaided s ((create s).after (.scan engine scan)) scan.points ∧
      (create s).estimate? (.scan engine scan) = none := by
  have hupdate := update_of_not_initialized (o := create s) engine scan rfl
  have hwarm := warmed_warmUp ((create s).stamped scan) scan
  simp only [Odometry.after, estimate?, outcome?, Option.bind_some, hupdate]
  generalize ((create s).stamped scan).warmUp scan = out at hwarm
  cases hwarm with
  | unused huse => exact ⟨⟨rfl, rfl, h, rfl⟩, rfl⟩
  | waiting huse hfirst => cases h.symm.trans huse
  | bySample huse hfirst => cases h.symm.trans huse

/-- Without the sensor an increment is the transform that the engine has answered, if it
has angles, and the limits alone decide about it. -/
theorem Unaided.update {s : Settings α} {o : Odometry α P} {reference : P}
    (h : Unaided s o reference) {engine : Engine α P} (scan : Scan α P)
    {raw : RigidTransform α} {angles : Rpy α}
    (hengine : engine.Answers scan.points reference raw) (hangles : raw.rpy = .ok angles) :
    Unaided s (o.after (.scan engine scan)) scan.points ∧
      ∃ e, o.estimate? (.scan engine scan) = some e ∧ e.incremental = raw ∧
        e.accepted = s.guard.admits raw.translationNorm angles.norm := by
  obtain ⟨hrunning, rfl, hunused, hquery⟩ := h
  obtain ⟨registration, hengine, hmatrix⟩ := hengine
  have hguard : o.settings.guard.check raw = .ok
      ⟨o.settings.guard.admits raw.translationNorm angles.norm, raw.translationNorm,
        angles.norm⟩ := MotionGuard.check_eq_ok_iff.mpr ⟨angles, hangles, rfl⟩
  have hactive : (o.stamped scan).opensFor none = false := by
    simp [opensFor, stamped, Settings.gate, FusionGate.evaluate, hunused, GateReason.opens]
  have hquiet : Entry.queueEmpty ∉ ([] : Journal α) := List.not_mem_nil
  have hcourse := Course.registered (o := o.stamped scan) (.unused hunused) hquery hengine
    hquiet (.judged hmatrix (.inactive hangles hactive) hguard)
  obtain ⟨hstate, -, hresult⟩ := hcourse.cycle_eq
  simp only [Odometry.after, estimate?, outcome?, Option.bind_some,
    update_of_initialized engine scan hrunning, hstate, CycleOutcome.estimate?, hresult]
  refine ⟨⟨hrunning, rfl, hunused, ?_⟩, _, rfl, rfl, rfl⟩
  simp only [integrated, PoseIntegrator.integrate]
  split <;> rfl

end Odometry

end InertialOdometry
