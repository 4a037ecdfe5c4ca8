import InertialOdometry.Proofs.Exact.Transform
import InertialOdometry.Proofs.Odometry.Noninterference

/-!
Where a pipeline starts. Nothing that a pipeline does depends on the pose that it has
come to; so it may as well have started at the origin, and all its poses be moved
afterwards. With exact scalars this is an equality, since composition is associative.
-/

namespace InertialOdometry

section

variable {α P : Type}

def Settings.startingAt (s : Settings α) (pose : RigidTransform α) : Settings α :=
  { s with initialPose := pose }

variable [Scalar α]

/-- An estimate with its pose moved by a transform, and its increment as it was. -/
def Estimate.movedBy (a : RigidTransform α) (e : Estimate α P) : Estimate α P :=
  { e with integrated := a.compose e.integrated }

/-- A pipeline with its poses moved by a transform, the one it started at included. -/
def Odometry.movedBy (a : RigidTransform α) (o : Odometry α P) : Odometry α P :=
  { o with
    settings := o.settings.startingAt (a.compose o.settings.initialPose)
    integrator := { o.integrator with
      initialPose := a.compose o.integrator.initialPose
      integrated := a.compose o.integrator.integrated } }

end

variable {P : Type}

namespace Odometry

private theorem create_movedBy (s : Settings ℝ) (a : RigidTransform ℝ) :
    (create (s.startingAt .identity) : Odometry ℝ P).movedBy a =
      create (s.startingAt a) := by
  simp only [movedBy, create, Settings.startingAt, PoseIntegrator.start,
    RigidTransform.compose_identity]

private theorem integrated_movedBy (a : RigidTransform ℝ) (o : Odometry ℝ P)
    (increment : RigidTransform ℝ) (accepted : Bool) :
    (o.movedBy a).integrated increment accepted =
      (o.integrated increment accepted).movedBy a := by
  cases accepted with
  | false => rfl
  | true =>
      simp only [integrated, movedBy, PoseIntegrator.integrate, if_true,
        RigidTransform.compose_assoc]

private theorem report_movedBy (a : RigidTransform ℝ) (o : Odometry ℝ P) (scan : Scan ℝ P)
    (gap : Option ℝ) (query reference : P) (registration : Registration ℝ)
    (fusion : Fusion ℝ) (verdict : Verdict ℝ) :
    (o.movedBy a).report scan gap query reference registration fusion verdict =
      (o.report scan gap query reference registration fusion verdict).movedBy a := by
  have hpose := congrArg (·.integrator.integrated)
    (o.integrated_movedBy a fusion.transform verdict.accepted)
  simp only [integrated] at hpose
  simp only [report, Estimate.movedBy, hpose]
  rfl

private theorem warmUp_movedBy (a : RigidTransform ℝ) (o : Odometry ℝ P) (scan : Scan ℝ P) :
    ((o.movedBy a).warmUp scan).1 = (o.warmUp scan).1.movedBy a := by
  have huse : (o.movedBy a).settings.useInertial = o.settings.useInertial := rfl
  have hfirst : (o.movedBy a).buffer.first = o.buffer.first := rfl
  unfold warmUp
  cases hused : o.settings.useInertial with
  | false =>
      simp only [huse, hused, Bool.false_eq_true, if_false]
      rfl
  | true =>
      simp only [huse, hused, hfirst, if_true]
      cases o.buffer.first <;> rfl

variable [HasSingularValues ℝ]

/-- Whatever comes of a registration comes of it after a move as well, but for the pose
that the estimate shows. -/
theorem Absorbed.movedBy (a : RigidTransform ℝ) {o final : Odometry ℝ P}
    {scan : Scan ℝ P} {gap : Option ℝ} {active : Bool} {query reference : P}
    {registration : Registration ℝ} {journal : Journal ℝ}
    {result : Except Failure (Estimate ℝ P)}
    (h : Absorbed o scan gap active query reference registration
      (final, journal, result)) :
    Absorbed (o.movedBy a) scan gap active query reference registration
      (final.movedBy a, journal, result.map (·.movedBy a)) := by
  cases h with
  | unread hmatrix => exact .unread hmatrix
  | unfused hmatrix hfuse => exact .unfused hmatrix hfuse
  | unjudged hmatrix hfuse hguard => exact .unjudged hmatrix hfuse hguard
  | @judged raw deltas fusion said verdict hmatrix hfuse hguard =>
      have hjudged : Absorbed (o.movedBy a) scan gap active query reference registration
          _ := .judged hmatrix hfuse hguard
      have hstate := (o.withDeltas deltas).integrated_movedBy a fusion.transform
        verdict.accepted
      simp only [Except.map, ← report_movedBy, ← hstate]
      exact hjudged

/-- The way of a cycle leads through a moved pipeline as well. -/
theorem Course.movedBy (a : RigidTransform ℝ) {engine : Engine ℝ P} {o : Odometry ℝ P}
    {scan : Scan ℝ P} {out : CycleOutcome ℝ P} (h : Course engine o scan out) :
    Course engine (o.movedBy a) scan
      { out with
        state := out.state.movedBy a
        result := out.result.map (·.map (·.movedBy a)) } := by
  cases h with
  | unaligned hscan => exact .unaligned (alignScan_error_congr hscan rfl rfl rfl)
  | unpaired halign hquery hquiet =>
      have halign' : Aligns (o.movedBy a) scan _ _ := halign.congr rfl rfl rfl
      exact .unpaired halign' hquery hquiet
  | unregistered halign hquery hengine hquiet =>
      have halign' : Aligns (o.movedBy a) scan _ _ := halign.congr rfl rfl rfl
      exact .unregistered halign' hquery hengine hquiet
  | @registered alignment aligner final said last reference registration result
      halign hquery hengine hquiet habsorb =>
      have halign' : Aligns (o.movedBy a) scan _ _ := halign.congr rfl rfl rfl
      have habsorb' := habsorb.movedBy a
      have hresult : (result.map some).map (·.map (·.movedBy a)) =
          (result.map (·.movedBy a)).map some := by
        cases result <;> rfl
      simp only [hresult]
      exact .registered halign' hquery hengine hquiet habsorb'

/-- A scan does the same to a moved pipeline: the engine is asked the same, the result is
the moved one, and so is the state that it leaves. -/
theorem update_movedBy (a : RigidTransform ℝ) (engine : Engine ℝ P) (o : Odometry ℝ P)
    (scan : Scan ℝ P) :
    ((o.movedBy a).update engine scan).state = (o.update engine scan).state.movedBy a ∧
      ((o.movedBy a).update engine scan).call = (o.update engine scan).call ∧
      ((o.movedBy a).update engine scan).result =
        (o.update engine scan).result.map (·.map (·.movedBy a)) := by
  have hinitialized : (o.movedBy a).initialized = o.initialized := rfl
  have hstamped : (o.movedBy a).stamped scan = (o.stamped scan).movedBy a := rfl
  cases hrunning : o.initialized with
  | false =>
      rw [update_of_not_initialized engine scan hrunning,
        update_of_not_initialized engine scan (hinitialized.trans hrunning), hstamped]
      exact ⟨warmUp_movedBy a (o.stamped scan) scan, rfl, rfl⟩
  | true =>
      have hcourse := (course_update engine scan hrunning).movedBy a
      rw [update_of_initialized engine scan (hinitialized.trans hrunning), hstamped]
      exact hcourse.cycle_eq

theorem after_movedBy (a : RigidTransform ℝ) (o : Odometry ℝ P) (call : Call ℝ P) :
    (o.movedBy a).after call = (o.after call).movedBy a := by
  cases call with
  | scan engine scan => exact (update_movedBy a engine o scan).1
  | sample x => rfl
  | lastScan => rfl
  | clearBuffer => rfl
  | reset => rfl

/-- A run from another initial pose goes through the same states, moved by the difference. -/
theorem run_movedBy (a : RigidTransform ℝ) (o : Odometry ℝ P) (calls : List (Call ℝ P)) :
    (o.movedBy a).run calls = (o.run calls).movedBy a := by
  induction calls generalizing o with
  | nil => rfl
  | cons call rest ih => rw [run_cons, run_cons, after_movedBy, ih]

private theorem asked?_movedBy (a : RigidTransform ℝ) (o : Odometry ℝ P) (call : Call ℝ P) :
    (o.movedBy a).asked? call = o.asked? call := by
  cases call with
  | scan engine scan => exact (update_movedBy a engine o scan).2.1
  | sample x => rfl
  | lastScan => rfl
  | clearBuffer => rfl
  | reset => rfl

private theorem estimate?_movedBy (a : RigidTransform ℝ) (o : Odometry ℝ P) (call : Call ℝ P) :
    (o.movedBy a).estimate? call = (o.estimate? call).map (·.movedBy a) := by
  cases call with
  | scan engine scan =>
      obtain ⟨-, -, hresult⟩ := update_movedBy a engine o scan
      simp only [estimate?, outcome?, Option.bind_some, CycleOutcome.estimate?, hresult]
      cases (o.update engine scan).result <;> rfl
  | sample x => rfl
  | lastScan => rfl
  | clearBuffer => rfl
  | reset => rfl

theorem estimates_movedBy (a : RigidTransform ℝ) (o : Odometry ℝ P)
    (calls : List (Call ℝ P)) :
    (o.movedBy a).estimates calls = (o.estimates calls).map (·.movedBy a) := by
  induction calls generalizing o with
  | nil => rfl
  | cons call rest ih =>
      have hrest := ih (o.after call)
      simp only [estimates, collect, after_movedBy, estimate?_movedBy,
        Option.toList_map, List.map_append] at hrest ⊢
      rw [hrest]

/-- An engine that remembers what it was asked answers a moved pipeline alike. -/
theorem remembering_movedBy (a : RigidTransform ℝ) (o : Odometry ℝ P)
    (memory : List (P × P) → Engine ℝ P) (pairs : List (P × P)) (calls : List (Call ℝ P)) :
    (o.movedBy a).remembering memory pairs calls = o.remembering memory pairs calls := by
  induction calls generalizing o pairs with
  | nil => rfl
  | cons call rest ih =>
      cases call with
      | scan engine scan =>
          simp only [remembering, asked?_movedBy, after_movedBy, ih]
      | sample x => simp only [remembering, after_movedBy, ih]
      | lastScan => simp only [remembering, after_movedBy, ih]
      | clearBuffer => simp only [remembering, after_movedBy, ih]
      | reset => simp only [remembering, after_movedBy, ih]

/-- Two pipelines led through the same calls, one of which starts at a pose of any kind
and the other at the origin. Whatever scan comes, they ask the engine the same and return
nothing, fail, or return an estimate together; the estimates differ in nothing but the
integrated pose. This pose, shown or held, is always the one of the other pipeline put
behind the pose of the start, and all else in the two states is the same but the pose to
start at. Even an engine that remembers answers both alike. -/
theorem initial_pose_equivariance (s : Settings ℝ) (a : RigidTransform ℝ)
    (calls : List (Call ℝ P)) :
    let origin : Odometry ℝ P := create (s.startingAt .identity)
    let moved : Odometry ℝ P := create (s.startingAt a)
    (moved.run calls).integrator.integrated =
        a.compose (origin.run calls).integrator.integrated ∧
      moved.run calls = (origin.run calls).movedBy a ∧
      (∀ engine scan,
        ((moved.run calls).update engine scan).call =
            ((origin.run calls).update engine scan).call ∧
          ((moved.run calls).update engine scan).result =
            ((origin.run calls).update engine scan).result.map (·.map (·.movedBy a))) ∧
      moved.estimates calls = (origin.estimates calls).map (·.movedBy a) ∧
      ∀ memory, moved.remembering memory [] calls = origin.remembering memory [] calls := by
  intro origin moved
  have hmoved : moved = origin.movedBy a := (create_movedBy s a).symm
  have hrun : moved.run calls = (origin.run calls).movedBy a := by
    rw [hmoved, run_movedBy]
  refine ⟨?_, hrun, ?_, ?_, ?_⟩
  · rw [hrun]
    rfl
  · intro engine scan
    rw [hrun]
    exact (update_movedBy a engine (origin.run calls) scan).2
  · rw [hmoved, estimates_movedBy]
  · intro memory
    rw [hmoved, remembering_movedBy]

end Odometry

end InertialOdometry
