import InertialOdometry.Proofs.Exact.SingularValues
import InertialOdometry.Proofs.Exact.Transform
import InertialOdometry.Proofs.Odometry.Increments

/-!
The orientation of poses. What the rotations of the increments have in common the
rotations of the poses have as well, as long as products keep it. The guard measures the
angles of every increment, of rejected ones too, and angles are found only where a matrix
keeps orientation; so every estimate has a result, and every report can be made.
-/

namespace InertialOdometry

/-- A property of matrices that the unit matrix has and products keep. -/
structure Mat3.Closed (good : Mat3 ℝ → Prop) : Prop where
  identity : good .identity
  mul {a b : Mat3 ℝ} : good a → good b → good (a * b)

theorem Mat3.closed_det_pos : Closed fun m => 0 < m.det where
  identity := isRotation_identity.det_pos
  mul ha hb := by
    rw [det_mul]
    exact mul_pos ha hb

theorem Mat3.closed_isRotation : Closed Mat3.IsRotation where
  identity := isRotation_identity
  mul := IsRotation.mul

/-- What fusion makes of a rotation is a rotation: angles always stand for one. -/
theorem Fusion.Yields.isRotation [HasSingularValues ℝ] [ExactSingularValues]
    {raw increment : RigidTransform ℝ} (h : Fusion.Yields raw increment)
    (hraw : raw.rotation.IsRotation) : increment.rotation.IsRotation := by
  cases h with
  | asRegistered => exact hraw
  | rotated angles hangles =>
      obtain ⟨r, hr, hrotation⟩ := angles.toQuaternion.toMat3.exists_orthonormalize
      cases hangles.symm.trans hr
      exact hrotation

variable {P : Type}

/-- The rotations of all poses that a pipeline holds have a property. -/
structure Odometry.Poses (good : Mat3 ℝ → Prop) (o : Odometry ℝ P) : Prop where
  initialPose : good o.integrator.initialPose.rotation
  incremental : good o.integrator.incremental.rotation
  integrated : good o.integrator.integrated.rotation

namespace Odometry

theorem Poses.of_retains {good : Mat3 ℝ → Prop} {o next : Odometry ℝ P}
    (h : o.Poses good) (hretains : o.Retains next) : next.Poses good := by
  obtain ⟨hstart, hincrement, hpose⟩ := h
  rw [← hretains.initialPose] at hstart
  rw [← hretains.incremental] at hincrement
  rw [← hretains.integrated] at hpose
  exact ⟨hstart, hincrement, hpose⟩

theorem Poses.credit {good : Mat3 ℝ → Prop} (hgood : Mat3.Closed good)
    {o : Odometry ℝ P} (h : o.Poses good) (e : Estimate ℝ P)
    (he : good e.incremental.rotation) : (o.credit (some e)).Poses good := by
  simp only [Odometry.credit, Odometry.integrated, PoseIntegrator.integrate]
  cases e.accepted with
  | false => exact ⟨h.initialPose, he, h.integrated⟩
  | true => exact ⟨h.initialPose, he, hgood.mul h.integrated he⟩

private theorem poses_create {good : Mat3 ℝ → Prop} (hgood : Mat3.Closed good) {s : Settings ℝ}
    (hstart : good s.initialPose.rotation) : (create s : Odometry ℝ P).Poses good :=
  ⟨hstart, hgood.identity, hstart⟩

variable [HasSingularValues ℝ]

/-- A property that products keep passes from the increments to the poses. -/
theorem Poses.after {good : Mat3 ℝ → Prop} (hgood : Mat3.Closed good) {o : Odometry ℝ P}
    (h : o.Poses good) (call : Call ℝ P)
    (hcall : ∀ e, o.estimate? call = some e → good e.incremental.rotation) :
    (o.after call).Poses good := by
  cases call with
  | sample x => exact ⟨h.initialPose, h.incremental, h.integrated⟩
  | lastScan => exact h
  | clearBuffer => exact ⟨h.initialPose, h.incremental, h.integrated⟩
  | reset => exact ⟨h.initialPose, hgood.identity, h.initialPose⟩
  | scan engine scan =>
      obtain ⟨next, hretains, hstate, -⟩ := update_credit engine o scan
      have hnext := h.of_retains hretains
      simp only [Odometry.after, hstate]
      cases hestimate : (o.update engine scan).estimate? with
      | none => exact hnext
      | some e => exact hnext.credit hgood e (hcall e hestimate)

/-- What the increments of a run have in common with the pose that it starts at, all poses
of the run have. -/
theorem poses_run {good : Mat3 ℝ → Prop} (hgood : Mat3.Closed good) {s : Settings ℝ}
    (hstart : good s.initialPose.rotation) (calls : List (Call ℝ P))
    (hincrements : ∀ e ∈ (create s).estimates calls, good e.incremental.rotation) :
    ((create s).run calls).Poses good := by
  induction calls using List.reverseRecOn with
  | nil => exact poses_create hgood hstart
  | append_singleton calls call ih =>
      simp only [estimates_concat, List.mem_append, Option.mem_toList] at hincrements
      have hposes := ih fun e he => hincrements e (Or.inl he)
      rw [run_concat]
      exact hposes.after hgood call fun e he => hincrements e (Or.inr he)

theorem integrated_of_mem_estimates {good : Mat3 ℝ → Prop} (hgood : Mat3.Closed good)
    {s : Settings ℝ} (hstart : good s.initialPose.rotation) {calls : List (Call ℝ P)}
    (hincrements : ∀ e ∈ (create s).estimates calls, good e.incremental.rotation)
    {e : Estimate ℝ P} (he : e ∈ (create s).estimates calls) :
    good e.integrated.rotation := by
  obtain ⟨earlier, call, later, rfl, hestimate⟩ := mem_collect_iff.mp he
  rw [integrated_of_estimate? hestimate, ← run_concat]
  refine (poses_run hgood hstart _ ?_).integrated
  intro e' he'
  apply hincrements
  rw [estimates, ← List.singleton_append, ← List.append_assoc, collect_append]
  exact List.mem_append_left _ he'

/-- An increment that was judged has angles, and so it keeps orientation. -/
theorem Judged.det_pos {s : Settings ℝ} {raw : RigidTransform ℝ} {e : Estimate ℝ P}
    (h : Judged s raw e) : 0 < e.incremental.rotation.det := by
  obtain ⟨verdict, hcheck, -⟩ := h.verdict
  -- Even without limits the guard asks for the angles, which only such a matrix has.
  obtain ⟨angles, hangles, -⟩ := MotionGuard.check_eq_ok_iff.mp hcheck
  cases hquaternion : e.incremental.rotation.toQuaternion with
  | error f => simp [RigidTransform.rpy, Mat3.toRpy, hquaternion, Except.map] at hangles
  | ok q => exact Mat3.det_pos_of_toQuaternion hquaternion

end Odometry

end InertialOdometry
