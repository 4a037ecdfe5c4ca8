import InertialOdometry.Proofs.Exact.Decomposition
import InertialOdometry.Proofs.Odometry.Orientation
import InertialOdometry.Report.Exporter

/-!
Reports can always be made. A report asks for the quaternion and the angles of both poses
of an estimate, and fails where a matrix has none. No estimate that a pipeline returns has
such a matrix, whatever matrices the engine and the sensor come up with: the guard has
measured the increment, and poses that keep orientation add up to poses that keep it.
-/

namespace InertialOdometry

section

variable {α P : Type} [Scalar α] [HasSingularValues α]

theorem RigidTransform.exists_describe {a : RigidTransform α}
    (h : ∃ q, a.quaternion = .ok q) : ∃ d, a.describe = .ok d := by
  obtain ⟨q, hq⟩ := h
  have hangles : a.rpy = .ok (Rpy.ofQuaternion q) := by
    rw [quaternion] at hq
    rw [rpy, Mat3.toRpy, hq]
    rfl
  exact ⟨_, by rw [describe, hq, hangles]; rfl⟩

namespace Exporter

variable {x : Exporter α P}

/-- A table can be made of results that can be shown. -/
theorem exists_table (h : ∃ results, x.results = .ok results) (name : Option String) :
    ∃ exported, x.table name = .ok exported := by
  obtain ⟨results, hresults⟩ := h
  exact ⟨_, by rw [table, hresults]; rfl⟩

theorem exists_document (h : ∃ results, x.results = .ok results) (name : Option String) :
    ∃ exported, x.document name = .ok exported := by
  obtain ⟨results, hresults⟩ := h
  exact ⟨_, by rw [document, hresults]; rfl⟩

theorem exists_trajectory (h : ∀ e ∈ x.estimates, ∃ q, e.integrated.quaternion = .ok q)
    (name : Option String) : ∃ exported, x.trajectory name = .ok exported := by
  have hposes : ∃ poses, x.estimates.mapM Artifact.poseRow = .ok poses := by
    apply Failure.exists_mapM_ok
    intro e he
    obtain ⟨q, hq⟩ := h e he
    exact ⟨_, by rw [Artifact.poseRow, hq]; rfl⟩
  obtain ⟨poses, hposes⟩ := hposes
  exact ⟨_, by rw [trajectory, hposes]; rfl⟩

end Exporter

end

namespace Odometry

variable {P : Type}

/-- Provided that every matrix that keeps orientation has a quaternion, a pipeline that
starts at a pose that keeps orientation holds such poses and no others, and all its
estimates have results, whatever the calls are. So an exporter makes its table, its
document and its trajectory of any of them. -/
theorem exports_never_fail [HasSingularValues ℝ]
    (hreads : ∀ m : Mat3 ℝ, 0 < m.det → ∃ q, m.toQuaternion = .ok q) (s : Settings ℝ)
    (hstart : 0 < s.initialPose.rotation.det) (calls : List (Call ℝ P)) :
    let o : Odometry ℝ P := create s
    let final := o.run calls
    0 < final.integrator.incremental.rotation.det ∧
      0 < final.integrator.integrated.rotation.det ∧
      (∀ e ∈ o.estimates calls, 0 < e.incremental.rotation.det ∧
        0 < e.integrated.rotation.det ∧ ∃ r, CycleResult.ofEstimate e = .ok r) ∧
      ∀ x : Exporter ℝ P, x.estimates ⊆ o.estimates calls → ∀ name,
        (∃ exported, x.table name = .ok exported) ∧
          (∃ exported, x.document name = .ok exported) ∧
          ∃ exported, x.trajectory name = .ok exported := by
  intro o final
  have hincrement : ∀ e ∈ o.estimates calls, 0 < e.incremental.rotation.det := by
    intro e he
    obtain ⟨raw, -, hjudged⟩ := judged_of_mem_estimates he
    exact hjudged.det_pos
  have hpose : ∀ e ∈ o.estimates calls, 0 < e.integrated.rotation.det := fun e he =>
    integrated_of_mem_estimates Mat3.closed_det_pos hstart hincrement he
  have hresult : ∀ e ∈ o.estimates calls, ∃ r, CycleResult.ofEstimate e = .ok r := by
    intro e he
    obtain ⟨increment, hd⟩ := RigidTransform.exists_describe (hreads _ (hincrement e he))
    obtain ⟨pose, hd'⟩ := RigidTransform.exists_describe (hreads _ (hpose e he))
    exact ⟨_, by rw [CycleResult.ofEstimate, hd, hd']; rfl⟩
  have hposes := poses_run Mat3.closed_det_pos hstart calls hincrement
  refine ⟨hposes.incremental, hposes.integrated,
    fun e he => ⟨hincrement e he, hpose e he, hresult e he⟩, ?_⟩
  intro x hx name
  have hresults : ∃ results, x.results = .ok results :=
    Failure.exists_mapM_ok fun e he => hresult e (hx he)
  exact ⟨x.exists_table hresults name, x.exists_document hresults name,
    x.exists_trajectory (fun e he => hreads _ (hpose e (hx he))) name⟩

/-- An increment that stretches space twofold is reported as well. -/
theorem exports_of_stretched_answer :
    let stretched : RigidTransform ℝ := ⟨⟨1, 0, 0⟩, .diagonal ⟨2, 2, 2⟩⟩
    let call (time : ℝ) : Call ℝ Unit := .scan (.constant stretched) ⟨(), .real time, 0⟩
    let o : Odometry ℝ Unit := create .plain
    let x : Exporter ℝ Unit := ⟨.ofText "", "", o.estimates [call 0, call 1]⟩
    (∃ e, x.estimates = [e] ∧ e.incremental = stretched) ∧
      (∃ exported, x.table none = .ok exported) ∧
      (∃ exported, x.document none = .ok exported) ∧
      ∃ exported, x.trajectory none = .ok exported := by
  intro stretched call o x
  have hreads (m : Mat3 ℝ) (h : 0 < m.det) : ∃ q, m.toQuaternion = .ok q :=
    Mat3.exists_toQuaternion h
  have hstart : 0 < (Settings.plain : Settings ℝ).initialPose.rotation.det :=
    Mat3.isRotation_identity.det_pos
  have hdet : 0 < stretched.rotation.det := by
    rw [Mat3.det_diagonal]
    norm_num
  obtain ⟨angles, hangles⟩ := Mat3.exists_toRpy hdet
  obtain ⟨hunaided, hnone⟩ :=
    unaided_create (s := Settings.plain) rfl (Engine.constant stretched) ⟨(), .real 0, 0⟩
  obtain ⟨-, e, he, hincrement, -⟩ :=
    hunaided.update ⟨(), .real 1, 0⟩ (Engine.constant_answers_iff.mpr rfl) hangles
  obtain ⟨-, -, -, hexports⟩ := exports_never_fail hreads .plain hstart [call 0, call 1]
  refine ⟨⟨e, ?_, hincrement⟩, hexports x (List.Subset.refl _) none⟩
  simp only [x, estimates, collect, call, o, hnone, he, Option.toList_none, Option.toList_some,
    List.nil_append, List.append_nil]

end Odometry

end InertialOdometry
