import InertialOdometry.Proofs.Exact.Angles
import InertialOdometry.Proofs.Exact.Decomposition
import InertialOdometry.Proofs.Odometry.Orientation
import InertialOdometry.Proofs.Odometry.Trajectory
import InertialOdometry.Report.Exporter

/-!
How far a trajectory can drift. Rigid increments add up to rigid poses, and a pose never
ends further from where it started than the way that the accepted increments make up. The
summary of a report has the length of that way; its counts are those of the pipeline.
-/

namespace InertialOdometry

section

variable {α P : Type} [Scalar α]

private theorem Summary.pathLength_concat (estimates : List (Estimate α P)) (e : Estimate α P) :
    (ofEstimates (estimates ++ [e])).pathLength =
      if e.accepted then (ofEstimates estimates).pathLength + e.incremental.translationNorm
      else (ofEstimates estimates).pathLength := by
  cases haccepted : e.accepted with
  | false => simp [ofEstimates, List.filter_append, haccepted]
  | true => simp [ofEstimates, total, List.filter_append, haccepted, List.foldl_append]

omit [Scalar α] in
private theorem Exporter.estimates_foldl_add (x : Exporter α P) (estimates : List (Estimate α P)) :
    (estimates.foldl add x.clear).estimates = estimates := by
  induction estimates using List.reverseRecOn with
  | nil => rfl
  | append_singleton estimates e ih => rw [List.foldl_concat, add, ih]

namespace Odometry

variable {s : Settings α} {estimates : List (Estimate α P)} {o : Odometry α P}

/-- The summary of the estimates that account for a pipeline has the counts of the
pipeline. -/
theorem Accounts.counts_eq (h : Accounts s estimates o) :
    let summary := Summary.ofEstimates estimates
    summary.accepted = o.integrator.accepted ∧ summary.rejected = o.integrator.rejected ∧
      summary.cycles = summary.accepted + summary.rejected ∧ summary.cycles = o.cycles := by
  intro summary
  have hsplit : estimates.length =
      estimates.countP (·.accepted) + estimates.countP (!·.accepted) := by
    simpa using estimates.length_eq_countP_add_countP (·.accepted)
  have haccepted : summary.accepted = estimates.countP (·.accepted) :=
    List.countP_eq_length_filter.symm
  have hrejected : summary.rejected = estimates.countP (!·.accepted) := by
    have hrest : summary.rejected = estimates.length - summary.accepted := rfl
    omega
  have hcycles : summary.cycles = estimates.length := rfl
  have htotal := h.cycles
  rw [h.accepted, h.rejected] at htotal ⊢
  refine ⟨haccepted, hrejected, ?_, ?_⟩ <;> omega

theorem Accounts.exists_finish (h : Accounts s estimates o) (hreported : estimates ≠ []) :
    ∃ finish, (Summary.ofEstimates estimates).finish = some finish ∧
      finish.position = o.integrator.integrated.translation := by
  have hlength : 0 < estimates.length := List.length_pos_iff.mpr hreported
  have hlast := h.reported (estimates.length - 1) (by omega)
  rw [Nat.sub_add_cancel hlength, List.take_length, ← h.integrated,
    ← List.getLast_eq_getElem hreported] at hlast
  simp only [Summary.ofEstimates, List.getLast?_eq_some_getLast hreported, Option.map_some]
  exact ⟨_, rfl, congrArg RigidTransform.translation hlast⟩

end Odometry

end

variable {P : Type}

private theorem isRotation_trajectory {start : RigidTransform ℝ}
    (hstart : start.rotation.IsRotation) {estimates : List (Estimate ℝ P)}
    (h : ∀ e ∈ estimates, e.incremental.rotation.IsRotation) :
    (trajectory start estimates).rotation.IsRotation := by
  induction estimates using List.reverseRecOn with
  | nil => exact hstart
  | append_singleton estimates e ih =>
      rw [List.forall_mem_append, List.forall_mem_singleton] at h
      rw [trajectory_concat]
      cases e.accepted with
      | false => exact ih h.1
      | true => exact (ih h.1).mul h.2

/-- A trajectory of rigid increments ends no further from its start than its path is
long. -/
theorem norm_drift_le {start : RigidTransform ℝ} (hstart : start.rotation.IsRotation)
    {estimates : List (Estimate ℝ P)}
    (h : ∀ e ∈ estimates, e.incremental.rotation.IsRotation) :
    ((trajectory start estimates).translation - start.translation).norm ≤
      (Summary.ofEstimates estimates).pathLength := by
  induction estimates using List.reverseRecOn with
  | nil =>
      have hstill : trajectory start ([] : List (Estimate ℝ P)) = start := rfl
      rw [hstill, Vec3.norm_sub_self]
      exact Scalar.zero_real.ge
  | append_singleton estimates e ih =>
      rw [List.forall_mem_append, List.forall_mem_singleton] at h
      have hdrift := ih h.1
      rw [trajectory_concat, Summary.pathLength_concat]
      cases e.accepted with
      | false => exact hdrift
      | true =>
          let pose := trajectory start estimates
          -- The increment is turned into the frame of the start, which keeps its length.
          have hturned : (pose.rotation.apply e.incremental.translation).norm =
              e.incremental.translationNorm :=
            (isRotation_trajectory hstart h.1).orthogonal.norm_apply _
          calc (pose.translation + pose.rotation.apply e.incremental.translation -
                start.translation).norm
              = (pose.translation - start.translation +
                  pose.rotation.apply e.incremental.translation).norm := by
                rw [Vec3.add_sub_right_comm]
            _ ≤ (pose.translation - start.translation).norm +
                  (pose.rotation.apply e.incremental.translation).norm :=
                Vec3.norm_triangle _ _
            _ ≤ (Summary.ofEstimates estimates).pathLength + e.incremental.translationNorm := by
                rw [hturned]
                exact add_le_add hdrift le_rfl

/-- The path is no longer than so many steps of the largest length. -/
theorem pathLength_le {limit : ℝ} {estimates : List (Estimate ℝ P)}
    (h : ∀ e ∈ estimates, e.accepted = true → e.incremental.translationNorm ≤ limit) :
    (Summary.ofEstimates estimates).pathLength ≤ estimates.countP (·.accepted) * limit := by
  induction estimates using List.reverseRecOn with
  | nil => simp [Summary.ofEstimates, Summary.total]
  | append_singleton estimates e ih =>
      rw [List.forall_mem_append, List.forall_mem_singleton] at h
      have hpath := ih h.1
      rw [Summary.pathLength_concat, List.countP_append, List.countP_singleton]
      cases haccepted : e.accepted with
      | false => simpa using hpath
      | true =>
          have hstep := h.2 haccepted
          simp only [if_true]
          push_cast
          linarith

namespace Odometry

section

variable [HasSingularValues ℝ]

theorem Judged.translationNorm_le {s : Settings ℝ} {raw : RigidTransform ℝ}
    {e : Estimate ℝ P} (h : Judged s raw e) (haccepted : e.accepted = true)
    (hlimits : s.thresholding = true) : e.incremental.translationNorm ≤ s.maxTranslation := by
  obtain ⟨verdict, hcheck, hverdict⟩ := h.verdict
  obtain ⟨angles, -, rfl⟩ := MotionGuard.check_eq_ok_iff.mp hcheck
  rw [haccepted] at hverdict
  simp only [MotionGuard.admits, Settings.guard, hlimits, Bool.not_true, Bool.false_or,
    Bool.and_eq_true, decide_eq_true_eq] at hverdict
  exact hverdict.1

variable [ExactSingularValues]

/-- A pipeline that starts at a rigid pose and gets rigid transforms from its engines holds
rigid poses, whatever the sensor says. An exporter that is given all estimates since the
pipeline was created or reset counts them as the pipeline does. It finds the run to end at
the integrated pose, no further from the start than the path is long, and with limits the
path is no longer than the limit for each accepted increment. -/
theorem bounded_drift {s : Settings ℝ} (hstart : s.initialPose.rotation.IsRotation)
    {o : Odometry ℝ P} (hfresh : Fresh s o) (calls : List (Call ℝ P))
    (hrigid : ∀ raw ∈ o.registered calls, raw.rotation.IsRotation) :
    let final := o.run calls
    final.integrator.incremental.rotation.IsRotation ∧
      final.integrator.integrated.rotation.IsRotation ∧
      (.reset ∉ calls → ∀ x : Exporter ℝ P,
        let summary := ((o.estimates calls).foldl Exporter.add x.clear).summary
        summary.accepted = final.integrator.accepted ∧
          summary.rejected = final.integrator.rejected ∧
          summary.cycles = summary.accepted + summary.rejected ∧
          summary.cycles = final.cycles ∧
          (o.estimates calls ≠ [] → ∃ finish, summary.finish = some finish ∧
            finish.position = final.integrator.integrated.translation ∧
            (finish.position - s.initialPose.translation).norm ≤ summary.pathLength) ∧
          (s.thresholding = true →
            summary.pathLength ≤ summary.accepted * s.maxTranslation)) := by
  intro final
  obtain rfl := hfresh.eq_create
  have hjudged : ∀ e ∈ (create s).estimates calls,
      ∃ raw ∈ (create s).registered calls, Judged s raw e :=
    fun e he => judged_of_mem_estimates he
  have hincrements : ∀ e ∈ (create s).estimates calls,
      e.incremental.rotation.IsRotation := by
    intro e he
    obtain ⟨raw, hraw, hjudged⟩ := hjudged e he
    exact hjudged.yields.isRotation (hrigid raw hraw)
  have hposes := poses_run Mat3.closed_isRotation hstart calls hincrements
  refine ⟨hposes.incremental, hposes.integrated, ?_⟩
  intro hreset x summary
  have hsummary : summary = .ofEstimates ((create s).estimates calls) := by
    simp only [summary, Exporter.summary, Exporter.estimates_foldl_add]
  have haccounts := accounts_run s calls hreset
  obtain ⟨haccepted, hrejected, hcycles, htotal⟩ := haccounts.counts_eq
  rw [hsummary]
  refine ⟨haccepted, hrejected, hcycles, htotal, ?_, ?_⟩
  · intro hreported
    obtain ⟨finish, hfinish, hposition⟩ := haccounts.exists_finish hreported
    refine ⟨finish, hfinish, hposition, ?_⟩
    rw [hposition, haccounts.integrated]
    exact norm_drift_le hstart hincrements
  · intro hlimits
    rw [haccepted, haccounts.accepted]
    apply pathLength_le
    intro e he haccepted
    obtain ⟨raw, -, hjudged⟩ := hjudged e he
    exact hjudged.translationNorm_le haccepted hlimits

end

/-- Of a step within the limits and a leap beyond them only the step is counted and only
the step moves the pose. -/
theorem bounded_drift_of_leap :
    let s : Settings ℝ :=
      { Settings.plain with thresholding := true, maxTranslation := 2, maxRotation := 1 }
    let ahead (x time : ℝ) : Call ℝ Unit :=
      .scan (.constant ⟨⟨x, 0, 0⟩, .identity⟩) ⟨(), .real time, 0⟩
    let calls := [ahead 1 0, ahead 1 1, ahead 9 2]
    let o : Odometry ℝ Unit := create s
    let final := o.run calls
    let x : Exporter ℝ Unit := ⟨.ofText "", "", []⟩
    let summary := ((o.estimates calls).foldl Exporter.add x.clear).summary
    final.integrator.integrated.rotation.IsRotation ∧ final.integrator.accepted = 1 ∧
      final.integrator.rejected = 1 ∧ summary.pathLength ≤ 2 ∧
      ∃ finish, summary.finish = some finish ∧
        finish.position = final.integrator.integrated.translation ∧
        (finish.position - s.initialPose.translation).norm ≤ summary.pathLength := by
  intro s ahead calls o final x summary
  have hnorm (x : ℝ) : (⟨x, 0, 0⟩ : Vec3 ℝ).norm = |x| := by
    simp [Vec3.norm, Vec3.dot, Scalar.sqrt_real, Real.sqrt_mul_self_eq_abs]
  let answer (x : ℝ) : RigidTransform ℝ := ⟨⟨x, 0, 0⟩, .identity⟩
  have hangles (x : ℝ) : (answer x).rpy = .ok ⟨0, 0, 0⟩ := Mat3.toRpy_identity
  have hanswers (x : ℝ) : (Engine.constant (answer x)).Answers () () (answer x) :=
    Engine.constant_answers_iff.mpr rfl
  obtain ⟨hstarted, hwaits⟩ :=
    unaided_create (s := s) rfl (Engine.constant (answer 1)) ⟨(), .real 0, 0⟩
  obtain ⟨hstepped, step, hstep, -, hpassed⟩ :=
    hstarted.update ⟨(), .real 1, 0⟩ (hanswers 1) (hangles 1)
  obtain ⟨-, leap, hleap, -, hstopped⟩ :=
    hstepped.update ⟨(), .real 2, 0⟩ (hanswers 9) (hangles 9)
  have hestimates : o.estimates calls = [step, leap] := by
    simp only [estimates, collect, calls, ahead, o, answer, hwaits, hstep, hleap,
      Option.toList_none, Option.toList_some, List.nil_append, List.cons_append]
  have hadmits (x : ℝ) : s.guard.admits (answer x).translationNorm
      (⟨0, 0, 0⟩ : Rpy ℝ).norm = decide (|x| ≤ 2) := by
    have hunit : |(0 : ℝ)| ≤ 1 := by norm_num
    simp only [MotionGuard.admits, s, Settings.guard, RigidTransform.translationNorm, Rpy.norm,
      Rpy.toVec3, answer, hnorm, decide_eq_true hunit, Bool.not_true, Bool.false_or,
      Bool.and_true]
  rw [hadmits, decide_eq_true (by norm_num)] at hpassed
  rw [hadmits, decide_eq_false (by norm_num)] at hstopped
  have hsummary : summary = .ofEstimates [step, leap] := by
    simp only [summary, hestimates, Exporter.summary, Exporter.estimates_foldl_add]
  have hreported : o.estimates calls ≠ [] := by
    rw [hestimates]
    exact List.cons_ne_nil step [leap]
  have haccepted : summary.accepted = 1 := by
    simp [hsummary, Summary.ofEstimates, hpassed, hstopped]
  have hrejected : summary.rejected = 1 := by
    simp [hsummary, Summary.ofEstimates, hpassed, hstopped]
  have hrigid : ∀ raw ∈ o.registered calls, raw.rotation.IsRotation := by
    intro raw hraw
    obtain ⟨engine, scan, query, reference, hcall, hanswer⟩ :=
      exists_answer_of_mem_registered hraw
    have hahead : ∃ x time, .scan engine scan = ahead x time := by
      simp only [calls, List.mem_cons, List.not_mem_nil, or_false] at hcall
      rcases hcall with h | h | h <;> exact ⟨_, _, h⟩
    obtain ⟨x, time, hahead⟩ := hahead
    cases hahead
    rw [Engine.constant_answers_iff.mp hanswer]
    exact Mat3.isRotation_identity
  have hreset : .reset ∉ calls := by
    simp only [calls, ahead, List.mem_cons, reduceCtorEq, List.not_mem_nil, or_self,
      not_false_eq_true]
  obtain ⟨-, hrotation, hreports⟩ :=
    bounded_drift Mat3.isRotation_identity (.created : Fresh s o) calls hrigid
  obtain ⟨hcount, hcount', -, -, hfinish, hpath⟩ := hreports hreset x
  refine ⟨hrotation, hcount.symm.trans haccepted, hcount'.symm.trans hrejected, ?_,
    hfinish hreported⟩
  calc summary.pathLength ≤ summary.accepted * s.maxTranslation := hpath rfl
    _ = 2 := by
      rw [haccepted, Nat.cast_one]
      exact one_mul 2

end Odometry

end InertialOdometry
