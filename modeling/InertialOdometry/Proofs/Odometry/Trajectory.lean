import InertialOdometry.Proofs.Odometry.Frame

/-!
The trajectory of a run. Whatever calls are made, and wherever cycles fail on the
way, the integrated pose is the composition of the accepted increments, in the order
in which they were returned, onto the initial pose. The counters and the last
increment follow from the returned estimates as well.
-/

namespace InertialOdometry

variable {α P : Type} [Scalar α]

/-- The pose that the accepted increments of some estimates lead to, one composed
after another. -/
def trajectory (start : RigidTransform α) (estimates : List (Estimate α P)) :
    RigidTransform α :=
  ((estimates.filter (·.accepted)).map (·.incremental)).foldl RigidTransform.compose start

/-- The increment of the last of some estimates; without estimates nothing has
moved. -/
def lastIncrement (estimates : List (Estimate α P)) : RigidTransform α :=
  (estimates.getLast?.map (·.incremental)).getD .identity

theorem trajectory_concat (start : RigidTransform α) (estimates : List (Estimate α P))
    (e : Estimate α P) :
    trajectory start (estimates ++ [e]) =
      if e.accepted then (trajectory start estimates).compose e.incremental
      else trajectory start estimates := by
  cases haccepted : e.accepted with
  | false => simp [trajectory, List.filter_append, haccepted]
  | true => simp [trajectory, List.filter_append, haccepted, List.foldl_append]

namespace Odometry

variable [HasSingularValues α]

/-- The state is what estimates that were returned so far make of a new pipeline. -/
structure Accounts (s : Settings α) (estimates : List (Estimate α P))
    (o : Odometry α P) : Prop where
  integrated : o.integrator.integrated = trajectory s.initialPose estimates
  incremental : o.integrator.incremental = lastIncrement estimates
  accepted : o.integrator.accepted = estimates.countP (·.accepted)
  rejected : o.integrator.rejected = estimates.countP (!·.accepted)
  cycles : o.cycles = o.integrator.accepted + o.integrator.rejected
  reported : ∀ i (hi : i < estimates.length),
    estimates[i].integrated = trajectory s.initialPose (estimates.take (i + 1))

omit [HasSingularValues α] in
private theorem accounts_create (s : Settings α) : Accounts s [] (create s : Odometry α P) :=
  ⟨rfl, rfl, rfl, rfl, rfl, by simp⟩

omit [HasSingularValues α] in
theorem Accounts.of_retains {s : Settings α} {estimates : List (Estimate α P)}
    {o next : Odometry α P} (h : Accounts s estimates o) (hretains : o.Retains next) :
    Accounts s estimates next where
  integrated := hretains.integrated.trans h.integrated
  incremental := hretains.incremental.trans h.incremental
  accepted := hretains.accepted.trans h.accepted
  rejected := hretains.rejected.trans h.rejected
  cycles := by rw [hretains.cycles, hretains.accepted, hretains.rejected, h.cycles]
  reported := h.reported

omit [HasSingularValues α] in
/-- An estimate that is reported with the pose it leads to keeps the account. -/
theorem Accounts.credit {s : Settings α} {estimates : List (Estimate α P)}
    {o : Odometry α P} (h : Accounts s estimates o) (e : Estimate α P)
    (he : e.integrated = (o.credit (some e)).integrator.integrated) :
    Accounts s (estimates ++ [e]) (o.credit (some e)) := by
  have hpose : (o.credit (some e)).integrator.integrated =
      trajectory s.initialPose (estimates ++ [e]) := by
    simp only [Odometry.credit, Odometry.integrated, PoseIntegrator.integrated_integrate]
    rw [trajectory_concat, h.integrated]
  refine ⟨hpose, ?_, ?_, ?_, ?_, ?_⟩
  · cases haccepted : e.accepted <;>
      simp [Odometry.credit, Odometry.integrated, PoseIntegrator.integrate,
        lastIncrement, haccepted]
  · cases haccepted : e.accepted <;>
      simp [Odometry.credit, Odometry.integrated, PoseIntegrator.integrate,
        List.countP_append, haccepted, h.accepted]
  · cases haccepted : e.accepted <;>
      simp [Odometry.credit, Odometry.integrated, PoseIntegrator.integrate,
        List.countP_append, haccepted, h.rejected]
  · have hcycles := h.cycles
    cases haccepted : e.accepted <;>
      simp only [Odometry.credit, Odometry.integrated, PoseIntegrator.integrate,
        haccepted] <;>
      simp <;> omega
  · intro i hi
    rw [List.length_append, List.length_singleton] at hi
    by_cases hold : i < estimates.length
    · have hlength : i + 1 ≤ estimates.length := by omega
      rw [List.getElem_append_left hold, h.reported i hold,
        List.take_append_of_le_length hlength]
    · have hlast : i = estimates.length := by omega
      subst hlast
      rw [List.getElem_concat_length rfl, he, hpose, List.take_of_length_le (by simp)]

/-- Every call but a reset keeps the account of the estimates returned so far. -/
theorem Accounts.after {s : Settings α} {estimates : List (Estimate α P)}
    {o : Odometry α P} (h : Accounts s estimates o) (call : Call α P)
    (hcall : call ≠ .reset) :
    Accounts s (estimates ++ (o.estimate? call).toList) (o.after call) := by
  cases call with
  | sample x =>
      simp only [estimate?, outcome?, Option.bind_none, Option.toList_none,
        List.append_nil]
      exact ⟨h.integrated, h.incremental, h.accepted, h.rejected, h.cycles, h.reported⟩
  | scan engine scan =>
      obtain ⟨next, hretains, hstate, hintegrated⟩ := update_credit engine o scan
      have hnext := h.of_retains hretains
      simp only [estimate?, outcome?, Option.bind_some, Odometry.after]
      rw [hstate]
      cases hestimate : (o.update engine scan).estimate? with
      | none => simpa [Odometry.credit] using hnext
      | some e =>
          rw [hestimate] at hstate
          -- The estimate shows the pose of the very state that the cycle leaves.
          have hpose := hintegrated e hestimate
          rw [hstate] at hpose
          exact hnext.credit e hpose
  | lastScan =>
      simp only [estimate?, outcome?, Option.bind_none, Option.toList_none,
        List.append_nil]
      exact h
  | clearBuffer =>
      simp only [estimate?, outcome?, Option.bind_none, Option.toList_none,
        List.append_nil]
      exact ⟨h.integrated, h.incremental, h.accepted, h.rejected, h.cycles, h.reported⟩
  | reset => exact absurd rfl hcall

/-- The state of a run is accounted for by its estimates. -/
theorem accounts_run (s : Settings α) (calls : List (Call α P))
    (hreset : .reset ∉ calls) :
    Accounts s ((create s).estimates calls) ((create s).run calls) := by
  induction calls using List.reverseRecOn with
  | nil => exact accounts_create s
  | append_singleton calls call ih =>
      rw [List.mem_append, not_or, List.mem_singleton] at hreset
      rw [estimates_concat, run_concat]
      exact (ih hreset.1).after call (Ne.symm hreset.2)

/-- A run since the creation or the last reset of a pipeline is accounted for by the
estimates that it returned: the integrated pose is the composition of the accepted
increments in their order, every estimate was reported with the pose up to and
including it, the counters count the accepted and the rejected ones, and the last
increment is that of the last estimate, whatever became of it. -/
theorem trajectory_of_run (s : Settings α) (o : Odometry α P) (hfresh : Fresh s o)
    (calls : List (Call α P)) (hreset : .reset ∉ calls) :
    let estimates := o.estimates calls
    let final := o.run calls
    final.integrator.integrated = trajectory s.initialPose estimates ∧
      (∀ i (hi : i < estimates.length),
        estimates[i].integrated = trajectory s.initialPose (estimates.take (i + 1))) ∧
      final.integrator.accepted = estimates.countP (·.accepted) ∧
      final.integrator.rejected = estimates.countP (!·.accepted) ∧
      final.cycles = final.integrator.accepted + final.integrator.rejected ∧
      final.integrator.incremental = lastIncrement estimates := by
  intro estimates final
  obtain rfl := hfresh.eq_create
  have h := accounts_run s calls hreset
  exact ⟨h.integrated, h.reported, h.accepted, h.rejected, h.cycles, h.incremental⟩

/-- After a reset the account starts anew, and a cycle that fails on the way leaves
no trace in it. -/
theorem trajectory_of_reset_run :
    let o : Odometry Float Nat := ((create .plain).run [.still 0, .still 1]).reset.1
    let calls : List (Call Float Nat) :=
      [.upright 0, .still 0, .still 1, .shapeless 2, .lastScan, .still 3]
    Fresh .plain o ∧ .reset ∉ calls ∧ (o.estimates calls).length = 2 ∧
      (o.run calls).integrator.integrated = trajectory .identity (o.estimates calls) ∧
      (o.run calls).integrator.accepted = 2 ∧ (o.run calls).cycles = 2 := by
  intro o calls
  have hfresh : Fresh .plain o := .reset _
  have hreset : .reset ∉ calls := by
    simp [calls, Call.upright, Call.still, Call.shapeless]
  obtain ⟨hpose, -, haccepted, hrejected, hcycles, -⟩ :=
    trajectory_of_run .plain o hfresh calls hreset
  have hall : (o.estimates calls).countP (·.accepted) = 2 := by decide +kernel
  have hnone : (o.estimates calls).countP (!·.accepted) = 0 := by decide +kernel
  rw [hall] at haccepted
  rw [hnone] at hrejected
  rw [haccepted, hrejected] at hcycles
  exact ⟨hfresh, hreset, by decide +kernel, hpose, haccepted, hcycles⟩

end Odometry

end InertialOdometry
