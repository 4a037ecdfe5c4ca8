import InertialOdometry.Proofs.Exact.Decomposition
import InertialOdometry.Proofs.Odometry.Ride
import InertialOdometry.Proofs.Odometry.Trajectory

/-!
What fusion makes of perfect data. The delta of the sensor is the turn between two attitudes
in the fixed frame, and the engine answers the motion in the frame of the former pose. An
increment has roll and pitch of the one and yaw of the other; so the poses are found exactly
as long as motion and turn agree in roll and pitch, and not otherwise.
-/

namespace InertialOdometry

variable {P : Type}

namespace Ride

open Odometry

variable {r : Ride P} {s : Settings ℝ} {o : Odometry ℝ P}

/-- Motion and turn have the same bottom row, and so the same roll and pitch. -/
def Level (r : Ride P) (k : ℕ) : Prop := (r.motion k).rotation.row2 = (r.turn k).row2

private theorem reset_not_mem_calls (r : Ride P) (n : ℕ) : .reset ∉ r.calls n := by
  induction n with
  | zero => simp [calls, sampleCall, scanCall]
  | succ n ih => simp [calls, ih, sampleCall, scanCall]

section

variable {estimates : List (Estimate ℝ P)}

private theorem trajectory_take_succ {start : RigidTransform ℝ} {k : ℕ} {e : Estimate ℝ P}
    (hk : estimates[k]? = some e) (haccepted : e.accepted = true) :
    trajectory start (estimates.take (k + 1)) =
      (trajectory start (estimates.take k)).compose e.incremental := by
  rw [List.take_add_one, hk, Option.toList_some, trajectory_concat, if_pos haccepted]

/-- An accepted increment continues the pose before it, which is exact if the estimate
before shows the exact pose. -/
theorem integrated_eq_compose (hsuits : r.Suits s) (h : Accounts s estimates o) {k : ℕ}
    {e : Estimate ℝ P} (hk : estimates[k]? = some e) (haccepted : e.accepted = true)
    (hbefore : ∀ j e', k = j + 1 → estimates[j]? = some e' → e'.integrated = r.pose k) :
    e.integrated = (r.pose k).compose e.incremental := by
  obtain ⟨hlt, rfl⟩ := List.getElem?_eq_some_iff.mp hk
  rw [h.reported k hlt, trajectory_take_succ hk haccepted]
  congr 1
  cases k with
  | zero => exact hsuits.start
  | succ j =>
      have hj : j < estimates.length := by omega
      rw [← h.reported j hj]
      exact hbefore j _ rfl (List.getElem?_eq_getElem hj)

/-- Poses that are made of accepted increments are exact if and only if the increments
are. -/
theorem poses_exact_iff (hsuits : r.Suits s) (h : Accounts s estimates o)
    (hrigid : ∀ k < estimates.length, (r.pose k).rotation.IsRotation)
    (haccepted : ∀ (k : ℕ) e, estimates[k]? = some e → e.accepted = true) :
    (∀ (k : ℕ) e, estimates[k]? = some e → e.integrated = r.pose (k + 1)) ↔
      ∀ (k : ℕ) e, estimates[k]? = some e → e.incremental = r.motion k := by
  have horthogonal (k : ℕ) (e : Estimate ℝ P) (hk : estimates[k]? = some e) :
      (r.pose k).rotation.IsOrthogonal :=
    (hrigid k (List.getElem?_eq_some_iff.mp hk).1).orthogonal
  constructor
  · intro hexact k e hk
    have hpose := integrated_eq_compose hsuits h hk (haccepted k e hk)
      fun j e' hj hj' => hj ▸ hexact j e' hj'
    rw [hexact k e hk] at hpose
    rw [motion, hpose, RigidTransform.inverse_compose_compose (horthogonal k e hk)]
  · intro hexact k
    induction k with
    | zero =>
        intro e hk
        rw [integrated_eq_compose hsuits h hk (haccepted 0 e hk) (by simp), hexact 0 e hk, motion,
          RigidTransform.compose_inverse_compose (horthogonal 0 e hk)]
    | succ k ih =>
        intro e hk
        rw [integrated_eq_compose hsuits h hk (haccepted _ e hk)
            fun j e' hj hj' => by cases hj; exact ih e' hj', hexact _ e hk, motion,
          RigidTransform.compose_inverse_compose (horthogonal _ e hk)]

end

section

variable [HasSingularValues ℝ]

/-- A fused increment is the motion exactly where motion and turn agree in roll and
pitch. -/
theorem Fuses.incremental_eq_iff {n : ℕ} (hperfect : r.Perfect n) {k : ℕ} (hk : k < n)
    {e : Estimate ℝ P} (h : r.Fuses k e) : e.incremental = r.motion k ↔ r.Level k := by
  obtain ⟨angles, tilt, hangles, htilt, hrotation⟩ := h.rotation
  obtain ⟨_, hangles', hmotion, hpitch⟩ :=
    (hperfect.isRotation_motion hk).exists_angles (hperfect.freeMotion k hk)
  obtain ⟨_, htilt', hturn, hpitch'⟩ :=
    (hperfect.isRotation_turn hk).exists_angles (hperfect.freeTurn k hk)
  cases hangles.symm.trans hangles'
  cases htilt.symm.trans htilt'
  rw [Level, ← hmotion, ← hturn, ← Rpy.turn_tiltedAs_eq_iff hpitch hpitch', hmotion, ← hrotation]
  constructor
  · intro hexact
    rw [hexact]
  · intro hexact
    exact RigidTransform.ext h.translation hexact

variable [ExactSingularValues]

/-- A ride with perfect data, on a pipeline without a past that always fuses and never
discards: every scan but the first returns an estimate with the translation and the yaw of
the motion and the roll and the pitch of the turn in the fixed frame. Such an increment is
the motion exactly where the two agree in roll and pitch, and so the poses are those of the
ride if and only if they agree all the way. -/
theorem perfect_data (hsuits : r.Suits s) {n : ℕ} (hperfect : r.Perfect n)
    (hfresh : Fresh s o) :
    let estimates := o.estimates (r.calls n)
    estimates.length = n ∧
      (∀ (k : ℕ) e, estimates[k]? = some e →
        r.Fuses k e ∧ (e.incremental = r.motion k ↔ r.Level k)) ∧
      ((∀ (k : ℕ) e, estimates[k]? = some e → e.integrated = r.pose (k + 1)) ↔
        ∀ k < n, r.Level k) := by
  obtain rfl := hfresh.eq_create
  intro estimates
  obtain ⟨-, hlength, hfuses⟩ := onTrack_run hsuits hperfect
  have hbound (k : ℕ) (e : Estimate ℝ P) (hk : estimates[k]? = some e) : k < n :=
    hlength ▸ (List.getElem?_eq_some_iff.mp hk).1
  have hlevel (k : ℕ) (e : Estimate ℝ P) (hk : estimates[k]? = some e) :
      e.incremental = r.motion k ↔ r.Level k :=
    (hfuses k e hk).incremental_eq_iff hperfect (hbound k e hk)
  refine ⟨hlength, fun k e hk => ⟨hfuses k e hk, hlevel k e hk⟩, ?_⟩
  rw [poses_exact_iff hsuits (accounts_run s (r.calls n) (r.reset_not_mem_calls n))
    (fun k hk => hperfect.rigid k (hlength ▸ hk).le) fun k e hk => (hfuses k e hk).accepted]
  constructor
  · intro hexact k hk
    have hk' := List.getElem?_eq_getElem (hlength ▸ hk : k < estimates.length)
    exact (hlevel k _ hk').mp (hexact k _ hk')
  · intro hagree k e hk
    exact (hlevel k e hk).mpr (hagree k (hbound k e hk))

end

/-- The ride along some poses with a scan every second, in which the engine makes no
mistake. -/
noncomputable def ideal (pose : ℕ → RigidTransform ℝ) : Ride Unit where
  pose := pose
  scan k := ⟨(), .real k, k⟩
  engine k := .constant ((pose (k - 1)).inverse.compose (pose k))

noncomputable def settings (r : Ride P) : Settings ℝ :=
  { Settings.plain with initialPose := r.pose 0, useInertial := true }

private theorem suits_settings (r : Ride P) : r.Suits r.settings := ⟨rfl, rfl, rfl, rfl⟩

private theorem perfect_ideal {pose : ℕ → RigidTransform ℝ} {n : ℕ}
    (hrigid : ∀ k ≤ n, (pose k).rotation.IsRotation)
    (hmotion : ∀ k < n, ¬((ideal pose).motion k).rotation.Locked)
    (hturn : ∀ k < n, ¬((ideal pose).turn k).Locked) : (ideal pose).Perfect n where
  rigid := hrigid
  later k hk := by
    change ((k : ℕ) : ℝ) < ((k + 1 : ℕ) : ℝ)
    exact_mod_cast k.lt_succ_self
  answers k hk := Engine.constant_answers_iff.mpr rfl
  freeMotion := hmotion
  freeTurn := hturn

/-- On level ground the poses of a ride are found exactly: where the vehicle only turns
about the vertical, motion and turn agree in having no roll and no pitch. -/
theorem perfect_data_of_level_ride :
    let r : Ride Unit := ideal fun k => ⟨⟨k, 0, 0⟩, .turnZ k⟩
    let estimates := (create r.settings).estimates (r.calls 3)
    r.Perfect 3 ∧ estimates.length = 3 ∧
      ∀ (k : ℕ) e, estimates[k]? = some e → e.integrated = r.pose (k + 1) := by
  intro r estimates
  have hmotion (k : ℕ) : (r.motion k).rotation.row2 = ⟨0, 0, 1⟩ := by
    change ((Mat3.turnZ k).transpose * .turnZ (k + 1 : ℕ)).row2 = _
    simp [Mat3.mul_eq, Mat3.turnZ, Mat3.transpose, Mat3.column0, Mat3.column1, Mat3.column2,
      Vec3.dot]
  have hturn (k : ℕ) : (r.turn k).row2 = ⟨0, 0, 1⟩ := by
    change (Mat3.turnZ (k + 1 : ℕ) * (Mat3.turnZ k).transpose).row2 = _
    simp [Mat3.mul_eq, Mat3.turnZ, Mat3.transpose, Mat3.column0, Mat3.column1, Mat3.column2,
      Vec3.dot]
  have hfar : (0 : ℝ) ^ 2 < 1 - (Rpy.lockTolerance : ℝ) ^ 2 := by
    rw [Mat3.lockTolerance_real]
    norm_num
  have hperfect : r.Perfect 3 := by
    apply perfect_ideal
    · exact fun k _ => Mat3.isRotation_turnZ k
    · exact fun k _ => Mat3.not_locked (by rw [hmotion]; exact hfar)
    · exact fun k _ => Mat3.not_locked (by rw [hturn]; exact hfar)
  obtain ⟨hlength, -, hposes⟩ := perfect_data r.suits_settings hperfect .created
  exact ⟨hperfect, hlength, hposes.mpr fun k _ => (hmotion k).trans (hturn k).symm⟩

/-- A ride that starts sideways and rolls over a bit is not found exactly, though all its
data are perfect. What is a roll in the frame of the vehicle is a pitch in the fixed one. -/
theorem rolling_ride_inexact :
    let sideways : Mat3 ℝ := ⟨⟨0, -1, 0⟩, ⟨1, 0, 0⟩, ⟨0, 0, 1⟩⟩
    let rolled : Mat3 ℝ := ⟨⟨0, -(4 / 5), 3 / 5⟩, ⟨1, 0, 0⟩, ⟨0, 3 / 5, 4 / 5⟩⟩
    let r : Ride Unit := ideal fun k => ⟨⟨0, 0, 0⟩, if k = 0 then sideways else rolled⟩
    r.Perfect 1 ∧ r.Suits r.settings ∧
      ∃ e, (create r.settings).estimates (r.calls 1) = [e] ∧
        e.incremental ≠ r.motion 0 ∧ e.integrated ≠ r.pose 1 := by
  intro sideways rolled r
  have hsideways : sideways.IsRotation := by
    refine ⟨Mat3.isOrthogonal_iff.mpr ?_, ?_⟩ <;>
      simp only [sideways, Mat3.det, Vec3.dot, Vec3.cross] <;> norm_num
  have hrolled : rolled.IsRotation := by
    refine ⟨Mat3.isOrthogonal_iff.mpr ?_, ?_⟩ <;>
      simp only [rolled, Mat3.det, Vec3.dot, Vec3.cross] <;> norm_num
  have hmotion : (r.motion 0).rotation.row2 = ⟨0, 3 / 5, 4 / 5⟩ := by
    change (sideways.transpose * rolled).row2 = _
    simp [Mat3.mul_eq, sideways, rolled, Mat3.transpose, Mat3.column0, Mat3.column1,
      Mat3.column2, Vec3.dot]
  have hturn : (r.turn 0).row2 = ⟨-(3 / 5), 0, 4 / 5⟩ := by
    change (rolled * sideways.transpose).row2 = _
    simp [Mat3.mul_eq, sideways, rolled, Mat3.transpose, Mat3.column0, Mat3.column1,
      Mat3.column2, Vec3.dot]
  have hperfect : r.Perfect 1 := by
    apply perfect_ideal
    · intro k _
      by_cases hk : k = 0
      · rw [if_pos hk]
        exact hsideways
      · rw [if_neg hk]
        exact hrolled
    · intro k hk
      obtain rfl : k = 0 := by omega
      apply Mat3.not_locked
      rw [hmotion, Mat3.lockTolerance_real]
      norm_num
    · intro k hk
      obtain rfl : k = 0 := by omega
      apply Mat3.not_locked
      rw [hturn, Mat3.lockTolerance_real]
      norm_num
  have hsuits := r.suits_settings
  obtain ⟨-, hlength, hfuses⟩ := onTrack_run hsuits hperfect
  obtain ⟨e, he⟩ := List.length_eq_one_iff.mp hlength
  have htilted : ¬r.Level 0 := by
    rw [Level, hmotion, hturn]
    simp
  have hfirst : ((create r.settings).estimates (r.calls 1))[0]? = some e := by rw [he]; rfl
  have hfused := hfuses 0 e hfirst
  have hincrement := (hfused.incremental_eq_iff hperfect one_pos).not.mpr htilted
  have hcompose := integrated_eq_compose hsuits
    (accounts_run _ (r.calls 1) (r.reset_not_mem_calls 1)) hfirst hfused.accepted (by simp)
  refine ⟨hperfect, hsuits, e, he, hincrement, ?_⟩
  -- The pose before is exact, so an exact pose would make the increment exact as well.
  intro hpose
  rw [hpose] at hcompose
  apply hincrement
  rw [motion, hcompose, RigidTransform.inverse_compose_compose hsideways.orthogonal]

end Ride

end InertialOdometry
