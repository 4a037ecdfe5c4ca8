import Mathlib.Analysis.SpecialFunctions.Trigonometric.Angle
import InertialOdometry.Proofs.Exact.Decomposition
import InertialOdometry.Proofs.Odometry.Ride

/-!
What fusion makes of two rotations. The rotation of the delta is turned about the vertical
until its yaw is the one of the registration. A turn about the vertical leaves the bottom
row alone, so the tilt of the delta is kept; and the angles of the outcome are the ones it
was made of, up to whole turns.
-/

namespace InertialOdometry

namespace Mat3

private theorem turnZ_add (s t : ℝ) : turnZ (s + t) = turnZ s * turnZ t := by
  simp only [turnZ, mul_eq, column0, column1, column2, Vec3.dot, Real.cos_add, Real.sin_add]
  ext <;> ring

private theorem row2_turnZ_mul (t : ℝ) (m : Mat3 ℝ) : (turnZ t * m).row2 = m.row2 := by
  simp only [turnZ, mul_eq, column0, column1, column2, Vec3.dot]
  ext <;> ring

/-- Whether a matrix is locked is told by its bottom row. -/
theorem locked_turnZ_mul_iff (t : ℝ) (m : Mat3 ℝ) : (turnZ t * m).Locked ↔ m.Locked := by
  rw [Locked, Locked, tilt, tilt, row2_turnZ_mul]

end Mat3

namespace Rpy

/-- Roll and pitch are taken over by turning about the vertical. -/
theorem turn_tiltedAs (a b : Rpy ℝ) :
    (a.tiltedAs b).turn = .turnZ (a.yaw - b.yaw) * b.turn := by
  have hyaw : Mat3.turnZ a.yaw = .turnZ (a.yaw - b.yaw) * .turnZ b.yaw := by
    rw [← Mat3.turnZ_add, sub_add_cancel]
  simp only [turn, tiltedAs, hyaw, Mat3.mul_assoc]

/-- A rotation has its angles but once, up to whole turns of roll and yaw. -/
theorem angles_eq_of_turn_eq {a b : Rpy ℝ} (h : a.turn = b.turn) (ha : |a.pitch| ≤ Real.pi / 2)
    (hb : |b.pitch| ≤ Real.pi / 2) (hfree : 0 < Real.cos b.pitch) :
    (a.roll : Real.Angle) = b.roll ∧ a.pitch = b.pitch ∧ (a.yaw : Real.Angle) = b.yaw := by
  simp only [turn_eq, Mat3.mk.injEq, Vec3.mk.injEq, neg_inj] at h
  obtain ⟨⟨hcosYaw, -, -⟩, ⟨hsinYaw, -, -⟩, hsin, hsinRoll, hcosRoll⟩ := h
  have hpitch : a.pitch = b.pitch := Real.injOn_sin (abs_le.mp ha) (abs_le.mp hb) hsin
  rw [hpitch] at hcosYaw hsinYaw hsinRoll hcosRoll
  refine ⟨?_, hpitch, ?_⟩
  · exact Real.Angle.cos_sin_inj (mul_left_cancel₀ hfree.ne' hcosRoll)
      (mul_left_cancel₀ hfree.ne' hsinRoll)
  · exact Real.Angle.cos_sin_inj (mul_right_cancel₀ hfree.ne' hcosYaw)
      (mul_right_cancel₀ hfree.ne' hsinYaw)

theorem abs_pitch_ofQuaternion_le (q : Quaternion ℝ) :
    |(ofQuaternion q).pitch| ≤ Real.pi / 2 := by
  have hpitch : (ofQuaternion q).pitch = wrap (q.half + q.half - Real.pi / 2) := by
    have htwo : (Scalar.nat 2 : ℝ) = 2 := Scalar.nat_real 2
    rw [← htwo]
    rfl
  have hnonneg := q.half_nonneg
  have hle := q.half_le
  have hpi := Real.pi_pos
  have hwrap : wrap (q.half + q.half - Real.pi / 2) = q.half + q.half - Real.pi / 2 := by
    rw [wrap, Scalar.pi_real, if_neg (by linarith), if_neg (by linarith)]
  rw [hpitch, hwrap, abs_le]
  constructor <;> linarith

end Rpy

section

variable [HasSingularValues ℝ]

theorem Mat3.abs_pitch_le_of_toRpy {m : Mat3 ℝ} {angles : Rpy ℝ} (h : m.toRpy = .ok angles) :
    |angles.pitch| ≤ Real.pi / 2 := by
  unfold toRpy at h
  cases hq : m.toQuaternion with
  | error f =>
      rw [hq] at h
      cases h
  | ok q =>
      rw [hq] at h
      cases h
      exact Rpy.abs_pitch_ofQuaternion_le q

/-- The angles of a rotation that is made of angles are these again. -/
theorem Rpy.exists_toRpy_turn {a : Rpy ℝ} (ha : |a.pitch| ≤ Real.pi / 2)
    (hfree : ¬a.turn.Locked) :
    ∃ shown, a.turn.toRpy = .ok shown ∧ (shown.roll : Real.Angle) = a.roll ∧
      shown.pitch = a.pitch ∧ (shown.yaw : Real.Angle) = a.yaw := by
  obtain ⟨shown, hshown, hturn, hcos⟩ := a.isRotation_turn.exists_angles hfree
  have hpitch := Mat3.abs_pitch_le_of_toRpy hshown
  obtain ⟨hroll, hpitch, hyaw⟩ := angles_eq_of_turn_eq hturn.symm ha hpitch hcos
  exact ⟨shown, hshown, hroll.symm, hpitch.symm, hyaw.symm⟩

namespace Fusion

/-- Of a delta nothing but its attitude counts. -/
theorem withDelta_of_attitude (raw : RigidTransform ℝ) (angles : Rpy ℝ) {delta : Tensor ℝ}
    {turn : Mat3 ℝ} (h : delta.toAttitude = .ok turn) :
    withDelta raw angles delta = withDelta raw angles (.ofMat3 turn) := by
  rw [withDelta, withDelta, h, Tensor.toAttitude_ofMat3]

/-- A transform is a registered one brought to the tilt of a turn, where `angles` are those of
the registration and `tilt` those of the turn. -/
structure Heads (registration : RigidTransform ℝ) (turn : Mat3 ℝ) (angles tilt : Rpy ℝ)
    (fused : RigidTransform ℝ) : Prop where
  rotation : fused.rotation = .turnZ (angles.yaw - tilt.yaw) * turn
  rigid : fused.rotation.IsRotation
  bottom : fused.rotation.row2 = turn.row2
  shown : ∃ shown, fused.rpy = .ok shown ∧ (shown.roll : Real.Angle) = tilt.roll ∧
    shown.pitch = tilt.pitch ∧ (shown.yaw : Real.Angle) = angles.yaw
  translation : fused.translation = registration.translation

theorem heads_tiltedAs (registration : RigidTransform ℝ) {turn : Mat3 ℝ}
    (angles : Rpy ℝ) {tilt : Rpy ℝ} (htilt : turn.toRpy = .ok tilt) (hturn : tilt.turn = turn)
    (hfree : ¬turn.Locked) :
    Heads registration turn angles tilt
      (registration.withRotation (angles.tiltedAs tilt).turn) := by
  have hrotation : (angles.tiltedAs tilt).turn = .turnZ (angles.yaw - tilt.yaw) * turn := by
    rw [Rpy.turn_tiltedAs, hturn]
  have hfreeFused : ¬(angles.tiltedAs tilt).turn.Locked := by
    rwa [hrotation, Mat3.locked_turnZ_mul_iff]
  have hpitch : |tilt.pitch| ≤ Real.pi / 2 := Mat3.abs_pitch_le_of_toRpy htilt
  exact
    { rotation := hrotation
      rigid := (angles.tiltedAs tilt).isRotation_turn
      bottom := by rw [RigidTransform.withRotation, hrotation, Mat3.row2_turnZ_mul]
      shown := Rpy.exists_toRpy_turn (a := angles.tiltedAs tilt) hpitch hfreeFused
      translation := rfl }

/-- The rule of fusion. The oldest delta is taken, and no other; the delta is turned about the
vertical to the yaw of the registration, whose translation stays. -/
theorem fusion_rule [ExactSingularValues] {deltas : BoundedQueue (Tensor ℝ)} {delta : Tensor ℝ}
    {later : List (Tensor ℝ)} (hitems : deltas.items = delta :: later) {turn : Mat3 ℝ}
    (hdelta : delta.toAttitude = .ok turn) (hturn : turn.IsRotation) (hfreeTurn : ¬turn.Locked)
    {registration : RigidTransform ℝ} (hregistration : registration.rotation.IsRotation)
    (hfree : ¬registration.rotation.Locked) :
    ∃ angles tilt fusion journal,
      registration.rpy = .ok angles ∧ angles.turn = registration.rotation ∧
      turn.toRpy = .ok tilt ∧ tilt.turn = turn ∧
      combine deltas registration true =
        ({ deltas with items := later }, .ok (fusion, journal)) ∧
      fusion.fused = true ∧ Heads registration turn angles tilt fusion.transform := by
  obtain ⟨angles, hangles, hregistered, -⟩ := hregistration.exists_angles hfree
  obtain ⟨tilt, htilt, htilted, -⟩ := hturn.exists_angles hfreeTurn
  obtain ⟨fusion, journal, hfused, htransform⟩ := exists_withDelta hregistration angles htilt
  rw [← withDelta_of_attitude registration angles hdelta] at hfused
  have hpop : deltas.pop? = some (delta, { deltas with items := later }) := by
    rw [BoundedQueue.pop?, hitems]
  have hcombined : Combined deltas registration true _ := .taken hangles rfl hpop hfused
  refine ⟨angles, tilt, fusion, journal, hangles, hregistered, htilt, htilted,
    hcombined.combine_eq, (withDelta_ok hfused).1, ?_⟩
  rw [htransform]
  exact heads_tiltedAs registration angles htilt htilted hfreeTurn

end Fusion

end

/-- A delta that rolls over, with another one after it, and a registration that turns by almost
half a turn. -/
theorem Fusion.fusion_rule_of_rolled_delta :
    let rolled : Mat3 ℝ := ⟨⟨1, 0, 0⟩, ⟨0, 3 / 5, -(4 / 5)⟩, ⟨0, 4 / 5, 3 / 5⟩⟩
    let deltas : BoundedQueue (Tensor ℝ) := ⟨10, [.ofMat3 rolled, .ofMat3 .identity]⟩
    let registration : RigidTransform ℝ := ⟨⟨1, 2, 3⟩, .turnZ (-3)⟩
    rolled.IsRotation ∧ ¬rolled.Locked ∧ registration.rotation.IsRotation ∧
      ¬registration.rotation.Locked ∧
      ∃ angles tilt fusion journal,
        combine deltas registration true =
          (⟨10, [.ofMat3 .identity]⟩, .ok (fusion, journal)) ∧
        Heads registration rolled angles tilt fusion.transform := by
  intro rolled deltas registration
  have hrolled : rolled.IsRotation := by
    refine ⟨Mat3.isOrthogonal_iff.mpr ?_, ?_⟩ <;>
      simp only [rolled, Mat3.det, Vec3.dot, Vec3.cross] <;> norm_num
  have hfar : (0 : ℝ) ^ 2 < 1 - (Rpy.lockTolerance : ℝ) ^ 2 := by
    rw [Mat3.lockTolerance_real]
    norm_num
  have hfreeRolled : ¬rolled.Locked := Mat3.not_locked hfar
  have hregistration : registration.rotation.IsRotation := Mat3.isRotation_turnZ (-3)
  have hfree : ¬registration.rotation.Locked := Mat3.not_locked hfar
  obtain ⟨angles, tilt, fusion, journal, -, -, -, -, hcombine, -, hheads⟩ :=
    fusion_rule (rfl : deltas.items = _ :: _) (Tensor.toAttitude_ofMat3 rolled) hrolled
      hfreeRolled hregistration hfree
  exact ⟨hrolled, hfreeRolled, hregistration, hfree, angles, tilt, fusion, journal, hcombine,
    hheads⟩

end InertialOdometry
