import Mathlib.Analysis.SpecialFunctions.Trigonometric.Bounds
import InertialOdometry.Proofs.Exact.Quaternion
import InertialOdometry.Proofs.Exact.SingularValues

/-!
Roll, pitch and yaw over exact scalars. Angles stand for the turn about x by roll, then
about y by pitch and then about z by yaw. Of every rotation angles are found, and unless
its roll and yaw turn about the same axis they stand for the rotation.
-/

namespace InertialOdometry

namespace Scalar

theorem hypot_mul_cos (x y : ℝ) : hypot x y * Real.cos (atan2 y x) = x := by
  have hnorm : hypot x y = ‖(⟨x, y⟩ : ℂ)‖ := by rw [Complex.norm_def, Complex.normSq_mk]; rfl
  rw [hnorm]
  exact Complex.norm_mul_cos_arg _

theorem hypot_mul_sin (x y : ℝ) : hypot x y * Real.sin (atan2 y x) = y := by
  have hnorm : hypot x y = ‖(⟨x, y⟩ : ℂ)‖ := by rw [Complex.norm_def, Complex.normSq_mk]; rfl
  rw [hnorm]
  exact Complex.norm_mul_sin_arg _

private theorem hypot_mul_hypot (x y : ℝ) : hypot x y * hypot x y = x * x + y * y :=
  Real.mul_self_sqrt (add_nonneg (mul_self_nonneg x) (mul_self_nonneg y))

private theorem hypot_nonneg (x y : ℝ) : 0 ≤ hypot x y := Real.sqrt_nonneg _

end Scalar

namespace Mat3

/-! ### Turns about the axes -/

noncomputable def turnX (t : ℝ) : Mat3 ℝ :=
  ⟨⟨1, 0, 0⟩, ⟨0, Real.cos t, -Real.sin t⟩, ⟨0, Real.sin t, Real.cos t⟩⟩

noncomputable def turnY (t : ℝ) : Mat3 ℝ :=
  ⟨⟨Real.cos t, 0, Real.sin t⟩, ⟨0, 1, 0⟩, ⟨-Real.sin t, 0, Real.cos t⟩⟩

noncomputable def turnZ (t : ℝ) : Mat3 ℝ :=
  ⟨⟨Real.cos t, -Real.sin t, 0⟩, ⟨Real.sin t, Real.cos t, 0⟩, ⟨0, 0, 1⟩⟩

private theorem cos_of_half (t : ℝ) : Real.cos t =
    Real.cos (t / 2) * Real.cos (t / 2) - Real.sin (t / 2) * Real.sin (t / 2) := by
  rw [← Real.cos_add, add_halves]

private theorem sin_of_half (t : ℝ) : Real.sin t =
    Real.sin (t / 2) * Real.cos (t / 2) + Real.cos (t / 2) * Real.sin (t / 2) := by
  rw [← Real.sin_add, add_halves]

private theorem toMat3_aboutX (t : ℝ) :
    Quaternion.toMat3 ⟨Real.sin (t / 2), 0, 0, Real.cos (t / 2)⟩ = turnX t := by
  have hunit := Real.sin_sq_add_cos_sq (t / 2)
  rw [turnX, cos_of_half t, sin_of_half t, Quaternion.toMat3]
  ext <;> grind

private theorem toMat3_aboutY (t : ℝ) :
    Quaternion.toMat3 ⟨0, Real.sin (t / 2), 0, Real.cos (t / 2)⟩ = turnY t := by
  have hunit := Real.sin_sq_add_cos_sq (t / 2)
  rw [turnY, cos_of_half t, sin_of_half t, Quaternion.toMat3]
  ext <;> grind

private theorem toMat3_aboutZ (t : ℝ) :
    Quaternion.toMat3 ⟨0, 0, Real.sin (t / 2), Real.cos (t / 2)⟩ = turnZ t := by
  have hunit := Real.sin_sq_add_cos_sq (t / 2)
  rw [turnZ, cos_of_half t, sin_of_half t, Quaternion.toMat3]
  ext <;> grind

theorem isRotation_turnX (t : ℝ) : (turnX t).IsRotation := by
  have hunit := Real.sin_sq_add_cos_sq (t / 2)
  rw [← toMat3_aboutX]
  apply Quaternion.isRotation_toMat3
  rw [Quaternion.normSq]
  linarith

theorem isRotation_turnY (t : ℝ) : (turnY t).IsRotation := by
  have hunit := Real.sin_sq_add_cos_sq (t / 2)
  rw [← toMat3_aboutY]
  apply Quaternion.isRotation_toMat3
  rw [Quaternion.normSq]
  linarith

theorem isRotation_turnZ (t : ℝ) : (turnZ t).IsRotation := by
  have hunit := Real.sin_sq_add_cos_sq (t / 2)
  rw [← toMat3_aboutZ]
  apply Quaternion.isRotation_toMat3
  rw [Quaternion.normSq]
  linarith

/-- The angle between the axis x after a rotation and straight up. -/
noncomputable def tilt (m : Mat3 ℝ) : ℝ := Real.arccos m.row2.x

/-- The axis x is turned straight up or straight down, up to a tolerance. -/
def Locked (m : Mat3 ℝ) : Prop :=
  m.tilt ≤ Rpy.lockTolerance ∨ Real.pi - Rpy.lockTolerance ≤ m.tilt

theorem lockTolerance_real : (Rpy.lockTolerance : ℝ) = 10 ^ (-7 : ℤ) := by
  rw [Rpy.lockTolerance, Scalar.decimal_real, Nat.cast_one, one_mul]

/-- A rotation is not locked if the axis x is far enough from straight up and straight
down. -/
theorem not_locked {m : Mat3 ℝ}
    (h : m.row2.x ^ 2 < 1 - (Rpy.lockTolerance : ℝ) ^ 2) : ¬m.Locked := by
  have hfar (x : ℝ) (hx : x ^ 2 < 1 - (Rpy.lockTolerance : ℝ) ^ 2) :
      Rpy.lockTolerance < Real.arccos x := by
    calc (Rpy.lockTolerance : ℝ) < √(1 - x ^ 2) := Real.lt_sqrt_of_sq_lt (by linarith)
      _ = Real.sin (Real.arccos x) := (Real.sin_arccos x).symm
      _ ≤ Real.arccos x := Real.sin_le (Real.arccos_nonneg x)
  have hup := hfar m.row2.x h
  have hdown := hfar (-m.row2.x) (by rwa [neg_sq])
  rw [Real.arccos_neg] at hdown
  rw [Locked, tilt, not_or, not_le, not_le]
  exact ⟨hup, by linarith⟩

end Mat3

namespace Rpy

noncomputable def turn (a : Rpy ℝ) : Mat3 ℝ :=
  .turnZ a.yaw * .turnY a.pitch * .turnX a.roll

/-- Roll, pitch and yaw make a rotation. -/
theorem isRotation_turn (a : Rpy ℝ) : a.turn.IsRotation :=
  ((Mat3.isRotation_turnZ _).mul (Mat3.isRotation_turnY _)).mul (Mat3.isRotation_turnX _)

/-- The quaternion of roll, pitch and yaw turns by them. -/
theorem toMat3_toQuaternion (a : Rpy ℝ) : a.toQuaternion.toMat3 = a.turn := by
  rw [toQuaternion, Quaternion.toMat3_mul, Quaternion.toMat3_mul]
  simp only [Scalar.zero_real, Scalar.nat_real, Scalar.sin_real, Scalar.cos_real, Nat.cast_ofNat,
    Mat3.toMat3_aboutX, Mat3.toMat3_aboutY, Mat3.toMat3_aboutZ]
  rfl

/-- Angles stand for the turn by them, which is a rotation already. -/
theorem toMat3_eq [HasSingularValues ℝ] [ExactSingularValues] (a : Rpy ℝ) :
    a.toMat3 = .ok a.turn := by
  rw [toMat3, toMat3_toQuaternion]
  exact a.isRotation_turn.orthonormalize_eq

theorem cos_wrap (t : ℝ) : Real.cos (wrap t) = Real.cos t := by
  unfold wrap
  rw [Scalar.pi_real, ← two_mul]
  split_ifs
  · exact Real.cos_add_two_pi t
  · exact Real.cos_sub_two_pi t
  · rfl

theorem sin_wrap (t : ℝ) : Real.sin (wrap t) = Real.sin t := by
  unfold wrap
  rw [Scalar.pi_real, ← two_mul]
  split_ifs
  · exact Real.sin_add_two_pi t
  · exact Real.sin_sub_two_pi t
  · rfl

/-- The entries of the rotation by roll, pitch and yaw. -/
theorem turn_eq (a : Rpy ℝ) :
    let cr := Real.cos a.roll
    let sr := Real.sin a.roll
    let cp := Real.cos a.pitch
    let sp := Real.sin a.pitch
    let cy := Real.cos a.yaw
    let sy := Real.sin a.yaw
    a.turn =
      ⟨⟨cy * cp, cy * sp * sr - sy * cr, cy * sp * cr + sy * sr⟩,
        ⟨sy * cp, sy * sp * sr + cy * cr, sy * sp * cr - cy * sr⟩,
        ⟨-sp, cp * sr, cp * cr⟩⟩ := by
  simp only [turn, Mat3.mul_eq, Mat3.turnX, Mat3.turnY, Mat3.turnZ, Mat3.column0, Mat3.column1,
    Mat3.column2, Vec3.dot]
  ext <;> ring

end Rpy

namespace Quaternion

/-! ### The angles of a quaternion

The components of a quaternion make up two points of the plane. The angles of the points
are half the sum and half the difference of yaw and roll, and the distances of the points
from the origin tell the tilt. -/

noncomputable def near (q : Quaternion ℝ) : ℝ := Scalar.hypot (q.w - q.y) (q.x + q.z)

noncomputable def far (q : Quaternion ℝ) : ℝ := Scalar.hypot (q.y + q.w) (q.z - q.x)

noncomputable def sum (q : Quaternion ℝ) : ℝ := Scalar.atan2 (q.x + q.z) (q.w - q.y)

noncomputable def difference (q : Quaternion ℝ) : ℝ := Scalar.atan2 (q.z - q.x) (q.y + q.w)

noncomputable def half (q : Quaternion ℝ) : ℝ := Scalar.atan2 q.far q.near

variable {q : Quaternion ℝ}

private theorem near_sq_add_far_sq (h : q.normSq = 1) : q.near * q.near + q.far * q.far = 2 := by
  rw [near, far, Scalar.hypot_mul_hypot, Scalar.hypot_mul_hypot]
  rw [normSq] at h
  linarith

theorem half_nonneg : 0 ≤ q.half := Complex.arg_nonneg_iff.mpr (Scalar.hypot_nonneg _ _)

theorem half_le : q.half ≤ Real.pi / 2 :=
  Complex.arg_le_pi_div_two_iff.mpr (Or.inl (Scalar.hypot_nonneg _ _))

theorem cos_tilt (h : q.normSq = 1) :
    Real.cos (q.half + q.half) = (q.near * q.near - q.far * q.far) / 2 := by
  have hsize := near_sq_add_far_sq h
  have hlength := Scalar.hypot_mul_hypot q.near q.far
  have hcos : Scalar.hypot q.near q.far * Real.cos q.half = q.near := Scalar.hypot_mul_cos _ _
  have hsin : Scalar.hypot q.near q.far * Real.sin q.half = q.far := Scalar.hypot_mul_sin _ _
  rw [Real.cos_add, ← hcos, ← hsin]
  grind

theorem sin_tilt (h : q.normSq = 1) : Real.sin (q.half + q.half) = q.near * q.far := by
  have hsize := near_sq_add_far_sq h
  have hlength := Scalar.hypot_mul_hypot q.near q.far
  have hcos : Scalar.hypot q.near q.far * Real.cos q.half = q.near := Scalar.hypot_mul_cos _ _
  have hsin : Scalar.hypot q.near q.far * Real.sin q.half = q.far := Scalar.hypot_mul_sin _ _
  rw [Real.sin_add, ← hcos, ← hsin]
  grind

/-- The tilt of a rotation by the components of its quaternion. -/
theorem tilt_toMat3 (h : q.normSq = 1) : q.toMat3.tilt = q.half + q.half := by
  have hnear : q.near * q.near = _ := Scalar.hypot_mul_hypot _ _
  have hfar : q.far * q.far = _ := Scalar.hypot_mul_hypot _ _
  have hrow : q.toMat3.row2.x = Real.cos (q.half + q.half) := by
    rw [cos_tilt h, hnear, hfar]
    simp only [toMat3]
    ring
  have hle := q.half_le
  have hnonneg := q.half_nonneg
  rw [Mat3.tilt, hrow]
  exact Real.arccos_cos (by linarith) (by linarith)

/-- Away from straight up and straight down no angle is given up. -/
theorem ofQuaternion_eq (h : q.normSq = 1) (hfree : ¬q.toMat3.Locked) :
    Rpy.ofQuaternion q = ⟨Rpy.wrap (q.sum - q.difference),
      Rpy.wrap (q.half + q.half - Real.pi / 2), Rpy.wrap (q.sum + q.difference)⟩ := by
  rw [Mat3.Locked, tilt_toMat3 h, not_or, not_le, not_le] at hfree
  obtain ⟨hup, hdown⟩ := hfree
  have hnonneg := q.half_nonneg
  have hle := q.half_le
  have hnotUp : ¬Scalar.abs (q.half + q.half) ≤ Rpy.lockTolerance := by
    rw [Scalar.abs_real, abs_of_nonneg (by linarith)]
    exact not_le.mpr hup
  have hnotDown : ¬Scalar.abs (q.half + q.half - Scalar.pi) ≤ Rpy.lockTolerance := by
    rw [Scalar.pi_real, Scalar.abs_real, abs_of_nonpos (by linarith)]
    linarith
  have htwo : (Scalar.nat 2 : ℝ) = 2 := Scalar.nat_real 2
  unfold Rpy.ofQuaternion
  simp only [half, near, far] at hnotUp hnotDown
  simp only [if_neg hnotUp, if_neg hnotDown, htwo]
  rfl

/-- Roll, pitch and yaw of a quaternion turn by them what the quaternion turns, out of the locked
range. -/
theorem turn_ofQuaternion (h : q.normSq = 1) (hfree : ¬q.toMat3.Locked) :
    (Rpy.ofQuaternion q).turn = q.toMat3 := by
  have hsize := near_sq_add_far_sq h
  have hcos := cos_tilt h
  have hsin := sin_tilt h
  have hnearCos : q.near * Real.cos q.sum = q.w - q.y := Scalar.hypot_mul_cos _ _
  have hnearSin : q.near * Real.sin q.sum = q.x + q.z := Scalar.hypot_mul_sin _ _
  have hfarCos : q.far * Real.cos q.difference = q.y + q.w := Scalar.hypot_mul_cos _ _
  have hfarSin : q.far * Real.sin q.difference = q.z - q.x := Scalar.hypot_mul_sin _ _
  have hsum := Real.sin_sq_add_cos_sq q.sum
  have hdifference := Real.sin_sq_add_cos_sq q.difference
  rw [ofQuaternion_eq h hfree, Rpy.turn_eq]
  simp only [Rpy.cos_wrap, Rpy.sin_wrap, Real.sin_sub_pi_div_two, Real.cos_sub_pi_div_two, hcos,
    hsin, Real.cos_add q.sum, Real.sin_add q.sum, Real.cos_sub q.sum, Real.sin_sub q.sum, toMat3]
  generalize Real.cos q.sum = cs at *
  generalize Real.sin q.sum = ss at *
  generalize Real.cos q.difference = cd at *
  generalize Real.sin q.difference = sd at *
  ext <;> grind

private theorem cos_pitch_pos (h : q.normSq = 1) (hfree : ¬q.toMat3.Locked) :
    0 < Real.cos (Rpy.ofQuaternion q).pitch := by
  rw [ofQuaternion_eq h hfree, Rpy.cos_wrap, Real.cos_sub_pi_div_two]
  rw [Mat3.Locked, tilt_toMat3 h, not_or, not_le, not_le] at hfree
  have htolerance : (0 : ℝ) < Rpy.lockTolerance := Scalar.decimal_pos one_pos _
  exact Real.sin_pos_of_pos_of_lt_pi (by linarith) (by linarith)

end Quaternion

namespace Mat3

variable [HasSingularValues ℝ]

/-- The angles of a rotation stand for it unless it is locked, and they point the axis x
neither straight up nor straight down. -/
theorem IsRotation.exists_angles {m : Mat3 ℝ} (h : m.IsRotation) (hfree : ¬m.Locked) :
    ∃ angles, m.toRpy = .ok angles ∧ angles.turn = m ∧ 0 < Real.cos angles.pitch := by
  obtain ⟨hunit, hmatrix⟩ := Quaternion.ofMat3_spec h
  rw [← hmatrix] at hfree
  refine ⟨_, by rw [toRpy, h.toQuaternion_eq]; rfl, ?_,
    Quaternion.cos_pitch_pos hunit hfree⟩
  rw [Quaternion.turn_ofQuaternion hunit hfree, hmatrix]

theorem toRpy_identity : (identity : Mat3 ℝ).toRpy = .ok ⟨0, 0, 0⟩ := by
  have hunit : (⟨0, 0, 0, 1⟩ : Quaternion ℝ).normSq = 1 := by simp [Quaternion.normSq]
  have hbottom : (⟨0, 0, 0, 1⟩ : Quaternion ℝ).toMat3.row2.x = 0 := by
    simp [Quaternion.toMat3]
  have hfree : ¬(⟨0, 0, 0, 1⟩ : Quaternion ℝ).toMat3.Locked := by
    apply not_locked
    rw [hbottom, lockTolerance_real]
    norm_num
  have htilt := Quaternion.tilt_toMat3 hunit
  rw [tilt, hbottom, Real.arccos_zero] at htilt
  have hzero : Scalar.atan2 (0 : ℝ) 1 = 0 := Complex.arg_one
  have hwrap : Rpy.wrap (0 : ℝ) = 0 := by
    simp [Rpy.wrap, Scalar.pi_real, not_lt.mpr Real.pi_pos.le]
  rw [toRpy, isRotation_identity.toQuaternion_eq, Quaternion.ofMat3_identity]
  simp only [Except.map, Quaternion.ofQuaternion_eq hunit hfree, ← htilt, Quaternion.sum,
    Quaternion.difference, add_zero, zero_add, sub_zero, hzero, sub_self, hwrap]

end Mat3

namespace Rpy

def tiltedAs (a b : Rpy ℝ) : Rpy ℝ := ⟨b.roll, b.pitch, a.yaw⟩

private theorem row2_turn (a : Rpy ℝ) :
    a.turn.row2 = ⟨-Real.sin a.pitch, Real.cos a.pitch * Real.sin a.roll,
      Real.cos a.pitch * Real.cos a.roll⟩ := by
  rw [turn_eq]

/-- Angles can take over roll and pitch of others without a change of their rotation if the
bottom rows agree, and only then: the bottom row of a rotation does not depend on yaw. -/
theorem turn_tiltedAs_eq_iff {a b : Rpy ℝ} (ha : 0 < Real.cos a.pitch)
    (hb : 0 < Real.cos b.pitch) :
    (a.tiltedAs b).turn = a.turn ↔ a.turn.row2 = b.turn.row2 := by
  have hbottom : (a.tiltedAs b).turn.row2 = b.turn.row2 := by
    simp only [row2_turn, tiltedAs]
  constructor
  · intro h
    rw [← hbottom, h]
  · intro h
    simp only [row2_turn, Vec3.mk.injEq, neg_inj] at h
    obtain ⟨hpitch, hsin, hcos⟩ := h
    have hunit := Real.sin_sq_add_cos_sq a.pitch
    have hunit' := Real.sin_sq_add_cos_sq b.pitch
    have hlevel : Real.cos a.pitch = Real.cos b.pitch := by
      rw [hpitch] at hunit
      nlinarith
    rw [hlevel] at hsin hcos
    have hroll := mul_left_cancel₀ hb.ne' hsin
    have hroll' := mul_left_cancel₀ hb.ne' hcos
    simp only [turn_eq, tiltedAs, hpitch, hlevel, hroll, hroll']

end Rpy

end InertialOdometry
