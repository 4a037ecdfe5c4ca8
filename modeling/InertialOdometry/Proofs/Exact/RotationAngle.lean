import Mathlib.Geometry.Euclidean.Angle.Unoriented.TriangleInequality
import InertialOdometry.Proofs.Exact.Angles

/-!
The angle of a rotation over exact scalars. It is told by the trace of the matrix, and it is
twice the angle that a quaternion of the rotation makes with the scalar axis of the space of
four dimensions. There the triangle inequality holds, so the angle of a product is at most
the sum of the angles, and roll, pitch and yaw together are at least as large as the angle
of the rotation that they stand for.
-/

namespace InertialOdometry

private theorem Vec3.norm_scale (k : ℝ) (v : Vec3 ℝ) : (v.scale k).norm = |k| * v.norm := by
  have hcolumn : (v.scale k).toColumn = k • v.toColumn := by
    ext i
    fin_cases i <;> rfl
  rw [norm_eq, norm_eq, hcolumn, WithLp.toLp_smul, norm_smul, Real.norm_eq_abs]

private theorem Vec3.norm_zero : (Vec3.zero : Vec3 ℝ).norm = 0 := by
  simp [norm, zero, dot, Scalar.sqrt_real]

/-- An angle is at least as large as the one between nothing and a half turn that has its
cosine. -/
theorem arccos_cos_le_abs (t : ℝ) : Real.arccos (Real.cos t) ≤ |t| := by
  by_cases ht : |t| ≤ Real.pi
  · rw [← Real.cos_abs, Real.arccos_cos (abs_nonneg t) ht]
  · exact (Real.arccos_le_pi _).trans (not_le.mp ht).le

namespace Quaternion

/-! ### Quaternions as vectors of four dimensions -/

def toColumn (q : Quaternion ℝ) : Fin 4 → ℝ := ![q.x, q.y, q.z, q.w]

private theorem inner_toColumn (p q : Quaternion ℝ) :
    inner ℝ (WithLp.toLp 2 p.toColumn) (WithLp.toLp 2 q.toColumn) =
      p.x * q.x + p.y * q.y + p.z * q.z + p.w * q.w := by
  simp [toColumn, PiLp.inner_apply, Fin.sum_univ_four, mul_comm]

theorem angle_toColumn {p q : Quaternion ℝ} (hp : p.normSq = 1) (hq : q.normSq = 1) :
    InnerProductGeometry.angle (WithLp.toLp 2 p.toColumn) (WithLp.toLp 2 q.toColumn) =
      Real.arccos (p.x * q.x + p.y * q.y + p.z * q.z + p.w * q.w) := by
  have hnorm {r : Quaternion ℝ} (hr : r.normSq = 1) : ‖WithLp.toLp 2 r.toColumn‖ = 1 := by
    rw [norm_eq_sqrt_real_inner, inner_toColumn]
    rw [normSq] at hr
    rw [hr, Real.sqrt_one]
  rw [InnerProductGeometry.angle, hnorm hp, hnorm hq, mul_one, div_one, inner_toColumn]

/-- The scalar part of a product is the cosine between one factor mirrored at the scalar axis
and the other factor. On the way from one to the other over the axis no angle is saved. -/
theorem arccos_mul_w_le {p q : Quaternion ℝ} (hp : p.normSq = 1) (hq : q.normSq = 1) :
    Real.arccos (p * q).w ≤ Real.arccos p.w + Real.arccos q.w := by
  let mirrored : Quaternion ℝ := ⟨-p.x, -p.y, -p.z, p.w⟩
  let axis : Quaternion ℝ := ⟨0, 0, 0, 1⟩
  have hmirrored : mirrored.normSq = 1 := by
    rw [← hp]
    simp [normSq, mirrored]
  have haxis : axis.normSq = 1 := by simp [normSq, axis]
  have htriangle := InnerProductGeometry.angle_le_angle_add_angle
    (WithLp.toLp 2 mirrored.toColumn) (WithLp.toLp 2 axis.toColumn) (WithLp.toLp 2 q.toColumn)
  rw [angle_toColumn hmirrored hq, angle_toColumn hmirrored haxis, angle_toColumn haxis hq]
    at htriangle
  have hproduct : (p * q).w =
      mirrored.x * q.x + mirrored.y * q.y + mirrored.z * q.z + mirrored.w * q.w := by
    change p.w * q.w - p.x * q.x - p.y * q.y - p.z * q.z = _
    simp only [mirrored]
    ring
  rw [hproduct]
  simpa [mirrored, axis] using htriangle

/-- Lengths of quaternions are multiplied with the quaternions. -/
theorem normSq_mul (p q : Quaternion ℝ) : (p * q).normSq = p.normSq * q.normSq := by
  change (p.mul q).normSq = _
  simp only [normSq, mul]
  ring

private theorem normSq_neg (q : Quaternion ℝ) : (-q).normSq = q.normSq := by
  change -q.x * -q.x + -q.y * -q.y + -q.z * -q.z + -q.w * -q.w = q.normSq
  rw [normSq]
  ring

private theorem toMat3_neg (q : Quaternion ℝ) : (-q).toMat3 = q.toMat3 := by
  change (⟨-q.x, -q.y, -q.z, -q.w⟩ : Quaternion ℝ).toMat3 = q.toMat3
  simp only [toMat3]
  ext <;> ring

/-- The quaternion or its negative, whichever has a scalar part no less than zero. -/
noncomputable def upright (q : Quaternion ℝ) : Quaternion ℝ :=
  if q.w < Scalar.zero then -q else q

private theorem w_upright (q : Quaternion ℝ) : q.upright.w = |q.w| := by
  rw [upright, Scalar.zero_real]
  split_ifs with hw
  · exact (abs_of_neg hw).symm
  · exact (abs_of_nonneg (not_lt.mp hw)).symm

private theorem normSq_upright (q : Quaternion ℝ) : q.upright.normSq = q.normSq := by
  unfold upright
  split_ifs
  · exact q.normSq_neg
  · rfl

private theorem toMat3_upright (q : Quaternion ℝ) : q.upright.toMat3 = q.toMat3 := by
  unfold upright
  split_ifs
  · exact q.toMat3_neg
  · rfl

/-- Half the angle of the rotation: the angle between the scalar axis and the upright
quaternion. -/
noncomputable def swing (q : Quaternion ℝ) : ℝ :=
  Scalar.atan2 q.upright.vector.norm q.upright.w

theorem rotationVector_eq (q : Quaternion ℝ) : q.rotationVector =
    if q.upright.vector.norm ≤ 0 then Vec3.zero
    else q.upright.vector.scale ((q.swing + q.swing) / Real.sin q.swing) := by
  rw [← Scalar.zero_real]
  rfl

variable {q : Quaternion ℝ}

private theorem hypot_upright (h : q.normSq = 1) :
    Scalar.hypot q.upright.w q.upright.vector.norm = 1 := by
  have hvector : q.upright.vector.norm * q.upright.vector.norm =
      q.upright.vector.dot q.upright.vector := by
    apply Real.mul_self_sqrt
    rw [Vec3.dot]
    exact add_nonneg (add_nonneg (mul_self_nonneg _) (mul_self_nonneg _)) (mul_self_nonneg _)
  have hunit := q.normSq_upright.trans h
  rw [vector, Vec3.dot] at hvector
  rw [normSq] at hunit
  rw [Scalar.hypot, Scalar.sqrt_real, Real.sqrt_eq_one, vector, hvector]
  linarith

private theorem sin_swing (h : q.normSq = 1) : Real.sin q.swing = q.upright.vector.norm := by
  have hsin := Scalar.hypot_mul_sin q.upright.w q.upright.vector.norm
  rwa [hypot_upright h, one_mul] at hsin

private theorem swing_nonneg : 0 ≤ q.swing := Complex.arg_nonneg_iff.mpr (Real.sqrt_nonneg _)

private theorem cos_swing (h : q.normSq = 1) : Real.cos q.swing = q.upright.w := by
  have hcos := Scalar.hypot_mul_cos q.upright.w q.upright.vector.norm
  rwa [hypot_upright h, one_mul] at hcos

theorem swing_eq (h : q.normSq = 1) : q.swing = Real.arccos |q.w| := by
  have hle : q.swing ≤ Real.pi := Complex.arg_le_pi _
  rw [← w_upright, ← cos_swing h, Real.arccos_cos swing_nonneg hle]

/-- The rotation vector is as long as the angle that the upright quaternion makes with the
scalar axis, taken twice. -/
theorem norm_rotationVector (h : q.normSq = 1) :
    q.rotationVector.norm = 2 * Real.arccos |q.w| := by
  rw [rotationVector_eq, ← swing_eq h]
  split_ifs with hzero
  · have hnone : q.upright.vector.norm = 0 := le_antisymm hzero (Real.sqrt_nonneg _)
    have hnull : q.swing = 0 := by
      rw [swing, hnone, w_upright]
      exact Complex.arg_ofReal_of_nonneg (abs_nonneg _)
    rw [Vec3.norm_zero, hnull, mul_zero]
  · have hpos : 0 < q.upright.vector.norm := not_le.mp hzero
    rw [Vec3.norm_scale, sin_swing h, abs_div, abs_of_pos hpos,
      abs_of_nonneg (add_nonneg swing_nonneg swing_nonneg), div_mul_cancel₀ _ hpos.ne', two_mul]

end Quaternion

namespace Mat3

/-! ### The angle of a rotation -/

/-- The angle about which a rotation turns. -/
noncomputable def angle (m : Mat3 ℝ) : ℝ :=
  Real.arccos ((m.row0.x + m.row1.y + m.row2.z - 1) / Scalar.nat 2)

/-- The angle of a rotation by the trace of its matrix. -/
theorem angle_eq (m : Mat3 ℝ) :
    m.angle = Real.arccos ((m.row0.x + m.row1.y + m.row2.z - 1) / 2) := by
  rw [angle, Scalar.nat_real, Nat.cast_ofNat]

/-- The angle of a rotation by the scalar part of its quaternion. -/
theorem angle_toMat3 {q : Quaternion ℝ} (h : q.normSq = 1) :
    q.toMat3.angle = 2 * Real.arccos |q.w| := by
  have hle : |q.w| ≤ 1 := by
    rw [Quaternion.normSq] at h
    rw [abs_le]
    constructor <;> nlinarith [mul_self_nonneg q.x, mul_self_nonneg q.y, mul_self_nonneg q.z]
  have hcos : Real.cos (2 * Real.arccos |q.w|) =
      (q.toMat3.row0.x + q.toMat3.row1.y + q.toMat3.row2.z - 1) / 2 := by
    rw [Real.cos_two_mul, Real.cos_arccos (by linarith [abs_nonneg q.w]) hle, sq_abs]
    rw [Quaternion.normSq] at h
    simp only [Quaternion.toMat3]
    linarith
  have hhalf : Real.arccos |q.w| ≤ Real.pi / 2 :=
    Real.arccos_le_pi_div_two.mpr (abs_nonneg q.w)
  rw [angle_eq, ← hcos]
  exact Real.arccos_cos (mul_nonneg zero_le_two (Real.arccos_nonneg _)) (by linarith)

/-- The angle between two rotations is that of the rotation from one to the other. -/
theorem angleBetween_eq [HasSingularValues ℝ] {a b : Mat3 ℝ} (ha : a.IsRotation)
    (hb : b.IsRotation) : a.angleBetween b = .ok (a * b.transpose).angle := by
  have hproduct := ha.mul hb.transpose
  obtain ⟨hunit, hmatrix⟩ := Quaternion.ofMat3_spec hproduct
  have hangle : (a * b.transpose).angle =
      (Quaternion.ofMat3 (a * b.transpose)).rotationVector.norm := by
    rw [Quaternion.norm_rotationVector hunit, ← angle_toMat3 hunit, hmatrix]
  rw [angleBetween, hproduct.toQuaternion_eq, hangle]
  rfl

theorem angleBetween_identity [HasSingularValues ℝ] {m : Mat3 ℝ} (h : m.IsRotation) :
    m.angleBetween identity = .ok m.angle := by
  rw [angleBetween_eq h isRotation_identity, transpose_identity, mul_identity]

/-- A rotation followed by another one turns by no more than both of their angles. -/
theorem angle_mul_le {a b : Mat3 ℝ} (ha : a.IsRotation) (hb : b.IsRotation) :
    (a * b).angle ≤ a.angle + b.angle := by
  have hupright {m : Mat3 ℝ} (hm : m.IsRotation) : ∃ q : Quaternion ℝ,
      q.normSq = 1 ∧ q.toMat3 = m ∧ m.angle = 2 * Real.arccos q.w := by
    obtain ⟨hunit, hmatrix⟩ := Quaternion.ofMat3_spec hm
    refine ⟨(Quaternion.ofMat3 m).upright, ?_, ?_, ?_⟩
    · rw [Quaternion.normSq_upright, hunit]
    · rw [Quaternion.toMat3_upright, hmatrix]
    · rw [Quaternion.w_upright, ← angle_toMat3 hunit, hmatrix]
  obtain ⟨p, hp, rfl, hpangle⟩ := hupright ha
  obtain ⟨q, hq, rfl, hqangle⟩ := hupright hb
  have hpq : (p * q).normSq = 1 := by rw [Quaternion.normSq_mul, hp, hq, one_mul]
  rw [← Quaternion.toMat3_mul, angle_toMat3 hpq, hpangle, hqangle]
  calc 2 * Real.arccos |(p * q).w| ≤ 2 * Real.arccos (p * q).w := by
        gcongr
        exact le_abs_self _
    _ ≤ 2 * (Real.arccos p.w + Real.arccos q.w) := by
        gcongr
        exact Quaternion.arccos_mul_w_le hp hq
    _ = 2 * Real.arccos p.w + 2 * Real.arccos q.w := mul_add _ _ _

theorem angle_turnX (t : ℝ) : (turnX t).angle = Real.arccos (Real.cos t) := by
  rw [angle_eq, turnX]
  congr 1
  ring

theorem angle_turnY (t : ℝ) : (turnY t).angle = Real.arccos (Real.cos t) := by
  rw [angle_eq, turnY]
  congr 1
  ring

theorem angle_turnZ (t : ℝ) : (turnZ t).angle = Real.arccos (Real.cos t) := by
  rw [angle_eq, turnZ]
  congr 1
  ring

end Mat3

namespace Rpy

/-- A rotation turns by no more than its roll, pitch and yaw together. -/
theorem angle_turn_le (a : Rpy ℝ) : a.turn.angle ≤ |a.roll| + |a.pitch| + |a.yaw| := by
  have hyaw := Mat3.isRotation_turnZ a.yaw
  have hpitch := Mat3.isRotation_turnY a.pitch
  have hroll := Mat3.isRotation_turnX a.roll
  calc a.turn.angle
      ≤ (Mat3.turnZ a.yaw * Mat3.turnY a.pitch).angle + (Mat3.turnX a.roll).angle :=
        Mat3.angle_mul_le (hyaw.mul hpitch) hroll
    _ ≤ (Mat3.turnZ a.yaw).angle + (Mat3.turnY a.pitch).angle + (Mat3.turnX a.roll).angle := by
        gcongr
        exact Mat3.angle_mul_le hyaw hpitch
    _ ≤ |a.yaw| + |a.pitch| + |a.roll| := by
        rw [Mat3.angle_turnX, Mat3.angle_turnY, Mat3.angle_turnZ]
        gcongr <;> exact arccos_cos_le_abs _
    _ = |a.roll| + |a.pitch| + |a.yaw| := by ring

/-- The sizes of three angles together against the size of the angles as a vector. -/
theorem sum_abs_le (a : Rpy ℝ) : |a.roll| + |a.pitch| + |a.yaw| ≤ √3 * a.norm := by
  have hnorm : a.norm = √(a.roll * a.roll + a.pitch * a.pitch + a.yaw * a.yaw) := rfl
  rw [hnorm, ← Real.sqrt_mul zero_le_three]
  apply Real.le_sqrt_of_sq_le
  rw [← abs_mul_abs_self a.roll, ← abs_mul_abs_self a.pitch, ← abs_mul_abs_self a.yaw]
  nlinarith [sq_nonneg (|a.roll| - |a.pitch|), sq_nonneg (|a.pitch| - |a.yaw|),
    sq_nonneg (|a.yaw| - |a.roll|)]

end Rpy

end InertialOdometry
