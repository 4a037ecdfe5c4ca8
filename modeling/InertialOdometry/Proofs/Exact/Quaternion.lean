import Mathlib.Tactic.FieldSimp
import InertialOdometry.Geometry.Quaternion
import InertialOdometry.Proofs.Exact.Matrix

/-!
Quaternions over exact scalars. Those of length one stand for rotations, their products
for products of rotations, and the quaternion that is computed of a rotation stands for
that very rotation, whichever of its components is computed first.
-/

namespace InertialOdometry

namespace Quaternion

def normSq (q : Quaternion ℝ) : ℝ := q.x * q.x + q.y * q.y + q.z * q.z + q.w * q.w

/-- The product of quaternions is that of their rotations. -/
theorem toMat3_mul (p q : Quaternion ℝ) : (p * q).toMat3 = p.toMat3 * q.toMat3 := by
  change (p.mul q).toMat3 = _
  rw [Mat3.mul_eq]
  simp only [toMat3, mul, Mat3.column0, Mat3.column1, Mat3.column2, Vec3.dot]
  ext <;> ring

/-- A quaternion of length one stands for a rotation. -/
theorem isRotation_toMat3 {q : Quaternion ℝ} (h : q.normSq = 1) : q.toMat3.IsRotation := by
  rw [normSq] at h
  refine ⟨Mat3.isOrthogonal_iff.mpr ?_, ?_⟩
  · simp only [toMat3, Vec3.dot]
    grind
  · simp only [toMat3, Mat3.det, Vec3.dot, Vec3.cross]
    grind

theorem normSq_nonneg (q : Quaternion ℝ) : 0 ≤ q.normSq := by
  rw [normSq]
  linarith only [mul_self_nonneg q.x, mul_self_nonneg q.y, mul_self_nonneg q.z,
    mul_self_nonneg q.w]

theorem isRotation_normalized {q : Quaternion ℝ} (h : 0 < q.norm) :
    q.normalized.toMat3.IsRotation := by
  have hnorm : q.norm * q.norm = q.normSq := Real.mul_self_sqrt q.normSq_nonneg
  rw [normSq] at hnorm
  apply isRotation_toMat3
  simp only [normSq, normalized]
  field_simp
  linarith

/-- A quaternion stands for a rotation but for its length. -/
structure Spans (v : Quaternion ℝ) (m : Mat3 ℝ) (size : ℝ) : Prop where
  normSq_eq : v.normSq = size
  toMat3_eq : v.toMat3 = m.scale size

theorem Spans.normalized {v : Quaternion ℝ} {m : Mat3 ℝ} {size : ℝ} (h : v.Spans m size)
    (hsize : 0 < size) : v.normalized.normSq = 1 ∧ v.normalized.toMat3 = m := by
  have hnorm : v.norm * v.norm = size := by
    rw [← h.normSq_eq] at hsize ⊢
    exact Real.mul_self_sqrt hsize.le
  have hne : v.norm ≠ 0 := by
    intro hzero
    rw [hzero, mul_zero] at hnorm
    exact hsize.ne hnorm
  have hproduct (a b : ℝ) : a / v.norm * (b / v.norm) = a * b / size := by
    rw [div_mul_div_comm, hnorm]
  have hmatrix := h.toMat3_eq
  have hsquare := h.normSq_eq
  simp only [toMat3, Mat3.scale, Vec3.scale, Mat3.ext_iff, Vec3.ext_iff] at hmatrix
  rw [normSq] at hsquare
  have hne := hsize.ne'
  refine ⟨?_, ?_⟩
  · simp only [normSq, Quaternion.normalized, hproduct]
    field_simp
    linarith
  · simp only [toMat3, Quaternion.normalized, hproduct]
    ext <;> field_simp <;> grind

noncomputable def scale (k : ℝ) (q : Quaternion ℝ) : Quaternion ℝ :=
  ⟨k * q.x, k * q.y, k * q.z, k * q.w⟩

theorem toMat3_scale (k : ℝ) (q : Quaternion ℝ) :
    (q.scale k).toMat3 = q.toMat3.scale (k * k) := by
  simp only [toMat3, scale, Mat3.scale, Vec3.scale]
  ext <;> ring

/-- A quaternion that is stretched, shrunk or turned around stands for the same rotation. -/
theorem Spans.scale {v : Quaternion ℝ} {m : Mat3 ℝ} {size : ℝ} (h : v.Spans m size) (k : ℝ) :
    (v.scale k).Spans m (k * k * size) where
  normSq_eq := by
    rw [← h.normSq_eq]
    simp only [normSq, Quaternion.scale]
    ring
  toMat3_eq := by
    rw [toMat3_scale, h.toMat3_eq]
    simp only [Mat3.scale, Vec3.scale]
    ext <;> ring

/-- Every quaternion stands for the rotation of the normalized one but for its length. -/
theorem spans_normalized {q : Quaternion ℝ} (h : 0 < q.norm) :
    q.Spans q.normalized.toMat3 q.normSq where
  normSq_eq := rfl
  toMat3_eq := by
    have hnorm : q.norm * q.norm = q.normSq := Real.mul_self_sqrt q.normSq_nonneg
    rw [← hnorm]
    simp only [toMat3, Quaternion.normalized, Mat3.scale, Vec3.scale]
    ext <;> field_simp

/-- The length of a quaternion plays no part in its rotation, nor does its sign. -/
theorem toMat3_normalized_scale {q : Quaternion ℝ} (h : 0 < q.norm) {k : ℝ} (hk : k ≠ 0) :
    (q.scale k).normalized.toMat3 = q.normalized.toMat3 := by
  have hsize : 0 < k * k * q.normSq := mul_pos (mul_self_pos.mpr hk) (Real.sqrt_pos.mp h)
  exact (((spans_normalized h).scale k).normalized hsize).2

/-- What is computed of a rotation stands for it, whichever component leads. -/
theorem spans_of_isRotation {m : Mat3 ℝ} (h : m.IsRotation) :
    let t := m.row0.x + m.row1.y + m.row2.z
    let lead (d : ℝ) : ℝ := 1 - t + (d + d)
    let xy := m.row1.x + m.row0.y
    let xz := m.row2.x + m.row0.z
    let yz := m.row2.y + m.row1.z
    let xw := m.row2.y - m.row1.z
    let yw := m.row0.z - m.row2.x
    let zw := m.row1.x - m.row0.y
    Spans ⟨lead m.row0.x, xy, xz, xw⟩ m (4 * lead m.row0.x) ∧
      Spans ⟨xy, lead m.row1.y, yz, yw⟩ m (4 * lead m.row1.y) ∧
      Spans ⟨xz, yz, lead m.row2.z, zw⟩ m (4 * lead m.row2.z) ∧
      Spans ⟨xw, yw, zw, 1 + t⟩ m (4 * (1 + t)) := by
  obtain ⟨hcross0, hcross1, hcross2⟩ := h.cross_rows
  have hrows := Mat3.isOrthogonal_iff.mp h.orthogonal
  have hcolumns := Mat3.isOrthogonal_iff.mp h.orthogonal.transpose
  simp only [Mat3.transpose, Mat3.column0, Mat3.column1, Mat3.column2, Vec3.dot, Vec3.cross,
    Vec3.ext_iff] at hcross0 hcross1 hcross2 hrows hcolumns
  refine ⟨⟨?_, ?_⟩, ⟨?_, ?_⟩, ⟨?_, ?_⟩, ⟨?_, ?_⟩⟩
  all_goals simp only [normSq, toMat3, Mat3.scale, Vec3.scale, Mat3.ext_iff, Vec3.ext_iff]
  all_goals grind

/-- The quaternion of a rotation has length one and stands for the rotation. The component
that leads is no less than any other, and so it is never zero. -/
theorem ofMat3_spec {m : Mat3 ℝ} (h : m.IsRotation) :
    (ofMat3 m).normSq = 1 ∧ (ofMat3 m).toMat3 = m := by
  obtain ⟨hx, hy, hz, hw⟩ := spans_of_isRotation h
  unfold ofMat3
  simp only [Scalar.one_real, Bool.and_eq_true, decide_eq_true_eq]
  split_ifs with hleadx hleady hleadz
  · exact hx.normalized (by grind)
  · exact hy.normalized (by grind)
  · exact hz.normalized (by grind)
  · exact hw.normalized (by grind)

theorem ofMat3_identity : (ofMat3 .identity : Quaternion ℝ) = ⟨0, 0, 0, 1⟩ := by
  have hthree : ¬(1 + 1 + 1 : ℝ) ≤ 1 := by norm_num
  have hfour : (1 + (1 + 1 + 1) : ℝ) = 4 := by norm_num
  have hnorm : (⟨0, 0, 0, 4⟩ : Quaternion ℝ).norm = 4 := by
    simp [norm, Scalar.sqrt_real]
  unfold ofMat3
  simp only [Mat3.identity, Scalar.one_real, Scalar.zero_real, hthree, decide_false,
    Bool.and_false, Bool.false_eq_true, if_false, sub_self, hfour]
  simp [normalized, hnorm]

end Quaternion

end InertialOdometry
