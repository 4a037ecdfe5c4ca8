import InertialOdometry.Geometry.Rotation
import InertialOdometry.Proofs.Exact.Matrix

/-!
Singular value decompositions over exact scalars. What is relied on is their contract and
nothing else: a product that gives the matrix back, of orthogonal matrices with a diagonal
between them that descends to no less than zero. From it follows that the nearest rotation
can be computed of every matrix, that a rotation is its own, and that a quaternion is found
for every matrix that keeps orientation.
-/

namespace InertialOdometry

namespace Mat3

def diagonal (v : Vec3 ℝ) : Mat3 ℝ := ⟨⟨v.x, 0, 0⟩, ⟨0, v.y, 0⟩, ⟨0, 0, v.z⟩⟩

private theorem diagonal_mul_diagonal (v w : Vec3 ℝ) :
    diagonal v * diagonal w = diagonal ⟨v.x * w.x, v.y * w.y, v.z * w.z⟩ := by
  apply toMatrix_injective
  rw [toMatrix_mul]
  ext i j
  rw [Matrix.mul_apply, Fin.sum_univ_three]
  fin_cases i <;> fin_cases j <;> simp [toMatrix, diagonal, Vec3.toColumn]

private theorem diagonal_ones : diagonal ⟨1, 1, 1⟩ = identity := by
  simp [diagonal, identity]

theorem det_diagonal (v : Vec3 ℝ) : (diagonal v).det = v.x * v.y * v.z := by
  simp only [diagonal, det, Vec3.dot, Vec3.cross]
  ring

theorem transpose_diagonal (v : Vec3 ℝ) : (diagonal v).transpose = diagonal v := rfl

private theorem IsOrthogonal.diagonal_eq_identity {v : Vec3 ℝ} (h : (diagonal v).IsOrthogonal)
    (hx : 0 ≤ v.x) (hy : 0 ≤ v.y) (hz : 0 ≤ v.z) : diagonal v = identity := by
  rw [IsOrthogonal, transpose_diagonal, diagonal_mul_diagonal, ← diagonal_ones] at h
  simp only [diagonal, Mat3.mk.injEq, Vec3.mk.injEq, and_true, true_and] at h
  obtain ⟨hxx, hyy, hzz⟩ := h
  have hone {t : ℝ} (ht : 0 ≤ t) (htt : t * t = 1) : t = 1 := by nlinarith
  have hv : v = ⟨1, 1, 1⟩ := Vec3.ext (hone hx hxx) (hone hy hyy) (hone hz hzz)
  rw [hv, diagonal_ones]

/-- Turning the last column around is a product with a mirror. -/
theorem ofColumns_neg_eq_mul (m : Mat3 ℝ) :
    ofColumns m.column0 m.column1 (-m.column2) = m * diagonal ⟨1, 1, -1⟩ := by
  apply toMatrix_injective
  rw [toMatrix_mul]
  ext i j
  rw [Matrix.mul_apply, Fin.sum_univ_three]
  fin_cases i <;> fin_cases j <;>
    simp [toMatrix, diagonal, Vec3.toColumn, ofColumns, column0, column1, column2] <;> rfl

private theorem isOrthogonal_mirror : (diagonal ⟨1, 1, -1⟩).IsOrthogonal := by
  rw [IsOrthogonal, transpose_diagonal, diagonal_mul_diagonal, ← diagonal_ones]
  norm_num

private theorem isNearIdentity_identity {tolerance : ℝ} (h : 0 ≤ tolerance) :
    (identity : Mat3 ℝ).isNearIdentity tolerance = true := by
  have hunit : (0 : ℝ) ≤ tolerance + Scalar.decimal 1 (-5) :=
    add_nonneg h (Scalar.decimal_pos one_pos _).le
  simp [isNearIdentity, identity, h, hunit]

end Mat3

/-- The contract of a decomposition of a matrix. -/
structure SingularValues.Decomposes (d : SingularValues ℝ) (m : Mat3 ℝ) : Prop where
  product : d.u * .diagonal d.s * d.vt = m
  left : d.u.IsOrthogonal
  right : d.vt.IsOrthogonal
  nonneg : 0 ≤ d.s.z
  descending : d.s.z ≤ d.s.y ∧ d.s.y ≤ d.s.x

/-- Every matrix is decomposed, and by the contract. -/
class ExactSingularValues [HasSingularValues ℝ] : Prop where
  decomposes (m : Mat3 ℝ) : ∃ d, HasSingularValues.decompose m = some d ∧ d.Decomposes m

namespace SingularValues

variable {d : SingularValues ℝ} {m : Mat3 ℝ}

theorem Decomposes.diagonal_eq (h : d.Decomposes m) :
    .diagonal d.s = d.u.transpose * m * d.vt.transpose := by
  rw [← h.product]
  calc Mat3.diagonal d.s
      = d.u.transpose * d.u * .diagonal d.s * (d.vt * d.vt.transpose) := by
        rw [h.left.transpose_mul_self, h.right, Mat3.identity_mul, Mat3.mul_identity]
    _ = d.u.transpose * (d.u * .diagonal d.s * d.vt) * d.vt.transpose := by
        simp only [Mat3.mul_assoc]

/-- The singular values of an orthogonal matrix are all one, so that the diagonal can be
left out of the product. -/
theorem Decomposes.mul_eq (h : d.Decomposes m) (hm : m.IsOrthogonal) : d.u * d.vt = m := by
  have horthogonal : (Mat3.diagonal d.s).IsOrthogonal := by
    rw [h.diagonal_eq]
    exact (h.left.transpose.mul hm).mul h.right.transpose
  have hy : 0 ≤ d.s.y := h.nonneg.trans h.descending.1
  have hunit := horthogonal.diagonal_eq_identity (hy.trans h.descending.2) hy h.nonneg
  rw [← h.product, hunit, Mat3.mul_identity]

end SingularValues

namespace Mat3

variable [HasSingularValues ℝ]

/-- What has a quaternion keeps orientation. -/
theorem det_pos_of_toQuaternion {m : Mat3 ℝ} {q : Quaternion ℝ}
    (h : m.toQuaternion = .ok q) : 0 < m.det := by
  by_contra hdet
  rw [toQuaternion, Scalar.zero_real, if_pos (not_lt.mp hdet)] at h
  cases h

theorem IsRotation.toQuaternion_eq {m : Mat3 ℝ} (h : m.IsRotation) :
    m.toQuaternion = .ok (.ofMat3 m) := by
  have htolerance : (0 : ℝ) < Scalar.decimal 1 (-12) := Scalar.decimal_pos one_pos _
  have hnear := isNearIdentity_identity htolerance.le
  rw [toQuaternion, Scalar.zero_real, if_neg (not_le.mpr h.det_pos), h.orthogonal,
    if_pos hnear]
  rfl

variable [ExactSingularValues]

theorem exists_singularValues (m : Mat3 ℝ) :
    ∃ d, m.singularValues = .ok d ∧ d.Decomposes m := by
  obtain ⟨d, hd, hdecomposes⟩ := ExactSingularValues.decomposes m
  exact ⟨d, by rw [singularValues, hd], hdecomposes⟩

/-- A matrix that keeps orientation has a quaternion. -/
theorem exists_toQuaternion {m : Mat3 ℝ} (h : 0 < m.det) :
    ∃ q, m.toQuaternion = .ok q := by
  obtain ⟨d, hd, -⟩ := m.exists_singularValues
  rw [toQuaternion, Scalar.zero_real, if_neg (not_le.mpr h), hd]
  split
  · exact ⟨_, rfl⟩
  · exact ⟨_, rfl⟩

theorem exists_toRpy {m : Mat3 ℝ} (h : 0 < m.det) : ∃ angles, m.toRpy = .ok angles := by
  obtain ⟨q, hq⟩ := exists_toQuaternion h
  exact ⟨_, by rw [toRpy, hq]; rfl⟩

/-- The nearest rotation is made of the two bases of some decomposition, with a mirror
between them where they reverse orientation together. -/
theorem exists_orthonormalize_eq (m : Mat3 ℝ) :
    ∃ d : SingularValues ℝ, d.Decomposes m ∧ m.orthonormalize =
      .ok (if (d.u * d.vt).det < 0 then d.u * diagonal ⟨1, 1, -1⟩ * d.vt else d.u * d.vt) := by
  obtain ⟨d, hd, hdecomposes⟩ := m.exists_singularValues
  refine ⟨d, hdecomposes, ?_⟩
  rw [orthonormalize, hd, Scalar.zero_real, ← ofColumns_neg_eq_mul]
  by_cases hdet : (d.u * d.vt).det < 0
  · rw [if_pos hdet]
    exact if_pos hdet
  · rw [if_neg hdet]
    exact if_neg hdet

/-- The nearest rotation can be computed of every matrix, and it is one. -/
theorem exists_orthonormalize (m : Mat3 ℝ) :
    ∃ r, m.orthonormalize = .ok r ∧ r.IsRotation := by
  obtain ⟨d, hdecomposes, hr⟩ := m.exists_orthonormalize_eq
  have horthogonal := hdecomposes.left.mul hdecomposes.right
  refine ⟨_, hr, ?_⟩
  split_ifs with hdet
  · -- The product mirrors space, and so does the sign of the last column.
    have hturned := (hdecomposes.left.mul isOrthogonal_mirror).mul hdecomposes.right
    apply hturned.isRotation
    rw [det_mul] at hdet
    rw [det_mul, det_mul, det_diagonal]
    linarith
  · exact horthogonal.isRotation (not_lt.mp hdet)

/-- A rotation is its own nearest rotation. -/
theorem IsRotation.orthonormalize_eq {m : Mat3 ℝ} (h : m.IsRotation) :
    m.orthonormalize = .ok m := by
  obtain ⟨d, hd, hdecomposes⟩ := m.exists_singularValues
  have hproduct := hdecomposes.mul_eq h.orthogonal
  have hdet : ¬m.det < 0 := not_lt.mpr h.det_pos.le
  rw [orthonormalize, hd, Scalar.zero_real]
  simp only [bind, Except.bind, hproduct, if_neg hdet]
  rfl

end Mat3

end InertialOdometry
