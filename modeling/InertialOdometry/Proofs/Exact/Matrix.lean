import Mathlib.Analysis.InnerProductSpace.PiL2
import Mathlib.LinearAlgebra.Matrix.Determinant.Basic
import Mathlib.LinearAlgebra.Matrix.NonsingularInverse
import Mathlib.LinearAlgebra.Matrix.Notation
import InertialOdometry.Geometry.Mat3
import InertialOdometry.Proofs.Exact.Real

/-!
Vectors and matrices over exact scalars. They are the vectors and matrices of linear
algebra, and so the laws of products, mirroring and determinants hold of them. Two kinds
of matrices are told apart: an orthogonal matrix keeps lengths, and a rotation keeps
orientation as well. Both are closed under products and mirroring.
-/

namespace InertialOdometry

attribute [ext] Vec3 Mat3

namespace Vec3

def toColumn (v : Vec3 ℝ) : Fin 3 → ℝ := ![v.x, v.y, v.z]

theorem toColumn_injective {v w : Vec3 ℝ} (h : v.toColumn = w.toColumn) : v = w := by
  ext
  · exact congrFun h 0
  · exact congrFun h 1
  · exact congrFun h 2

theorem toColumn_add (v w : Vec3 ℝ) : (v + w).toColumn = v.toColumn + w.toColumn := by
  ext i
  fin_cases i <;> rfl

theorem toColumn_neg (v : Vec3 ℝ) : (-v).toColumn = -v.toColumn := by
  ext i
  fin_cases i <;> rfl

theorem toColumn_zero : (zero : Vec3 ℝ).toColumn = 0 := by
  ext i
  fin_cases i <;> exact Scalar.zero_real

protected theorem zero_add (v : Vec3 ℝ) : zero + v = v := by
  apply toColumn_injective
  simp [toColumn_add, toColumn_zero]

protected theorem add_zero (v : Vec3 ℝ) : v + zero = v := by
  apply toColumn_injective
  simp [toColumn_add, toColumn_zero]

protected theorem add_assoc (u v w : Vec3 ℝ) : u + v + w = u + (v + w) := by
  ext
  · exact add_assoc u.x v.x w.x
  · exact add_assoc u.y v.y w.y
  · exact add_assoc u.z v.z w.z

theorem add_neg_self (v : Vec3 ℝ) : v + -v = zero := by
  apply toColumn_injective
  simp [toColumn_add, toColumn_neg, toColumn_zero]

theorem neg_add_self (v : Vec3 ℝ) : -v + v = zero := by
  apply toColumn_injective
  simp [toColumn_add, toColumn_neg, toColumn_zero]

protected theorem add_sub_right_comm (u v w : Vec3 ℝ) : u + v - w = u - w + v := by
  ext
  · exact add_sub_right_comm u.x v.x w.x
  · exact add_sub_right_comm u.y v.y w.y
  · exact add_sub_right_comm u.z v.z w.z

theorem dot_comm (v w : Vec3 ℝ) : v.dot w = w.dot v := by
  simp only [dot]
  ring

/-! ### Lengths -/

theorem norm_sub_self (v : Vec3 ℝ) : (v - v).norm = 0 := by
  have hcoordinate (t : ℝ) : t - t = 0 := sub_self t
  change √((v.x - v.x) * (v.x - v.x) + (v.y - v.y) * (v.y - v.y) +
    (v.z - v.z) * (v.z - v.z)) = 0
  simp only [hcoordinate, mul_zero, add_zero, Real.sqrt_zero]

/-- The length is that of euclidean space. -/
theorem norm_eq (v : Vec3 ℝ) : v.norm = ‖WithLp.toLp 2 v.toColumn‖ := by
  rw [EuclideanSpace.norm_eq]
  simp [norm, dot, toColumn, Fin.sum_univ_three, Scalar.sqrt_real, pow_two]

theorem norm_triangle (v w : Vec3 ℝ) : (v + w).norm ≤ v.norm + w.norm := by
  simp only [norm_eq, toColumn_add, WithLp.toLp_add]
  exact norm_add_le _ _

end Vec3

namespace Mat3

def toMatrix (m : Mat3 ℝ) : Matrix (Fin 3) (Fin 3) ℝ :=
  Matrix.of ![m.row0.toColumn, m.row1.toColumn, m.row2.toColumn]

theorem toMatrix_injective {m n : Mat3 ℝ} (h : m.toMatrix = n.toMatrix) : m = n := by
  ext1
  · exact Vec3.toColumn_injective (congrFun h 0)
  · exact Vec3.toColumn_injective (congrFun h 1)
  · exact Vec3.toColumn_injective (congrFun h 2)

/-- The product is that of linear algebra, and with it come its laws. -/
theorem toMatrix_mul (m n : Mat3 ℝ) : (m * n).toMatrix = m.toMatrix * n.toMatrix := by
  ext i j
  rw [Matrix.mul_apply, Fin.sum_univ_three]
  fin_cases i <;> fin_cases j <;> rfl

theorem toMatrix_transpose (m : Mat3 ℝ) : m.transpose.toMatrix = m.toMatrix.transpose := by
  ext i j
  fin_cases i <;> fin_cases j <;> rfl

theorem toMatrix_identity : (identity : Mat3 ℝ).toMatrix = 1 := by
  ext i j
  fin_cases i <;> fin_cases j <;> simp [toMatrix, identity, Vec3.toColumn]

theorem toColumn_apply (m : Mat3 ℝ) (v : Vec3 ℝ) :
    (m.apply v).toColumn = m.toMatrix.mulVec v.toColumn := by
  ext i
  rw [Matrix.mulVec, dotProduct, Fin.sum_univ_three]
  fin_cases i <;> rfl

theorem det_toMatrix (m : Mat3 ℝ) : m.toMatrix.det = m.det := by
  rw [Matrix.det_fin_three]
  simp only [toMatrix, Vec3.toColumn, det, Vec3.dot, Vec3.cross, Matrix.of_apply,
    Matrix.cons_val]
  ring

/-! ### Products -/

protected theorem mul_assoc (a b c : Mat3 ℝ) : a * b * c = a * (b * c) := by
  apply toMatrix_injective
  simp only [toMatrix_mul, Matrix.mul_assoc]

@[simp]
theorem identity_mul (m : Mat3 ℝ) : identity * m = m := by
  apply toMatrix_injective
  rw [toMatrix_mul, toMatrix_identity, Matrix.one_mul]

@[simp]
theorem mul_identity (m : Mat3 ℝ) : m * identity = m := by
  apply toMatrix_injective
  rw [toMatrix_mul, toMatrix_identity, Matrix.mul_one]

theorem transpose_mul (a b : Mat3 ℝ) : (a * b).transpose = b.transpose * a.transpose := by
  apply toMatrix_injective
  simp only [toMatrix_transpose, toMatrix_mul, Matrix.transpose_mul]

theorem transpose_identity : (identity : Mat3 ℝ).transpose = identity := rfl

@[simp]
theorem transpose_transpose (m : Mat3 ℝ) : m.transpose.transpose = m := rfl

@[simp]
theorem identity_apply (v : Vec3 ℝ) : identity.apply v = v := by
  apply Vec3.toColumn_injective
  rw [toColumn_apply, toMatrix_identity, Matrix.one_mulVec]

theorem mul_apply (a b : Mat3 ℝ) (v : Vec3 ℝ) : (a * b).apply v = a.apply (b.apply v) := by
  apply Vec3.toColumn_injective
  simp only [toColumn_apply, toMatrix_mul, Matrix.mulVec_mulVec]

theorem apply_add (m : Mat3 ℝ) (v w : Vec3 ℝ) :
    m.apply (v + w) = m.apply v + m.apply w := by
  apply Vec3.toColumn_injective
  simp only [toColumn_apply, Vec3.toColumn_add, Matrix.mulVec_add]

theorem toMatrix_neg (m : Mat3 ℝ) : (-m).toMatrix = -m.toMatrix := by
  ext i j
  fin_cases i <;> fin_cases j <;> rfl

theorem neg_apply (m : Mat3 ℝ) (v : Vec3 ℝ) : (-m).apply v = -m.apply v := by
  apply Vec3.toColumn_injective
  rw [toColumn_apply, toMatrix_neg, Matrix.neg_mulVec, Vec3.toColumn_neg, toColumn_apply]

theorem apply_neg (m : Mat3 ℝ) (v : Vec3 ℝ) : m.apply (-v) = -m.apply v := by
  apply Vec3.toColumn_injective
  rw [toColumn_apply, Vec3.toColumn_neg, Matrix.mulVec_neg, Vec3.toColumn_neg,
    toColumn_apply]

theorem apply_zero (m : Mat3 ℝ) : m.apply Vec3.zero = Vec3.zero := by
  apply Vec3.toColumn_injective
  rw [toColumn_apply, Vec3.toColumn_zero, Matrix.mulVec_zero]

/-- Mirroring a matrix moves it to the other side of the dot product. -/
theorem apply_dot (m : Mat3 ℝ) (v w : Vec3 ℝ) :
    (m.apply v).dot w = v.dot (m.transpose.apply w) := by
  simp only [apply, transpose, column0, column1, column2, Vec3.dot]
  ring

theorem mul_eq (a b : Mat3 ℝ) : a * b =
    ⟨⟨a.row0.dot b.column0, a.row0.dot b.column1, a.row0.dot b.column2⟩,
      ⟨a.row1.dot b.column0, a.row1.dot b.column1, a.row1.dot b.column2⟩,
      ⟨a.row2.dot b.column0, a.row2.dot b.column1, a.row2.dot b.column2⟩⟩ := rfl

/-! ### Determinants -/

theorem det_mul (a b : Mat3 ℝ) : (a * b).det = a.det * b.det := by
  simp only [← det_toMatrix, toMatrix_mul, Matrix.det_mul]

@[simp]
theorem det_transpose (m : Mat3 ℝ) : m.transpose.det = m.det := by
  rw [← det_toMatrix, toMatrix_transpose, Matrix.det_transpose, det_toMatrix]

@[simp]
theorem det_identity : (identity : Mat3 ℝ).det = 1 := by
  rw [← det_toMatrix, toMatrix_identity, Matrix.det_one]

/-! ### Orthogonal matrices and rotations -/

/-- A matrix whose rows have length one and stand at right angles. -/
def IsOrthogonal (m : Mat3 ℝ) : Prop := m * m.transpose = identity

/-- Orthogonality by the products of the rows. -/
theorem isOrthogonal_iff {m : Mat3 ℝ} :
    m.IsOrthogonal ↔ m.row0.dot m.row0 = 1 ∧ m.row1.dot m.row1 = 1 ∧
      m.row2.dot m.row2 = 1 ∧ m.row0.dot m.row1 = 0 ∧ m.row0.dot m.row2 = 0 ∧
      m.row1.dot m.row2 = 0 := by
  have h0 : m.transpose.column0 = m.row0 := rfl
  have h1 : m.transpose.column1 = m.row1 := rfl
  have h2 : m.transpose.column2 = m.row2 := rfl
  rw [IsOrthogonal, mul_eq, h0, h1, h2, identity, m.row1.dot_comm m.row0,
    m.row2.dot_comm m.row0, m.row2.dot_comm m.row1]
  simp only [Mat3.mk.injEq, Vec3.mk.injEq, Scalar.one_real, Scalar.zero_real]
  tauto

/-- An orthogonal matrix that keeps orientation. -/
structure IsRotation (m : Mat3 ℝ) : Prop where
  orthogonal : m.IsOrthogonal
  det_eq_one : m.det = 1

/-- The columns of an orthogonal matrix have length one and stand at right angles as well. -/
theorem IsOrthogonal.transpose_mul_self {m : Mat3 ℝ} (h : m.IsOrthogonal) :
    m.transpose * m = identity := by
  have hmatrix : m.toMatrix * m.transpose.toMatrix = 1 := by
    rw [← toMatrix_mul, h, toMatrix_identity]
  apply toMatrix_injective
  rw [toMatrix_mul, toMatrix_identity]
  exact mul_eq_one_comm.mp hmatrix

theorem IsOrthogonal.transpose {m : Mat3 ℝ} (h : m.IsOrthogonal) :
    m.transpose.IsOrthogonal := h.transpose_mul_self

theorem IsOrthogonal.mul {a b : Mat3 ℝ} (ha : a.IsOrthogonal) (hb : b.IsOrthogonal) :
    (a * b).IsOrthogonal := by
  unfold IsOrthogonal
  calc a * b * (a * b).transpose
      = a * (b * b.transpose) * a.transpose := by simp only [transpose_mul, Mat3.mul_assoc]
    _ = a * a.transpose := by rw [hb, mul_identity]
    _ = identity := ha

/-- An orthogonal matrix keeps lengths. -/
theorem IsOrthogonal.norm_apply {m : Mat3 ℝ} (h : m.IsOrthogonal) (v : Vec3 ℝ) :
    (m.apply v).norm = v.norm := by
  unfold Vec3.norm
  rw [apply_dot, ← mul_apply, h.transpose_mul_self, identity_apply]

theorem IsOrthogonal.det_mul_det {m : Mat3 ℝ} (h : m.IsOrthogonal) : m.det * m.det = 1 := by
  have hdet := congrArg det h
  rwa [det_mul, det_transpose, det_identity] at hdet

/-- An orthogonal matrix is a rotation if its determinant is not below zero. -/
theorem IsOrthogonal.isRotation {m : Mat3 ℝ} (h : m.IsOrthogonal) (hdet : 0 ≤ m.det) :
    m.IsRotation := by
  refine ⟨h, ?_⟩
  nlinarith [h.det_mul_det]

theorem isRotation_identity : (identity : Mat3 ℝ).IsRotation :=
  ⟨mul_identity identity, det_identity⟩

theorem IsRotation.transpose {m : Mat3 ℝ} (h : m.IsRotation) : m.transpose.IsRotation :=
  ⟨h.orthogonal.transpose, m.det_transpose.trans h.det_eq_one⟩

theorem IsRotation.mul {a b : Mat3 ℝ} (ha : a.IsRotation) (hb : b.IsRotation) :
    (a * b).IsRotation := by
  refine ⟨ha.orthogonal.mul hb.orthogonal, ?_⟩
  rw [det_mul, ha.det_eq_one, hb.det_eq_one, one_mul]

/-- Each row of a rotation is the cross product of the other two. -/
theorem IsRotation.cross_rows {m : Mat3 ℝ} (h : m.IsRotation) :
    m.row1.cross m.row2 = m.row0 ∧ m.row2.cross m.row0 = m.row1 ∧
      m.row0.cross m.row1 = m.row2 := by
  have hdet := h.det_eq_one
  have hunit := isOrthogonal_iff.mp h.orthogonal
  simp only [det, Vec3.dot, Vec3.cross] at hdet hunit ⊢
  refine ⟨?_, ?_, ?_⟩ <;> ext <;> grind

theorem IsRotation.det_pos {m : Mat3 ℝ} (h : m.IsRotation) : 0 < m.det := by
  rw [h.det_eq_one]
  exact one_pos

end Mat3

end InertialOdometry
