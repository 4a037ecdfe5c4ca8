import InertialOdometry.Proofs.Exact.Transform

/-!
Transforms as homogeneous matrices. A transform and its matrix determine each other, and
composing transforms is multiplying matrices, whatever the blocks are. The transform that
is meant to undo another one does so if the block is orthogonal, and not otherwise.
-/

namespace InertialOdometry

attribute [ext] Mat4

private theorem Vec3.add_eq (v w : Vec3 ℝ) : v + w = ⟨v.x + w.x, v.y + w.y, v.z + w.z⟩ := rfl

protected theorem Vec3.neg_add (v w : Vec3 ℝ) : -(v + w) = -v + -w := by
  apply toColumn_injective
  simp [toColumn_add, toColumn_neg, add_comm]

protected theorem Vec3.add_comm (v w : Vec3 ℝ) : v + w = w + v := by
  apply toColumn_injective
  simp [toColumn_add, add_comm]

protected theorem Vec3.add_right_cancel {u v w : Vec3 ℝ} (h : u + w = v + w) : u = v := by
  have hcolumns := congrArg toColumn h
  rw [toColumn_add, toColumn_add] at hcolumns
  exact toColumn_injective (add_right_cancel hcolumns)

protected theorem Vec3.neg_injective {v w : Vec3 ℝ} (h : -v = -w) : v = w := by
  have hcolumns := congrArg toColumn h
  rw [toColumn_neg, toColumn_neg] at hcolumns
  exact toColumn_injective (neg_inj.mp hcolumns)

/-- A matrix is known by what it does to the axes. -/
theorem Mat3.eq_identity_of_apply {m : Mat3 ℝ} (h : ∀ v, m.apply v = v) : m = identity := by
  have hx := h ⟨1, 0, 0⟩
  have hy := h ⟨0, 1, 0⟩
  have hz := h ⟨0, 0, 1⟩
  simp [Mat3.apply, Vec3.dot] at hx hy hz
  ext <;> simp [identity, *]

namespace Mat4

def toTensor {α : Type} (m : Mat4 α) : Tensor α := ⟨[4, 4], m.toRows.flatten⟩

def toMatrix (m : Mat4 ℝ) : Matrix (Fin 4) (Fin 4) ℝ :=
  Matrix.of ![![m.block.row0.x, m.block.row0.y, m.block.row0.z, m.column.x],
    ![m.block.row1.x, m.block.row1.y, m.block.row1.z, m.column.y],
    ![m.block.row2.x, m.block.row2.y, m.block.row2.z, m.column.z],
    ![m.bottom.x, m.bottom.y, m.bottom.z, m.corner]]

/-- The product block by block is the product of linear algebra. -/
theorem toMatrix_mul (m n : Mat4 ℝ) : (m.mul n).toMatrix = m.toMatrix * n.toMatrix := by
  ext i j
  rw [Matrix.mul_apply, Fin.sum_univ_four]
  fin_cases i <;> fin_cases j <;>
    simp only [toMatrix, mul, Mat3.mul_eq, Mat3.apply, Mat3.transpose, Mat3.column0,
      Mat3.column1, Mat3.column2, Vec3.dot, Vec3.scale, Vec3.add_eq, Matrix.of_apply,
      Matrix.cons_val, Fin.zero_eta, Fin.mk_one, Fin.reduceFinMk] <;>
    ring

theorem toMatrix_last_eq_iff (m : Mat4 ℝ) :
    m.toMatrix 3 = ![0, 0, 0, 1] ↔ m.bottom = Vec3.zero ∧ m.corner = 1 := by
  have hlast : m.toMatrix 3 = ![m.bottom.x, m.bottom.y, m.bottom.z, m.corner] := rfl
  rw [hlast, Vec3.zero, Vec3.ext_iff]
  simp [and_assoc]

end Mat4

namespace RigidTransform

/-- The transform of an array of four rows is read off its first three. -/
theorem ofTensor_toTensor {α : Type} (m : Mat4 α) : ofTensor m.toTensor = .ok (ofMat4 m) := rfl

theorem ofMat4_toMat4 (a : RigidTransform ℝ) : ofMat4 a.toMat4 = a := rfl

/-- A matrix of order four comes back from its transform if its last row is that of a homogeneous
matrix. -/
theorem toMat4_ofMat4_eq_iff (m : Mat4 ℝ) :
    (ofMat4 m).toMat4 = m ↔ m.toMatrix 3 = ![0, 0, 0, 1] := by
  rw [Mat4.toMatrix_last_eq_iff, toMat4, ofMat4, Mat4.ext_iff]
  simp [eq_comm]

/-- Composition is the product of homogeneous matrices. -/
theorem toMat4_compose (a b : RigidTransform ℝ) :
    (a.compose b).toMat4 = a.toMat4.mul b.toMat4 := by
  simp only [compose, toMat4, Mat4.mul]
  ext <;> simp [Mat3.mul_eq, Mat3.apply, Vec3.dot, Vec3.scale, Vec3.add_eq, Vec3.zero, add_comm,
    Mat3.transpose, Mat3.column0, Mat3.column1, Mat3.column2]

/-! ### Undoing a transform -/

theorem compose_inverse_eq_identity_iff (a : RigidTransform ℝ) :
    a.compose a.inverse = identity ↔ a.rotation.IsOrthogonal :=
  ⟨fun h => congrArg rotation h, compose_inverse⟩

/-- The inverse undoes a transform exactly if its matrix is orthogonal. -/
theorem inverse_compose_eq_identity_iff (a : RigidTransform ℝ) :
    a.inverse.compose a = identity ↔ a.rotation.IsOrthogonal := by
  refine ⟨fun h => ?_, inverse_compose⟩
  have hmirrored : a.rotation.transpose.IsOrthogonal := congrArg rotation h
  exact hmirrored.transpose

theorem translation_inverse (a : RigidTransform ℝ) :
    a.inverse.translation = -a.rotation.transpose.apply a.translation := Mat3.neg_apply _ _

theorem rotation_inverse (a : RigidTransform ℝ) :
    a.inverse.rotation = a.rotation.transpose := rfl

/-- Where a composition is undone to, and how that differs from undoing its parts in reverse
order: by what the block of the outer one does when it is applied and mirrored. -/
theorem translation_inverse_compose (a b : RigidTransform ℝ) :
    (a.compose b).inverse.translation =
      -b.rotation.transpose.apply ((a.rotation.transpose * a.rotation).apply b.translation) +
        b.rotation.transpose.apply a.inverse.translation := by
  simp only [translation_inverse, rotation_compose, translation_compose, Mat3.transpose_mul,
    Mat3.mul_apply, Mat3.apply_add, Mat3.apply_neg, Vec3.neg_add]
  exact Vec3.add_comm _ _

/-- Undoing in reverse order undoes a composition if the block of the outer transform is
orthogonal, and not otherwise. -/
theorem inverse_compose_eq_iff (a : RigidTransform ℝ) :
    (∀ b, (a.compose b).inverse = b.inverse.compose a.inverse) ↔ a.rotation.IsOrthogonal := by
  have hmirrored : a.rotation.IsOrthogonal ↔ a.rotation.transpose * a.rotation = .identity :=
    ⟨Mat3.IsOrthogonal.transpose_mul_self, fun h => Mat3.IsOrthogonal.transpose h⟩
  rw [hmirrored]
  constructor
  · intro h
    apply Mat3.eq_identity_of_apply
    intro v
    -- A step by `v` without a turn comes back by `-v` in the one order.
    have hstep := congrArg translation (h ⟨v, .identity⟩)
    rw [translation_inverse_compose, translation_compose, translation_inverse ⟨v, .identity⟩,
      rotation_inverse] at hstep
    simp only [Mat3.transpose_identity, Mat3.identity_apply] at hstep
    exact Vec3.neg_injective (Vec3.add_right_cancel hstep)
  · intro h b
    ext1
    · rw [translation_inverse_compose, h, Mat3.identity_apply, ← translation_inverse]
      rfl
    · exact Mat3.transpose_mul _ _

/-- Transforms are a faithful model of affine matrices of order four, for arbitrary blocks:
composing is multiplying, with the identity on either side, and a transform is read back
from its matrix. A matrix is written back from its transform if its last row is the one
that affine matrices have. Mirroring the block undoes a transform, on either side, if the
block is orthogonal and not otherwise, and the same goes for undoing a composition in
reverse order. -/
theorem homogeneous_model (a b c : RigidTransform ℝ) (m : Mat4 ℝ) :
    (a.compose b).toMat4.toMatrix = a.toMat4.toMatrix * b.toMat4.toMatrix ∧
      (a.compose b).compose c = a.compose (b.compose c) ∧
      a.compose identity = a ∧ identity.compose a = a ∧
      ofTensor a.toMat4.toTensor = .ok a ∧
      ((ofTensor m.toTensor).map toMat4 = .ok m ↔ m.toMatrix 3 = ![0, 0, 0, 1]) ∧
      (a.compose a.inverse = identity ↔ a.rotation.IsOrthogonal) ∧
      (a.inverse.compose a = identity ↔ a.rotation.IsOrthogonal) ∧
      ((∀ step, (a.compose step).inverse = step.inverse.compose a.inverse) ↔
        a.rotation.IsOrthogonal) := by
  refine ⟨?_, compose_assoc a b c, compose_identity a, identity_compose a, ?_, ?_,
    compose_inverse_eq_identity_iff a, inverse_compose_eq_identity_iff a,
    inverse_compose_eq_iff a⟩
  · rw [toMat4_compose, Mat4.toMatrix_mul]
  · rw [ofTensor_toTensor, ofMat4_toMat4]
  · rw [ofTensor_toTensor, ← toMat4_ofMat4_eq_iff, Except.map, Except.ok.injEq]

end RigidTransform

end InertialOdometry
