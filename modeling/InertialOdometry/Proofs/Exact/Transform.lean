import InertialOdometry.Geometry.RigidTransform
import InertialOdometry.Proofs.Exact.Matrix

/-!
Transforms over exact scalars. Composition is associative whatever the matrices are; a
transform with an orthogonal matrix can be undone.
-/

namespace InertialOdometry

attribute [ext] RigidTransform

namespace RigidTransform

theorem translation_compose (a b : RigidTransform ℝ) :
    (a.compose b).translation = a.translation + a.rotation.apply b.translation := rfl

theorem rotation_compose (a b : RigidTransform ℝ) :
    (a.compose b).rotation = a.rotation * b.rotation := rfl

/-- Composition is associative, also where the matrices are no rotations. -/
theorem compose_assoc (a b c : RigidTransform ℝ) :
    (a.compose b).compose c = a.compose (b.compose c) := by
  ext1
  · simp only [translation_compose, rotation_compose, Mat3.mul_apply, Mat3.apply_add,
      Vec3.add_assoc]
  · exact Mat3.mul_assoc a.rotation b.rotation c.rotation

theorem compose_identity (a : RigidTransform ℝ) : a.compose identity = a := by
  ext1
  · rw [translation_compose, identity, Mat3.apply_zero, Vec3.add_zero]
  · exact Mat3.mul_identity a.rotation

theorem identity_compose (a : RigidTransform ℝ) : identity.compose a = a := by
  ext1
  · rw [translation_compose, identity, Mat3.identity_apply, Vec3.zero_add]
  · exact Mat3.identity_mul a.rotation

theorem compose_inverse {a : RigidTransform ℝ} (h : a.rotation.IsOrthogonal) :
    a.compose a.inverse = identity := by
  ext1
  · rw [translation_compose, inverse, Mat3.neg_apply, Mat3.apply_neg, ← Mat3.mul_apply, h,
      Mat3.identity_apply, identity, Vec3.add_neg_self]
  · exact h

theorem inverse_compose {a : RigidTransform ℝ} (h : a.rotation.IsOrthogonal) :
    a.inverse.compose a = identity := by
  ext1
  · rw [translation_compose, inverse, Mat3.neg_apply, Vec3.neg_add_self, identity]
  · exact h.transpose_mul_self

/-- The motion from one pose to another, made in the frame of the first, leads there. -/
theorem compose_inverse_compose {a : RigidTransform ℝ} (h : a.rotation.IsOrthogonal)
    (b : RigidTransform ℝ) : a.compose (a.inverse.compose b) = b := by
  rw [← compose_assoc, compose_inverse h, identity_compose]

theorem inverse_compose_compose {a : RigidTransform ℝ} (h : a.rotation.IsOrthogonal)
    (b : RigidTransform ℝ) : a.inverse.compose (a.compose b) = b := by
  rw [← compose_assoc, inverse_compose h, identity_compose]

end RigidTransform

end InertialOdometry
