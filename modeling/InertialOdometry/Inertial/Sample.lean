import InertialOdometry.Geometry.Tensor

/-!
Samples of the inertial sensor: an attitude with the time at which it was measured, in seconds.
-/

namespace InertialOdometry

structure Sample (α : Type) where
  attitude : Mat3 α
  time : α
deriving DecidableEq

namespace Sample

variable {α : Type} [Scalar α]

omit [Scalar α] in
def ofTensor (attitude : Tensor α) (time : α) : Except Failure (Sample α) :=
  attitude.toAttitude.map (⟨·, time⟩)

def ofQuaternion (q : Quaternion α) (time : α) : Except Failure (Sample α) :=
  q.toRotation.map (⟨·, time⟩)

end Sample

end InertialOdometry
