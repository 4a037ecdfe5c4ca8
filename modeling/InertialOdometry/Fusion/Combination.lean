import InertialOdometry.Inertial.Aligner

/-!
Fusion of a registered increment with the attitude. Roll and pitch come from the delta of the inertial
sensor, which knows where down is; yaw and translation come from the registration.
-/

namespace InertialOdometry

structure Fusion (α : Type) where
  transform : RigidTransform α
  /-- Whether a delta went into the transform. -/
  fused : Bool
  rpyRegistration : Rpy α
  rpyInertial : Option (Rpy α)
  /-- The angle between the rotations before and after. -/
  correction : α

namespace Fusion

variable {α : Type} [Scalar α] [HasSingularValues α]

/-- The rotation with roll and pitch of the sensor and the yaw of the registration. -/
def fuseRotation (registration inertial : Rpy α) : Except Failure (Mat3 α) :=
  Rpy.toMat3 ⟨inertial.roll, inertial.pitch, registration.yaw⟩

def unfused (registration : RigidTransform α) (angles : Rpy α) : Fusion α :=
  ⟨registration, false, angles, none, Scalar.zero⟩

def withDelta (registration : RigidTransform α) (angles : Rpy α) (delta : Tensor α) :
    Except Failure (Fusion α × Journal α) := do
  let inertial ← (← delta.toAttitude).toRpy
  let rotation ← fuseRotation angles inertial
  let correction ← Mat3.angleBetween rotation registration.rotation
  return (⟨registration.withRotation rotation, true, angles, some inertial, correction⟩,
    [.tiltCorrected correction])

/-- Fuses an increment with the oldest delta of a queue, if fusion is active. The delta is used up
even where fusion fails afterwards; an increment without angles fails before any delta is taken. -/
def combine (deltas : BoundedQueue (Tensor α)) (registration : RigidTransform α) (active : Bool) :
    BoundedQueue (Tensor α) × Except Failure (Fusion α × Journal α) :=
  match registration.rpy with
  | .error e => (deltas, .error e)
  | .ok angles =>
    if !active then (deltas, .ok (unfused registration angles, []))
    else
      match deltas.pop? with
      | none => (deltas, .ok (unfused registration angles, [.queueEmpty]))
      | some (delta, rest) => (rest, withDelta registration angles delta)

end Fusion

end InertialOdometry
