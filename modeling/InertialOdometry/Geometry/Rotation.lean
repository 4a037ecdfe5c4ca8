import InertialOdometry.Failure
import InertialOdometry.Geometry.Quaternion
import InertialOdometry.Geometry.SingularValues

/-!
Rotations as matrices, as roll, pitch and yaw, and as quaternions. Roll, pitch and yaw turn about the
fixed axes x, y and z, in this order, so that a rotation is `Rz yaw · Ry pitch · Rx roll`.
-/

namespace InertialOdometry

/-- Angles about the fixed axes x, y and z, in radians. -/
structure Rpy (α : Type) where
  roll : α
  pitch : α
  yaw : α
deriving DecidableEq

namespace Rpy

variable {α : Type} [Scalar α]

omit [Scalar α] in
def toVec3 (a : Rpy α) : Vec3 α := ⟨a.roll, a.pitch, a.yaw⟩

def norm (a : Rpy α) : α := a.toVec3.norm

def toQuaternion (a : Rpy α) : Quaternion α :=
  let two : α := Scalar.nat 2
  let zero : α := Scalar.zero
  let s (t : α) : α := Scalar.sin (t / two)
  let c (t : α) : α := Scalar.cos (t / two)
  (⟨zero, zero, s a.yaw, c a.yaw⟩ : Quaternion α) * ⟨zero, s a.pitch, zero, c a.pitch⟩ *
    ⟨s a.roll, zero, zero, c a.roll⟩

/-- Brings an angle that is at most one turn off back between a half turn to either side. -/
def wrap (t : α) : α :=
  let turn : α := Scalar.pi + Scalar.pi
  if t < -Scalar.pi then t + turn else if Scalar.pi < t then t - turn else t

/-- Within this distance of straight up or straight down roll and yaw turn about the same axis. -/
def lockTolerance : α := Scalar.decimal 1 (-7)

/-- Roll, pitch and yaw of a quaternion of length one. Where roll and yaw turn about the same axis,
roll is taken for both and yaw is zero. -/
def ofQuaternion (q : Quaternion α) : Rpy α :=
  let a := q.w - q.y
  let b := q.x + q.z
  let c := q.y + q.w
  let d := q.z - q.x
  let sum := Scalar.atan2 b a
  let difference := Scalar.atan2 d c
  let half := Scalar.atan2 (Scalar.hypot c d) (Scalar.hypot a b)
  let tilt := half + half
  let zero : α := Scalar.zero
  let (roll, yaw) :=
    if Scalar.abs tilt ≤ lockTolerance then (sum + sum, zero)
    else if Scalar.abs (tilt - Scalar.pi) ≤ lockTolerance then (-(difference + difference), zero)
    else (sum - difference, sum + difference)
  ⟨wrap roll, wrap (tilt - Scalar.pi / Scalar.nat 2), wrap yaw⟩

end Rpy

namespace Mat3

variable {α : Type} [Scalar α] [HasSingularValues α]

def singularValues (m : Mat3 α) : Except Failure (SingularValues α) :=
  match HasSingularValues.decompose m with
  | some d => .ok d
  | none => .error .noSingularValues

/-- The rotation nearest to a matrix. Where the nearest orthogonal matrix reverses orientation, the
direction of the smallest singular value is turned around. -/
def orthonormalize (m : Mat3 α) : Except Failure (Mat3 α) := do
  let d ← m.singularValues
  let r := d.u * d.vt
  if r.det < Scalar.zero then
    return ofColumns d.u.column0 d.u.column1 (-d.u.column2) * d.vt
  else
    return r

/-- The quaternion of a matrix that is a rotation up to scale and distortion. A matrix that reverses
orientation or flattens space is refused, one that is not orthogonal enough is first replaced by its
nearest orthogonal matrix. -/
def toQuaternion (m : Mat3 α) : Except Failure (Quaternion α) := do
  if m.det ≤ Scalar.zero then throw .notARotation
  else if (m * m.transpose).isNearIdentity (Scalar.decimal 1 (-12)) then
    return Quaternion.ofMat3 m
  else
    let d ← m.singularValues
    return Quaternion.ofMat3 (d.u * d.vt)

/-- Roll, pitch and yaw of a matrix that is a rotation up to scale and distortion. -/
def toRpy (m : Mat3 α) : Except Failure (Rpy α) :=
  m.toQuaternion.map Rpy.ofQuaternion

/-- The angle of the rotation that takes `b` to `a`. -/
def angleBetween (a b : Mat3 α) : Except Failure α :=
  (a * b.transpose).toQuaternion.map fun q => q.rotationVector.norm

end Mat3

/-- The rotation by roll, pitch and yaw, orthogonal to within the precision of the scalars. -/
def Rpy.toMat3 {α : Type} [Scalar α] [HasSingularValues α] (a : Rpy α) : Except Failure (Mat3 α) :=
  a.toQuaternion.toMat3.orthonormalize

namespace Quaternion

variable {α : Type} [Scalar α]

def leastNorm : α := Scalar.decimal 1 (-10)

/-- The rotation of a quaternion of any length but zero. -/
def toRotation (q : Quaternion α) : Except Failure (Mat3 α) :=
  if q.norm < leastNorm then .error .zeroQuaternion
  else if [q.x, q.y, q.z, q.w].any Scalar.isNaN then .error .unusableQuaternion
  else .ok q.normalized.toMat3

end Quaternion

end InertialOdometry
