import InertialOdometry.Geometry.Tensor

/-!
Angles and quaternions from arrays: three entries are roll, pitch and yaw, four are a quaternion with
the scalar part last.
-/

namespace InertialOdometry

variable {α : Type}

/-- Roll, pitch and yaw of an array with three entries. Several rows of angles stand for as many
rotations, which is not what a single one can be made of. -/
def Rpy.ofTensor : Tensor α → Except Failure (Rpy α)
  | ⟨[3], [roll, pitch, yaw]⟩ => .ok ⟨roll, pitch, yaw⟩
  | ⟨[n, 3], _⟩ => .error (.badShape .matrix3 [n, 3, 3])
  | _ => .error .unusableAngles

def Quaternion.ofTensor [Scalar α] : Tensor α → Except Failure (Quaternion α)
  | ⟨[4], [x, y, z, w]⟩ => .ok ⟨x, y, z, w⟩
  | ⟨_, entries⟩ =>
    let square (x : α) : α := x * x
    if Scalar.sqrt ((entries.map square).foldl (· + ·) Scalar.zero) < Quaternion.leastNorm then
      .error .zeroQuaternion
    else .error .unusableQuaternion

/-- The scalar at a place of a row of values. Entries that are not asked for are not looked at. -/
def Value.scalarAt [Scalar α] (row : List (Value α)) (place : Nat) : Except Failure α :=
  match row[place]? with
  | some v => v.toScalar
  | none => .error .rowTooShort

end InertialOdometry
