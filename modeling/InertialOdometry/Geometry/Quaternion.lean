import InertialOdometry.Geometry.Mat3

/-!
Quaternions, scalar part last, and the rotations that they stand for.
-/

namespace InertialOdometry

structure Quaternion (α : Type) where
  x : α
  y : α
  z : α
  w : α
deriving DecidableEq

namespace Quaternion

variable {α : Type} [Scalar α]

def mul (a b : Quaternion α) : Quaternion α where
  x := a.w * b.x + a.x * b.w + a.y * b.z - a.z * b.y
  y := a.w * b.y - a.x * b.z + a.y * b.w + a.z * b.x
  z := a.w * b.z + a.x * b.y - a.y * b.x + a.z * b.w
  w := a.w * b.w - a.x * b.x - a.y * b.y - a.z * b.z

instance : Mul (Quaternion α) := ⟨mul⟩

instance : Neg (Quaternion α) := ⟨fun q => ⟨-q.x, -q.y, -q.z, -q.w⟩⟩

def norm (q : Quaternion α) : α :=
  Scalar.sqrt (q.x * q.x + q.y * q.y + q.z * q.z + q.w * q.w)

def normalized (q : Quaternion α) : Quaternion α :=
  let n := q.norm
  ⟨q.x / n, q.y / n, q.z / n, q.w / n⟩

def vector (q : Quaternion α) : Vec3 α := ⟨q.x, q.y, q.z⟩

/-- The rotation of a quaternion of length one. -/
def toMat3 (q : Quaternion α) : Mat3 α :=
  let x2 := q.x * q.x
  let y2 := q.y * q.y
  let z2 := q.z * q.z
  let w2 := q.w * q.w
  let xy := q.x * q.y
  let zw := q.z * q.w
  let xz := q.x * q.z
  let yw := q.y * q.w
  let yz := q.y * q.z
  let xw := q.x * q.w
  let twice (a : α) : α := a + a
  ⟨⟨x2 - y2 - z2 + w2, twice (xy - zw), twice (xz + yw)⟩,
    ⟨twice (xy + zw), -x2 + y2 - z2 + w2, twice (yz - xw)⟩,
    ⟨twice (xz - yw), twice (yz + xw), -x2 - y2 + z2 + w2⟩⟩

/-- The quaternion of a rotation, up to sign. The largest of the three diagonal entries and the
trace decides which component is computed first, so that no small number is divided by; of equal
ones the first counts. -/
def ofMat3 (m : Mat3 α) : Quaternion α :=
  let a := m.row0.x
  let b := m.row1.y
  let c := m.row2.z
  let t := a + b + c
  let one : α := Scalar.one
  let lead (d : α) : α := one - t + (d + d)
  normalized <|
    if b ≤ a && c ≤ a && t ≤ a then
      ⟨lead a, m.row1.x + m.row0.y, m.row2.x + m.row0.z, m.row2.y - m.row1.z⟩
    else if c ≤ b && t ≤ b then
      ⟨m.row1.x + m.row0.y, lead b, m.row2.y + m.row1.z, m.row0.z - m.row2.x⟩
    else if t ≤ c then
      ⟨m.row2.x + m.row0.z, m.row2.y + m.row1.z, lead c, m.row1.x - m.row0.y⟩
    else
      ⟨m.row2.y - m.row1.z, m.row0.z - m.row2.x, m.row1.x - m.row0.y, one + t⟩

/-- The axis of a rotation, as long as its angle is large. Of a quaternion and its negative, which
stand for the same rotation, the one with the smaller angle counts. -/
def rotationVector (q : Quaternion α) : Vec3 α :=
  let q := if q.w < Scalar.zero then -q else q
  let n := q.vector.norm
  let half := Scalar.atan2 n q.w
  if n ≤ Scalar.zero then Vec3.zero
  else q.vector.scale ((half + half) / Scalar.sin half)

end Quaternion

end InertialOdometry
