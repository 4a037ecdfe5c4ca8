import InertialOdometry.Geometry.Tensor

/-!
Rigid transforms: a rotation followed by a translation. Poses and increments between scans are both
of this kind. The matrix of a transform need not be orthogonal; what asks for angles or a quaternion
is where that is found out.
-/

namespace InertialOdometry

/-- The map that takes `v` to `rotation v + translation`. -/
structure RigidTransform (α : Type) where
  translation : Vec3 α
  rotation : Mat3 α
deriving DecidableEq

/-- A homogeneous matrix by its upper left block, the column beside it and the row below. -/
structure Mat4 (α : Type) where
  block : Mat3 α
  column : Vec3 α
  bottom : Vec3 α
  corner : α
deriving DecidableEq

namespace Mat4

variable {α : Type} [Scalar α]

def mul (a b : Mat4 α) : Mat4 α :=
  let outer (u v : Vec3 α) : Mat3 α := ⟨v.scale u.x, v.scale u.y, v.scale u.z⟩
  let p := a.block * b.block
  let q := outer a.column b.bottom
  { block := ⟨p.row0 + q.row0, p.row1 + q.row1, p.row2 + q.row2⟩
    column := a.block.apply b.column + a.column.scale b.corner
    bottom := b.block.transpose.apply a.bottom + b.bottom.scale a.corner
    corner := a.bottom.dot b.column + a.corner * b.corner }

omit [Scalar α] in
def toRows (m : Mat4 α) : List (List α) :=
  [m.block.row0.toList ++ [m.column.x], m.block.row1.toList ++ [m.column.y],
    m.block.row2.toList ++ [m.column.z], m.bottom.toList ++ [m.corner]]

end Mat4

namespace RigidTransform

variable {α : Type} [Scalar α]

def identity : RigidTransform α := ⟨Vec3.zero, Mat3.identity⟩

/-- The transform with the given parts, each of which is left out for that of the identity. -/
def ofParts (translation rotation : Option (Tensor α)) : Except Failure (RigidTransform α) := do
  let t ← translation.elim (.ok Vec3.zero) Tensor.toTranslation
  let r ← rotation.elim (.ok Mat3.identity) (Tensor.toMat3 .rotation3)
  return ⟨t, r⟩

omit [Scalar α] in
/-- The transform of a homogeneous matrix. Its last row is not looked at. -/
def ofTensor (m : Tensor α) : Except Failure (RigidTransform α) :=
  match m.toBlocks? with
  | some (r, t) => .ok ⟨t, r⟩
  | none => .error (.badShape .matrix4 m.dims)

omit [Scalar α] in
def ofMat4 (m : Mat4 α) : RigidTransform α := ⟨m.column, m.block⟩

def toMat4 (a : RigidTransform α) : Mat4 α :=
  ⟨a.rotation, a.translation, Vec3.zero, Scalar.one⟩

def ofPositionQuaternion (position : Vec3 α) (q : Quaternion α) :
    Except Failure (RigidTransform α) :=
  q.toRotation.map (⟨position, ·⟩)

/-- The transform that applies `b` first and `a` to the result: an increment `b` within the frame of
a pose `a`. -/
def compose (a b : RigidTransform α) : RigidTransform α :=
  ⟨a.translation + a.rotation.apply b.translation, a.rotation * b.rotation⟩

/-- The transform that undoes `a`, if the matrix of `a` is orthogonal. -/
def inverse (a : RigidTransform α) : RigidTransform α :=
  ⟨(-a.rotation.transpose).apply a.translation, a.rotation.transpose⟩

omit [Scalar α] in
def withRotation (a : RigidTransform α) (r : Mat3 α) : RigidTransform α := ⟨a.translation, r⟩

def translationNorm (a : RigidTransform α) : α := a.translation.norm

def isOrthonormal (tolerance : α) (a : RigidTransform α) : Bool :=
  (a.rotation * a.rotation.transpose).isNearIdentity tolerance &&
    decide (Scalar.abs (a.rotation.det - Scalar.one) < tolerance)

variable [HasSingularValues α]

def rpy (a : RigidTransform α) : Except Failure (Rpy α) := a.rotation.toRpy

def quaternion (a : RigidTransform α) : Except Failure (Quaternion α) := a.rotation.toQuaternion

def rotationNorm (a : RigidTransform α) : Except Failure α := a.rpy.map Rpy.norm

structure Described (α : Type) where
  translation : Vec3 α
  quaternion : Quaternion α
  rpy : Rpy α

/-- The transform in all its forms; fails where the matrix stands for no rotation. -/
def describe (a : RigidTransform α) : Except Failure (Described α) := do
  let q ← a.quaternion
  let angles ← a.rpy
  return ⟨a.translation, q, angles⟩

/-- A translation and angles in one line: the translation with three places, the angles in degrees with
two. -/
def lineText (t : Vec3 Float) (angles : Rpy Float) : String :=
  let place (x : Float) : String := Decimal.fixedText 3 x
  let degrees (x : Float) : String := Decimal.fixedText 2 (x * (180.0 / Scalar.pi))
  s!"RigidTransform(t=[{place t.x}, {place t.y}, {place t.z}], " ++
    s!"R={degrees angles.roll}, P={degrees angles.pitch}, Y={degrees angles.yaw})"

def text (a : RigidTransform Float) : Except Failure String := do
  return lineText a.translation (← a.rpy)

end RigidTransform

end InertialOdometry
