import InertialOdometry.Geometry.Rotation
import InertialOdometry.Value.Conversion

/-!
Arrays of scalars of any shape, the form in which matrices, vectors and point clouds come from
outside. A tensor is read from nested lists; matrices of the orders that the library works with are
taken from a tensor of that shape and no other.
-/

namespace InertialOdometry

/-- An array by its extents, outermost first, and its entries in reading order. -/
structure Tensor (α : Type) where
  dims : List Nat
  entries : List α
deriving DecidableEq

namespace Tensor

variable {α : Type}

mutual

/-- The extents of nested lists, where all lists of one level have the same extents. -/
def dims? : Value α → Option (List Nat)
  | .list xs | .tuple xs => sharedDims? xs
  | _ => some []

def sharedDims? : List (Value α) → Option (List Nat)
  | [] => some [0]
  | [x] => (dims? x).map (1 :: ·)
  | x :: xs => do
    let inner ← dims? x
    match ← sharedDims? xs with
    | [] => none
    | n :: rest => if rest = inner then some ((n + 1) :: inner) else none

end

mutual

/-- The members of nested lists that are no lists, in reading order. -/
def leaves : Value α → List (Value α)
  | .list xs | .tuple xs => leavesOfAll xs
  | v => [v]

def leavesOfAll : List (Value α) → List (Value α)
  | [] => []
  | x :: xs => leaves x ++ leavesOfAll xs

end

variable [Scalar α]

/-- An entry of an array. The null value stands for no number. -/
def entry : Value α → Except Failure α
  | .null => .ok Scalar.notANumber
  | v => v.toScalar

/-- Reads an array from nested lists. Lists of different lengths are refused before any entry is
looked at. -/
def ofValue (v : Value α) : Except Failure (Tensor α) :=
  match dims? v with
  | none => .error .ragged
  | some dims => (leaves v).mapM entry |>.map (⟨dims, ·⟩)

omit [Scalar α] in
def ofMat3 (m : Mat3 α) : Tensor α := ⟨[3, 3], m.toList⟩

omit [Scalar α] in
def toMat3? : Tensor α → Option (Mat3 α)
  | ⟨[3, 3], [a, b, c, d, e, f, g, h, i]⟩ => some ⟨⟨a, b, c⟩, ⟨d, e, f⟩, ⟨g, h, i⟩⟩
  | _ => none

omit [Scalar α] in
@[simp]
theorem toMat3?_ofMat3 (m : Mat3 α) : (ofMat3 m).toMat3? = some m := rfl

omit [Scalar α] in
/-- The upper left block and the last column above the last row, of a tensor with four rows of
four. -/
def toBlocks? : Tensor α → Option (Mat3 α × Vec3 α)
  | ⟨[4, 4], [a, b, c, x, d, e, f, y, g, h, i, z, _, _, _, _]⟩ =>
    some (⟨⟨a, b, c⟩, ⟨d, e, f⟩, ⟨g, h, i⟩⟩, ⟨x, y, z⟩)
  | _ => none

omit [Scalar α] in
/-- The rotation of an attitude, which is given as such or as the block of a homogeneous matrix. -/
def toAttitude (t : Tensor α) : Except Failure (Mat3 α) :=
  match t.toBlocks?, t.toMat3? with
  | some (m, _), _ => .ok m
  | none, some m => .ok m
  | none, none => .error (.badShape .attitude t.dims)

omit [Scalar α] in
@[simp]
theorem toAttitude_ofMat3 (m : Mat3 α) : (ofMat3 m).toAttitude = .ok m := rfl

omit [Scalar α] in
def toMat3 (expected : Shape) (t : Tensor α) : Except Failure (Mat3 α) :=
  match t.toMat3? with
  | some m => .ok m
  | none => .error (.badShape expected t.dims)

omit [Scalar α] in
def toTranslation (t : Tensor α) : Except Failure (Vec3 α) :=
  match t.entries with
  | [x, y, z] => .ok ⟨x, y, z⟩
  | entries => .error (.badTranslation entries.length)

omit [Scalar α] in
def isPoints (t : Tensor α) : Bool :=
  match t.dims with
  | [_, 3] => true
  | _ => false

omit [Scalar α] in
def toPoints (t : Tensor α) : Except Failure (Tensor α) :=
  if t.isPoints then .ok t else .error (.badShape .points t.dims)

def pointsOfValue (v : Value α) : Except Failure (Tensor α) := do
  (← ofValue v).toPoints

omit [Scalar α] in
def length (t : Tensor α) : Nat := t.dims.headD 0

end Tensor

end InertialOdometry
