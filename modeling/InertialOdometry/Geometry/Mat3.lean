import InertialOdometry.Geometry.Vec3

/-!
Square matrices of order three, by their rows. They act on vectors from the left.
-/

namespace InertialOdometry

/-- A matrix by its three rows. -/
structure Mat3 (α : Type) where
  row0 : Vec3 α
  row1 : Vec3 α
  row2 : Vec3 α
deriving DecidableEq

namespace Mat3

variable {α : Type} [Scalar α]

omit [Scalar α] in
def ofColumns (a b c : Vec3 α) : Mat3 α :=
  ⟨⟨a.x, b.x, c.x⟩, ⟨a.y, b.y, c.y⟩, ⟨a.z, b.z, c.z⟩⟩

omit [Scalar α] in
def column0 (m : Mat3 α) : Vec3 α := ⟨m.row0.x, m.row1.x, m.row2.x⟩

omit [Scalar α] in
def column1 (m : Mat3 α) : Vec3 α := ⟨m.row0.y, m.row1.y, m.row2.y⟩

omit [Scalar α] in
def column2 (m : Mat3 α) : Vec3 α := ⟨m.row0.z, m.row1.z, m.row2.z⟩

omit [Scalar α] in
def transpose (m : Mat3 α) : Mat3 α := ⟨m.column0, m.column1, m.column2⟩

def identity : Mat3 α :=
  ⟨⟨Scalar.one, Scalar.zero, Scalar.zero⟩,
    ⟨Scalar.zero, Scalar.one, Scalar.zero⟩,
    ⟨Scalar.zero, Scalar.zero, Scalar.one⟩⟩

instance : Neg (Mat3 α) := ⟨fun m => ⟨-m.row0, -m.row1, -m.row2⟩⟩

def scale (k : α) (m : Mat3 α) : Mat3 α := ⟨m.row0.scale k, m.row1.scale k, m.row2.scale k⟩

def apply (m : Mat3 α) (v : Vec3 α) : Vec3 α := ⟨m.row0.dot v, m.row1.dot v, m.row2.dot v⟩

/-- The product: the matrix that applies `b` first and `a` to the result. -/
def mul (a b : Mat3 α) : Mat3 α :=
  ofColumns (a.apply b.column0) (a.apply b.column1) (a.apply b.column2)

instance : Mul (Mat3 α) := ⟨mul⟩

def det (m : Mat3 α) : α := m.row0.dot (m.row1.cross m.row2)

omit [Scalar α] in
def toList (m : Mat3 α) : List α := m.row0.toList ++ m.row1.toList ++ m.row2.toList

/-- Whether a matrix agrees with the unit matrix entry by entry, up to an absolute tolerance and a
hundred thousandth of the entry of the unit matrix. -/
def isNearIdentity (tolerance : α) (m : Mat3 α) : Bool :=
  let diagonal (x : α) : Bool :=
    decide (Scalar.abs (x - Scalar.one) ≤ tolerance + Scalar.decimal 1 (-5))
  let other (x : α) : Bool := decide (Scalar.abs x ≤ tolerance)
  diagonal m.row0.x && other m.row0.y && other m.row0.z &&
    other m.row1.x && diagonal m.row1.y && other m.row1.z &&
    other m.row2.x && other m.row2.y && diagonal m.row2.z

end Mat3

end InertialOdometry
