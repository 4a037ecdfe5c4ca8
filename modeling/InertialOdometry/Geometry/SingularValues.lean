import InertialOdometry.Geometry.Mat3

/-!
Singular value decompositions of matrices of order three. The library asks for one through the class
`HasSingularValues` and relies on nothing but the product `u · diag s · vt`, the orthogonality of `u`
and `vt`, and the descending order of `s`; which of several decompositions is found is left open.

For double precision numbers the columns of the matrix are turned against each other, pair by pair,
until they stand at right angles. Their lengths are then the singular values.
-/

namespace InertialOdometry

/-- A matrix as a product `u · diag s · vt`. -/
structure SingularValues (α : Type) where
  u : Mat3 α
  s : Vec3 α
  vt : Mat3 α

/-- Scalars whose matrices can be decomposed. A matrix with an entry that is not finite has no
decomposition. -/
class HasSingularValues (α : Type) where
  decompose : Mat3 α → Option (SingularValues α)

namespace SingularValues

variable {α : Type} [Scalar α]

/-- The three columns of a matrix together with the columns of the rotation that produced them. -/
structure Columns (α : Type) where
  a : Vec3 α
  b : Vec3 α
  c : Vec3 α
  p : Vec3 α
  q : Vec3 α
  r : Vec3 α

/-- Turns two columns against each other so that they stand at right angles, and two companions with
them. Columns at right angles already are left alone. -/
def turn (a b p q : Vec3 α) : Vec3 α × Vec3 α × Vec3 α × Vec3 α :=
  let mixed := a.dot b
  if Scalar.same mixed Scalar.zero then (a, b, p, q)
  else
    let slope := (b.dot b - a.dot a) / (mixed + mixed)
    let length := Scalar.abs slope + Scalar.sqrt (slope * slope + Scalar.one)
    let t := (if slope < Scalar.zero then -Scalar.one else Scalar.one) / length
    let c := Scalar.one / Scalar.sqrt (t * t + Scalar.one)
    let s := c * t
    (a.scale c - b.scale s, a.scale s + b.scale c, p.scale c - q.scale s, p.scale s + q.scale c)

def sweep (k : Columns α) : Columns α :=
  let (a, b, p, q) := turn k.a k.b k.p k.q
  let (a, c, p, r) := turn a k.c p k.r
  let (b, c, q, r) := turn b c q r
  ⟨a, b, c, p, q, r⟩

/-- Exchanges two columns with their companions unless the first is at least as long. -/
def order (a b p q : Vec3 α) : Vec3 α × Vec3 α × Vec3 α × Vec3 α :=
  if a.dot a < b.dot b then (b, a, q, p) else (a, b, p, q)

def sorted (k : Columns α) : Columns α :=
  let (a, b, p, q) := order k.a k.b k.p k.q
  let (b, c, q, r) := order b k.c q k.r
  let (a, b, p, q) := order a b p q
  ⟨a, b, c, p, q, r⟩

/-- A vector of length one in the direction of `v`, or `spare` where `v` is too short to have one. -/
def direction (least : α) (v spare : Vec3 α) : Vec3 α :=
  let n := v.norm
  if n ≤ least then spare else v.scale (Scalar.one / n)

/-- A vector of length one at right angles to a vector of length one: the axis least aligned with it,
without the part along it. -/
def perpendicular (v : Vec3 α) : Vec3 α :=
  let x := Scalar.abs v.x
  let y := Scalar.abs v.y
  let z := Scalar.abs v.z
  let axis : Vec3 α :=
    if x ≤ y && x ≤ z then ⟨Scalar.one, Scalar.zero, Scalar.zero⟩
    else if y ≤ z then ⟨Scalar.zero, Scalar.one, Scalar.zero⟩
    else ⟨Scalar.zero, Scalar.zero, Scalar.one⟩
  let w := axis - v.scale (axis.dot v)
  w.scale (Scalar.one / w.norm)

/-- The decomposition that orthogonal columns stand for. Columns of no length are replaced by
directions at right angles to the longer ones. -/
def ofColumns (k : Columns α) : SingularValues α :=
  let unit : Mat3 α := Mat3.identity
  let least := k.a.norm * Scalar.decimal 1 (-15)
  let u0 := direction Scalar.zero k.a unit.row0
  let u1 := direction least k.b (perpendicular u0)
  let u2 := direction least k.c (u0.cross u1)
  ⟨Mat3.ofColumns u0 u1 u2, ⟨k.a.norm, k.b.norm, k.c.norm⟩, ⟨k.p, k.q, k.r⟩⟩

/-- The size of the largest entry of a matrix, or one for the zero matrix. -/
def size (m : Mat3 α) : α :=
  let n := m.toList.foldl (fun n x => Scalar.max n (Scalar.abs x)) Scalar.zero
  if n ≤ Scalar.zero then Scalar.one else n

/-- Decomposes a matrix by sixty rounds, far more than are needed for the columns to settle. The
matrix is first brought to the size of the unit matrix, so that products neither overflow nor
vanish. -/
def byRotations (m : Mat3 α) : SingularValues α :=
  let n := size m
  let scaled := m.scale (Scalar.one / n)
  let unit : Mat3 α := Mat3.identity
  let start : Columns α :=
    ⟨scaled.column0, scaled.column1, scaled.column2, unit.column0, unit.column1, unit.column2⟩
  let d := ofColumns (sorted ((List.range 60).foldl (fun k _ => sweep k) start))
  { d with s := d.s.scale n }

end SingularValues

instance : HasSingularValues Float where
  decompose m :=
    if m.toList.all Float.isFinite then some (SingularValues.byRotations m) else none

end InertialOdometry
