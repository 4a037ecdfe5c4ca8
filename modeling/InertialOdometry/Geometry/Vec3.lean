import InertialOdometry.Scalar

/-!
Vectors of space.
-/

namespace InertialOdometry

structure Vec3 (α : Type) where
  x : α
  y : α
  z : α
deriving DecidableEq

namespace Vec3

variable {α : Type} [Scalar α]

def zero : Vec3 α := ⟨Scalar.zero, Scalar.zero, Scalar.zero⟩

instance : Add (Vec3 α) := ⟨fun a b => ⟨a.x + b.x, a.y + b.y, a.z + b.z⟩⟩

instance : Sub (Vec3 α) := ⟨fun a b => ⟨a.x - b.x, a.y - b.y, a.z - b.z⟩⟩

instance : Neg (Vec3 α) := ⟨fun a => ⟨-a.x, -a.y, -a.z⟩⟩

def scale (k : α) (a : Vec3 α) : Vec3 α := ⟨k * a.x, k * a.y, k * a.z⟩

def dot (a b : Vec3 α) : α := a.x * b.x + a.y * b.y + a.z * b.z

def cross (a b : Vec3 α) : Vec3 α :=
  ⟨a.y * b.z - a.z * b.y, a.z * b.x - a.x * b.z, a.x * b.y - a.y * b.x⟩

def norm (a : Vec3 α) : α := Scalar.sqrt (a.dot a)

omit [Scalar α] in
def toList (a : Vec3 α) : List α := [a.x, a.y, a.z]

end Vec3

end InertialOdometry
