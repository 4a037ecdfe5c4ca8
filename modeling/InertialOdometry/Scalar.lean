import InertialOdometry.Decimal.Reading
import InertialOdometry.Decimal.Shortest

/-!
The numbers that the library computes with. Everything above this module is written once for an
arbitrary `Scalar`; programs run on double precision numbers, and exact statements speak about
scalars whose operations are exact.
-/

namespace InertialOdometry

/-- Arithmetic, comparison, the functions of trigonometry, and the passage from and to text. -/
class Scalar (α : Type) extends Add α, Sub α, Mul α, Div α, Neg α, LE α, LT α where
  decidableLE : DecidableLE α
  decidableLT : DecidableLT α
  /-- The scalar nearest to `digits · 10 ^ scale`. -/
  decimal : (digits : Nat) → (scale : Int) → α
  infinity : α
  notANumber : α
  sqrt : α → α
  sin : α → α
  cos : α → α
  /-- The angle of the point `(x, y)` in the plane, as `atan2 y x`. -/
  atan2 : α → α → α
  pi : α
  /-- The whole number next to a scalar in the direction of zero. -/
  truncate : α → Int
  /-- The shortest text that reads back as the same scalar. -/
  text : α → String

namespace Scalar

variable {α : Type} [Scalar α]

instance : DecidableLE α := Scalar.decidableLE

instance : DecidableLT α := Scalar.decidableLT

def nat (n : Nat) : α := decimal n 0

def zero : α := nat 0

def one : α := nat 1

def int (n : Int) : α :=
  if n < 0 then -nat n.natAbs else nat n.natAbs

def ofLiteral : Decimal.Literal → α
  | .finite negative digits scale => if negative then -decimal digits scale else decimal digits scale
  | .infinite negative => if negative then -infinity else infinity
  | .notANumber => notANumber

/-- A scalar that is no number is not even comparable with itself. -/
def isNaN (x : α) : Bool := !decide (x ≤ x)

/-- A finite scalar cancels against itself; an infinity leaves no number. -/
def isFinite (x : α) : Bool := !isNaN (x - x)

def abs (x : α) : α := if x < zero then -x else x

def max (x y : α) : α := if x < y then y else x

def hypot (x y : α) : α := sqrt (x * x + y * y)

/-- Whether two scalars have the same sign and size, told by comparison alone. -/
def same (x y : α) : Bool := decide (x ≤ y) && decide (y ≤ x)

end Scalar

/-- The whole number next to a double in the direction of zero, computed exactly. -/
def truncateFloat (x : Float) : Int :=
  match Decimal.Binary64.ofFloat x with
  | .finite negative mantissa exponent _ =>
    let (num, den) := Decimal.fraction mantissa exponent
    if negative then -((num / den : Nat) : Int) else (num / den : Nat)
  | _ => 0

instance : Scalar Float where
  decidableLE := inferInstance
  decidableLT := inferInstance
  decimal := Decimal.nearest
  infinity := 1.0 / 0.0
  notANumber := 0.0 / 0.0
  sqrt := Float.sqrt
  sin := Float.sin
  cos := Float.cos
  atan2 := Float.atan2
  pi := 3.141592653589793
  truncate := truncateFloat
  text := Decimal.shortestText

end InertialOdometry
