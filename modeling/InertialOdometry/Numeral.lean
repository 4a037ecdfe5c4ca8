import InertialOdometry.Value.Conversion

/-!
Numbers that are only handed on: stamps and quality figures. A whole number stays one, so that it is
written out as it came; whoever computes with it takes its `value`.
-/

namespace InertialOdometry

/-- A number as it was given: whole, or a scalar. -/
inductive Numeral (α : Type) where
  | whole (n : Int)
  | real (x : α)
deriving DecidableEq

namespace Numeral

variable {α : Type}

def value [Scalar α] : Numeral α → α
  | whole n => Scalar.int n
  | real x => x

@[simp]
theorem value_real [Scalar α] (x : α) : (real x).value = x := rfl

def toValue : Numeral α → Value α
  | whole n => .int n
  | real x => .number x

/-- The numeral that a value is; text is read as a scalar. -/
def ofValue [Scalar α] : Value α → Except Failure (Numeral α)
  | .int n => .ok (whole n)
  | v => v.toScalar.map real

end Numeral

end InertialOdometry
