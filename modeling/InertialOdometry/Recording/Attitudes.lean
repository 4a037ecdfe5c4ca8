import InertialOdometry.Geometry.Reading
import InertialOdometry.Inertial.Sample
import InertialOdometry.Table.Basic

/-!
The inertial samples of a recording: the rows of a table in the order of their times. A row is turned into
a sample only when the samples are asked for, so a bad row does no harm before.
-/

namespace InertialOdometry

/-- A row of the table of samples: the time and the components of the attitude. -/
structure AttitudeRow (α : Type) where
  time : Value α
  x : Value α
  y : Value α
  z : Value α
  w : Value α

namespace AttitudeRow

variable {α : Type} [Scalar α]

def columns : List String := ["timestamp", "qx", "qy", "qz", "qw"]

def ofTable (table : Table α) : Except Failure (List (AttitudeRow α)) :=
  match columns.mapM table.column? with
  | some [times, xs, ys, zs, ws] =>
    .ok ((times.zip (xs.zip (ys.zip (zs.zip ws)))).map fun (time, x, y, z, w) => ⟨time, x, y, z, w⟩)
  | _ =>
    let lacking := columns.filter fun name => (table.column? name).isNone
    .error (.columnsMissing (Value.list (lacking.map .text) : Value α).quoted)

/-- The rows of the text of a table in the order of their times. -/
def ofText (text : String) : Except Failure (List (AttitudeRow α)) := do
  return Table.sortBy (·.time) (← ofTable (← Table.read text))

def toSample (row : AttitudeRow α) : Except Failure (Sample α) := do
  let q ← Quaternion.ofTensor (← Tensor.ofValue (.list [row.x, row.y, row.z, row.w]))
  let attitude ← q.toRotation
  return ⟨attitude, ← row.time.toScalar⟩

end AttitudeRow

end InertialOdometry
