import InertialOdometry.Table.Column
import InertialOdometry.Table.Rows
import InertialOdometry.Value.Order

/-!
Tables: columns of values under a header.
-/

namespace InertialOdometry

structure Table (α : Type) where
  columns : List (String × List (Value α))

namespace Table

variable {α : Type} [Scalar α]

def cellsAt (rows : List (List String)) (i : Nat) : List String := rows.map fun row => row.getD i ""

/-- Reads a table. The first row is the header. The first row below it may be longer; its first cells,
and those of all other rows, then belong to no column. No later row may be longer still, and short rows
lack their last values. -/
def read (text : String) : Except Failure (Table α) := do
  match ← rowsOf text with
  | [] => throw .emptyTable
  | header :: rows =>
    let width := max header.length ((rows.head?.map List.length).getD 0)
    if rows.any fun row => decide (width < row.length) then throw .malformedTable
    let unnamed := width - header.length
    let columnAt (i : Nat) : List (Value α) := columnOf (cellsAt rows (unnamed + i))
    return ⟨header.zip ((List.range header.length).map columnAt)⟩

omit [Scalar α] in
def column? (t : Table α) (name : String) : Option (List (Value α)) :=
  (t.columns.find? fun column => column.1 == name).map (·.2)

def isMissingValue : Value α → Bool
  | .number x => Scalar.isNaN x
  | _ => false

/-- Sorts rows by the values of one column, in the order of the column's kind. Rows of the same value
keep their order, and those without one come last. -/
def sortBy {β : Type} (key : β → Value α) (rows : List β) : List β :=
  let (without, present) := rows.partition fun row => isMissingValue (key row)
  present.mergeSort (fun a b => (Value.keyLE? (key a) (key b)).getD true) ++ without

end Table

end InertialOdometry
