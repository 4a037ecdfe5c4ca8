import InertialOdometry.Table.Cell

/-!
The columns of a table. A column holds whole numbers, numbers, truth values or texts; it is what all its
cells can be read as, and missing values are no numbers. One cell that is something else makes the
column a column of texts.
-/

namespace InertialOdometry.Table

inductive WholeColumn where
  | whole
  | fractions
  /-- Numbers too large to be counted with, which are left as texts. -/
  | texts

/-- Reads cells as whole numbers without sign, once one of them needs that. -/
def unsignedColumn (anyMissing anyNegative : Bool) : List String → WholeColumn
  | [] => if anyMissing || anyNegative then .texts else .whole
  | cell :: rest =>
    let w := WholeText.ofCell cell
    if isMissing cell then unsignedColumn true anyNegative rest
    else if w.negative then unsignedColumn anyMissing true rest
    else if w.isTooWide then .texts
    else if w.value?.isNone then .fractions
    else unsignedColumn anyMissing anyNegative rest

def wholeColumn (cells : List String) : List String → WholeColumn
  | [] => .whole
  | cell :: rest =>
    let w := WholeText.ofCell cell
    if isMissing cell then wholeColumn cells rest
    else if w.isWide then unsignedColumn false false cells
    else if w.value?.isNone then .fractions
    else wholeColumn cells rest

variable {α : Type} [Scalar α]

def missing : Value α := .number Scalar.notANumber

def convert? (f : String → Option (Value α)) (cells : List String) : Option (List (Value α)) :=
  cells.mapM fun cell => if isMissing cell then some missing else f cell

/-- Converts whole numbers. Where a value is missing, all of them become scalars. -/
def wholeCell? (anyMissing : Bool) (cell : String) : Option (Value α) :=
  (WholeText.ofCell cell).value?.map fun n =>
    if anyMissing then .number (Scalar.int n) else .int n

def columnOf (cells : List String) : List (Value α) :=
  let texts := (convert? (fun cell => some (.text cell)) cells).getD []
  match wholeColumn cells cells with
  | .whole => (convert? (wholeCell? (cells.any isMissing)) cells).getD texts
  | .texts => texts
  | .fractions =>
    ((convert? (fun cell => (number? cell).map .number) cells).or
      (convert? (fun cell => (truth? cell).map .bool) cells)).getD texts

end InertialOdometry.Table
