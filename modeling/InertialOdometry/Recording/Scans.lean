import InertialOdometry.Path
import InertialOdometry.Table.Basic
import InertialOdometry.Value.Conversion

/-!
The scans of a recording: the files of its scan directory that hold points, each with its stamp, in the
order of their stamps. The stamps are those of a table beside the files or, where there is none, the
names of the files.
-/

namespace InertialOdometry

/-- A file of points: its name and the time at which the points were measured. -/
structure ScanFile (α : Type) where
  name : String
  stamp : α

namespace ScanFile

variable {α : Type} [Scalar α]

def isScanName (name : String) : Bool :=
  [".pcd", ".ply"].contains ((Path.splitEnding name).2.map Char.toLower)

/-- The files of points of a directory in the order of their names. -/
def namesOf (listing : List String) : List String :=
  (listing.filter isScanName).mergeSort fun s t => decide (s ≤ t)

def column (table : Table α) (name : String) : Except Failure (List (Value α)) :=
  (table.column? name).elim (.error .unknownName) .ok

/-- The stamp of a cell. What cannot be read as one fails without wording. -/
def stampOfCell (cell : Value α) : Except Failure α :=
  match cell.toScalar with
  | .ok x => .ok x
  | .error _ => .error .badCell

def stampRows (table : Table α) : Except Failure (List (Value α × α)) := do
  let files ← column table "file"
  let stamps ← column table "timestamp"
  return files.zip (← stamps.mapM stampOfCell)

/-- The stamp that a table gives to a file; of several, the last one counts. -/
def stampIn (rows : List (Value α × α)) (name : String) : Option α :=
  (rows.reverse.find? fun row => row.1.isText name).map (·.2)

/-- The number of names that a complaint shows. -/
def shownNames : Nat := 5

def stampedBy (rows : List (Value α × α)) (names : List String) :
    Except Failure (List (ScanFile α)) :=
  match names.filter fun name => (stampIn rows name).isNone with
  | [] => .ok (names.filterMap fun name => (stampIn rows name).map (⟨name, ·⟩))
  | lacking =>
    .error (.stampsMissing (Value.list ((lacking.take shownNames).map .text) : Value α).quoted)

def ofName (name : String) : Except Failure (ScanFile α) :=
  match (Value.text (Path.splitEnding name).1 : Value α).toScalar with
  | .ok stamp => .ok ⟨name, stamp⟩
  | .error e => .error (.stemNotNumeric (e.message.getD ""))

def stamped (table : Option String) (names : List String) : Except Failure (List (ScanFile α)) := do
  match table with
  | some text => stampedBy (← stampRows (← Table.read text)) names
  | none => names.mapM ofName

/-- The files in the order of their stamps, and of their names where stamps are equal. A file whose stamp
is no number comes last. -/
def inOrder (files : List (ScanFile α)) : List (ScanFile α) :=
  Table.sortBy (fun file => .number file.stamp) files

/-- The first items of a row, as many as a limit says. A limit below zero says how many are left out at
the end. -/
def limited {β : Type} (limit : Option Int) (xs : List β) : List β :=
  match limit with
  | none => xs
  | some k => if 0 ≤ k then xs.take k.toNat else xs.take (xs.length - k.natAbs)

/-- The scans of a directory: `directory` is its path, `listing` the names in it and `table` the text of
its table of stamps. -/
def ofDirectory (directory : Path) (listing : List String) (table : Option String)
    (limit : Option Int) : Except Failure (List (ScanFile α)) := do
  let names := namesOf listing
  if names.isEmpty then throw (.noScans directory.text)
  return limited limit (inOrder (← stamped table names))

end ScanFile

end InertialOdometry
