import InertialOdometry.Report.Result
import InertialOdometry.Report.Summary
import InertialOdometry.Value.Json

/-!
The files that the results of a run are written to: a table with a row for each result, a document with
the results and their summary, and the trajectory with a line for each pose.
-/

namespace InertialOdometry

inductive Artifact (α P : Type) where
  | table (rows : List (List String))
  | document (summary : Summary α) (results : List (CycleResult α P))
  | trajectory (poses : List (List α))

namespace Artifact

variable {α P : Type} [Scalar α]

/-! ### Tables -/

def header : List String :=
  ["stamp", "scan_idx", "accepted", "fusion_active", "time_gap", "inc_x", "inc_y", "inc_z", "inc_roll",
    "inc_pitch", "inc_yaw", "x", "y", "z", "qx", "qy", "qz", "qw", "roll", "pitch", "yaw", "fitness",
    "rmse", "processing_time_ms"]

/-- The cell of a scalar; what is no number leaves it empty. -/
def scalarCell (x : α) : String := if Scalar.isNaN x then "" else Scalar.text x

def truthCell (b : Bool) : String := (Value.bool b : Value α).plain

/-- The cell of a numeral. A column keeps whole numbers as they are only if it has nothing else. -/
def numeralCell (allWhole : Bool) (n : Option (Numeral α)) : String :=
  match n with
  | none => ""
  | some (.whole n) => if allWhole then toString n else scalarCell (Scalar.int n : α)
  | some (.real x) => scalarCell x

def isWholeColumn (column : List (Option (Numeral α))) : Bool :=
  column.all fun n => match n with
    | some (.whole _) => true
    | _ => false

/-- The row of a result, as part of the table of `all` results. -/
def row (all : List (CycleResult α P)) (r : CycleResult α P) : List String :=
  let cell (field : Estimate α P → Option (Numeral α)) : String :=
    numeralCell (isWholeColumn (all.map fun r => field r.estimate)) (field r.estimate)
  let e := r.estimate
  let inc := r.incremental
  let pose := r.integrated
  let q := pose.quaternion
  [cell fun e => some e.stamp, toString e.scanIndex, truthCell (α := α) e.accepted,
    truthCell (α := α) e.fusionActive, cell fun e => e.timeGap] ++
  (inc.translation.toList ++ inc.rpy.toVec3.toList ++ pose.translation.toList ++ [q.x, q.y, q.z, q.w] ++
    pose.rpy.toVec3.toList).map scalarCell ++
  [cell fun e => some e.fitness, cell fun e => some e.rmse, cell fun e => some e.processingTime]

/-- The table of results. Without results there is not even a header. -/
def tableOf (results : List (CycleResult α P)) : Artifact α P :=
  .table (if results.isEmpty then [[]] else header :: results.map (row results))

/-! ### Trajectories -/

def poseRow [HasSingularValues α] (e : Estimate α P) : Except Failure (List α) := do
  let q ← e.integrated.quaternion
  return e.stamp.value :: e.integrated.translation.toList ++ [q.x, q.y, q.z, q.w]

/-- The line of a pose: its numbers with six places each. -/
def poseLine (numbers : List Float) : String :=
  " ".intercalate (numbers.map (Decimal.fixedText 6))

/-! ### Texts -/

/-- The text of a file. `started` and `finished` are the times of the run. -/
def text (started finished : String) : Artifact Float P → String
  | table rows => .join (rows.map fun row => ",".intercalate row ++ "\n")
  | document summary results =>
    (Value.ofFields [
      ("run_info", .ofFields [("start_time", .text started), ("end_time", .text finished)]),
      ("summary", summary.toValue),
      ("results", .list (results.map CycleResult.toValue))] : Value Float).json 0
  | trajectory poses => .join (poses.map fun numbers => poseLine numbers ++ "\n")

end Artifact

end InertialOdometry
