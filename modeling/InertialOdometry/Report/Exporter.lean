import InertialOdometry.Path
import InertialOdometry.Report.Artifact

/-!
The exporter keeps the results of a run and makes the files that they are written to.
-/

namespace InertialOdometry

/-- An exporter: the directory of its files, the beginning of their names, and the estimates so far. -/
structure Exporter (α P : Type) where
  directory : Path
  stem : String
  estimates : List (Estimate α P)

/-- A file to be written, and what is said once it is. -/
structure Exported (α P : Type) where
  path : Path
  artifact : Artifact α P
  journal : Journal α

namespace Exporter

variable {α P : Type}

def defaultStem : String := "odometry"

def add (x : Exporter α P) (e : Estimate α P) : Exporter α P :=
  { x with estimates := x.estimates ++ [e] }

def clear (x : Exporter α P) : Exporter α P := { x with estimates := [] }

variable [Scalar α]

def summary (x : Exporter α P) : Summary α := .ofEstimates x.estimates

omit [Scalar α] in
/-- The path of a file: its name, or the usual one with an ending of its own. -/
def pathOf (x : Exporter α P) (name : Option String) (ending : String) : Path :=
  x.directory.child (name.getD (x.stem ++ ending))

variable [HasSingularValues α]

def results (x : Exporter α P) : Except Failure (List (CycleResult α P)) :=
  x.estimates.mapM CycleResult.ofEstimate

def table (x : Exporter α P) (name : Option String) : Except Failure (Exported α P) := do
  let path := x.pathOf name "_results.csv"
  return ⟨path, .tableOf (← x.results), [.tableSaved x.estimates.length path.text]⟩

def document (x : Exporter α P) (name : Option String) : Except Failure (Exported α P) := do
  let path := x.pathOf name "_results.json"
  return ⟨path, .document x.summary (← x.results), [.reportSaved path.text]⟩

def trajectory (x : Exporter α P) (name : Option String) : Except Failure (Exported α P) := do
  let path := x.pathOf name "_trajectory.tum"
  let poses ← x.estimates.mapM Artifact.poseRow
  return ⟨path, .trajectory poses, [.trajectorySaved x.estimates.length path.text]⟩

end Exporter

end InertialOdometry
