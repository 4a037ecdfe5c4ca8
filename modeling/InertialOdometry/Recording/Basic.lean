import InertialOdometry.Odometry.Pipeline
import InertialOdometry.Recording.Attitudes
import InertialOdometry.Recording.Event
import InertialOdometry.Recording.Scans

/-!
Recordings: a directory with the scans and the inertial samples of one run. `Folder` is what such a
directory holds, `Recording.openAt` what can be replayed of it.
-/

namespace InertialOdometry

/-- What the directory of a recording holds: the files of its scan directory, each with its points if
there are any to be read, and the texts of its two tables. -/
structure Folder (P : Type) where
  scans : Option (List (String × Option P))
  stampTable : Option String
  sampleTable : Option String

structure Recording (α P : Type) where
  directory : Path
  scans : List (ScanFile α)
  attitudes : Option (List (AttitudeRow α))
  points : List (String × Option P)

namespace Recording

variable {α P : Type} [Scalar α]

def scanDirectory (directory : Path) : Path := directory.child "scans"

/-- Opens the recording in a directory. `location` is the directory as it was named, `folder` what it
holds, if it is there at all. -/
def openAt (location : String) (folder : Option (Folder P)) (limit : Option Int) :
    Except Failure (Recording α P × Journal α) := do
  let some folder := folder | throw (.dataMissing location)
  let directory := Path.ofText location
  let some files := folder.scans | throw (.scansMissing (scanDirectory directory).text)
  let scans ←
    ScanFile.ofDirectory (scanDirectory directory) (files.map (·.1)) folder.stampTable limit
  let attitudes ← folder.sampleTable.mapM AttitudeRow.ofText
  return (⟨directory, scans, attitudes, files⟩,
    [.datasetOpened scans.length ((attitudes.map List.length).getD 0)])

def pathOf (r : Recording α P) (file : ScanFile α) : Path :=
  (scanDirectory r.directory).child file.name

def file (r : Recording α P) (index : Int) : Except Failure (ScanFile α) :=
  match (if index < 0 then none else r.scans[index.toNat]?) with
  | some file => .ok file
  | none => .error (.scanIndex index)

/-- The scan at a place. A file without points is not readable. -/
def scan (r : Recording α P) (index : Int) : Except Failure (Scan α P) := do
  let file ← r.file index
  match (r.points.find? fun entry => entry.1 == file.name).bind (·.2) with
  | some points => return ⟨points, .real file.stamp, index⟩
  | none => throw (.unreadableScan (r.pathOf file).text)

def samples (r : Recording α P) : Except Failure (List (Sample α)) :=
  (r.attitudes.getD []).mapM AttitudeRow.toSample

def stamps (r : Recording α P) : List (Nat × α) :=
  (List.range r.scans.length).zip (r.scans.map (·.stamp))

def events (r : Recording α P) : Except Failure (List (Event α)) :=
  r.samples.map fun samples => Event.merge samples r.stamps

def duration (r : Recording α P) : α :=
  match r.scans.head?, r.scans.getLast?, decide (1 < r.scans.length) with
  | some first, some last, true => last.stamp - first.stamp
  | _, _, _ => Scalar.zero

end Recording

end InertialOdometry
