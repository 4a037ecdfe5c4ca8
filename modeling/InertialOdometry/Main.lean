import InertialOdometry.Program.Run
import InertialOdometry.Recording.PointText

/-!
The command line. It collects what the program finds outside, runs it, and does what the program asks for.
The names of the files in the scan directory are read from standard input, a name on each line. Scans are
text files; registration is left to an engine for which nothing moves, so that the attitude of the
inertial sensor alone moves the trajectory.
-/

namespace InertialOdometry.CommandLine

def readText (path : String) : IO (Option String) := do
  try return some (← IO.FS.readFile path) catch _ => return none

def readNames : IO (List String) := do
  let text ← (← IO.getStdin).readToEnd
  return (text.splitOn "\n").filter (· != "")

def readFolder (directory : String) (names : List String) : IO (Option (Folder (Tensor Float))) := do
  let scans := directory ++ "/scans/"
  let files ← names.mapM fun name => do
    return (name, (← readText (scans ++ name)).bind PointText.read?)
  let stamps ← readText (scans ++ "timestamps.csv")
  let samples ← readText (directory ++ "/imu_data.csv")
  if files.isEmpty && stamps.isNone && samples.isNone then return none
  return some ⟨if files.isEmpty then none else some files, stamps, samples⟩

def surroundings (line : List String) : IO (Surroundings Float (Tensor Float)) := do
  match Arguments.parse line with
  | .error _ => return ⟨fun _ => none, fun _ => none, fun _ _ => Engine.still⟩
  | .ok args =>
    let config ← readText args.configFile
    let folder ← readFolder args.dataDirectory (← readNames)
    return ⟨fun _ => config, fun _ => folder, fun _ _ => Engine.still⟩

def writeArtifact (started finished : String) (file : Path × Artifact Float (Tensor Float)) : IO Unit := do
  let (path, artifact) := file
  IO.FS.createDirAll (Path.text ⟨path.root, path.parts.dropLast⟩)
  IO.FS.writeFile path.text (artifact.text started finished)

def run (line : List String) : IO UInt32 := do
  let started ← IO.monoMsNow
  let (result, done) := Program.run (← surroundings line) line
  (Journal.lines 0 done.journal).forM fun text => IO.eprintln text
  let finished ← IO.monoMsNow
  done.files.forM (writeArtifact (toString started) (toString finished))
  match result with
  | .ok code => return code.toUInt32
  | .error (.exit code) => return code.toUInt32
  | .error e =>
    IO.eprintln (e.message.getD "failed")
    return 1

end InertialOdometry.CommandLine

def main (line : List String) : IO UInt32 := InertialOdometry.CommandLine.run line
