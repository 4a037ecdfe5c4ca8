import InertialOdometry.Config.Storage
import InertialOdometry.Odometry.Replay
import InertialOdometry.Program.Arguments
import InertialOdometry.Recording.Basic
import InertialOdometry.Report.Exporter

/-!
The program: it reads a configuration, opens a recording, replays it, and writes the results. What it
finds outside, `Surroundings`, is given to it; what it does outside, `Outcome`, is its answer.
-/

namespace InertialOdometry

/-- What the program finds: the texts of files and the directories of recordings by their paths, and an
engine, which knows the method and the number of each call. -/
structure Surroundings (α P : Type) where
  file : String → Option String
  folder : String → Option (Folder P)
  engine : Method → Nat → Engine α P

/-- What the program has done: the entries it kept, from some weight on, the calls of the engine, and the
files it has made. -/
structure Progress (α P : Type) where
  least : Nat
  journal : Journal α
  method : Option Method
  calls : List (P × P)
  files : List (Path × Artifact α P)

namespace Program

variable {α P : Type}

/-- A step of the program. What was done before a failure remains. -/
abbrev Step (α P : Type) := ExceptT Failure (StateM (Progress α P))

def say (entries : Journal α) : Step α P Unit :=
  modify fun s => { s with
    journal := s.journal ++ entries.filter fun entry => decide (s.least ≤ entry.level.weight) }

def levelNames : List (String × Nat) :=
  [("CRITICAL", 50), ("FATAL", 50), ("ERROR", 40), ("WARN", 30), ("WARNING", 30), ("INFO", 20),
    ("DEBUG", 10), ("NOTSET", 0)]

/-- The capital of a letter. Two letters beyond the first alphabet have their capitals within it. -/
def capital (c : Char) : Char := if c == 'ı' then 'I' else if c == 'ſ' then 'S' else c.toUpper

def levelOf (v : Value α) : Except Failure Nat :=
  match v with
  | .text s => (levelNames.find? fun entry => entry.1 == s.map capital).elim (.error .unknownLevel)
      fun entry => .ok entry.2
  | .bytes _ => .error .badLevel
  | v => .error (.notALevel (v.kindName true))

/-- The directory for the results: the one on the command line, or else that of the configuration. -/
def exportDirectory (args : Arguments) (v : Value α) : Except Failure Path :=
  match args.outputDirectory.filter (!·.isEmpty), v with
  | some directory, _ => .ok (.ofText directory)
  | none, .text directory => .ok (.ofText directory)
  | none, _ => .error .notAPath

def save (file : Except Failure (Exported α P)) : Step α P Unit := do
  let file ← file
  modify fun s => { s with files := s.files ++ [(file.path, file.artifact)] }
  say file.journal

variable [Scalar α] [HasSingularValues α]

def replay (engine : Nat → Engine α P) (r : Recording α P) (o : Odometry α P) :
    Step α P (Replay α P) := do
  let outcome := Replay.run engine (fun index => r.scan index) (.start o) (← r.events)
  say outcome.journal
  modify fun s => { s with calls := outcome.calls }
  match outcome.failure with
  | some e => throw e
  | none => return outcome

def exportResults (output : OutputConfig α) (x : Exporter α P) : Step α P Unit := do
  if output.saveResults.truth then
    save (x.table none)
    save (x.document none)
  if output.exportTrajectory.truth then save (x.trajectory none)

def runWith (s : Surroundings α P) (args : Arguments) (config : Config α) : Step α P Nat := do
  let least ← if args.verbose then pure Level.debug.weight else levelOf config.output.logLevel
  modify fun progress => { progress with least := least }
  say [.loadingData args.dataDirectory]
  let (recording, journal) ←
    Recording.openAt args.dataDirectory (s.folder args.dataDirectory) args.maxScans
  say journal
  if config.inertial.useInertial && recording.attitudes.isNone then say [.inertialMissing]
  let method := config.registration.method
  modify fun progress => { progress with method := some method }
  let engine ← EngineSettings.ofConfig config.registration
  say engine.journal
  let settings ← Settings.ofConfig config
  say (Odometry.creationJournal settings)
  let directory ← exportDirectory args config.output.directory
  let outcome ← replay (s.engine method) recording (.create settings)
  say [.processed recording.scans.length outcome.estimates.length]
  let exporter : Exporter α P := ⟨directory, Exporter.defaultStem, outcome.estimates⟩
  exportResults config.output exporter
  say [.summary exporter.summary.toValue]
  let pose := outcome.odometry.integrator.integrated
  say [.finalPose pose.translation (← pose.rpy)]
  return 0

/-- Runs the program on a command line. A configuration that cannot be used ends it with exit code one. -/
def session (s : Surroundings α P) (line : List String) : Step α P Nat := do
  let args ← Arguments.parse line
  match (Config.load args.configFile (s.file args.configFile) : Except Failure (Config α × Journal α)) with
  | .ok (config, journal) =>
    say journal
    runWith s args config
  | .error e =>
    if e.category == .configuration then
      say [.configInvalid (e.message.getD "")]
      return 1
    else throw e

def run (s : Surroundings α P) (line : List String) :
    Except Failure Nat × Progress α P :=
  (session s line).run.run ⟨Level.info.weight, [], none, [], []⟩

end Program

end InertialOdometry
