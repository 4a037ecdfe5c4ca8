import InertialOdometry.Config.Section
import InertialOdometry.Journal

/-!
Configurations: what a configuration document has to say, and the document that says it.
`Config.ofValue` reads a document, `Config.toValue` writes one. Every number of a configuration has
been converted and every rule about it has been checked, so a configuration holds no value that its
users would refuse; the output section alone is kept as it was given.
-/

namespace InertialOdometry

structure FrameIds where
  fixed : String
  odometry : String
deriving DecidableEq

/-- The pose that the trajectory starts from, and whether a calibration asked for it. -/
structure InitialPose (α : Type) where
  position : Vec3 α
  orientation : Quaternion α
  calibrated : Bool
deriving DecidableEq

/-- How scans are registered. The distance bounds which points correspond. -/
structure RegistrationConfig (α : Type) [Scalar α] where
  epsilon : α
  correspondence : α
  iterations : Int
  method : Method
  correspondence_pos : ¬ correspondence ≤ Scalar.zero
  iterations_pos : 0 < iterations

structure ThresholdConfig (α : Type) where
  enabled : Bool
  maxTranslation : α
  maxRotation : α
deriving DecidableEq

/-- How samples of the inertial sensor are used. -/
structure InertialConfig (α : Type) where
  useInertial : Bool
  checkInertial : Bool
  maxGap : α
  capacity : Int
  capacity_pos : 0 < capacity

/-- What is written where, as it was given. -/
structure OutputConfig (α : Type) where
  directory : Value α
  saveResults : Value α
  exportTrajectory : Value α
  logLevel : Value α

structure Config (α : Type) [Scalar α] where
  frameIds : FrameIds
  registration : RegistrationConfig α
  thresholding : ThresholdConfig α
  inertial : InertialConfig α
  initialPose : InitialPose α
  output : OutputConfig α

variable {α : Type} [Scalar α]

def InitialPose.origin : InitialPose α :=
  ⟨Vec3.zero, ⟨Scalar.zero, Scalar.zero, Scalar.zero, Scalar.one⟩, false⟩

namespace Config

/-- The entries of a section of a document, if the section is there and not null. -/
def section? (document : List (Value α × Value α)) (name : String) :
    Except Failure (Option (List (Value α × Value α))) :=
  match Value.lookup? document name with
  | none | some .null => .ok none
  | some (.map entries) => .ok (some entries)
  | some v => .error (.sectionNotAMapping name (v.kindName false))

def requiredSection (document : List (Value α × Value α)) (name : String) :
    Except Failure (List (Value α × Value α)) := do
  match ← section? document name with
  | some entries => return entries
  | none => throw (.missingSection name)

def parameter (group : String) (entries : List (Value α × Value α)) (key : String) :
    Except Failure (Value α) :=
  match Value.lookup? entries key with
  | none | some .null => .error (.missingParameter group key)
  | some v => .ok v

def frameIdsOf (entries : List (Value α × Value α)) : Except Failure FrameIds := do
  let fixed ← (← parameter "frame_id" entries "fixed").written
  let odometry ← (← parameter "frame_id" entries "odometry").written
  return ⟨fixed, odometry⟩

def registrationOf (entries : List (Value α × Value α)) :
    Except Failure (RegistrationConfig α) := do
  let epsilon ← (← parameter "icp" entries "tf_epsilon").toScalar
  let correspondence ← (← parameter "icp" entries "corr_dist").toScalar
  let iterations ← (← parameter "icp" entries "iterations").toInteger
  let shown ← (Value.argument entries "method" (.text "gicp")).written
  match Method.ofName? shown with
  | none => throw (.configuredMethod shown)
  | some method =>
    if hc : correspondence ≤ Scalar.zero then
      Section.refuse (.notPositive "icp/corr_dist") (.number correspondence)
    else if hi : 0 < iterations then
      return ⟨epsilon, correspondence, iterations, method, hc, hi⟩
    else Section.refuse (.notPositive "icp/iterations") (.int iterations : Value α)

def thresholdingOf (entries : List (Value α × Value α)) : Except Failure (ThresholdConfig α) := do
  let enabled ← parameter "icp" entries "transform_thresholding"
  let maxTranslation ← (← parameter "icp" entries "max_translation").toScalar
  let maxRotation ← (← parameter "icp" entries "max_rotation").toScalar
  return ⟨enabled.truth, maxTranslation, maxRotation⟩

def inertialOf (entries : List (Value α × Value α)) : Except Failure (InertialConfig α) := do
  let useInertial ← parameter "imu" entries "use_imu_data"
  let checkInertial ← parameter "imu" entries "check_imu_data"
  let maxGap ←
    (Value.argument entries "max_timestamp_gap" (.number (Scalar.decimal 5 (-2)))).toScalar
  let capacity ← (Value.argument entries "buffer_capacity" (.int 100)).toInteger
  if h : 0 < capacity then
    return ⟨useInertial.truth, checkInertial.truth, maxGap, capacity, h⟩
  else Section.refuse (.notPositive "imu/buffer_capacity") (.int capacity : Value α)

/-- What is wrong with the names of an output section: a name that is no text, or else the first one
that does not belong there. -/
def outputFault? (entries : List (Value α × Value α)) : Option String :=
  let known := (Section.output.optional : List (String × Value α)).map (·.1)
  if entries.any fun entry => entry.1.textKey?.isNone then some "keywords must be strings"
  else
    match Value.unknownName? known entries with
    | none => none
    | some "self" => some "OutputConfig.__init__() got multiple values for argument 'self'"
    | some name =>
      some s!"OutputConfig.__init__() got an unexpected keyword argument '{name}'"

def outputOf (entries : List (Value α × Value α)) : Except Failure (OutputConfig α) :=
  match outputFault? entries with
  | some reason => .error (.outputSection reason)
  | none =>
    .ok {
      directory := Value.argument entries "output_dir" (.text "output")
      saveResults := Value.argument entries "save_results" (.bool true)
      exportTrajectory := Value.argument entries "export_tum" (.bool true)
      logLevel := Value.argument entries "log_level" (.text "INFO") }

/-- The values that a mapping gives to a row of keys; none where one key is missing or there is no
mapping. -/
def components? (v : Value α) (keys : List String) : Option (List (Value α)) :=
  match v with
  | .map entries => keys.mapM (Value.lookup? entries)
  | _ => none

/-- The values of position and orientation in a calibration. One missing is as good as all. -/
def calibration? (v : Value α) : Option (List (Value α) × List (Value α)) := do
  let .map entries := v | none
  let position ← components? (← Value.lookup? entries "position") ["x", "y", "z"]
  let orientation ← components? (← Value.lookup? entries "orientation") ["x", "y", "z", "w"]
  return (position, orientation)

/-- Converts a part of a calibration. What is no number at all is a fault of the configuration. -/
def calibrated (name : String) (values : List (Value α)) : Except Failure (List α) :=
  match values.mapM Value.toScalar with
  | .ok xs => .ok xs
  | .error e =>
    match e.category, e.message with
    | .value, some reason | .type, some reason => .error (.fiducialPart name reason)
    | _, _ => .error e

def leastSquaredNorm : α := Scalar.decimal 1 (-20)

/-- The initial pose that a calibration asks for, or the origin where there is none. The squares are
added from the left, and each sum is rounded. -/
def initialPoseOf (v : Value α) : Except Failure (InitialPose α × Journal α) := do
  match calibration? v with
  | none => return (.origin, [.noFiducials])
  | some (position, orientation) =>
    match ← calibrated "position" position, ← calibrated "orientation" orientation with
    | [px, py, pz], [x, y, z, w] =>
      if Scalar.zero + x * x + y * y + z * z + w * w < leastSquaredNorm then throw .fiducialZero
      else return (⟨⟨px, py, pz⟩, ⟨x, y, z, w⟩, true⟩, [])
    | _, _ => return (.origin, [.noFiducials])

/-- Reads a configuration. The sections are looked up first, then their values are converted in the
order in which a configuration lists them. -/
def ofValue (document : Value α) : Except Failure (Config α × Journal α) := do
  let .map entries := document | throw .notAMapping
  let frames ← requiredSection entries "frame_id"
  let icp ← requiredSection entries "icp"
  let imu ← requiredSection entries "imu"
  let output ← section? entries "output"
  let frameIds ← frameIdsOf frames
  let registration ← registrationOf icp
  let thresholding ← thresholdingOf icp
  let inertial ← inertialOf imu
  let output ← outputOf (output.getD [])
  let (initialPose, journal) ← initialPoseOf (Value.argument entries "fiducial_calibration" .null)
  return (⟨frameIds, registration, thresholding, inertial, initialPose, output⟩, journal)

def calibrationEntries (p : InitialPose α) : List (String × Value α) :=
  if p.calibrated then
    [("fiducial_calibration", .ofFields [
      ("position", .ofFields [("x", .number p.position.x), ("y", .number p.position.y),
        ("z", .number p.position.z)]),
      ("orientation", .ofFields [("x", .number p.orientation.x), ("y", .number p.orientation.y),
        ("z", .number p.orientation.z), ("w", .number p.orientation.w)])])]
  else []

def toValue (c : Config α) : Value α :=
  .ofFields <| [
    ("frame_id", .ofFields [("fixed", .text c.frameIds.fixed),
      ("odometry", .text c.frameIds.odometry)]),
    ("icp", .ofFields [
      ("tf_epsilon", .number c.registration.epsilon),
      ("corr_dist", .number c.registration.correspondence),
      ("iterations", .int c.registration.iterations),
      ("method", .text c.registration.method.name),
      ("transform_thresholding", .bool c.thresholding.enabled),
      ("max_translation", .number c.thresholding.maxTranslation),
      ("max_rotation", .number c.thresholding.maxRotation)]),
    ("imu", .ofFields [
      ("use_imu_data", .bool c.inertial.useInertial),
      ("check_imu_data", .bool c.inertial.checkInertial),
      ("max_timestamp_gap", .number c.inertial.maxGap),
      ("buffer_capacity", .int c.inertial.capacity)]),
    ("output", .ofFields [
      ("output_dir", c.output.directory),
      ("save_results", c.output.saveResults),
      ("export_tum", c.output.exportTrajectory),
      ("log_level", c.output.logLevel)])] ++ calibrationEntries c.initialPose

end Config

end InertialOdometry
