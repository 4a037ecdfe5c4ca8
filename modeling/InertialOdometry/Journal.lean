import InertialOdometry.Geometry.RigidTransform

/-!
The journal: what the parts of the library have to say while they work, as entries with a level. The
wording is in `Entry.text` alone.
-/

namespace InertialOdometry

inductive Level where
  | debug
  | info
  | warning
  | error
  | critical
deriving DecidableEq

namespace Level

/-- The weight of a level; a journal that is kept from some weight on leaves out the lighter ones. -/
def weight : Level → Nat
  | debug => 10
  | info => 20
  | warning => 30
  | error => 40
  | critical => 50

def name : Level → String
  | debug => "DEBUG"
  | info => "INFO"
  | warning => "WARNING"
  | error => "ERROR"
  | critical => "CRITICAL"

end Level

inductive Entry (α : Type) where
  | firstSample (time : α)
  | queueFull
  | futureSample (scanTime gap : α)
  | alignerInitialized
  | aligned (time gap : α)
  | staleSample (gap limit : α)
  | queueEmpty
  | tiltCorrected (angle : α)
  | incrementDiscarded (translationNorm rotationNorm : α)
  | fusionState (scanTime : α) (fused : Bool)
  | odometryCreated (inertial check thresholding : Bool)
  | waitingForSample
  | odometryStarted (scanTime : α)
  | odometryReset
  | integratorReset
  | notInitialized
  | engineCreated (method correspondence iterations : String)
  | registered (fitness rmse : α) (correspondences : Nat)
  | noFiducials
  | configSaved (path : String)
  | configLoaded (path : String)
  | configInvalid (reason : String)
  | datasetOpened (scans samples : Nat)
  | tableSaved (rows : Nat) (path : String)
  | reportSaved (path : String)
  | trajectorySaved (poses : Nat) (path : String)
  | loadingData (path : String)
  | inertialMissing
  | progress (scan : Int) (position : Vec3 α) (fused accepted : Bool)
  | processed (scans results : Nat)
  | summary (shown : Value α)
  | finalPose (translation : Vec3 α) (angles : Rpy α)

namespace Entry

def level {α : Type} : Entry α → Level
  | queueFull | futureSample _ _ | alignerInitialized | aligned _ _ | tiltCorrected _
  | fusionState _ _ | waitingForSample | integratorReset | engineCreated _ _ _
  | registered _ _ _ => .debug
  | staleSample _ _ | queueEmpty | incrementDiscarded _ _ | notInitialized | noFiducials
  | inertialMissing => .warning
  | configInvalid _ => .error
  | _ => .info

private def onOff (b : Bool) : String := if b then "on" else "off"

private def bigOnOff (b : Bool) : String := if b then "ON" else "OFF"

private def truth (b : Bool) : String := if b then "True" else "False"

def text (entry : Entry Float) : String :=
  let seconds (t : Float) : String := Decimal.fixedText 6 t
  let offset (t : Float) : String := Decimal.signedText 6 t
  let four (x : Float) : String := Decimal.fixedText 4 x
  let three (x : Float) : String := Decimal.fixedText 3 x
  match entry with
  | firstSample t => s!"First inertial sample received at t={seconds t}"
  | queueFull => "Attitude delta queue full, dropping oldest delta"
  | futureSample t gap =>
    s!"No past inertial sample for scan t={seconds t}, using nearest future sample (gap={offset gap}s)"
  | alignerInitialized => "AttitudeAligner initialized with first inertial attitude"
  | aligned t gap => s!"Aligned inertial sample t={seconds t} (gap={offset gap}s)"
  | staleSample gap limit =>
    s!"Inertial sample rejected for this cycle: time gap {Decimal.signedText 4 gap}s exceeds {four limit}s"
  | queueEmpty =>
    "Fusion requested but attitude delta queue is empty, using registration only"
  | tiltCorrected angle =>
    s!"Inertial roll/pitch correction: {three (angle * (180.0 / Scalar.pi))} deg"
  | incrementDiscarded t r =>
    s!"Discarding incremental transformation with norm (t: {four t}, r: {four r})"
  | fusionState t fused => s!"Scan t={seconds t}: inertial fusion {bigOnOff fused}"
  | odometryCreated inertial check thresholding =>
    s!"PointCloudOdometry initialized: inertial={onOff inertial}, check={onOff check}, " ++
      s!"thresholding={onOff thresholding}"
  | waitingForSample => "Waiting for first inertial sample before initializing"
  | odometryStarted t => s!"PointCloudOdometry initialized with scan t={seconds t}"
  | odometryReset => "PointCloudOdometry reset"
  | integratorReset => "PoseIntegrator reset"
  | notInitialized => "PointCloudOdometry: Not initialized."
  | engineCreated method correspondence iterations =>
    s!"Open3DRegistration initialized: method={method}, corr_dist={correspondence}, " ++
      s!"iterations={iterations}"
  | registered fitness rmse correspondences =>
    s!"Registration done: fitness={three fitness}, rmse={four rmse}, " ++
      s!"correspondences={correspondences}"
  | noFiducials => "Can't find fiducials, using origin"
  | configSaved path => s!"Config saved to {path}"
  | configLoaded path => s!"Config loaded from {path}"
  | configInvalid reason => s!"Invalid configuration: {reason}"
  | datasetOpened scans samples =>
    s!"ScanSequenceLoader: {scans} scans, {samples} inertial samples"
  | tableSaved rows path => s!"Saved {rows} results to {path}"
  | reportSaved path => s!"Saved JSON results to {path}"
  | trajectorySaved poses path => s!"Saved TUM trajectory ({poses} poses) to {path}"
  | loadingData path => s!"Loading data from {path}"
  | inertialMissing =>
    "Inertial fusion enabled but no imu_data.csv found; odometry will not initialize"
  | progress scan p fused accepted =>
    s!"Scan {scan}: pos=[{three p.x}, {three p.y}, {three p.z}], " ++
      s!"fusion={bigOnOff fused}, accepted={truth accepted}"
  | processed scans results => s!"Processed {scans} scans, {results} odometry results"
  | summary shown => s!"Summary: {shown.quoted}"
  | finalPose t angles => s!"Final pose: {RigidTransform.lineText t angles}"

end Entry

abbrev Journal (α : Type) := List (Entry α)

def Journal.lines (least : Nat) (journal : Journal Float) : List String :=
  (journal.filter fun entry => least ≤ entry.level.weight).map fun entry =>
    entry.level.name ++ " " ++ entry.text

end InertialOdometry
