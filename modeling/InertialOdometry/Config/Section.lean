import InertialOdometry.Value.Arguments

/-!
The sections of a configuration as rows of named values, with the values that stand in for names left
out and the rules that some of the values have to keep. A section that is put together here is not
converted: its values are what was given.
-/

namespace InertialOdometry

inductive Method where
  | generalized
  | pointToPoint
deriving DecidableEq

namespace Method

def name : Method → String
  | generalized => "gicp"
  | pointToPoint => "point_to_point"

def ofName? (s : String) : Option Method :=
  [generalized, pointToPoint].find? fun m => m.name == s

@[simp]
theorem ofName?_name (m : Method) : ofName? m.name = some m := by
  cases m <;> decide

end Method

inductive Section where
  | frameIds
  | initialPose
  | registration
  | thresholding
  | inertial
  | output
deriving DecidableEq

namespace Section

variable {α : Type} [Scalar α]

/-- The names of a section that have no stand-in. -/
def required : Section → List String
  | frameIds => ["fixed", "odometry"]
  | registration => ["tf_epsilon", "corr_dist", "iterations"]
  | thresholding => ["enabled", "max_translation", "max_rotation"]
  | inertial => ["use_imu_data", "check_imu_data"]
  | initialPose | output => []

/-- The names of a section that may be left out, with their stand-ins. -/
def optional : Section → List (String × Value α)
  | initialPose =>
    let zero : Value α := .number Scalar.zero
    [("position", .tuple [zero, zero, zero]),
      ("orientation", .tuple [zero, zero, zero, .number Scalar.one]),
      ("from_fiducial", .bool false)]
  | registration => [("method", .text "gicp")]
  | inertial =>
    [("max_timestamp_gap", .number (Scalar.decimal 5 (-2))), ("buffer_capacity", .int 100)]
  | output =>
    [("output_dir", .text "output"), ("save_results", .bool true), ("export_tum", .bool true),
      ("log_level", .text "INFO")]
  | frameIds | thresholding => []

/-- The refusal of a value, which is named and written out. -/
def refuse {β : Type} (cause : String → Failure) (v : Value α) : Except Failure β :=
  v.written.bind fun shown => .error (cause shown)

def requirePositive (name : String) (v : Value α) : Except Failure Unit := do
  if ← v.aboveZero then return () else refuse (.notPositive name) v

def requireMethod (v : Value α) : Except Failure Unit :=
  match v.textKey?.bind Method.ofName? with
  | some _ => .ok ()
  | none => refuse .configuredMethod v

def check (s : Section) (get : String → Value α) : Except Failure Unit :=
  match s with
  | registration => do
    requireMethod (get "method")
    requirePositive "icp/corr_dist" (get "corr_dist")
    requirePositive "icp/iterations" (get "iterations")
  | inertial => requirePositive "imu/buffer_capacity" (get "buffer_capacity")
  | _ => .ok ()

def build (s : Section) (given : List (Value α × Value α)) :
    Except Failure (List (String × Value α)) := do
  let optional : List (String × Value α) := s.optional
  Value.checkNames s.required (optional.map (·.1)) given
  let fields := (s.required.map fun name => (name, Value.argument given name .null)) ++
    optional.map fun (name, default) => (name, Value.argument given name default)
  s.check fun name => (fields.find? (·.1 == name)).elim .null (·.2)
  return fields

end Section

end InertialOdometry
