import InertialOdometry.Config.Basic
import InertialOdometry.Fusion.Gate
import InertialOdometry.Inertial.SampleBuffer
import InertialOdometry.Odometry.MotionGuard

/-!
The settings of a pipeline, as a configuration or a row of named values asks for them.
-/

namespace InertialOdometry

/-- The settings of a pipeline. The queues hold at least one item. -/
structure Settings (α : Type) where
  fixedFrame : String
  odometryFrame : String
  initialPose : RigidTransform α
  useInertial : Bool
  checkInertial : Bool
  maxGap : α
  capacity : Nat
  thresholding : Bool
  maxTranslation : α
  maxRotation : α
  capacity_pos : 0 < capacity

namespace Settings

variable {α : Type}

def gate (s : Settings α) : FusionGate α := ⟨s.useInertial, s.checkInertial, s.maxGap⟩

def guard (s : Settings α) : MotionGuard α := ⟨s.thresholding, s.maxTranslation, s.maxRotation⟩

variable [Scalar α]

/-- The settings of a pipeline without inertial sensor and without limits that starts at the
origin. -/
def plain : Settings α where
  fixedFrame := "world"
  odometryFrame := "odometry"
  initialPose := .identity
  useInertial := false
  checkInertial := false
  maxGap := Scalar.decimal 5 (-2)
  capacity := 100
  thresholding := false
  maxTranslation := Scalar.infinity
  maxRotation := Scalar.infinity
  capacity_pos := by decide

/-- The settings that a configuration asks for. A capacity that cannot be counted to and an orientation
without direction are refused. -/
def ofConfig (c : Config α) : Except Failure (Settings α) := do
  let pose ← RigidTransform.ofPositionQuaternion c.initialPose.position c.initialPose.orientation
  let ⟨capacity, capacity_pos⟩ ← SampleBuffer.capacityOf (.int c.inertial.capacity : Value α)
  return {
    fixedFrame := c.frameIds.fixed
    odometryFrame := c.frameIds.odometry
    initialPose := pose
    useInertial := c.inertial.useInertial
    checkInertial := c.inertial.checkInertial
    maxGap := c.inertial.maxGap
    capacity := capacity
    thresholding := c.thresholding.enabled
    maxTranslation := c.thresholding.maxTranslation
    maxRotation := c.thresholding.maxRotation
    capacity_pos := capacity_pos }

def names : List String :=
  ["fixed_frame_id", "odometry_frame_id", "use_inertial", "check_inertial", "max_timestamp_gap",
    "buffer_capacity", "transform_thresholding", "max_translation", "max_rotation"]

/-- The settings that named values ask for, with the plain ones for those left out. -/
def ofArguments (given : List (Value α × Value α)) (pose : Option (RigidTransform α)) :
    Except Failure (Settings α) := do
  Value.checkNames [] names given
  let get (name : String) (default : Value α) : Value α := Value.argument given name default
  let base : Settings α := plain
  let ⟨capacity, capacity_pos⟩ ← SampleBuffer.capacityOf (get "buffer_capacity" (.int base.capacity))
  let maxGap ← (get "max_timestamp_gap" (.number base.maxGap)).toScalar
  let maxTranslation ← (get "max_translation" (.number base.maxTranslation)).toScalar
  let maxRotation ← (get "max_rotation" (.number base.maxRotation)).toScalar
  return {
    fixedFrame := (get "fixed_frame_id" (.text base.fixedFrame)).plain
    odometryFrame := (get "odometry_frame_id" (.text base.odometryFrame)).plain
    initialPose := pose.getD .identity
    useInertial := (get "use_inertial" (.bool false)).truth
    checkInertial := (get "check_inertial" (.bool false)).truth
    maxGap := maxGap
    capacity := capacity
    thresholding := (get "transform_thresholding" (.bool false)).truth
    maxTranslation := maxTranslation
    maxRotation := maxRotation
    capacity_pos := capacity_pos }

end Settings

end InertialOdometry
