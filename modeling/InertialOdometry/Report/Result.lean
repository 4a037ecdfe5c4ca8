import InertialOdometry.Odometry.Pipeline

/-!
Results: estimates with both of their transforms in all forms. An estimate has a result exactly if both
transforms stand for rotations.
-/

namespace InertialOdometry

/-- An estimate with the forms of its transforms. -/
structure CycleResult (α P : Type) where
  estimate : Estimate α P
  incremental : RigidTransform.Described α
  integrated : RigidTransform.Described α

namespace CycleResult

variable {α P : Type} [Scalar α]

def ofEstimate [HasSingularValues α] (e : Estimate α P) : Except Failure (CycleResult α P) := do
  let incremental ← e.incremental.describe
  let integrated ← e.integrated.describe
  return ⟨e, incremental, integrated⟩

def angles (a : Rpy α) : Value α := .list (a.toVec3.toList.map .number)

def transform (d : RigidTransform.Described α) : Value α :=
  .ofFields [
    ("translation", .list (d.translation.toList.map .number)),
    ("quaternion", .ofFields [("x", .number d.quaternion.x), ("y", .number d.quaternion.y),
      ("z", .number d.quaternion.z), ("w", .number d.quaternion.w)]),
    ("rpy", .ofFields [("roll", .number d.rpy.roll), ("pitch", .number d.rpy.pitch),
      ("yaw", .number d.rpy.yaw)])]

/-- A result as a document. The scans are left out. -/
def toValue (r : CycleResult α P) : Value α :=
  let e := r.estimate
  .ofFields [
    ("meta", .ofFields [("stamp", e.stamp.toValue), ("scan_idx", .int e.scanIndex),
      ("fixed_frame_id", .text e.fixedFrame), ("odometry_frame_id", .text e.odometryFrame),
      ("processing_time_ms", e.processingTime.toValue)]),
    ("incremental", transform r.incremental),
    ("integrated", transform r.integrated),
    ("accepted", .bool e.accepted),
    ("fusion", .ofFields [("active", .bool e.fusionActive),
      ("time_gap", e.timeGap.elim .null Numeral.toValue), ("rpy_registration", angles e.rpyRegistration),
      ("rpy_inertial", e.rpyInertial.elim .null angles)]),
    ("registration", .ofFields [("fitness", e.fitness.toValue), ("rmse", e.rmse.toValue)])]

end CycleResult

end InertialOdometry
