import InertialOdometry.Geometry.RigidTransform

/-!
The trajectory: the pose that accepted increments add up to, the last increment, and the two scans
that the next registration compares. Scans may be of any type `P`.
-/

namespace InertialOdometry

structure PoseIntegrator (α P : Type) where
  initialPose : RigidTransform α
  integrated : RigidTransform α
  incremental : RigidTransform α
  query : Option P
  reference : Option P
  accepted : Nat
  rejected : Nat

namespace PoseIntegrator

variable {α P : Type} [Scalar α]

/-- The trajectory that starts, and after a reset starts again, at the given pose. -/
def start (pose : RigidTransform α) : PoseIntegrator α P :=
  ⟨pose, pose, .identity, none, none, 0, 0⟩

omit [Scalar α] in
def ready (p : PoseIntegrator α P) : Bool := p.query.isSome && p.reference.isSome

omit [Scalar α] in
def setQuery (p : PoseIntegrator α P) (scan : P) : PoseIntegrator α P := { p with query := some scan }

omit [Scalar α] in
def promoteQuery (p : PoseIntegrator α P) : Except Failure (PoseIntegrator α P) :=
  match p.query with
  | none => .error .noQueryScan
  | some old => .ok { p with reference := some old }

omit [Scalar α] in
def rotateScans (p : PoseIntegrator α P) (scan : P) : Except Failure (PoseIntegrator α P) :=
  p.promoteQuery.map (·.setQuery scan)

/-- Takes in an increment. A rejected one is remembered as the last increment and counted, but leaves
the pose alone. -/
def integrate (p : PoseIntegrator α P) (increment : RigidTransform α) (accepted : Bool) :
    PoseIntegrator α P :=
  if accepted then
    { p with incremental := increment, integrated := p.integrated.compose increment,
             accepted := p.accepted + 1 }
  else { p with incremental := increment, rejected := p.rejected + 1 }

def reset (p : PoseIntegrator α P) : PoseIntegrator α P := start p.initialPose

/-- Only an accepted increment moves the trajectory, by composition on the right. -/
theorem integrated_integrate (p : PoseIntegrator α P) (increment : RigidTransform α)
    (accepted : Bool) :
    (p.integrate increment accepted).integrated =
      if accepted then p.integrated.compose increment else p.integrated := by
  cases accepted <;> rfl

end PoseIntegrator

end InertialOdometry
