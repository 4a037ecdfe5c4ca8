import InertialOdometry.Inertial.Nearest
import InertialOdometry.Inertial.SampleBuffer

/-!
Alignment of attitudes with scans. For every scan the sample nearest to its time is chosen, and the
rotation from the attitude chosen before to this one, the delta, is queued for fusion.
-/

namespace InertialOdometry

/-- The rotation that takes the attitude `previous` to the attitude `current`. -/
def relativeRotation {α : Type} [Scalar α] (current previous : Mat3 α) : Mat3 α :=
  current * previous.transpose

structure Alignment (α : Type) where
  sample : Sample α
  /-- The time of the sample less that of the scan. -/
  gap : α
  delta : Mat3 α
  fromPast : Bool

/-- The attitude chosen last, and the deltas that were not consumed yet. -/
structure Aligner (α : Type) where
  previous : Option (Mat3 α)
  deltas : BoundedQueue (Tensor α)

def Value.toTime {α : Type} [Scalar α] (v : Value α) : Except Failure α :=
  v.number?.elim (.error (.noDistance (v.kindName true))) .ok

namespace Aligner

variable {α : Type}

def empty (capacity : Nat) : Aligner α := ⟨none, .empty capacity⟩

def isInitialized (a : Aligner α) : Bool := a.previous.isSome

def startFrom (a : Aligner α) (attitude : Mat3 α) : Aligner α × Journal α :=
  ({ a with previous := some attitude }, [.alignerInitialized])

def reset (a : Aligner α) : Aligner α := ⟨none, a.deltas.clear⟩

variable [Scalar α]

/-- Aligns a scan taken at time `t`. Where there is no attitude to start from, or no sample, nothing
changes. -/
def align (a : Aligner α) (samples : List (Sample α)) (t : α) :
    Except Failure (Alignment α × Aligner α × Journal α) :=
  match a.previous, nearest? Sample.time t samples with
  | none, _ => .error .alignerNotInitialized
  | some _, none => .error .emptySnapshot
  | some previous, some sample =>
    let gap := sample.time - t
    let delta := relativeRotation sample.attitude previous
    let fromPast := decide (gap ≤ Scalar.zero)
    let journal : Journal α :=
      (if fromPast then []
        else [.futureSample t gap]) ++
      (if a.deltas.isFull then [.queueFull] else []) ++ [.aligned sample.time gap]
    .ok (⟨sample, gap, delta, fromPast⟩,
      ⟨some sample.attitude, a.deltas.push (.ofMat3 delta)⟩, journal)

end Aligner

end InertialOdometry
