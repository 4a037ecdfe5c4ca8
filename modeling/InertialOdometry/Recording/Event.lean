import InertialOdometry.Inertial.Sample

/-!
The events of a recording: samples and scans merged by time. A sample comes before a scan exactly if its
time is not later, as long as both streams are in order; whatever their times, none is lost and each
stream keeps its order.
-/

namespace InertialOdometry

/-- Something that happens while a recording is replayed. Scans are known by their place. -/
inductive Event (α : Type) where
  | sample (s : Sample α)
  | scan (index : Nat)
deriving DecidableEq

namespace Event

variable {α : Type} [Scalar α]

/-- Merges samples with scans, which are given by their places and stamps. -/
def merge (samples : List (Sample α)) : List (Nat × α) → List (Event α)
  | [] => samples.map sample
  | (index, stamp) :: scans =>
    let isDue (s : Sample α) : Bool := decide (s.time ≤ stamp)
    (samples.takeWhile isDue).map sample ++ scan index :: merge (samples.dropWhile isDue) scans

end Event

end InertialOdometry
