import InertialOdometry.Inertial.BoundedQueue
import InertialOdometry.Inertial.Sample
import InertialOdometry.Journal

/-!
The buffer between the inertial sensor and the scans: the latest samples in a bounded queue, and the
first sample ever received, which outlives its place in the queue.
-/

namespace InertialOdometry

structure SampleBuffer (α : Type) where
  queue : BoundedQueue (Sample α)
  first : Option (Sample α)

namespace SampleBuffer

variable {α : Type}

def empty (capacity : Nat) : SampleBuffer α := ⟨.empty capacity, none⟩

def samples (b : SampleBuffer α) : List (Sample α) := b.queue.items

/-- Whether a sample was received since the buffer was last empty by design. -/
def hasReceived (b : SampleBuffer α) : Bool := b.first.isSome

def push (b : SampleBuffer α) (s : Sample α) : SampleBuffer α × Journal α :=
  match b.first with
  | none => (⟨b.queue.push s, some s⟩, [.firstSample s.time])
  | some f => (⟨b.queue.push s, some f⟩, [])

def clear (b : SampleBuffer α) : SampleBuffer α := ⟨b.queue.clear, none⟩

/-- The capacity that a value asks for. A buffer holds at least one sample. -/
def capacityOf [Scalar α] (v : Value α) : Except Failure { n : Nat // 0 < n } := do
  if ← v.aboveZero then
    let n ← BoundedQueue.capacityOf v
    if h : 0 < n then return ⟨n, h⟩ else throw (.capacityNotPositive (← v.written))
  else throw (.capacityNotPositive (← v.written))

end SampleBuffer

end InertialOdometry
