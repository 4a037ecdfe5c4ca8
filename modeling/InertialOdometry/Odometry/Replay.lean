import InertialOdometry.Odometry.Pipeline
import InertialOdometry.Recording.Event

/-!
Replay: a pipeline is led through events. Samples are taken in, every scan runs a cycle, and the
estimates are collected. A failure ends the replay; what was done before it remains.
-/

namespace InertialOdometry

/-- What a replay has come to: the state of the pipeline, what was said, the pairs of scans that the
engine was called with, the estimates, and the failure that ended it, if there was one. -/
structure Replay (α P : Type) where
  odometry : Odometry α P
  journal : Journal α
  calls : List (P × P)
  estimates : List (Estimate α P)
  failure : Option Failure

namespace Replay

variable {α P : Type} [Scalar α] [HasSingularValues α]

omit [Scalar α] [HasSingularValues α] in
def start (o : Odometry α P) : Replay α P := ⟨o, [], [], [], none⟩

def reportInterval : Nat := 10

omit [Scalar α] [HasSingularValues α] in
/-- Takes in an estimate, with a report of progress now and then. -/
def record (r : Replay α P) (e : Estimate α P) : Replay α P :=
  let estimates := r.estimates ++ [e]
  let report : Journal α :=
    if estimates.length % reportInterval = 0 then
      [.progress e.scanIndex e.integrated.translation e.fusionActive e.accepted]
    else []
  { r with estimates := estimates, journal := r.journal ++ report }

def present (engine : Engine α P) (r : Replay α P) (scan : Scan α P) : Replay α P :=
  let outcome := r.odometry.update engine scan
  let r := { r with
    odometry := outcome.state
    journal := r.journal ++ outcome.journal
    calls := r.calls ++ outcome.call.toList }
  match outcome.result with
  | .error e => { r with failure := some e }
  | .ok none => r
  | .ok (some e) => r.record e

/-- Goes through one event. `engine` answers the calls by their number, `load` gives the scans. -/
def step (engine : Nat → Engine α P) (load : Nat → Except Failure (Scan α P)) (r : Replay α P) :
    Event α → Replay α P
  | .sample s =>
    let (o, journal) := r.odometry.pushSample s
    { r with odometry := o, journal := r.journal ++ journal }
  | .scan index =>
    match load index with
    | .error e => { r with failure := some e }
    | .ok scan => r.present (engine r.calls.length) scan

/-- Goes through events up to the first failure. -/
def run (engine : Nat → Engine α P) (load : Nat → Except Failure (Scan α P)) (r : Replay α P)
    (events : List (Event α)) : Replay α P :=
  events.foldl (fun r event => if r.failure.isSome then r else r.step engine load event) r

end Replay

end InertialOdometry
