import InertialOdometry.Fusion.Combination
import InertialOdometry.Odometry.PoseIntegrator
import InertialOdometry.Odometry.Settings
import InertialOdometry.Registration.Basic

/-!
The odometry pipeline. Samples of the inertial sensor are taken in as they come; every scan runs one
cycle: align, decide about fusion, rotate the scans, register, fuse, judge, integrate. A cycle that
fails keeps what was done before the failure, so the state after it is part of its outcome.

Scans may be of any type `P`; the registration engine is a function of the two scans it compares.
-/

namespace InertialOdometry

/-- A scan with its time in seconds and its place in the recording. -/
structure Scan (α P : Type) where
  points : P
  stamp : Numeral α
  index : Int

def Scan.time {α P : Type} [Scalar α] (scan : Scan α P) : α := scan.stamp.value

/-- What a cycle reports about one scan. -/
structure Estimate (α P : Type) where
  stamp : Numeral α
  scanIndex : Int
  fixedFrame : String
  odometryFrame : String
  incremental : RigidTransform α
  integrated : RigidTransform α
  accepted : Bool
  fusionActive : Bool
  timeGap : Option (Numeral α)
  rpyRegistration : Rpy α
  rpyInertial : Option (Rpy α)
  fitness : Numeral α
  rmse : Numeral α
  processingTime : Numeral α
  query : P
  reference : P

structure Odometry (α P : Type) where
  settings : Settings α
  buffer : SampleBuffer α
  aligner : Aligner α
  integrator : PoseIntegrator α P
  initialized : Bool
  stamp : Option (Numeral α)
  cycles : Nat

/-- The outcome of presenting one scan: the state afterwards, what was said, the pair of scans that
the engine was called with, and an estimate or the failure that stopped the cycle. While the
pipeline waits for its first scans there is no estimate. -/
structure CycleOutcome (α P : Type) where
  state : Odometry α P
  journal : Journal α
  call : Option (P × P)
  result : Except Failure (Option (Estimate α P))

namespace Odometry

variable {α P : Type} [Scalar α]

def create (s : Settings α) : Odometry α P where
  settings := s
  buffer := .empty s.capacity
  aligner := .empty s.capacity
  integrator := .start s.initialPose
  initialized := false
  stamp := none
  cycles := 0

omit [Scalar α] in
def creationJournal (s : Settings α) : Journal α :=
  [.odometryCreated s.useInertial s.checkInertial s.thresholding]

omit [Scalar α] in
def pushSample (o : Odometry α P) (s : Sample α) : Odometry α P × Journal α :=
  let (buffer, journal) := o.buffer.push s
  ({ o with buffer := buffer }, journal)

omit [Scalar α] in
/-- Empties the sample buffer and nothing else. -/
def clearBuffer (o : Odometry α P) : Odometry α P := { o with buffer := o.buffer.clear }

/-- Forgets everything but the settings. -/
def reset (o : Odometry α P) : Odometry α P × Journal α :=
  ({ o with
      buffer := o.buffer.clear
      aligner := o.aligner.reset
      integrator := o.integrator.reset
      initialized := false
      stamp := none
      cycles := 0 }, [.integratorReset, .odometryReset])

/-- Presents a scan to a pipeline that is not running yet. The scan becomes the query scan; the
pipeline starts unless it still waits for its first sample. -/
def warmUp (o : Odometry α P) (scan : Scan α P) : Odometry α P × Journal α :=
  let o := { o with integrator := o.integrator.setQuery scan.points }
  if o.settings.useInertial then
    match o.buffer.first with
    | none => (o, [.waitingForSample])
    | some sample =>
      let (aligner, journal) := o.aligner.startFrom sample.attitude
      ({ o with aligner := aligner, initialized := true },
        journal ++ [.odometryStarted scan.time])
  else ({ o with initialized := true }, [.odometryStarted scan.time])

def alignScan (o : Odometry α P) (scan : Scan α P) :
    Except Failure (Option (Alignment α) × Odometry α P × Journal α) :=
  if o.settings.useInertial then
    match o.aligner.align o.buffer.samples scan.time with
    | .error e => .error e
    | .ok (alignment, aligner, journal) => .ok (some alignment, { o with aligner := aligner }, journal)
  else .ok (none, o, [])

variable [HasSingularValues α]

/-- Fuses a registered increment, judges it and takes it into the trajectory. The deltas used up stay
so even where a later step fails. -/
def absorb (o : Odometry α P) (scan : Scan α P) (gap : Option α) (active : Bool)
    (query reference : P) (registration : Registration α) :
    Odometry α P × Journal α × Except Failure (Estimate α P) :=
  match RigidTransform.ofTensor registration.transformation with
  | .error e => (o, [], .error e)
  | .ok raw =>
    let (deltas, fused) := Fusion.combine o.aligner.deltas raw active
    let o := { o with aligner := { o.aligner with deltas := deltas } }
    match fused with
    | .error e => (o, [], .error e)
    | .ok (fusion, journal) =>
      let journal := journal ++ [.fusionState scan.time fusion.fused]
      match o.settings.guard.check fusion.transform with
      | .error e => (o, journal, .error e)
      | .ok verdict =>
        let integrator := o.integrator.integrate fusion.transform verdict.accepted
        ({ o with integrator := integrator, cycles := o.cycles + 1 }, journal ++ verdict.journal,
          .ok {
            stamp := scan.stamp
            scanIndex := scan.index
            fixedFrame := o.settings.fixedFrame
            odometryFrame := o.settings.odometryFrame
            incremental := fusion.transform
            integrated := integrator.integrated
            accepted := verdict.accepted
            fusionActive := fusion.fused
            timeGap := gap.map .real
            rpyRegistration := fusion.rpyRegistration
            rpyInertial := fusion.rpyInertial
            fitness := registration.fitness
            rmse := registration.rmse
            processingTime := .real (registration.effort.elapsed * Scalar.nat 1000)
            query := query
            reference := reference })

def cycle (engine : Engine α P) (o : Odometry α P) (scan : Scan α P) : CycleOutcome α P :=
  match o.alignScan scan with
  | .error e => ⟨o, [], none, .error e⟩
  | .ok (alignment, o, journal) =>
    let gap := alignment.map (·.gap)
    let active := (o.settings.gate.evaluate gap).opens
    let journal := journal ++ o.settings.gate.journal gap
    match o.integrator.query, o.integrator.rotateScans scan.points with
    | none, _ => ⟨o, journal, none, .error .noQueryScan⟩
    | some _, .error e => ⟨o, journal, none, .error e⟩
    | some reference, .ok integrator =>
      let o := { o with integrator := integrator }
      let call := some (scan.points, reference)
      match engine scan.points reference with
      | .error e => ⟨o, journal, call, .error e⟩
      | .ok registration =>
        let (o, more, result) := o.absorb scan gap active scan.points reference registration
        ⟨o, journal ++ registration.journal ++ more, call, result.map some⟩

def update (engine : Engine α P) (o : Odometry α P) (scan : Scan α P) : CycleOutcome α P :=
  let o := { o with stamp := some scan.stamp }
  if o.initialized then o.cycle engine scan
  else
    let (o, journal) := o.warmUp scan
    ⟨o, journal, none, .ok none⟩

omit [Scalar α] [HasSingularValues α] in
/-- The scan presented last, once the pipeline is running. -/
def lastScan (o : Odometry α P) : Option P × Journal α :=
  if o.initialized then
    match o.integrator.query with
    | some scan => (some scan, [])
    | none => (none, [.notInitialized])
  else (none, [.notInitialized])

end Odometry

end InertialOdometry
