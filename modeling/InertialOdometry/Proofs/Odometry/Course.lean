import InertialOdometry.Proofs.Odometry.Run

/-!
The ways in which a scan can go through a pipeline. For each stage that can stop a
cycle there is a relation with one rule for each end of the stage, and the stage is
proved to follow one of its rules. What is said about cycles elsewhere is read off
these rules; the stages themselves are opened here alone.
-/

namespace InertialOdometry

variable {α P : Type} [Scalar α]

namespace Odometry

/-- The alignment of a scan at time `t` by a sample, after the attitude `previous`. -/
def alignmentOf (sample : Sample α) (previous : Mat3 α) (t : α) : Alignment α :=
  ⟨sample, sample.time - t, relativeRotation sample.attitude previous,
    decide (sample.time - t ≤ Scalar.zero)⟩

/-- The aligner after an alignment by a sample: the sample is the one to come from
next, and the way to it from the attitude `previous` is queued. -/
def alignedBy (aligner : Aligner α) (sample : Sample α) (previous : Mat3 α) :
    Aligner α :=
  ⟨some sample.attitude,
    aligner.deltas.push (.ofMat3 (relativeRotation sample.attitude previous))⟩

/-- What the alignment of a scan comes to where it succeeds: nothing where the
sensor is not in use, else a step of the aligner to the nearest sample. -/
inductive Aligns (o : Odometry α P) (scan : Scan α P) :
    Option (Alignment α) → Aligner α → Prop where
  | unused (huse : o.settings.useInertial = false) : Aligns o scan none o.aligner
  | bySample {previous : Mat3 α} {sample : Sample α}
      (huse : o.settings.useInertial = true)
      (hprevious : o.aligner.previous = some previous)
      (hnearest : nearest? Sample.time scan.time o.buffer.samples = some sample) :
      Aligns o scan (some (alignmentOf sample previous scan.time))
        (alignedBy o.aligner sample previous)

/-- An alignment that succeeds moves the aligner alone, and never speaks of an empty
queue. -/
theorem alignScan_ok {o aligned : Odometry α P} {scan : Scan α P}
    {alignment : Option (Alignment α)} {journal : Journal α}
    (h : o.alignScan scan = .ok (alignment, aligned, journal)) :
    (∃ aligner, aligned = { o with aligner := aligner } ∧
        Aligns o scan alignment aligner) ∧
      .queueEmpty ∉ journal := by
  unfold alignScan Aligner.align at h
  cases huse : o.settings.useInertial with
  | false =>
      simp only [huse, Bool.false_eq_true, if_false, Except.ok.injEq, Prod.mk.injEq] at h
      obtain ⟨rfl, rfl, rfl⟩ := h
      exact ⟨⟨o.aligner, rfl, .unused huse⟩, by simp⟩
  | true =>
      cases hprevious : o.aligner.previous with
      | none => simp [huse, hprevious] at h
      | some previous =>
          cases hnearest : nearest? Sample.time scan.time o.buffer.samples with
          | none => simp [huse, hprevious, hnearest] at h
          | some sample =>
              simp only [huse, hprevious, hnearest, if_true, Except.ok.injEq,
                Prod.mk.injEq] at h
              obtain ⟨rfl, rfl, rfl⟩ := h
              refine ⟨⟨_, rfl, .bySample huse hprevious hnearest⟩, ?_⟩
              simp only [List.mem_append, List.mem_singleton, reduceCtorEq, or_false,
                not_or]
              constructor
              · split <;> simp
              · split <;> simp

theorem Aligns.alignScan_eq {o : Odometry α P} {scan : Scan α P}
    {alignment : Option (Alignment α)} {aligner : Aligner α}
    (h : Aligns o scan alignment aligner) :
    ∃ journal,
      o.alignScan scan = .ok (alignment, { o with aligner := aligner }, journal) := by
  cases h with
  | unused huse => exact ⟨[], by simp [alignScan, huse]⟩
  | bySample huse hprevious hnearest =>
      simp only [alignScan, Aligner.align, huse, hprevious, hnearest, if_true]
      exact ⟨_, rfl⟩

/-- An alignment fails only where it is asked for, and then for want of an attitude
to start from or of a sample. -/
theorem alignScan_error {o : Odometry α P} {scan : Scan α P} {f : Failure}
    (h : o.alignScan scan = .error f) :
    o.settings.useInertial = true ∧
      ((f = .alignerNotInitialized ∧ o.aligner.previous = none) ∨
        (f = .emptySnapshot ∧
          nearest? Sample.time scan.time o.buffer.samples = none)) := by
  unfold alignScan Aligner.align at h
  cases huse : o.settings.useInertial with
  | false => simp [huse] at h
  | true =>
      cases hprevious : o.aligner.previous with
      | none =>
          simp only [huse, hprevious, if_true, Except.error.injEq] at h
          exact ⟨rfl, Or.inl ⟨h.symm, rfl⟩⟩
      | some previous =>
          cases hnearest : nearest? Sample.time scan.time o.buffer.samples with
          | none =>
              simp only [huse, hprevious, hnearest, if_true, Except.error.injEq] at h
              exact ⟨rfl, Or.inr ⟨h.symm, rfl⟩⟩
          | some sample => simp [huse, hprevious, hnearest] at h

/-- An alignment looks at the use of the sensor, the aligner and the samples alone. -/
theorem Aligns.congr {o other : Odometry α P} {scan : Scan α P}
    {alignment : Option (Alignment α)} {aligner : Aligner α}
    (h : Aligns o scan alignment aligner)
    (huse : other.settings.useInertial = o.settings.useInertial)
    (haligner : other.aligner = o.aligner) (hbuffer : other.buffer = o.buffer) :
    Aligns other scan alignment aligner := by
  cases h with
  | unused hunused =>
      rw [← haligner]
      exact .unused (huse.trans hunused)
  | bySample hused hprevious hnearest =>
      rw [← haligner] at hprevious ⊢
      rw [← hbuffer] at hnearest
      exact .bySample (huse.trans hused) hprevious hnearest

theorem alignScan_error_congr {o other : Odometry α P} {scan : Scan α P} {f : Failure}
    (h : o.alignScan scan = .error f)
    (huse : other.settings.useInertial = o.settings.useInertial)
    (haligner : other.aligner = o.aligner) (hbuffer : other.buffer = o.buffer) :
    other.alignScan scan = .error f := by
  unfold alignScan at h ⊢
  rw [huse, haligner, hbuffer]
  cases hused : o.settings.useInertial with
  | false => simp [hused] at h
  | true =>
      simp only [hused, if_true] at h ⊢
      cases halign : o.aligner.align o.buffer.samples scan.time with
      | error g => simpa only [halign] using h
      | ok result => simp [halign] at h

/-- How a scan can be presented to a pipeline that is not running yet. -/
inductive Warmed (o : Odometry α P) (scan : Scan α P) :
    Odometry α P × Journal α → Prop where
  | unused (huse : o.settings.useInertial = false) :
      Warmed o scan
        ({ o with integrator := o.integrator.setQuery scan.points, initialized := true },
          [.odometryStarted scan.time])
  | waiting (huse : o.settings.useInertial = true) (hfirst : o.buffer.first = none) :
      Warmed o scan
        ({ o with integrator := o.integrator.setQuery scan.points }, [.waitingForSample])
  | bySample {sample : Sample α} (huse : o.settings.useInertial = true)
      (hfirst : o.buffer.first = some sample) :
      Warmed o scan
        ({ o with
            integrator := o.integrator.setQuery scan.points
            aligner := { o.aligner with previous := some sample.attitude }
            initialized := true },
          [.alignerInitialized, .odometryStarted scan.time])

/-- The cases of `Warmed` are all that can happen to a pipeline that waits. -/
theorem warmed_warmUp (o : Odometry α P) (scan : Scan α P) :
    Warmed o scan (o.warmUp scan) := by
  unfold warmUp
  cases huse : o.settings.useInertial with
  | false => simpa only [huse] using .unused huse
  | true =>
      cases hfirst : o.buffer.first with
      | none => simpa only [huse, hfirst] using .waiting huse hfirst
      | some sample => simpa only [huse, hfirst] using .bySample huse hfirst

private theorem gate_journal_quiet (g : FusionGate α) (gap : Option α) :
    .queueEmpty ∉ g.journal gap := by
  unfold FusionGate.journal
  split <;> simp

end Odometry

variable [HasSingularValues α]

namespace Fusion

/-- How the fusion of a registered increment with the oldest of some deltas can go. -/
inductive Combined (deltas : BoundedQueue (Tensor α)) (raw : RigidTransform α)
    (active : Bool) :
    BoundedQueue (Tensor α) × Except Failure (Fusion α × Journal α) → Prop where
  | angleless {f : Failure} (hrpy : raw.rpy = .error f) :
      Combined deltas raw active (deltas, .error f)
  | inactive {angles : Rpy α} (hrpy : raw.rpy = .ok angles) (hactive : active = false) :
      Combined deltas raw active (deltas, .ok (unfused raw angles, []))
  | drained {angles : Rpy α} (hrpy : raw.rpy = .ok angles) (hactive : active = true)
      (hpop : deltas.pop? = none) :
      Combined deltas raw active (deltas, .ok (unfused raw angles, [.queueEmpty]))
  | taken {angles : Rpy α} {delta : Tensor α} {rest : BoundedQueue (Tensor α)}
      {fused : Except Failure (Fusion α × Journal α)} (hrpy : raw.rpy = .ok angles)
      (hactive : active = true) (hpop : deltas.pop? = some (delta, rest))
      (hdelta : withDelta raw angles delta = fused) :
      Combined deltas raw active (rest, fused)

theorem combined_combine (deltas : BoundedQueue (Tensor α)) (raw : RigidTransform α)
    (active : Bool) : Combined deltas raw active (combine deltas raw active) := by
  unfold combine
  cases hrpy : raw.rpy with
  | error f => exact .angleless hrpy
  | ok angles =>
      cases active with
      | false => exact .inactive hrpy rfl
      | true =>
          cases hpop : deltas.pop? with
          | none => exact .drained hrpy rfl hpop
          | some taken => exact .taken hrpy rfl hpop rfl

theorem Combined.combine_eq {deltas : BoundedQueue (Tensor α)} {raw : RigidTransform α}
    {active : Bool} {out : BoundedQueue (Tensor α) × Except Failure (Fusion α × Journal α)}
    (h : Combined deltas raw active out) : combine deltas raw active = out := by
  cases h with
  | angleless hrpy => simp [combine, hrpy]
  | inactive hrpy hactive => simp [combine, hrpy, hactive]
  | drained hrpy hactive hpop => simp [combine, hrpy, hactive, hpop]
  | taken hrpy hactive hpop hdelta => simp [combine, hrpy, hactive, hpop, hdelta]

/-- A delta that was fused shows in the angles of the fusion, and the translation is
that of the registration. -/
theorem withDelta_ok {raw : RigidTransform α} {angles : Rpy α} {delta : Tensor α}
    {fusion : Fusion α} {journal : Journal α}
    (h : withDelta raw angles delta = .ok (fusion, journal)) :
    fusion.fused = true ∧ fusion.transform.translation = raw.translation ∧
      (∃ tilt, delta.toAttitude.bind Mat3.toRpy = .ok tilt ∧
        fusion.rpyInertial = some tilt) ∧
      .queueEmpty ∉ journal := by
  unfold withDelta at h
  obtain ⟨attitude, hattitude, h⟩ := Failure.of_bind_ok h
  obtain ⟨tilt, htilt, h⟩ := Failure.of_bind_ok h
  obtain ⟨rotation, -, h⟩ := Failure.of_bind_ok h
  obtain ⟨correction, -, h⟩ := Failure.of_bind_ok h
  cases h
  exact ⟨rfl, rfl, ⟨tilt, by simp [hattitude, Except.bind, htilt], rfl⟩, by simp⟩

end Fusion

namespace Odometry

def withDeltas (o : Odometry α P) (deltas : BoundedQueue (Tensor α)) : Odometry α P :=
  { o with aligner := { o.aligner with deltas := deltas } }

def report (o : Odometry α P) (scan : Scan α P) (gap : Option α)
    (query reference : P) (registration : Registration α) (fusion : Fusion α)
    (verdict : Verdict α) : Estimate α P where
  stamp := scan.stamp
  scanIndex := scan.index
  fixedFrame := o.settings.fixedFrame
  odometryFrame := o.settings.odometryFrame
  incremental := fusion.transform
  integrated := (o.integrator.integrate fusion.transform verdict.accepted).integrated
  accepted := verdict.accepted
  fusionActive := fusion.fused
  timeGap := gap.map .real
  rpyRegistration := fusion.rpyRegistration
  rpyInertial := fusion.rpyInertial
  fitness := registration.fitness
  rmse := registration.rmse
  processingTime := .real (registration.effort.elapsed * Scalar.nat 1000)
  query := query
  reference := reference

def integrated (o : Odometry α P) (increment : RigidTransform α) (accepted : Bool) :
    Odometry α P :=
  { o with
    integrator := o.integrator.integrate increment accepted
    cycles := o.cycles + 1 }

/-- How the registration of a scan can be taken in. -/
inductive Absorbed (o : Odometry α P) (scan : Scan α P) (gap : Option α) (active : Bool)
    (query reference : P) (registration : Registration α) :
    Odometry α P × Journal α × Except Failure (Estimate α P) → Prop where
  | unread {f : Failure}
      (hmatrix : RigidTransform.ofTensor registration.transformation = .error f) :
      Absorbed o scan gap active query reference registration (o, [], .error f)
  | unfused {raw : RigidTransform α} {deltas : BoundedQueue (Tensor α)} {f : Failure}
      (hmatrix : RigidTransform.ofTensor registration.transformation = .ok raw)
      (hfuse : Fusion.Combined o.aligner.deltas raw active (deltas, .error f)) :
      Absorbed o scan gap active query reference registration
        (o.withDeltas deltas, [], .error f)
  | unjudged {raw : RigidTransform α} {deltas : BoundedQueue (Tensor α)}
      {fusion : Fusion α} {journal : Journal α} {f : Failure}
      (hmatrix : RigidTransform.ofTensor registration.transformation = .ok raw)
      (hfuse : Fusion.Combined o.aligner.deltas raw active
        (deltas, .ok (fusion, journal)))
      (hguard : o.settings.guard.check fusion.transform = .error f) :
      Absorbed o scan gap active query reference registration
        (o.withDeltas deltas, journal ++ [.fusionState scan.time fusion.fused], .error f)
  | judged {raw : RigidTransform α} {deltas : BoundedQueue (Tensor α)}
      {fusion : Fusion α} {journal : Journal α} {verdict : Verdict α}
      (hmatrix : RigidTransform.ofTensor registration.transformation = .ok raw)
      (hfuse : Fusion.Combined o.aligner.deltas raw active
        (deltas, .ok (fusion, journal)))
      (hguard : o.settings.guard.check fusion.transform = .ok verdict) :
      Absorbed o scan gap active query reference registration
        ((o.withDeltas deltas).integrated fusion.transform verdict.accepted,
          journal ++ [.fusionState scan.time fusion.fused] ++ verdict.journal,
          .ok (o.report scan gap query reference registration fusion verdict))

/-- The cases of `Absorbed` are all that can happen to a registration. -/
theorem absorbed_absorb (o : Odometry α P) (scan : Scan α P) (gap : Option α)
    (active : Bool) (query reference : P) (registration : Registration α) :
    Absorbed o scan gap active query reference registration
      (o.absorb scan gap active query reference registration) := by
  unfold absorb
  cases hmatrix : RigidTransform.ofTensor registration.transformation with
  | error f => exact .unread hmatrix
  | ok raw =>
      have hfuse := Fusion.combined_combine o.aligner.deltas raw active
      cases hcombine : Fusion.combine o.aligner.deltas raw active with
      | mk deltas fused =>
          rw [hcombine] at hfuse
          cases fused with
          | error f => simpa only [hcombine] using .unfused hmatrix hfuse
          | ok fused =>
              obtain ⟨fusion, journal⟩ := fused
              cases hguard : o.settings.guard.check fusion.transform with
              | error f =>
                  simpa only [hcombine, hguard] using .unjudged hmatrix hfuse hguard
              | ok verdict =>
                  simpa only [hcombine, hguard] using .judged hmatrix hfuse hguard

theorem Absorbed.absorb_eq {o : Odometry α P} {scan : Scan α P} {gap : Option α}
    {active : Bool} {query reference : P} {registration : Registration α}
    {out : Odometry α P × Journal α × Except Failure (Estimate α P)}
    (h : Absorbed o scan gap active query reference registration out) :
    o.absorb scan gap active query reference registration = out := by
  cases h with
  | unread hmatrix => simp [absorb, hmatrix]
  | unfused hmatrix hfuse => simp [absorb, hmatrix, hfuse.combine_eq, withDeltas]
  | unjudged hmatrix hfuse hguard =>
      simp [absorb, hmatrix, hfuse.combine_eq, hguard, withDeltas]
  | judged hmatrix hfuse hguard =>
      simp [absorb, hmatrix, hfuse.combine_eq, hguard, withDeltas, integrated, report]

/-- The state in which an engine is asked: the alignment is done and the scans have
moved up. -/
def facing (o : Odometry α P) (aligner : Aligner α) (query reference : P) :
    Odometry α P :=
  { o with
    aligner := aligner
    integrator := { o.integrator with query := some query, reference := some reference } }

/-- Whether the gate lets the sample of an alignment through, if there was an
alignment. -/
def opensFor (o : Odometry α P) (alignment : Option (Alignment α)) : Bool :=
  (o.settings.gate.evaluate (alignment.map (·.gap))).opens

/-- How the cycle of a running pipeline can go. -/
inductive Course (engine : Engine α P) (o : Odometry α P) (scan : Scan α P) :
    CycleOutcome α P → Prop where
  | unaligned {f : Failure} (halign : o.alignScan scan = .error f) :
      Course engine o scan ⟨o, [], none, .error f⟩
  | unpaired {alignment : Option (Alignment α)} {aligner : Aligner α} {said : Journal α}
      (halign : Aligns o scan alignment aligner)
      (hquery : o.integrator.query = none) (hquiet : .queueEmpty ∉ said) :
      Course engine o scan
        ⟨{ o with aligner := aligner }, said, none, .error .noQueryScan⟩
  | unregistered {alignment : Option (Alignment α)} {aligner : Aligner α}
      {said : Journal α} {reference : P} {f : Failure}
      (halign : Aligns o scan alignment aligner)
      (hquery : o.integrator.query = some reference)
      (hengine : engine scan.points reference = .error f)
      (hquiet : .queueEmpty ∉ said) :
      Course engine o scan
        ⟨o.facing aligner scan.points reference, said, some (scan.points, reference),
          .error f⟩
  | registered {alignment : Option (Alignment α)} {aligner : Aligner α}
      {final : Odometry α P} {said last : Journal α} {reference : P}
      {registration : Registration α} {result : Except Failure (Estimate α P)}
      (halign : Aligns o scan alignment aligner)
      (hquery : o.integrator.query = some reference)
      (hengine : engine scan.points reference = .ok registration)
      (hquiet : .queueEmpty ∉ said)
      (habsorb : Absorbed (o.facing aligner scan.points reference) scan
        (alignment.map (·.gap)) (o.opensFor alignment) scan.points reference registration
        (final, last, result)) :
      Course engine o scan
        ⟨final, said ++ last, some (scan.points, reference), result.map some⟩

/-- The cases of `Course` are all that can happen in a cycle. -/
theorem course_cycle (engine : Engine α P) (o : Odometry α P) (scan : Scan α P) :
    Course engine o scan (o.cycle engine scan) := by
  unfold cycle
  cases hscan : o.alignScan scan with
  | error f => exact .unaligned hscan
  | ok result =>
      obtain ⟨alignment, aligned, journal⟩ := result
      obtain ⟨⟨aligner, rfl, halign⟩, hjournal⟩ := alignScan_ok hscan
      have hquiet : .queueEmpty ∉
          journal ++ o.settings.gate.journal (alignment.map (·.gap)) := by
        simp only [List.mem_append, not_or]
        exact ⟨hjournal, gate_journal_quiet _ _⟩
      cases hquery : o.integrator.query with
      | none => simpa only [hquery] using .unpaired halign hquery hquiet
      | some reference =>
          have hrotate : o.integrator.rotateScans scan.points =
              .ok { o.integrator with
                query := some scan.points
                reference := some reference } := by
            simp [PoseIntegrator.rotateScans, PoseIntegrator.promoteQuery, hquery,
              Except.map, PoseIntegrator.setQuery]
          cases hengine : engine scan.points reference with
          | error f =>
              simpa only [hquery, hrotate, hengine] using
                .unregistered halign hquery hengine hquiet
          | ok registration =>
              have hregistered : .queueEmpty ∉ journal ++
                  o.settings.gate.journal (alignment.map (·.gap)) ++
                  registration.journal := by
                rw [List.mem_append, not_or]
                exact ⟨hquiet, by simp [Registration.journal]⟩
              have habsorb := absorbed_absorb (o.facing aligner scan.points reference)
                scan (alignment.map (·.gap)) (o.opensFor alignment) scan.points
                reference registration
              simpa only [hquery, hrotate, hengine] using
                .registered halign hquery hengine hregistered habsorb

/-- The rules leave a cycle no choice but in what is said. -/
theorem Course.cycle_eq {engine : Engine α P} {o : Odometry α P} {scan : Scan α P}
    {out : CycleOutcome α P} (h : Course engine o scan out) :
    (o.cycle engine scan).state = out.state ∧ (o.cycle engine scan).call = out.call ∧
      (o.cycle engine scan).result = out.result := by
  cases h with
  | unaligned hscan => simp [cycle, hscan]
  | unpaired halign hquery hquiet =>
      obtain ⟨journal, hscan⟩ := halign.alignScan_eq
      simp [cycle, hscan, hquery]
  | unregistered halign hquery hengine hquiet =>
      obtain ⟨journal, hscan⟩ := halign.alignScan_eq
      simp [cycle, hscan, hquery, hengine, facing, PoseIntegrator.rotateScans,
        PoseIntegrator.promoteQuery, PoseIntegrator.setQuery, Except.map]
  | registered halign hquery hengine hquiet habsorb =>
      obtain ⟨journal, hscan⟩ := halign.alignScan_eq
      have hout := habsorb.absorb_eq
      simp only [facing, opensFor] at hout
      simp [cycle, hscan, hquery, hengine, hout, PoseIntegrator.rotateScans,
        PoseIntegrator.promoteQuery, PoseIntegrator.setQuery, Except.map]

/-- The state that is left of a scan in every case: its stamp. -/
def stamped (o : Odometry α P) (scan : Scan α P) : Odometry α P :=
  { o with stamp := some scan.stamp }

theorem update_of_initialized (engine : Engine α P) {o : Odometry α P}
    (scan : Scan α P) (h : o.initialized = true) :
    o.update engine scan = (o.stamped scan).cycle engine scan := by
  simp [update, h, stamped]

theorem course_update (engine : Engine α P) {o : Odometry α P} (scan : Scan α P)
    (h : o.initialized = true) :
    Course engine (o.stamped scan) scan (o.update engine scan) := by
  rw [update_of_initialized engine scan h]
  exact course_cycle engine (o.stamped scan) scan

/-- A scan that is shown to a waiting pipeline has no result and asks no engine. -/
theorem update_of_not_initialized (engine : Engine α P) {o : Odometry α P}
    (scan : Scan α P) (h : o.initialized = false) :
    o.update engine scan =
      ⟨((o.stamped scan).warmUp scan).1, ((o.stamped scan).warmUp scan).2, none,
        .ok none⟩ := by
  simp [update, h, stamped]

end Odometry

end InertialOdometry
