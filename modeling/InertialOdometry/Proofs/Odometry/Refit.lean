import InertialOdometry.Proofs.Odometry.FusionDecision

/-!
Pipelines with other queues. What a scan makes of a pipeline depends on its sample buffer
through the sample to start by and the nearest sample alone, and on the capacity of its
deltas only where they overflow. So a pipeline may have another buffer and another
capacity, and a scan does the same to it.
-/

namespace InertialOdometry

section

variable {α P : Type}

def Settings.withCapacity (s : Settings α) (capacity : Nat) (hcapacity : 0 < capacity) :
    Settings α :=
  { s with capacity := capacity, capacity_pos := hcapacity }

def BoundedQueue.resized {β : Type} (q : BoundedQueue β) (capacity : Nat) : BoundedQueue β :=
  { q with capacity := capacity }

def Aligner.resized (a : Aligner α) (capacity : Nat) : Aligner α :=
  { a with deltas := a.deltas.resized capacity }

/-- The pipeline with another sample buffer, and another capacity for its deltas. -/
def Odometry.refit (o : Odometry α P) (capacity : Nat) (hcapacity : 0 < capacity)
    (buffer : SampleBuffer α) : Odometry α P :=
  { o with
    settings := o.settings.withCapacity capacity hcapacity
    buffer := buffer
    aligner := o.aligner.resized capacity }

theorem BoundedQueue.items_push_of_lt {β : Type} {q : BoundedQueue β}
    (h : q.size < q.capacity) (x : β) : (q.push x).items = q.items ++ [x] := by
  rw [q.items_push_eq_kept x (by omega) (Nat.le_of_lt h), kept, if_neg (Nat.ne_of_lt h)]

end

variable {α P : Type} [Scalar α] [HasSingularValues α]

theorem Fusion.Combined.resized {deltas left : BoundedQueue (Tensor α)}
    {raw : RigidTransform α} {active : Bool} {fused : Except Failure (Fusion α × Journal α)}
    (h : Combined deltas raw active (left, fused)) (capacity : Nat) :
    Combined (deltas.resized capacity) raw active (left.resized capacity, fused) := by
  cases h with
  | angleless hrpy => exact .angleless hrpy
  | inactive hrpy hactive => exact .inactive hrpy hactive
  | drained hrpy hactive hpop =>
      have hitems := BoundedQueue.pop?_eq_none hpop
      refine .drained hrpy hactive ?_
      simp [BoundedQueue.pop?, BoundedQueue.resized, hitems]
  | @taken angles delta _ _ hrpy hactive hpop hdelta =>
      obtain ⟨hitems, hleft⟩ := BoundedQueue.pop?_eq_some hpop
      have hpop' : (deltas.resized capacity).pop? = some (delta, left.resized capacity) := by
        simp [BoundedQueue.pop?, BoundedQueue.resized, hitems]
      exact .taken hrpy hactive hpop' hdelta

/-- Fusion takes a delta where it is active, unless there is none. -/
theorem Fusion.Combined.size_le {deltas left : BoundedQueue (Tensor α)}
    {raw : RigidTransform α} {active : Bool} {fused : Fusion α × Journal α}
    (h : Combined deltas raw active (left, .ok fused)) :
    left.size ≤ deltas.size - if active then 1 else 0 := by
  cases h with
  | inactive hrpy hactive => simp [hactive]
  | drained hrpy hactive hpop =>
      simp [BoundedQueue.size, BoundedQueue.pop?_eq_none hpop]
  | taken hrpy hactive hpop hdelta =>
      obtain ⟨hitems, -⟩ := BoundedQueue.pop?_eq_some hpop
      simp [BoundedQueue.size, hitems, hactive]

namespace Odometry

variable {capacity : Nat} {buffer : SampleBuffer α}

/-- What a scan looks for in the queues of a pipeline, it finds in other ones as well: the
sample to start by and the nearest sample, and room for a delta. -/
structure Fits (o : Odometry α P) (t : α) (capacity : Nat) (buffer : SampleBuffer α) :
    Prop where
  first : buffer.first = o.buffer.first
  nearest : nearest? Sample.time t buffer.samples = nearest? Sample.time t o.buffer.samples
  room : ∀ d, ((o.aligner.deltas.resized capacity).push d).items =
    (o.aligner.deltas.push d).items

omit [HasSingularValues α] in
/-- An alignment goes the same way in queues of another length, if they have what it looks for. -/
theorem Aligns.refit {o : Odometry α P} {scan : Scan α P}
    {alignment : Option (Alignment α)} {aligner : Aligner α}
    (h : Aligns o scan alignment aligner) (hcapacity : 0 < capacity)
    (hfits : o.settings.useInertial = true → o.Fits scan.time capacity buffer) :
    Aligns (o.refit capacity hcapacity buffer) scan alignment (aligner.resized capacity) := by
  cases h with
  | unused huse =>
      have hunused : (o.refit capacity hcapacity buffer).settings.useInertial = false := huse
      exact .unused hunused
  | @bySample previous sample huse hprevious hnearest =>
      have hfit := hfits huse
      have haligner : (alignedBy o.aligner sample previous).resized capacity =
          alignedBy (o.refit capacity hcapacity buffer).aligner sample previous := by
        have hroom := hfit.room (.ofMat3 (relativeRotation sample.attitude previous))
        simp only [alignedBy, Aligner.resized, Odometry.refit, Aligner.mk.injEq, true_and]
        simp only [BoundedQueue.push, BoundedQueue.resized] at hroom ⊢
        rw [hroom]
      rw [haligner]
      have hused : (o.refit capacity hcapacity buffer).settings.useInertial = true := huse
      exact .bySample hused hprevious (hfit.nearest.trans hnearest)

omit [HasSingularValues α] in
private theorem alignScan_error_refit {o : Odometry α P} {scan : Scan α P} {f : Failure}
    (h : o.alignScan scan = .error f) (hcapacity : 0 < capacity)
    (hfits : o.settings.useInertial = true → o.Fits scan.time capacity buffer) :
    (o.refit capacity hcapacity buffer).alignScan scan = .error f := by
  obtain ⟨huse, -⟩ := alignScan_error h
  have hused : (o.refit capacity hcapacity buffer).settings.useInertial = true := huse
  have hprevious : (o.refit capacity hcapacity buffer).aligner.previous =
      o.aligner.previous := rfl
  have hnearest : nearest? Sample.time scan.time
      (o.refit capacity hcapacity buffer).buffer.samples =
        nearest? Sample.time scan.time o.buffer.samples := (hfits huse).nearest
  unfold alignScan Aligner.align at h ⊢
  rw [hused, hprevious, hnearest]
  rw [huse] at h
  cases hp : o.aligner.previous with
  | none => simpa [hp] using h
  | some previous =>
      cases hn : nearest? Sample.time scan.time o.buffer.samples with
      | none => simpa [hp, hn] using h
      | some sample => simp [hp, hn] at h

/-- Taking in a registration goes the same way with other queues. -/
theorem Absorbed.refit {o final : Odometry α P} {scan : Scan α P} {gap : Option α}
    {active : Bool} {query reference : P} {registration : Registration α}
    {journal : Journal α} {result : Except Failure (Estimate α P)}
    (h : Absorbed o scan gap active query reference registration (final, journal, result))
    (hcapacity : 0 < capacity) (buffer : SampleBuffer α) :
    Absorbed (o.refit capacity hcapacity buffer) scan gap active query reference registration
      (final.refit capacity hcapacity buffer, journal, result) := by
  cases h with
  | unread hmatrix => exact .unread hmatrix
  | unfused hmatrix hfuse => exact .unfused hmatrix (hfuse.resized capacity)
  | unjudged hmatrix hfuse hguard =>
      exact .unjudged hmatrix (hfuse.resized capacity) hguard
  | judged hmatrix hfuse hguard => exact .judged hmatrix (hfuse.resized capacity) hguard

/-- A cycle goes the same way with other queues. -/
theorem Course.refit {engine : Engine α P} {o : Odometry α P} {scan : Scan α P}
    {out : CycleOutcome α P} (h : Course engine o scan out) (hcapacity : 0 < capacity)
    (hfits : o.settings.useInertial = true → o.Fits scan.time capacity buffer) :
    Course engine (o.refit capacity hcapacity buffer) scan
      { out with state := out.state.refit capacity hcapacity buffer } := by
  cases h with
  | unaligned hscan => exact .unaligned (alignScan_error_refit hscan hcapacity hfits)
  | unpaired halign hquery hquiet =>
      have halign' := halign.refit hcapacity hfits
      exact .unpaired halign' hquery hquiet
  | unregistered halign hquery hengine hquiet =>
      have halign' := halign.refit hcapacity hfits
      exact .unregistered halign' hquery hengine hquiet
  | registered halign hquery hengine hquiet habsorb =>
      have halign' := halign.refit hcapacity hfits
      exact .registered halign' hquery hengine hquiet (habsorb.refit hcapacity buffer)

omit [HasSingularValues α] in
theorem warmUp_refit {o : Odometry α P} (scan : Scan α P) (hcapacity : 0 < capacity)
    (hfits : o.settings.useInertial = true → o.Fits scan.time capacity buffer) :
    ((o.refit capacity hcapacity buffer).warmUp scan).1 =
      (o.warmUp scan).1.refit capacity hcapacity buffer := by
  have huse : (o.refit capacity hcapacity buffer).settings.useInertial =
      o.settings.useInertial := rfl
  unfold warmUp
  cases hused : o.settings.useInertial with
  | false =>
      simp only [huse, hused, Bool.false_eq_true, if_false]
      rfl
  | true =>
      have hfirst : (o.refit capacity hcapacity buffer).buffer.first = o.buffer.first :=
        (hfits hused).first
      simp only [huse, hused, hfirst, if_true]
      cases o.buffer.first <;> rfl

/-- A scan does the same to a pipeline with other queues in which it finds what it looks
for: the engine is asked the same, and the result is the same. -/
theorem update_refit (engine : Engine α P) {o : Odometry α P} {scan : Scan α P}
    (hcapacity : 0 < capacity)
    (hfits : o.settings.useInertial = true → o.Fits scan.time capacity buffer) :
    ((o.refit capacity hcapacity buffer).update engine scan).state =
        (o.update engine scan).state.refit capacity hcapacity buffer ∧
      ((o.refit capacity hcapacity buffer).update engine scan).shown =
        (o.update engine scan).shown := by
  have hinitialized : (o.refit capacity hcapacity buffer).initialized = o.initialized := rfl
  have hstamped : (o.refit capacity hcapacity buffer).stamped scan =
      (o.stamped scan).refit capacity hcapacity buffer := rfl
  have hfits' : (o.stamped scan).settings.useInertial = true →
      (o.stamped scan).Fits scan.time capacity buffer := fun huse => { hfits huse with }
  cases hrunning : o.initialized with
  | false =>
      rw [update_of_not_initialized engine scan hrunning,
        update_of_not_initialized engine scan (hinitialized.trans hrunning), hstamped]
      exact ⟨warmUp_refit scan hcapacity hfits', rfl⟩
  | true =>
      obtain ⟨hstate, hcall, hresult⟩ :=
        ((course_update engine scan hrunning).refit hcapacity hfits').cycle_eq
      rw [update_of_initialized engine scan (hinitialized.trans hrunning), hstamped]
      exact ⟨hstate, by rw [CycleOutcome.shown, hcall, hresult]; rfl⟩

/-- How many of some estimates the gate has turned away the sample of. -/
def staleCount (s : Settings α) (estimates : List (Estimate α P)) : Nat :=
  estimates.countP fun e => decide (IsStale s e)

omit [HasSingularValues α] in
theorem staleCount_append (s : Settings α) (before more : List (Estimate α P)) :
    staleCount s (before ++ more) = staleCount s before + staleCount s more :=
  List.countP_append

omit [HasSingularValues α] in
/-- A gate that does not check turns nothing away. -/
theorem staleCount_of_unchecked {s : Settings α} (h : s.checkInertial = false)
    (estimates : List (Estimate α P)) : staleCount s estimates = 0 := by
  refine List.countP_eq_zero.mpr fun e _ => ?_
  cases huse : s.useInertial <;> cases hgap : e.timeGap <;>
    simp [IsStale, FusionGate.evaluate, Settings.gate, h, huse, hgap]

/-- A cycle that does not fail leaves a delta behind only where its estimate is stale. -/
theorem Course.size_deltas {engine : Engine α P} {o : Odometry α P} {scan : Scan α P}
    {out : CycleOutcome α P} (h : Course engine o scan out)
    (hok : ∀ f, out.result ≠ .error f) :
    out.state.aligner.deltas.size ≤
      o.aligner.deltas.size + staleCount o.settings out.estimate?.toList := by
  cases h with
  | unaligned hscan => exact absurd rfl (hok _)
  | unpaired halign hquery hquiet => exact absurd rfl (hok _)
  | unregistered halign hquery hengine hquiet => exact absurd rfl (hok _)
  | @registered alignment aligner final said last reference registration result
      halign hquery hengine hquiet habsorb =>
      cases habsorb with
      | unread hmatrix => exact absurd rfl (hok _)
      | unfused hmatrix hfuse => exact absurd rfl (hok _)
      | unjudged hmatrix hfuse hguard => exact absurd rfl (hok _)
      | @judged raw deltas fusion _ verdict hmatrix hfuse hguard =>
          have hleft := hfuse.size_le
          let e := (o.facing aligner scan.points reference).report scan
            (alignment.map (·.gap)) scan.points reference registration fusion verdict
          have hstale : IsStale o.settings e ↔ _ := isStale_iff halign rfl
          have hcount : staleCount o.settings [e] =
              if IsStale o.settings e then 1 else 0 := by
            simp [staleCount, List.countP_singleton]
          change deltas.size ≤ o.aligner.deltas.size + staleCount o.settings [e]
          rw [hcount]
          cases halign with
          | unused huse =>
              exact Nat.le_add_right_of_le (Nat.le_trans hleft (Nat.sub_le _ _))
          | @bySample previous sample huse hprevious hnearest =>
              have hpush := o.aligner.deltas.size_push
                (.ofMat3 (relativeRotation sample.attitude previous))
              -- The delta of the alignment is used up at once, unless the gate was shut.
              cases hopen : o.opensFor (some (alignmentOf sample previous scan.time)) with
              | true =>
                  simp only [facing, alignedBy, hopen, hpush, if_true] at hleft
                  omega
              | false =>
                  simp only [facing, alignedBy, hopen, hpush] at hleft
                  rw [if_pos (hstale.mpr ⟨huse, hopen⟩)]
                  omega

/-- Deltas are left over only where the gate turns samples away. -/
theorem size_deltas_update {s : Settings α} {o : Odometry α P} (h : Configured s o)
    (engine : Engine α P) (scan : Scan α P)
    (hok : ∀ f, (o.update engine scan).result ≠ .error f) :
    (o.update engine scan).state.aligner.deltas.size ≤
      o.aligner.deltas.size + staleCount s (o.update engine scan).estimate?.toList := by
  cases hrunning : o.initialized with
  | false =>
      have hkept := (warmed_warmUp (o.stamped scan) scan).deltas_eq
      rw [update_of_not_initialized engine scan hrunning, hkept]
      exact Nat.le_add_right _ _
  | true =>
      have hsettings : (o.stamped scan).settings = s := h.settings
      rw [← hsettings]
      exact (course_update engine scan hrunning).size_deltas hok

end Odometry

end InertialOdometry
