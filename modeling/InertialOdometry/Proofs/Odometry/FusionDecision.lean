import InertialOdometry.Proofs.Odometry.Deltas

/-!
The decision about fusion. The gate alone decides: where it opens, the alignment of
the same cycle has queued a delta just before, so that fusion always finds one. An
estimate that is not fused is the registration as it is, and a fused one keeps its
translation.
-/

namespace InertialOdometry

variable {α P : Type} [Scalar α] [HasSingularValues α]

/-- What fusion makes of a registration by the decision of the gate. -/
structure Fusion.Follows (raw : RigidTransform α) (active : Bool)
    (fusion : Fusion α) : Prop where
  fused : fusion.fused = active
  unfused : active = false → fusion.transform = raw ∧ fusion.rpyInertial = none
  translation : fusion.transform.translation = raw.translation

/-- Fusion that finds a delta whenever it is active follows the decision, and never
speaks of an empty queue. -/
theorem Fusion.Combined.follows {deltas left : BoundedQueue (Tensor α)}
    {raw : RigidTransform α} {active : Bool} {fusion : Fusion α}
    {journal : Journal α}
    (h : Combined deltas raw active (left, .ok (fusion, journal)))
    (hitems : active = true → deltas.items ≠ []) :
    fusion.Follows raw active ∧ .queueEmpty ∉ journal := by
  cases h with
  | inactive hrpy hactive =>
      exact ⟨⟨hactive.symm, fun _ => ⟨rfl, rfl⟩, rfl⟩, by simp⟩
  | drained hrpy hactive hpop =>
      exact absurd (BoundedQueue.pop?_eq_none hpop) (hitems hactive)
  | taken hrpy hactive hpop hdelta =>
      obtain ⟨hfused, htranslation, -, hquiet⟩ := withDelta_ok hdelta
      refine ⟨⟨hfused.trans hactive.symm, ?_, htranslation⟩, hquiet⟩
      intro hinactive
      rw [hactive] at hinactive
      cases hinactive

namespace Odometry

/-- An estimate shows what fusion made of a registration by the decision of the
gate. -/
structure Shows (e : Estimate α P) (registration : Registration α) (gap : Option α)
    (active : Bool) : Prop where
  timeGap : e.timeGap = gap.map .real
  fusionActive : e.fusionActive = active
  increment : ∃ raw, RigidTransform.ofTensor registration.transformation = .ok raw ∧
    (active = false → e.incremental = raw ∧ e.rpyInertial = none) ∧
    e.incremental.translation = raw.translation

/-- The estimate of a cycle shows the decision of the gate. -/
theorem Absorbed.shows {o final : Odometry α P} {scan : Scan α P} {gap : Option α}
    {active : Bool} {query reference : P} {registration : Registration α}
    {journal : Journal α} {result : Except Failure (Estimate α P)}
    (h : Absorbed o scan gap active query reference registration (final, journal, result))
    (hitems : active = true → o.aligner.deltas.items ≠ []) :
    .queueEmpty ∉ journal ∧ ∀ e, result = .ok e → Shows e registration gap active := by
  cases h with
  | unread hmatrix => exact ⟨by simp, by simp⟩
  | unfused hmatrix hfuse => exact ⟨by simp, by simp⟩
  | unjudged hmatrix hfuse hguard =>
      obtain ⟨-, hquiet⟩ := hfuse.follows hitems
      exact ⟨by simp [hquiet], by simp⟩
  | @judged raw deltas fusion said verdict hmatrix hfuse hguard =>
      obtain ⟨hfollows, hquiet⟩ := hfuse.follows hitems
      have hverdict : .queueEmpty ∉ verdict.journal := by
        unfold Verdict.journal
        split <;> simp
      refine ⟨by simp [hquiet, hverdict], ?_⟩
      intro e he
      cases he
      exact ⟨rfl, hfollows.fused, raw, hmatrix, hfollows.unfused, hfollows.translation⟩

omit [HasSingularValues α] in
/-- Where the gate opens, the alignment has queued a delta. -/
theorem Aligns.items_ne_nil {o : Odometry α P} {scan : Scan α P}
    {alignment : Option (Alignment α)} {aligner : Aligner α}
    (h : Aligns o scan alignment aligner)
    (hcapacity : 0 < o.aligner.deltas.capacity)
    (hopen : o.opensFor alignment = true) :
    aligner.deltas.items ≠ [] := by
  cases h with
  | unused huse =>
      rw [opensFor_none] at hopen
      cases hopen
  | bySample huse hprevious hnearest => exact BoundedQueue.items_push_ne_nil _ hcapacity

omit [HasSingularValues α] in
private theorem opensFor_some_iff {o : Odometry α P} (huse : o.settings.useInertial = true)
    (alignment : Alignment α) :
    o.opensFor (some alignment) = true ↔
      o.settings.checkInertial = false ∨
        Scalar.abs alignment.gap < Scalar.abs o.settings.maxGap := by
  unfold opensFor FusionGate.evaluate
  cases hcheck : o.settings.checkInertial with
  | false => simp [Settings.gate, huse, hcheck, GateReason.opens]
  | true =>
      by_cases hnear : Scalar.abs alignment.gap < Scalar.abs o.settings.maxGap
      · simp [Settings.gate, huse, hcheck, hnear, GateReason.opens]
      · simp [Settings.gate, huse, hcheck, hnear, GateReason.opens]

omit [HasSingularValues α] in
private theorem Warmed.quiet {o : Odometry α P} {scan : Scan α P}
    {out : Odometry α P × Journal α} (h : Warmed o scan out) :
    .queueEmpty ∉ out.2 := by
  cases h with
  | unused huse => simp
  | waiting huse hfirst => simp
  | bySample huse hfirst => simp

/-- A cycle that may queue a delta at all never speaks of an empty queue, and its
estimate shows the registration as the gate decided about the alignment. -/
theorem Course.shows {engine : Engine α P} {o : Odometry α P} {scan : Scan α P}
    {out : CycleOutcome α P} (h : Course engine o scan out)
    (hcapacity : 0 < o.aligner.deltas.capacity) :
    .queueEmpty ∉ out.journal ∧
      ∀ e, out.result = .ok (some e) → ∃ alignment aligner reference registration,
        Aligns o scan alignment aligner ∧ out.call = some (scan.points, reference) ∧
        engine scan.points reference = .ok registration ∧
        Shows e registration (alignment.map (·.gap)) (o.opensFor alignment) := by
  cases h with
  | unaligned hfail => exact ⟨by simp, by simp⟩
  | unpaired halign hquery hquiet => exact ⟨hquiet, by simp⟩
  | unregistered halign hquery hengine hquiet => exact ⟨hquiet, by simp⟩
  | @registered alignment aligner final said last reference registration result
      halign hquery hengine hquiet habsorb =>
      obtain ⟨hlast, hshows⟩ := habsorb.shows (halign.items_ne_nil hcapacity)
      refine ⟨by simp [hquiet, hlast], ?_⟩
      intro e he
      refine ⟨alignment, aligner, reference, registration, halign, rfl, hengine, ?_⟩
      cases result with
      | error f => cases he
      | ok estimate =>
          cases he
          exact hshows e rfl

omit [HasSingularValues α] in
/-- The gap and the decision that an estimate shows, by the settings. -/
theorem Shows.decided {o : Odometry α P} {scan : Scan α P}
    {alignment : Option (Alignment α)} {aligner : Aligner α} {e : Estimate α P}
    {registration : Registration α} (halign : Aligns o scan alignment aligner)
    (h : Shows e registration (alignment.map (·.gap)) (o.opensFor alignment)) :
    (o.settings.useInertial = true → ∃ sample,
        nearest? Sample.time scan.time o.buffer.samples = some sample ∧
        e.timeGap = some (.real (sample.time - scan.time)) ∧
        (e.fusionActive = true ↔ o.settings.checkInertial = false ∨
          Scalar.abs (sample.time - scan.time) < Scalar.abs o.settings.maxGap)) ∧
      (o.settings.useInertial = false → e.timeGap = none ∧ e.fusionActive = false) := by
  cases halign with
  | unused hnot =>
      refine ⟨?_, fun _ => ⟨h.timeGap, h.fusionActive.trans (opensFor_none o)⟩⟩
      intro huse
      cases huse.symm.trans hnot
  | @bySample previous sample hused hprevious hnearest =>
      refine ⟨fun _ => ⟨sample, hnearest, h.timeGap, ?_⟩, ?_⟩
      · rw [h.fusionActive]
        exact opensFor_some_iff hused _
      · intro huse
        cases huse.symm.trans hused

/-- An estimate shows the stamp of its scan, and how far the sample was by which the scan
was aligned. -/
theorem exists_aligns_of_estimate {engine : Engine α P} {o : Odometry α P}
    {scan : Scan α P} {e : Estimate α P}
    (he : (o.update engine scan).result = .ok (some e)) :
    o.initialized = true ∧ e.stamp = scan.stamp ∧ ∃ alignment aligner,
      Aligns o scan alignment aligner ∧ e.timeGap = (alignment.map (·.gap)).map .real := by
  cases hrunning : o.initialized with
  | false =>
      rw [update_of_not_initialized engine scan hrunning] at he
      cases he
  | true =>
      have hcourse := course_update engine scan hrunning
      generalize o.update engine scan = out at hcourse he
      cases hcourse with
      | unaligned hscan => cases he
      | unpaired halign hquery hquiet => cases he
      | unregistered halign hquery hengine hquiet => cases he
      | registered halign hquery hengine hquiet habsorb =>
          cases habsorb with
          | unread hmatrix => cases he
          | unfused hmatrix hfuse => cases he
          | unjudged hmatrix hfuse hguard => cases he
          | judged hmatrix hfuse hguard =>
              cases he
              exact ⟨rfl, rfl, _, _, halign.of_stamped, rfl⟩

def IsStale (s : Settings α) (e : Estimate α P) : Prop :=
  s.gate.evaluate (e.timeGap.map Numeral.value) = .stale

instance (s : Settings α) (e : Estimate α P) : Decidable (IsStale s e) :=
  inferInstanceAs (Decidable (_ = _))

omit [HasSingularValues α] in
/-- An estimate is stale if the gate was shut for an alignment. -/
theorem isStale_iff {o : Odometry α P} {scan : Scan α P}
    {alignment : Option (Alignment α)} {aligner : Aligner α} {e : Estimate α P}
    (halign : Aligns o scan alignment aligner)
    (htimeGap : e.timeGap = (alignment.map (·.gap)).map .real) :
    IsStale o.settings e ↔ o.settings.useInertial = true ∧ o.opensFor alignment = false := by
  have hgap : e.timeGap.map Numeral.value = alignment.map (·.gap) := by
    rw [htimeGap, Option.map_map]
    cases alignment <;> rfl
  rw [IsStale, hgap, opensFor]
  cases halign with
  | unused huse =>
      simp [FusionGate.evaluate, Settings.gate, huse]
  | bySample huse hprevious hnearest =>
      simp only [FusionGate.evaluate, Settings.gate, huse, Option.map_some]
      cases o.settings.checkInertial with
      | false => simp [GateReason.opens]
      | true =>
          simp only [Bool.not_true, Bool.false_eq_true, if_false]
          split <;> simp [GateReason.opens]

/-- The decision about fusion, in every state that calls of any kind have led to.
Fusion is never left without a delta. With the sensor in use an estimate shows how
far the nearest sample in the buffer is from the scan, and is fused if and only if
this is not checked or within the limit; without the sensor it is never fused. An
estimate that is not fused is the answer of the engine as it is, and a fused one has
its translation. -/
theorem fusion_decision (s : Settings α) (calls : List (Call α P)) (engine : Engine α P)
    (scan : Scan α P) :
    let o := (create s).run calls
    let out := o.update engine scan
    .queueEmpty ∉ out.journal ∧
      ∀ e, out.result = .ok (some e) →
        (s.useInertial = true → ∃ sample,
          nearest? Sample.time scan.time o.buffer.samples = some sample ∧
          e.timeGap = some (.real (sample.time - scan.time)) ∧
          (e.fusionActive = true ↔ s.checkInertial = false ∨
            Scalar.abs (sample.time - scan.time) < Scalar.abs s.maxGap)) ∧
        (s.useInertial = false → e.timeGap = none ∧ e.fusionActive = false) ∧
        ∃ reference registration raw, out.call = some (scan.points, reference) ∧
          engine scan.points reference = .ok registration ∧
          RigidTransform.ofTensor registration.transformation = .ok raw ∧
          (e.fusionActive = false → e.incremental = raw ∧ e.rpyInertial = none) ∧
          (e.fusionActive = true → e.incremental.translation = raw.translation) := by
  intro o out
  have hconfigured : Configured s o := configured_run s calls
  cases hrunning : o.initialized with
  | false =>
      have hout : out = _ := update_of_not_initialized engine scan hrunning
      rw [hout]
      exact ⟨(warmed_warmUp _ scan).quiet, by simp⟩
  | true =>
      have hcapacity : 0 < o.aligner.deltas.capacity := by
        rw [hconfigured.deltas]
        exact s.capacity_pos
      have hcourse := course_cycle engine (o.stamped scan) scan
      rw [← update_of_initialized engine scan hrunning] at hcourse
      obtain ⟨hquiet, hestimate⟩ := hcourse.shows hcapacity
      refine ⟨hquiet, ?_⟩
      intro e he
      obtain ⟨alignment, aligner, reference, registration, halign, hcall, hengine,
        hshows⟩ := hestimate e he
      obtain ⟨raw, hmatrix, hunfused, htranslation⟩ := hshows.increment
      obtain ⟨hused, hunused⟩ := hshows.decided halign
      have hsettings : (o.stamped scan).settings = s := hconfigured.settings
      rw [hsettings] at hused hunused
      rw [← hshows.fusionActive] at hunfused
      exact ⟨hused, hunused, reference, registration, raw, hcall, hengine, hmatrix,
        hunfused, fun _ => htranslation⟩

/-- A scan a second after the last sample is not fused, and its estimate shows the
engine's answer. -/
theorem fusion_decision_of_stale_scan :
    let o : Odometry Float Nat := (create .checked).run [.upright 0, .still 0]
    let out := o.update .still ⟨0, .real 1, 0⟩
    .queueEmpty ∉ out.journal ∧ Settings.checked.useInertial = true ∧
      ∃ e, out.result = .ok (some e) ∧ e.fusionActive = false ∧ e.rpyInertial = none ∧
        ∃ sample, nearest? Sample.time 1 o.buffer.samples = some sample ∧
          e.timeGap = some (.real (sample.time - 1)) := by
  intro o out
  have hactive : out.estimate?.map (·.fusionActive) = some false := by decide +kernel
  obtain ⟨e, he, hunfused⟩ := Option.map_eq_some_iff.mp hactive
  have hresult := CycleOutcome.estimate?_eq_some_iff.mp he
  obtain ⟨hquiet, hdecision⟩ :=
    fusion_decision .checked [.upright 0, .still 0] .still ⟨0, .real 1, 0⟩
  obtain ⟨hused, -, reference, registration, raw, -, -, -, hincrement, -⟩ :=
    hdecision e hresult
  obtain ⟨sample, hnearest, hgap, -⟩ := hused rfl
  exact ⟨hquiet, rfl, e, hresult, hunfused, (hincrement hunfused).2, sample, hnearest,
    hgap⟩

end Odometry

end InertialOdometry
