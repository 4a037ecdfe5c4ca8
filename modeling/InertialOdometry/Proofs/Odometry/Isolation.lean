import InertialOdometry.Proofs.Odometry.FusionDecision
import InertialOdometry.Proofs.Odometry.Lifecycle
import InertialOdometry.Proofs.Odometry.Noninterference

/-!
How far the sensor reaches. A scan whose sample the gate turns away goes through a
pipeline as if there were no sensor: the samples, the attitude and the deltas change, but
nothing that leads to the engine or to the pose reads them. So the pipeline without the
sensor follows along, scan by scan.
-/

namespace InertialOdometry

variable {α P : Type}

def Settings.blind (s : Settings α) : Settings α := { s with useInertial := false }

/-- An estimate that does not show how far its sample was from the scan. -/
def Estimate.untimed (e : Estimate α P) : Estimate α P := { e with timeGap := none }

def CycleOutcome.untimed (out : CycleOutcome α P) : CycleOutcome α P :=
  { out with result := out.result.map (·.map Estimate.untimed) }

namespace Call

def isSample : Call α P → Bool
  | sample _ => true
  | _ => false

def isScan : Call α P → Bool
  | scan _ _ => true
  | _ => false

/-- Whether a call can move a trajectory: it presents a scan, or it is a reset. -/
def moves : Call α P → Bool
  | scan _ _ | reset => true
  | _ => false

/-- The calls that move a trajectory are none of the samples. -/
theorem filter_moves_eq {calls calls' : List (Call α P)}
    (h : calls.filter (!·.isSample) = calls'.filter (!·.isSample)) :
    calls.filter moves = calls'.filter moves := by
  have hfilter : ∀ calls : List (Call α P),
      (calls.filter (!·.isSample)).filter moves = calls.filter moves := by
    intro calls
    rw [List.filter_filter]
    refine List.filter_congr fun call _ => ?_
    cases call <;> rfl
  rw [← hfilter calls, h, hfilter]

private theorem filter_moves_of_notMem_reset {calls : List (Call α P)} (hreset : .reset ∉ calls) :
    calls.filter moves = calls.filter isScan := by
  refine List.filter_congr fun call hcall => ?_
  cases call with
  | reset => exact absurd hcall hreset
  | sample x => rfl
  | scan engine scan => rfl
  | lastScan => rfl
  | clearBuffer => rfl

end Call

variable [Scalar α] [HasSingularValues α]

/-- Without fusion no delta is looked at. -/
theorem Fusion.Combined.of_inactive {deltas left : BoundedQueue (Tensor α)}
    {raw : RigidTransform α} {fused : Except Failure (Fusion α × Journal α)}
    (h : Combined deltas raw false (left, fused)) (other : BoundedQueue (Tensor α)) :
    Combined other raw false (other, fused) := by
  cases h with
  | angleless hrpy => exact .angleless hrpy
  | inactive hrpy hactive => exact .inactive hrpy hactive
  | drained hrpy hactive hpop => cases hactive
  | taken hrpy hactive hpop hdelta => cases hactive

namespace Odometry

/-- The pipeline as it would be without the sensor: nothing was received, and nothing
aligned. -/
def blinded (o : Odometry α P) : Odometry α P :=
  { o with
    settings := o.settings.blind
    buffer := .empty o.settings.capacity
    aligner := .empty o.settings.capacity }

/-- The sensor has no part in a scan: it is not in use, it does no more than start the
pipeline, or the gate turns its sample away. -/
inductive Unsensed (o : Odometry α P) (scan : Scan α P) : Prop where
  | unused (huse : o.settings.useInertial = false)
  | starting (hwaits : o.initialized = false) (hfirst : o.buffer.first ≠ none)
  | shut {alignment : Option (Alignment α)} {aligner : Aligner α}
      (hrunning : o.initialized = true) (halign : Aligns o scan alignment aligner)
      (hshut : o.opensFor alignment = false)

omit [HasSingularValues α] in
/-- An alignment has one outcome at most. -/
theorem Aligns.unique {o : Odometry α P} {scan : Scan α P}
    {alignment alignment' : Option (Alignment α)} {aligner aligner' : Aligner α}
    (h : Aligns o scan alignment aligner) (h' : Aligns o scan alignment' aligner') :
    alignment' = alignment ∧ aligner' = aligner := by
  obtain ⟨journal, hscan⟩ := h.alignScan_eq
  obtain ⟨journal', hscan'⟩ := h'.alignScan_eq
  rw [hscan] at hscan'
  simp only [Except.ok.injEq, Prod.mk.injEq, Odometry.mk.injEq] at hscan'
  exact ⟨hscan'.1.symm, hscan'.2.1.2.2.1.symm⟩

/-- A registration that is not fused is taken in without the sensor as well. -/
theorem Absorbed.blinded {o final : Odometry α P} {scan : Scan α P} {gap : Option α}
    {query reference : P} {registration : Registration α} {journal : Journal α}
    {result : Except Failure (Estimate α P)}
    (h : Absorbed o scan gap false query reference registration (final, journal, result)) :
    Absorbed o.blinded scan none false query reference registration
      (final.blinded, journal, result.map Estimate.untimed) := by
  cases h with
  | unread hmatrix => exact .unread hmatrix
  | unfused hmatrix hfuse =>
      exact .unfused hmatrix (hfuse.of_inactive o.blinded.aligner.deltas)
  | unjudged hmatrix hfuse hguard =>
      exact .unjudged hmatrix (hfuse.of_inactive o.blinded.aligner.deltas) hguard
  | judged hmatrix hfuse hguard =>
      exact .judged hmatrix (hfuse.of_inactive o.blinded.aligner.deltas) hguard

/-- An estimate without an alignment shows no time gap. -/
theorem Absorbed.untimed_eq {o final : Odometry α P} {scan : Scan α P} {active : Bool}
    {query reference : P} {registration : Registration α} {journal : Journal α}
    {result : Except Failure (Estimate α P)}
    (h : Absorbed o scan none active query reference registration
      (final, journal, result)) :
    result.map Estimate.untimed = result := by
  cases h with
  | unread hmatrix => rfl
  | unfused hmatrix hfuse => rfl
  | unjudged hmatrix hfuse hguard => rfl
  | judged hmatrix hfuse hguard => rfl

/-- Where the gate turns the sample away, the cycle goes its way without the sensor. -/
theorem Course.blinded {engine : Engine α P} {o : Odometry α P} {scan : Scan α P}
    {out : CycleOutcome α P} (h : Course engine o scan out)
    {alignment : Option (Alignment α)} {aligner : Aligner α}
    (halign : Aligns o scan alignment aligner) (hshut : o.opensFor alignment = false) :
    Course engine o.blinded scan { out.untimed with state := out.state.blinded } := by
  have hunused : Aligns o.blinded scan none o.blinded.aligner := .unused rfl
  cases h with
  | unaligned hscan =>
      obtain ⟨journal, hok⟩ := halign.alignScan_eq
      cases hscan.symm.trans hok
  | unpaired halign' hquery hquiet => exact .unpaired hunused hquery hquiet
  | unregistered halign' hquery hengine hquiet =>
      exact .unregistered hunused hquery hengine hquiet
  | @registered _ _ final said last reference registration result
      halign' hquery hengine hquiet habsorb =>
      obtain ⟨rfl, rfl⟩ := halign.unique halign'
      rw [hshut] at habsorb
      have hclosed : o.blinded.opensFor none = false := opensFor_none _
      have habsorb' := habsorb.blinded
      rw [← hclosed] at habsorb'
      have hresult : (result.map some).map (·.map Estimate.untimed) =
          (result.map Estimate.untimed).map some := by
        cases result <;> rfl
      simp only [CycleOutcome.untimed, hresult]
      exact .registered hunused hquery hengine hquiet habsorb'

omit [HasSingularValues α] in
theorem Warmed.blinded {o : Odometry α P} {scan : Scan α P}
    {out : Odometry α P × Journal α} (h : Warmed o scan out)
    (hstarts : o.settings.useInertial = false ∨ o.buffer.first ≠ none) :
    (o.blinded.warmUp scan).1 = out.1.blinded := by
  have huse : o.blinded.settings.useInertial = false := rfl
  simp only [warmUp, huse, Bool.false_eq_true, if_false]
  cases h with
  | unused hunused => rfl
  | waiting hused hfirst =>
      rcases hstarts with hunused | hsome
      · cases hused.symm.trans hunused
      · exact absurd hfirst hsome
  | bySample hused hfirst => rfl

/-- A scan in which the sensor has no part does the same without the sensor: the engine
is asked the same, and the result and the state are those without the sensor. -/
theorem Unsensed.update {o : Odometry α P} {scan : Scan α P} (h : Unsensed o scan)
    (engine : Engine α P) :
    (o.blinded.update engine scan).state = (o.update engine scan).state.blinded ∧
      (o.blinded.update engine scan).shown = (o.update engine scan).untimed.shown := by
  have hinitialized : o.blinded.initialized = o.initialized := rfl
  have hstamped : o.blinded.stamped scan = (o.stamped scan).blinded := rfl
  cases hrunning : o.initialized with
  | false =>
      rw [update_of_not_initialized engine scan hrunning,
        update_of_not_initialized engine scan (hinitialized.trans hrunning), hstamped]
      refine ⟨(warmed_warmUp (o.stamped scan) scan).blinded ?_, rfl⟩
      cases h with
      | unused huse => exact Or.inl huse
      | starting hwaits hfirst => exact Or.inr hfirst
      | shut hrunning' => cases hrunning.symm.trans hrunning'
  | true =>
      have hcourse := course_update engine scan hrunning
      have hblinded : Course engine (o.stamped scan).blinded scan
          { (o.update engine scan).untimed with
            state := (o.update engine scan).state.blinded } := by
        cases h with
        | unused huse => exact hcourse.blinded (.unused huse) (opensFor_none _)
        | starting hwaits => cases hrunning.symm.trans hwaits
        | shut _ halign hshut => exact hcourse.blinded (halign.congr rfl rfl rfl) hshut
      obtain ⟨hstate, hcall, hresult⟩ := hblinded.cycle_eq
      rw [update_of_initialized engine scan (hinitialized.trans hrunning), hstamped]
      exact ⟨hstate, by rw [CycleOutcome.shown, hcall, hresult]; rfl⟩

/-- Without the sensor there are no time gaps to show. -/
theorem Course.untimed_eq {engine : Engine α P} {o : Odometry α P} {scan : Scan α P}
    {out : CycleOutcome α P} (h : Course engine o scan out)
    (huse : o.settings.useInertial = false) : out.untimed = out := by
  cases h with
  | unaligned hscan => rfl
  | unpaired halign hquery hquiet => rfl
  | unregistered halign hquery hengine hquiet => rfl
  | @registered _ _ final said last reference registration result
      halign hquery hengine hquiet habsorb =>
      obtain ⟨rfl, -⟩ := (Aligns.unused huse).unique halign
      have hresult := habsorb.untimed_eq
      cases result with
      | error f => rfl
      | ok e =>
          simp only [Except.map, Except.ok.injEq] at hresult
          simp only [CycleOutcome.untimed, Except.map, Option.map_some, hresult]

private theorem untimed_update {o : Odometry α P} (huse : o.settings.useInertial = false)
    (engine : Engine α P) (scan : Scan α P) :
    (o.update engine scan).untimed = o.update engine scan := by
  cases hrunning : o.initialized with
  | false =>
      rw [update_of_not_initialized engine scan hrunning]
      rfl
  | true => exact (course_update engine scan hrunning).untimed_eq huse

def UnsensedRun (o : Odometry α P) (calls : List (Call α P)) : Prop :=
  ∀ earlier engine scan later, calls = earlier ++ .scan engine scan :: later →
    Unsensed (o.run earlier) scan

theorem UnsensedRun.head {o : Odometry α P} {engine : Engine α P} {scan : Scan α P}
    {rest : List (Call α P)} (h : UnsensedRun o (.scan engine scan :: rest)) :
    Unsensed o scan := h [] engine scan rest rfl

theorem UnsensedRun.tail {o : Odometry α P} {call : Call α P} {rest : List (Call α P)}
    (h : UnsensedRun o (call :: rest)) : UnsensedRun (o.after call) rest := by
  rintro earlier engine scan later rfl
  exact h (call :: earlier) engine scan later rfl

/-- Where the sensor has no part in any scan, the pipeline without it shows the same, and
needs no more than the scans and resets for it. -/
theorem UnsensedRun.outcomes {o : Odometry α P} {calls : List (Call α P)}
    (h : UnsensedRun o calls) :
    (o.blinded.outcomes (calls.filter Call.moves)).map CycleOutcome.shown =
      (o.outcomes calls).map fun out => out.untimed.shown := by
  induction calls generalizing o with
  | nil => rfl
  | cons call rest ih =>
      have hrest := ih h.tail
      cases call with
      | scan engine scan =>
          obtain ⟨hstate, hshown⟩ := h.head.update engine
          rw [List.filter_cons_of_pos rfl]
          simp only [Odometry.outcomes, Odometry.after, collect, outcome?, Option.toList_some,
            List.map_append, List.map_singleton, hstate, hshown] at hrest ⊢
          rw [hrest]
      | sample x => exact hrest
      | lastScan => exact hrest
      | clearBuffer => exact hrest
      | reset => exact hrest

/-- An engine that remembers answers the pipeline without the sensor alike. -/
theorem remembering_blinded (memory : List (P × P) → Engine α P) {o : Odometry α P}
    {pairs : List (P × P)} {calls : List (Call α P)}
    (h : UnsensedRun o (o.remembering memory pairs calls)) :
    o.blinded.remembering memory pairs (calls.filter Call.moves) =
      (o.remembering memory pairs calls).filter Call.moves := by
  induction calls generalizing o pairs with
  | nil => rfl
  | cons call rest ih =>
      cases call with
      | scan engine scan =>
          obtain ⟨hstate, hshown⟩ := UnsensedRun.head h |>.update (memory pairs)
          have hcall := congrArg Prod.snd hshown
          have hrest := ih (UnsensedRun.tail h)
          rw [List.filter_cons_of_pos rfl]
          simp only [CycleOutcome.shown, CycleOutcome.untimed] at hcall
          simp only [remembering, asked?, outcome?, Option.bind_some, Odometry.after, hstate,
            hcall] at hrest ⊢
          rw [hrest, List.filter_cons_of_pos rfl]
      | sample x => exact ih (UnsensedRun.tail h)
      | lastScan => exact ih (UnsensedRun.tail h)
      | clearBuffer => exact ih (UnsensedRun.tail h)
      | reset => exact congrArg (List.cons _) (ih (UnsensedRun.tail h))

private theorem unsensedRun_of_unused {s : Settings α} (huse : s.useInertial = false)
    (calls : List (Call α P)) : UnsensedRun (create s) calls := by
  intro earlier engine scan later _
  refine .unused ?_
  rw [(configured_run s earlier).settings]
  exact huse

private theorem unsensed_of_stale {o : Odometry α P} {engine : Engine α P} {scan : Scan α P}
    {e : Estimate α P} (he : (o.update engine scan).result = .ok (some e))
    (hstale : IsStale o.settings e) : Unsensed o scan := by
  obtain ⟨hrunning, -, alignment, aligner, halign, htimeGap⟩ := exists_aligns_of_estimate he
  exact .shut hrunning halign ((isStale_iff halign htimeGap).mp hstale).2

omit [Scalar α] [HasSingularValues α] in
theorem Alike.blinded {o other : Odometry α P} (h : Alike o other) :
    Alike o.blinded other.blinded := by
  cases h with
  | same => exact .same
  | waiting hwaits stamp query =>
      have hblinded : o.blinded.initialized = false := hwaits
      exact .waiting hblinded stamp query

/-- However long a pipeline has waited, without the sensor it would be as good as new. -/
theorem alike_blinded_run (s : Settings α) (calls : List (Call α P))
    (hwaits : ((create s).run calls).initialized = false) :
    Alike (create s.blind : Odometry α P) ((create s).run calls).blinded := by
  induction calls using List.reverseRecOn with
  | nil => exact .same
  | append_singleton calls call ih =>
      rw [run_concat] at hwaits ⊢
      cases call with
      | sample x => exact ih hwaits
      | scan engine scan =>
          have hbefore : ((create s).run calls).initialized = false := by
            by_contra hrunning
            rw [Bool.not_eq_false] at hrunning
            have hstill := (initialized_update engine ((create s).run calls) scan).mpr
              (Or.inl hrunning)
            cases hwaits.symm.trans hstill
          exact (ih hbefore).trans (Alike.of_waits hwaits).blinded
      | lastScan => exact ih hwaits
      | clearBuffer => exact ih hwaits
      | reset =>
          have hreset : ((create s).run calls).after .reset = create s :=
            (configured_run s calls).reset_eq
          rw [hreset]
          exact .same

/-- Pipelines that are alike meet the same engine, as far as it remembers, if the first
call is a scan. -/
theorem Alike.remembering_eq {o other : Odometry α P} (h : Alike o other)
    (memory : List (P × P) → Engine α P) (pairs : List (P × P)) (engine : Engine α P)
    (scan : Scan α P) (rest : List (Call α P)) :
    other.remembering memory pairs (.scan engine scan :: rest) =
      o.remembering memory pairs (.scan engine scan :: rest) := by
  simp only [remembering, asked?, outcome?, Odometry.after, h.update_eq]

/-- Without the sensor a pipeline shows what its scans and resets make it show. -/
theorem outcomes_of_unused {s : Settings α} (huse : s.useInertial = false)
    (calls : List (Call α P)) :
    ((create s : Odometry α P).outcomes calls).map CycleOutcome.shown =
      ((create s).blinded.outcomes (calls.filter Call.moves)).map CycleOutcome.shown := by
  rw [(unsensedRun_of_unused huse calls).outcomes]
  refine List.map_congr_left fun out hout => ?_
  obtain ⟨earlier, call, later, -, hread⟩ := mem_collect_iff.mp hout
  cases call with
  | scan engine scan =>
      cases hread
      have hunused : ((create s : Odometry α P).run earlier).settings.useInertial = false := by
        rw [(configured_run s earlier).settings]
        exact huse
      rw [untimed_update hunused]
  | sample x => cases hread
  | lastScan => cases hread
  | clearBuffer => cases hread
  | reset => cases hread

/-- Where the gate has turned away the sample of every estimate since a pipeline was
started, the sensor has had a part in none of the scans since. -/
theorem unsensedRun_of_stale {s : Settings α} {earlier later : List (Call α P)}
    {engine : Engine α P} {scan : Scan α P}
    (hwaits : ((create s).run earlier).initialized = false)
    (hruns : (((create s).run earlier).after (.scan engine scan)).initialized = true)
    (hstale : ∀ out ∈ (((create s).run earlier).after (.scan engine scan)).outcomes later,
      ∃ e, out.result = .ok (some e) ∧ IsStale s e) :
    UnsensedRun ((create s).run earlier) (.scan engine scan :: later) := by
  intro front engine' scan' back hcalls
  cases front with
  | nil =>
      obtain ⟨hscan, -⟩ := List.cons_eq_cons.mp hcalls
      cases hscan
      rcases (initialized_update engine _ scan).mp hruns with hold | hunused | hfirst
      · cases hwaits.symm.trans hold
      · exact .unused hunused
      · exact .starting hwaits hfirst
  | cons call front =>
      obtain ⟨rfl, rfl⟩ := List.cons_eq_cons.mp hcalls
      have hsettings :
          (((create s).run earlier).run (.scan engine scan :: front)).settings = s := by
        rw [← run_append]
        exact (configured_run s _).settings
      obtain ⟨e, he, hgate⟩ := hstale
        ((((create s).run earlier).run (.scan engine scan :: front)).update engine' scan')
        (mem_collect_iff.mpr ⟨front, .scan engine' scan', back, rfl, rfl⟩)
      rw [← hsettings] at hgate
      exact unsensed_of_stale he hgate

/-- How far the sensor reaches. Where it is not in use, samples that are put in or left
out anywhere change no result and no question to the engine. Where it is in use and the
gate turns away the sample of every scan after the one that has started the pipeline, all
that the estimates show but their time gaps, and all questions to the engine, are those of
a new pipeline without the sensor that is given these scans alone. Even an engine that
remembers answers both alike. -/
theorem sensor_isolation (s : Settings α) :
    (s.useInertial = false →
      ∀ calls calls' : List (Call α P),
        calls.filter (!·.isSample) = calls'.filter (!·.isSample) →
        let o : Odometry α P := create s
        (o.outcomes calls).map CycleOutcome.shown =
            (o.outcomes calls').map CycleOutcome.shown ∧
          ∀ memory, (o.remembering memory [] calls).filter Call.moves =
            (o.remembering memory [] calls').filter Call.moves) ∧
      ∀ (earlier : List (Call α P)) engine scan later,
        let waiting := (create s).run earlier
        let running := waiting.after (.scan engine scan)
        waiting.initialized = false → running.initialized = true → .reset ∉ later →
        (∀ out ∈ running.outcomes later, ∃ e, out.result = .ok (some e) ∧ IsStale s e) →
        ∀ blind : Odometry α P, Fresh s.blind blind →
          let calls : List (Call α P) := .scan engine scan :: later
          let scans := calls.filter Call.isScan
          (waiting.outcomes calls).map (·.untimed.shown) =
              (blind.outcomes scans).map CycleOutcome.shown ∧
            ∀ memory pairs, waiting.remembering memory pairs calls = calls →
              blind.remembering memory pairs scans = scans := by
  constructor
  · intro huse calls calls' hcalls o
    have hmoves := Call.filter_moves_eq hcalls
    refine ⟨?_, fun memory => ?_⟩
    · rw [outcomes_of_unused huse calls, outcomes_of_unused huse calls', hmoves]
    · rw [← remembering_blinded memory (unsensedRun_of_unused huse _), hmoves,
        remembering_blinded memory (unsensedRun_of_unused huse _)]
  · intro earlier engine scan later waiting running hwaits hruns hreset hstale blind hblind
      calls scans
    have hunsensed : UnsensedRun waiting calls := unsensedRun_of_stale hwaits hruns hstale
    have halike : Alike blind waiting.blinded := by
      rw [hblind.eq_create]
      exact alike_blinded_run s earlier hwaits
    have hscans : calls.filter Call.moves = scans :=
      Call.filter_moves_of_notMem_reset (by simp [calls, hreset])
    refine ⟨?_, fun memory pairs hmemory => ?_⟩
    · rw [← hunsensed.outcomes, hscans, halike.outcomes_eq]
    · have hfollows : scans = .scan engine scan :: later.filter Call.isScan :=
        List.filter_cons_of_pos rfl
      have hremembered := remembering_blinded memory (hmemory.symm ▸ hunsensed)
      rw [hmemory, hscans, hfollows, halike.remembering_eq] at hremembered
      rw [hfollows, hremembered]

/-- Two scans seconds away from all samples, one of which comes between them; and without
the sensor, a sample before a scan. -/
theorem sensor_isolation_of_distant_samples :
    let waiting : Odometry Float Nat := (create .checked).run [.upright 0]
    let running := waiting.after (.still 0)
    let blind : Odometry Float Nat := create Settings.checked.blind
    waiting.initialized = false ∧ running.initialized = true ∧
      (∀ out ∈ running.outcomes [.still 10, .upright 20, .still 30],
        ∃ e, out.result = .ok (some e) ∧ IsStale .checked e) ∧
      (waiting.outcomes [.still 0, .still 10, .upright 20, .still 30]).map
          (·.untimed.shown) =
        (blind.outcomes [.still 0, .still 10, .still 30]).map CycleOutcome.shown ∧
      (blind.outcomes [.upright 0, .still 0]).map CycleOutcome.shown =
        (blind.outcomes [.still 0]).map CycleOutcome.shown := by
  intro waiting running blind
  have hwaits : waiting.initialized = false := by decide +kernel
  have hruns : running.initialized = true := by decide +kernel
  have hreset : Call.reset ∉ [Call.still 10, .upright 20, .still 30] := by
    simp [Call.still, Call.upright]
  have hgate : ∀ out ∈ running.outcomes [.still 10, .upright 20, .still 30],
      out.estimate?.map (fun e => decide (IsStale .checked e)) = some true := by
    decide +kernel
  have hstale : ∀ out ∈ running.outcomes [.still 10, .upright 20, .still 30],
      ∃ e, out.result = .ok (some e) ∧ IsStale .checked e := by
    intro out hout
    obtain ⟨e, he, hstale⟩ := Option.map_eq_some_iff.mp (hgate out hout)
    exact ⟨e, CycleOutcome.estimate?_eq_some_iff.mp he, of_decide_eq_true hstale⟩
  have hused := (sensor_isolation .checked).2 [.upright 0] .still ⟨0, .real 0, 0⟩
    [.still 10, .upright 20, .still 30] hwaits hruns hreset hstale blind .created
  have hunused := (sensor_isolation Settings.checked.blind).1 rfl [.upright 0, .still 0]
    [.still 0] rfl
  exact ⟨hwaits, hruns, hstale, hused.1, hunused.1⟩

end Odometry

end InertialOdometry
