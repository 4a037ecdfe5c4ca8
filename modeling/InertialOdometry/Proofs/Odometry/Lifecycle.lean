import InertialOdometry.Proofs.Odometry.Readiness

/-!
The life of a pipeline between two resets. It warms up until a scan comes that can
start it, and runs from then on. While it warms up nothing can fail, and once it
runs nothing is missing. Of the scans that came while it waited for its first sample
nothing is left, so that they may as well not have come.
-/

namespace InertialOdometry

/-- The outcome of a scan that only warms a pipeline up: no estimate and no failure,
and no engine was asked. -/
def CycleOutcome.IsWarmUp {α P : Type} (out : CycleOutcome α P) : Prop :=
  out.result = .ok none ∧ out.call = none

variable {α P : Type}

/-- Among some calls is a scan that could start a pipeline: the sensor was not in
use, or a sample had come before. -/
def Starts (s : Settings α) (calls : List (Call α P)) : Prop :=
  ∃ earlier engine scan later, calls = earlier ++ .scan engine scan :: later ∧
    (s.useInertial = false ∨ ∃ x, .sample x ∈ earlier)

theorem Starts.append {s : Settings α} {calls : List (Call α P)} (h : Starts s calls)
    (more : List (Call α P)) : Starts s (calls ++ more) := by
  obtain ⟨earlier, engine, scan, later, rfl, hstart⟩ := h
  exact ⟨earlier, engine, scan, later ++ more, by simp, hstart⟩

private theorem starts_concat_iff (s : Settings α) (calls : List (Call α P)) (call : Call α P) :
    Starts s (calls ++ [call]) ↔
      Starts s calls ∨ (∃ engine scan, call = .scan engine scan) ∧
        (s.useInertial = false ∨ ∃ x, .sample x ∈ calls) := by
  constructor
  · rintro ⟨earlier, engine, scan, later, hcalls, hstart⟩
    -- The scan that starts is the last call, or it stands among those before.
    rcases List.eq_nil_or_concat later with rfl | ⟨front, last, rfl⟩
    · obtain ⟨rfl, hlast⟩ := List.append_inj' hcalls rfl
      exact Or.inr ⟨⟨engine, scan, List.singleton_inj.mp hlast⟩, hstart⟩
    · have hsplit : calls ++ [call] =
          (earlier ++ .scan engine scan :: front) ++ [last] := by
        rw [hcalls]
        simp
      obtain ⟨rfl, -⟩ := List.append_inj' hsplit rfl
      exact Or.inl ⟨earlier, engine, scan, front, rfl, hstart⟩
  · rintro (hold | ⟨⟨engine, scan, rfl⟩, hstart⟩)
    · exact hold.append [call]
    · exact ⟨calls, engine, scan, [], rfl, hstart⟩

namespace Odometry

variable [Scalar α] [HasSingularValues α]

omit [Scalar α] [HasSingularValues α] in
private theorem first_pushSample (o : Odometry α P) (x : Sample α) :
    (o.pushSample x).1.buffer.first ≠ none := by
  simp only [pushSample, SampleBuffer.push]
  cases o.buffer.first with
  | none => exact Option.some_ne_none x
  | some first => exact Option.some_ne_none first

/-- A buffer that is not emptied knows whether a sample ever came, however many it
has given up. -/
theorem first_run (s : Settings α) (calls : List (Call α P)) (hreset : .reset ∉ calls)
    (hclear : .clearBuffer ∉ calls) :
    ((create s).run calls).buffer.first ≠ none ↔ ∃ x, .sample x ∈ calls := by
  induction calls using List.reverseRecOn with
  | nil => simp [create, SampleBuffer.empty]
  | append_singleton calls call ih =>
      rw [List.mem_append, not_or, List.mem_singleton] at hreset hclear
      have hbefore := ih hreset.1 hclear.1
      rw [run_concat]
      cases call with
      | sample x =>
          refine ⟨fun _ => ⟨x, by simp⟩, fun _ => ?_⟩
          exact first_pushSample _ x
      | scan engine scan =>
          simp only [Odometry.after, buffer_update, hbefore, List.mem_append,
            List.mem_singleton, reduceCtorEq, or_false]
      | lastScan =>
          simp only [Odometry.after, hbefore, List.mem_append, List.mem_singleton,
            reduceCtorEq, or_false]
      | clearBuffer => exact absurd rfl hclear.2
      | reset => exact absurd rfl hreset.2

/-- A pipeline runs if and only if a scan that could start it has come. -/
theorem initialized_run (s : Settings α) (calls : List (Call α P))
    (hreset : .reset ∉ calls) (hclear : .clearBuffer ∉ calls) :
    ((create s).run calls).initialized = true ↔ Starts s calls := by
  induction calls using List.reverseRecOn with
  | nil => simp [create, Starts]
  | append_singleton calls call ih =>
      rw [List.mem_append, not_or, List.mem_singleton] at hreset hclear
      have hbefore := ih hreset.1 hclear.1
      rw [run_concat, starts_concat_iff, ← hbefore]
      cases call with
      | sample x => simp [Odometry.after, pushSample]
      | scan engine scan =>
          have hfirst := first_run s calls hreset.1 hclear.1
          have hsettings := (configured_run s calls).settings
          simp only [Odometry.after, initialized_update, hfirst, hsettings]
          simp
      | lastScan => simp [Odometry.after]
      | clearBuffer => exact absurd rfl hclear.2
      | reset => exact absurd rfl hreset.2

theorem Ready.isWarmUp_iff {o : Odometry α P} (h : o.Ready) (engine : Engine α P)
    (scan : Scan α P) :
    (o.update engine scan).IsWarmUp ↔ o.initialized = false := by
  cases hrunning : o.initialized with
  | false =>
      rw [update_of_not_initialized engine scan hrunning]
      simp [CycleOutcome.IsWarmUp]
  | true =>
      obtain ⟨reference, hcall, -⟩ := h.asked hrunning engine scan
      simp [CycleOutcome.IsWarmUp, hcall]

theorem Ready.engine_of_outOfOrder {o : Odometry α P} (h : o.Ready)
    (engine : Engine α P) (scan : Scan α P) {f : Failure}
    (hf : (o.update engine scan).result = .error f)
    (horder : f = .alignerNotInitialized ∨ f = .noQueryScan ∨ f = .emptySnapshot) :
    ∃ reference, (o.update engine scan).call = some (scan.points, reference) ∧
      engine scan.points reference = .error f := by
  cases hrunning : o.initialized with
  | false =>
      have hwarmed := (h.isWarmUp_iff engine scan).mpr hrunning
      rw [hwarmed.1] at hf
      cases hf
  | true =>
      obtain ⟨reference, hcall, -, hcause⟩ := h.asked hrunning engine scan
      rcases hcause f hf with hengine | hgeometric
      · exact ⟨reference, hcall, hengine⟩
      · rcases horder with rfl | rfl | rfl <;> cases hgeometric

/-- A scan warms a pipeline up exactly as long as nothing has started it. -/
theorem isWarmUp_run_iff (s : Settings α) (calls : List (Call α P))
    (hreset : .reset ∉ calls) (hclear : .clearBuffer ∉ calls) (engine : Engine α P)
    (scan : Scan α P) :
    (((create s).run calls).update engine scan).IsWarmUp ↔ ¬Starts s calls := by
  rw [(ready_run s calls hclear).isWarmUp_iff, ← initialized_run s calls hreset hclear,
    Bool.not_eq_true]

/-- A scan leaves a pipeline running if and only if no scan after it warms the
pipeline up. -/
theorem initialized_iff_last_warmUp (s : Settings α) (calls : List (Call α P))
    (hreset : .reset ∉ calls) (hclear : .clearBuffer ∉ calls) (engine : Engine α P)
    (scan : Scan α P) :
    (((create s).run calls).update engine scan).state.initialized = true ↔
      ∀ later engine' scan', .reset ∉ later → .clearBuffer ∉ later →
        ¬(((create s).run (calls ++ .scan engine scan :: later)).update
          engine' scan').IsWarmUp := by
  have hreset' : .reset ∉ calls ++ [.scan engine scan] := by simp [hreset]
  have hclear' : .clearBuffer ∉ calls ++ [.scan engine scan] := by simp [hclear]
  have hstarts := initialized_run s (calls ++ [.scan engine scan]) hreset' hclear'
  rw [run_concat] at hstarts
  constructor
  · intro hruns later engine' scan' hnoReset hnoClear hwarm
    have hmore := (hstarts.mp hruns).append later
    rw [List.append_assoc, List.singleton_append] at hmore
    have hresetMore : .reset ∉ calls ++ .scan engine scan :: later := by
      simp [hreset, hnoReset]
    have hclearMore : .clearBuffer ∉ calls ++ .scan engine scan :: later := by
      simp [hclear, hnoClear]
    exact (isWarmUp_run_iff s _ hresetMore hclearMore engine' scan').mp hwarm hmore
  · intro hlast
    by_contra hwaits
    refine hlast [] engine scan (by simp) (by simp) ?_
    rw [isWarmUp_run_iff s _ hreset' hclear', ← hstarts]
    exact hwaits

/-- Only a scan starts a pipeline. -/
theorem scan_of_starts {o : Odometry α P} {call : Call α P}
    (hwaits : o.initialized = false) (hruns : (o.after call).initialized = true) :
    ∃ engine scan, call = .scan engine scan := by
  cases call with
  | scan engine scan => exact ⟨engine, scan, rfl⟩
  | sample x => cases hwaits.symm.trans hruns
  | lastScan => cases hwaits.symm.trans hruns
  | clearBuffer => cases hwaits.symm.trans hruns
  | reset => cases hruns

/-- Only a reset stops a pipeline. -/
theorem reset_of_stops {o : Odometry α P} {call : Call α P}
    (hruns : o.initialized = true) (hstops : (o.after call).initialized = false) :
    call = .reset := by
  cases call with
  | scan engine scan =>
      have hstill := (initialized_update engine o scan).mpr (Or.inl hruns)
      cases hstill.symm.trans hstops
  | sample x => cases hruns.symm.trans hstops
  | lastScan => cases hruns.symm.trans hstops
  | clearBuffer => cases hruns.symm.trans hstops
  | reset => rfl

/-- Two states that differ at most in what a waiting pipeline was shown last: the
scan and its stamp. -/
inductive Alike (o : Odometry α P) : Odometry α P → Prop where
  | same : Alike o o
  | waiting (hwaits : o.initialized = false) (stamp : Option (Numeral α))
      (query : Option P) :
      Alike o { o with
        stamp := stamp
        integrator := { o.integrator with query := query } }

omit [Scalar α] [HasSingularValues α] in
theorem Alike.trans {first second third : Odometry α P} (h : Alike first second)
    (hnext : Alike second third) : Alike first third := by
  cases h with
  | same => exact hnext
  | waiting hwaits stamp query =>
      cases hnext with
      | same => exact .waiting hwaits stamp query
      | waiting _ stamp' query' => exact .waiting hwaits stamp' query'

theorem Alike.update_eq {o other : Odometry α P} (h : Alike o other)
    (engine : Engine α P) (scan : Scan α P) :
    other.update engine scan = o.update engine scan := by
  cases h with
  | same => rfl
  | waiting hwaits stamp query =>
      -- Warming up writes both fields in which the states differ, and reads neither.
      simp only [update, hwaits, warmUp, PoseIntegrator.setQuery, Bool.false_eq_true,
        if_false]

/-- What a waiting pipeline was shown last makes no difference to any call. -/
theorem Alike.after {o other : Odometry α P} (h : Alike o other) (call : Call α P) :
    Alike (o.after call) (other.after call) := by
  cases call with
  | scan engine scan =>
      simp only [Odometry.after, h.update_eq]
      exact .same
  | sample x =>
      cases h with
      | same => exact .same
      | waiting hwaits stamp query =>
          have hafter : (o.after (.sample x)).initialized = false := hwaits
          exact .waiting hafter stamp query
  | lastScan => exact h
  | clearBuffer =>
      cases h with
      | same => exact .same
      | waiting hwaits stamp query =>
          have hafter : o.clearBuffer.initialized = false := hwaits
          exact .waiting hafter stamp query
  | reset =>
      cases h with
      | same => exact .same
      | waiting hwaits stamp query => exact .same

/-- Alike states cannot be told apart by the outcomes of any calls. -/
theorem Alike.outcomes_eq {o other : Odometry α P} (h : Alike o other)
    (later : List (Call α P)) :
    other.outcomes later = o.outcomes later := by
  induction later generalizing o other with
  | nil => rfl
  | cons call rest ih =>
      have hcall : other.outcome? call = o.outcome? call := by
        cases call with
        | scan engine scan => simp only [outcome?, h.update_eq]
        | sample x => rfl
        | lastScan => rfl
        | clearBuffer => rfl
        | reset => rfl
      simp only [outcomes, collect, hcall]
      exact congrArg _ (ih (h.after call))

/-- A scan after which a pipeline still waits leaves no more than itself and its
stamp behind. -/
theorem Alike.of_waits {o : Odometry α P} {engine : Engine α P} {scan : Scan α P}
    (hwaits : (o.after (.scan engine scan)).initialized = false) :
    Alike o (o.after (.scan engine scan)) := by
  have hstart := initialized_update engine o scan
  simp only [Odometry.after] at hwaits ⊢
  rw [hwaits] at hstart
  simp only [Bool.false_eq_true, false_iff, not_or, Bool.not_eq_true, Bool.not_eq_false,
    ne_eq, not_not] at hstart
  obtain ⟨hrunning, huse, hfirst⟩ := hstart
  rw [update_of_not_initialized engine scan hrunning]
  have hshown : ((o.stamped scan).warmUp scan).1 = { o with
      stamp := some scan.stamp
      integrator := { o.integrator with query := some scan.points } } := by
    simp [warmUp, stamped, huse, hfirst, PoseIntegrator.setQuery]
  rw [hshown]
  exact .waiting hrunning _ _

/-- Calls of which some scans are left out, each one a scan after which the pipeline
still waited. -/
inductive Thinned (o : Odometry α P) : List (Call α P) → List (Call α P) → Prop where
  | nil : Thinned o [] []
  | keep {calls kept : List (Call α P)} (call : Call α P)
      (hkept : Thinned o calls kept) :
      Thinned o (calls ++ [call]) (kept ++ [call])
  | drop {calls kept : List (Call α P)} (engine : Engine α P) (scan : Scan α P)
      (hwaits : (o.run (calls ++ [.scan engine scan])).initialized = false)
      (hkept : Thinned o calls kept) : Thinned o (calls ++ [.scan engine scan]) kept

theorem Thinned.alike {o : Odometry α P} {calls kept : List (Call α P)}
    (h : Thinned o calls kept) :
    Alike (o.run kept) (o.run calls) := by
  induction h with
  | nil => exact .same
  | keep call hkept ih =>
      rw [run_concat, run_concat]
      exact ih.after call
  | drop engine scan hwaits hkept ih =>
      -- The state is like the one before the scan, and that one like the thinned one.
      rw [run_concat] at hwaits ⊢
      exact ih.trans (.of_waits hwaits)

/-- The life of a pipeline from its creation or last reset on. A scan warms it up if
and only if none before it could start the pipeline, and is put to the engine
otherwise. The last scan that warms the pipeline up starts it, and only a reset
stops it. The failures for want of an attitude, a scan or a sample come from an
engine at most. To leave out scans that came while the pipeline waited changes no
later outcome. -/
theorem lifecycle (s : Settings α) (o : Odometry α P) (hfresh : Fresh s o)
    (calls : List (Call α P)) (hreset : .reset ∉ calls)
    (hclear : .clearBuffer ∉ calls) :
    (∀ engine scan,
      let out := (o.run calls).update engine scan
      (out.IsWarmUp ↔ ¬Starts s calls) ∧
        (Starts s calls → out.call ≠ none ∧ out.result ≠ .ok none) ∧
        (out.IsWarmUp → (out.state.initialized = true ↔
          ∀ later engine' scan', .reset ∉ later → .clearBuffer ∉ later →
            ¬((o.run (calls ++ .scan engine scan :: later)).update
              engine' scan').IsWarmUp)) ∧
        ∀ f, out.result = .error f →
          f = .alignerNotInitialized ∨ f = .noQueryScan ∨ f = .emptySnapshot →
          ∃ reference, out.call = some (scan.points, reference) ∧
            engine scan.points reference = .error f) ∧
      (∀ call, (o.run calls).initialized = false →
        ((o.run calls).after call).initialized = true →
        ∃ engine scan, call = .scan engine scan) ∧
      (∀ call, (o.run calls).initialized = true →
        ((o.run calls).after call).initialized = false → call = .reset) ∧
      ∀ kept, Thinned o calls kept →
        ∀ later, (o.run kept).outcomes later = (o.run calls).outcomes later := by
  obtain rfl := hfresh.eq_create
  have hready := ready_run s calls hclear
  refine ⟨?_, fun _ => scan_of_starts, fun _ => reset_of_stops, ?_⟩
  · intro engine scan out
    refine ⟨isWarmUp_run_iff s calls hreset hclear engine scan, ?_, ?_, ?_⟩
    · intro hstart
      have hruns := (initialized_run s calls hreset hclear).mpr hstart
      obtain ⟨reference, hcall, hresult, -⟩ := hready.asked hruns engine scan
      exact ⟨by simp [out, hcall], hresult⟩
    · intro _
      exact initialized_iff_last_warmUp s calls hreset hclear engine scan
    · intro f hf horder
      exact hready.engine_of_outOfOrder engine scan hf horder
  · intro kept hkept later
    exact (hkept.alike.outcomes_eq later).symm

/-- Two scans before the first sample leave no trace; the scan after it warms the
pipeline up for the last time. -/
theorem lifecycle_of_late_sample :
    let o : Odometry Float Nat := create .checked
    let calls : List (Call Float Nat) := [.still 0, .still 1, .upright 2]
    let out := (o.run calls).update .still ⟨0, .real 3, 0⟩
    Fresh .checked o ∧ .reset ∉ calls ∧ .clearBuffer ∉ calls ∧ ¬Starts .checked calls ∧
      out.IsWarmUp ∧ out.state.initialized = true ∧ Thinned o calls [.upright 2] ∧
      ∀ later, (o.run [.upright 2]).outcomes later = (o.run calls).outcomes later := by
  intro o calls out
  have hfresh : Fresh .checked o := .created
  have hreset : .reset ∉ calls := by simp [calls, Call.upright, Call.still]
  have hclear : .clearBuffer ∉ calls := by simp [calls, Call.upright, Call.still]
  have hfirst : (o.run [.still 0]).initialized = false := by decide +kernel
  have hsecond : (o.run [.still 0, .still 1]).initialized = false := by decide +kernel
  have hthinned : Thinned o calls [.upright 2] :=
    .keep (.upright 2)
      (.drop .still ⟨0, .real 1, 0⟩ hsecond (.drop .still ⟨0, .real 0, 0⟩ hfirst .nil))
  obtain ⟨hscan, -, -, houtcomes⟩ := lifecycle .checked o hfresh calls hreset hclear
  have hcall : out.call = none := by decide +kernel
  have hnotStarts : ¬Starts .checked calls := by
    intro hstarts
    exact ((hscan .still ⟨0, .real 3, 0⟩).2.1 hstarts).1 hcall
  exact ⟨hfresh, hreset, hclear, hnotStarts,
    (hscan .still ⟨0, .real 3, 0⟩).1.mpr hnotStarts, by decide +kernel, hthinned,
    houtcomes _ hthinned⟩

end Odometry

end InertialOdometry
