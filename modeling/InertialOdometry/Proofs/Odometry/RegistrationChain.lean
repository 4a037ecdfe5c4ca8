import Mathlib.Data.List.Chain
import InertialOdometry.Proofs.Odometry.DeltaLag
import InertialOdometry.Proofs.Odometry.Readiness

/-!
The chain of registrations. The engine is asked about one pair of scans after another,
and each pair takes up where the one before has left off, so that no motion between two
scans is missed and none is measured twice. With the sensor in use the deltas keep the
same pace: the way between two attitudes is queued by the very call that has the engine
measure the way between the scans, or neither of the two happens.
-/

namespace InertialOdometry

/-- Pairs whose second members are a first item and the first members moved up by one
are linked from this item on. -/
theorem links_of_shift {P : Type} {start last : P} {pairs : List (P × P)}
    (h : pairs.map Prod.snd ++ [last] = start :: pairs.map Prod.fst) :
    (∀ pair ∈ pairs.head?, pair.2 = start) ∧
      pairs.IsChain (fun before next => next.2 = before.1) := by
  induction pairs generalizing start with
  | nil => exact ⟨by simp, List.isChain_nil⟩
  | cons pair rest ih =>
      simp only [List.map_cons, List.cons_append, List.cons.injEq] at h
      obtain ⟨hstart, hrest⟩ := h
      obtain ⟨hfirst, hchain⟩ := ih hrest
      refine ⟨by simpa using hstart, ?_⟩
      cases rest with
      | nil => exact List.isChain_singleton pair
      | cons next tail => exact List.isChain_cons_cons.mpr ⟨hfirst next rfl, hchain⟩

namespace Odometry

variable {α P : Type} [Scalar α] [HasSingularValues α]

/-- A scan among some calls finds the pipeline waiting and leaves it running. -/
def StartedBy (o : Odometry α P) (calls : List (Call α P)) (scan : Scan α P) : Prop :=
  ∃ earlier engine later, calls = earlier ++ .scan engine scan :: later ∧
    (o.run earlier).initialized = false ∧
    ((o.run earlier).update engine scan).state.initialized = true

/-- The delta and the pair of scans that one and the same call queues and asks about. -/
def exchanged? (o : Odometry α P) (call : Call α P) : Option (Tensor α × P × P) :=
  (o.pushed? call).bind fun d => (o.asked? call).map fun pair => (d, pair)

theorem StartedBy.append {o : Odometry α P} {calls : List (Call α P)} {scan : Scan α P}
    (h : o.StartedBy calls scan) (more : List (Call α P)) :
    o.StartedBy (calls ++ more) scan := by
  obtain ⟨earlier, engine, later, rfl, hwaits, hruns⟩ := h
  exact ⟨earlier, engine, later ++ more, by simp, hwaits, hruns⟩

private theorem asked?_of_not_initialized {o : Odometry α P} (hwaits : o.initialized = false)
    (engine : Engine α P) (scan : Scan α P) :
    o.asked? (.scan engine scan) = none := by
  simp [asked?, outcome?, update_of_not_initialized engine scan hwaits]

omit [HasSingularValues α] in
private theorem Warmed.query_eq {o : Odometry α P} {scan : Scan α P}
    {out : Odometry α P × Journal α} (h : Warmed o scan out) :
    out.1.integrator.query = some scan.points := by
  cases h with
  | unused huse => rfl
  | waiting huse hfirst => rfl
  | bySample huse hfirst => rfl

/-- What a scan does in a pipeline that may run or wait: it is asked about and everything
moves on to it, or nothing is asked, and then nothing moves in a running pipeline. -/
theorem Primed.asked_or_still {o : Odometry α P} (h : o.Primed) (engine : Engine α P)
    (scan : Scan α P) :
    let out := o.update engine scan
    (∀ pair, out.call = some pair →
        pair.1 = scan.points ∧ o.integrator.query = some pair.2 ∧
          o.MovedOn scan out.state) ∧
      (out.call = none → o.initialized = true →
        out.state.integrator = o.integrator ∧ out.state.aligner = o.aligner) := by
  intro out
  cases hrunning : o.initialized with
  | false =>
      have hout : out = _ := update_of_not_initialized engine scan hrunning
      rw [hout]
      exact ⟨by simp, by simp⟩
  | true =>
      have hadvance : Advance engine o scan out := h.advance hrunning engine scan
      clear_value out
      cases hadvance with
      | refused hscan huse hempty => exact ⟨by simp, fun _ _ => ⟨rfl, rfl⟩⟩
      | asked deltas said result halign hquery hcause =>
          refine ⟨?_, by simp⟩
          intro pair hpair
          cases hpair
          exact ⟨rfl, hquery, halign.movedOn hquery deltas result.toOption⟩

/-- The pairs asked about so far reach from the scan that started the pipeline to the
scan that it compares the next one with. -/
structure Linked (o : Odometry α P) (calls : List (Call α P)) : Prop where
  waiting : (o.run calls).initialized = false → o.asked calls = []
  running : (o.run calls).initialized = true → ∃ start last, o.StartedBy calls start ∧
    (o.run calls).integrator.query = some last ∧
    (o.asked calls).map Prod.snd ++ [last] = start.points :: (o.asked calls).map Prod.fst

/-- A call that asks nothing and leaves the scan to compare with alone keeps the
pairs linked. -/
theorem Linked.concat_of_none {o : Odometry α P} {calls : List (Call α P)}
    {call : Call α P} (h : o.Linked calls) (hasked : (o.run calls).asked? call = none)
    (hinitialized : ((o.run calls).after call).initialized = (o.run calls).initialized)
    (hquery : ((o.run calls).after call).integrator.query =
      (o.run calls).integrator.query) :
    o.Linked (calls ++ [call]) := by
  have hsame : o.asked (calls ++ [call]) = o.asked calls := by
    rw [asked_concat, hasked, Option.toList_none, List.append_nil]
  refine ⟨?_, ?_⟩
  · intro hwaits
    rw [run_concat, hinitialized] at hwaits
    rw [hsame]
    exact h.waiting hwaits
  · intro hruns
    rw [run_concat, hinitialized] at hruns
    obtain ⟨start, last, hstart, hlast, hshift⟩ := h.running hruns
    rw [run_concat, hquery, hsame]
    exact ⟨start, last, hstart.append [call], hlast, hshift⟩

/-- A scan that finds the pipeline waiting starts the chain, if it starts the pipeline. -/
theorem Linked.concat_of_waiting {o : Odometry α P} {calls : List (Call α P)}
    (h : o.Linked calls) (hwaits : (o.run calls).initialized = false)
    (engine : Engine α P) (scan : Scan α P) :
    o.Linked (calls ++ [.scan engine scan]) := by
  have hempty : o.asked (calls ++ [.scan engine scan]) = [] := by
    rw [asked_concat, asked?_of_not_initialized hwaits engine scan, h.waiting hwaits]
    rfl
  refine ⟨fun _ => hempty, ?_⟩
  intro hruns
  rw [run_concat] at hruns ⊢
  have hquery : ((o.run calls).after (.scan engine scan)).integrator.query =
      some scan.points := by
    simp only [Odometry.after, update_of_not_initialized engine scan hwaits]
    exact (warmed_warmUp _ scan).query_eq
  refine ⟨scan, scan.points, ⟨calls, engine, [], rfl, hwaits, hruns⟩, hquery, ?_⟩
  rw [hempty]
  rfl

/-- A scan that finds the pipeline running is refused and leaves the chain as it is, or
it is linked to the scan before. -/
theorem Linked.concat_of_running {o : Odometry α P} {calls : List (Call α P)}
    (h : o.Linked calls) (hprimed : (o.run calls).Primed)
    (hrunning : (o.run calls).initialized = true) (engine : Engine α P)
    (scan : Scan α P) :
    o.Linked (calls ++ [.scan engine scan]) := by
  obtain ⟨hasked, hstill⟩ := hprimed.asked_or_still engine scan
  have hruns : ((o.run calls).after (.scan engine scan)).initialized = true := by
    rw [Odometry.after, initialized_update]
    exact Or.inl hrunning
  cases hcall : ((o.run calls).update engine scan).call with
  | none =>
      obtain ⟨hscans, -⟩ := hstill hcall hrunning
      exact h.concat_of_none hcall (hruns.trans hrunning.symm)
        (congrArg PoseIntegrator.query hscans)
  | some pair =>
      obtain ⟨hpoints, hquery, hmoved⟩ := hasked pair hcall
      obtain ⟨start, last, hstart, hlast, hshift⟩ := h.running hrunning
      have hpair : pair = (scan.points, last) :=
        Prod.ext hpoints (Option.some.inj (hquery.symm.trans hlast))
      have hlonger : o.asked (calls ++ [.scan engine scan]) =
          o.asked calls ++ [(scan.points, last)] := by
        have hnew : (o.run calls).asked? (.scan engine scan) = some pair := hcall
        rw [asked_concat, hnew, hpair, Option.toList_some]
      refine ⟨?_, ?_⟩
      · intro hwaits
        rw [run_concat, hruns] at hwaits
        cases hwaits
      · intro _
        rw [run_concat, hlonger]
        refine ⟨start, scan.points, hstart.append _, hmoved.query, ?_⟩
        simp only [List.map_append, List.map_cons, List.map_nil, hshift, List.cons_append]

/-- The pairs of a run make a chain. -/
theorem linked_run (s : Settings α) (calls : List (Call α P))
    (hreset : .reset ∉ calls) : (create s).Linked calls := by
  induction calls using List.reverseRecOn with
  | nil => exact ⟨fun _ => rfl, fun hruns => by cases hruns⟩
  | append_singleton calls call ih =>
      rw [List.mem_append, not_or, List.mem_singleton] at hreset
      have hbefore := ih hreset.1
      cases call with
      | sample x => exact hbefore.concat_of_none rfl rfl rfl
      | scan engine scan =>
          cases hrunning : ((create s).run calls).initialized with
          | false => exact hbefore.concat_of_waiting hrunning engine scan
          | true =>
              exact hbefore.concat_of_running (primed_run s calls) hrunning engine scan
      | lastScan => exact hbefore.concat_of_none rfl rfl rfl
      | clearBuffer => exact hbefore.concat_of_none rfl rfl rfl
      | reset => exact absurd rfl hreset.2

/-- With the sensor in use a call queues a delta if and only if it asks the engine. -/
theorem Primed.isSome_pushed? {o : Odometry α P} (h : o.Primed)
    (huse : o.settings.useInertial = true) (call : Call α P) :
    (o.pushed? call).isSome = (o.asked? call).isSome := by
  cases call with
  | scan engine scan =>
      cases hrunning : o.initialized with
      | false =>
          rw [asked?_of_not_initialized hrunning engine scan]
          simp [pushed?, hrunning]
      | true =>
          have hadvance := h.advance hrunning engine scan
          have hcall : o.asked? (.scan engine scan) = (o.update engine scan).call := rfl
          generalize o.update engine scan = out at hadvance hcall
          rw [hcall]
          cases hadvance with
          | refused hscan hused hempty => simp [pushed?, hrunning, hscan]
          | asked deltas said result halign hquery hcause =>
              rw [halign.pushed?_eq engine hrunning]
              cases halign with
              | unused hnot => cases huse.symm.trans hnot
              | bySample hused hprevious hnearest => rfl
  | sample x => rfl
  | lastScan => rfl
  | clearBuffer => rfl
  | reset => rfl

/-- The deltas and the pairs of a run come about call by call together. -/
theorem exchanged_run (s : Settings α) (huse : s.useInertial = true)
    (calls : List (Call α P)) :
    ((create s).pushed calls).length = ((create s).asked calls).length ∧
      collect exchanged? (create s) calls =
        ((create s).pushed calls).zip ((create s).asked calls) := by
  induction calls using List.reverseRecOn with
  | nil => exact ⟨rfl, rfl⟩
  | append_singleton calls call ih =>
      obtain ⟨hlength, hzip⟩ := ih
      have hused : ((create s).run calls).settings.useInertial = true := by
        rw [(configured_run s calls).settings]
        exact huse
      have hboth := (primed_run s calls).isSome_pushed? hused call
      rw [pushed_concat, asked_concat, collect_concat, List.zip_append hlength, hzip,
        List.length_append, List.length_append, hlength, exchanged?]
      cases hpush : ((create s).run calls).pushed? call with
      | none =>
          rw [hpush, Option.isSome_none, eq_comm, Option.isSome_eq_false_iff,
            Option.isNone_iff_eq_none] at hboth
          simp [hboth]
      | some d =>
          rw [hpush, Option.isSome_some, eq_comm, Option.isSome_iff_exists] at hboth
          obtain ⟨pair, hpair⟩ := hboth
          simp [hpair]

/-- The engine's first pair refers to the scan that started the pipeline, and every
further one to the query of the pair before; its query is the scan presented. A scan
that is asked about moves scans and attitude on together, and one that is not moves
neither. With the sensor in use as many deltas are queued as pairs are asked about, each
in one call with its pair. All this holds of a run since the creation or the last reset
of a pipeline, whatever is rejected, fails or is refused on the way. -/
theorem registration_chain (s : Settings α) (o : Odometry α P) (hfresh : Fresh s o)
    (calls : List (Call α P)) (hreset : .reset ∉ calls) :
    (∀ pair ∈ (o.asked calls).head?,
        ∃ start, o.StartedBy calls start ∧ pair.2 = start.points) ∧
      (o.asked calls).IsChain (fun before next => next.2 = before.1) ∧
      (∀ engine scan,
        let before := o.run calls
        let out := before.update engine scan
        (∀ pair, out.call = some pair →
            pair.1 = scan.points ∧ before.integrator.query = some pair.2 ∧
              before.MovedOn scan out.state) ∧
          (out.call = none → before.initialized = true →
            out.state.integrator = before.integrator ∧
              out.state.aligner = before.aligner)) ∧
      (∀ call, call ≠ .reset →
        DeltaTurn (o.run calls) call ((o.run calls).after call).aligner.deltas) ∧
      (s.useInertial = true →
        (o.pushed calls).length = (o.asked calls).length ∧
          collect exchanged? o calls = (o.pushed calls).zip (o.asked calls)) := by
  obtain rfl := hfresh.eq_create
  have hlinked := linked_run s calls hreset
  have hlinks : (∀ pair ∈ ((create s).asked calls).head?,
        ∃ start, (create s).StartedBy calls start ∧ pair.2 = start.points) ∧
      ((create s).asked calls).IsChain (fun before next => next.2 = before.1) := by
    cases hrunning : ((create s).run calls).initialized with
    | false =>
        rw [hlinked.waiting hrunning]
        exact ⟨by simp, List.isChain_nil⟩
    | true =>
        obtain ⟨start, last, hstart, -, hshift⟩ := hlinked.running hrunning
        obtain ⟨hfirst, hchain⟩ := links_of_shift hshift
        exact ⟨fun pair hpair => ⟨start, hstart, hfirst pair hpair⟩, hchain⟩
  refine ⟨hlinks.1, hlinks.2, ?_, ?_, ?_⟩
  · intro engine scan
    exact (primed_run s calls).asked_or_still engine scan
  · intro call hcall
    exact deltaTurn_run s calls hcall
  · intro huse
    exact exchanged_run s huse calls

/-- A scan refused for an emptied buffer, a failing one and a stale one do not break the
chain, and three deltas go with its three pairs. -/
theorem registration_chain_of_troubled_run :
    let o : Odometry Float Nat := create .checked
    let calls : List (Call Float Nat) :=
      [.upright 0, .scan .still ⟨1, .real 0, 0⟩, .scan .still ⟨2, .real 1, 1⟩,
        .clearBuffer, .scan .still ⟨3, .real 1, 2⟩, .upright 2, .shapeless 2,
        .scan .still ⟨5, .real 3, 4⟩]
    Fresh .checked o ∧ .reset ∉ calls ∧ Settings.checked.useInertial = true ∧
      o.asked calls = [(2, 1), (0, 2), (5, 0)] ∧
      (∃ start, o.StartedBy calls start ∧ 1 = start.points) ∧
      (o.asked calls).IsChain (fun before next => next.2 = before.1) ∧
      (o.pushed calls).length = 3 ∧
      collect exchanged? o calls = (o.pushed calls).zip [(2, 1), (0, 2), (5, 0)] := by
  intro o calls
  have hfresh : Fresh .checked o := .created
  have hreset : .reset ∉ calls := by simp [calls, Call.upright, Call.shapeless]
  have hasked : o.asked calls = [(2, 1), (0, 2), (5, 0)] := by decide +kernel
  obtain ⟨hfirst, hchain, -, -, hpace⟩ :=
    registration_chain .checked o hfresh calls hreset
  obtain ⟨hlength, hzip⟩ := hpace rfl
  have hstart := hfirst (2, 1) (by rw [hasked]; rfl)
  rw [hasked] at hlength hzip
  exact ⟨hfresh, hreset, rfl, hasked, hstart, hchain, hlength, hzip⟩

end Odometry

end InertialOdometry
