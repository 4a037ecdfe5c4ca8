import InertialOdometry.Program.Run
import InertialOdometry.Proofs.Exact.Decomposition
import InertialOdometry.Proofs.Odometry.Success
import InertialOdometry.Proofs.Recording.Lead
import InertialOdometry.Proofs.Recording.Stream

/-!
How many results the replay of a recording has. A pipeline that uses the sensor waits for the
first sample, and the scan that starts it has no result; every later one has, as long as the
answers of the engine can be used. So the results are those of the last scans, and their
number is told by the times alone.
-/

namespace InertialOdometry

variable {α P : Type} [Scalar α]

/-! ### Rows with attitudes -/

/-- The quaternion and the time that a row shows. -/
structure AttitudeRow.Shows (row : AttitudeRow α) (q : Quaternion α) (t : α) : Prop where
  x : row.x.toScalar = .ok q.x
  y : row.y.toScalar = .ok q.y
  z : row.z.toScalar = .ok q.z
  w : row.w.toScalar = .ok q.w
  time : row.time.toScalar = .ok t

structure Quaternion.IsAttitude (q : Quaternion α) : Prop where
  long : ¬q.norm < leastNorm
  numeric : ∀ a ∈ [q.x, q.y, q.z, q.w], Scalar.isNaN a = false

private theorem Tensor.entry_of_toScalar {v : Value α} {a : α} (h : v.toScalar = .ok a) :
    dims? v = some [] ∧ leaves v = [v] ∧ entry v = .ok a := by
  cases v with
  | bool b => exact ⟨rfl, rfl, h⟩
  | int n => exact ⟨rfl, rfl, h⟩
  | number x => exact ⟨rfl, rfl, h⟩
  | text s => exact ⟨rfl, rfl, h⟩
  | bytes bs => exact ⟨rfl, rfl, h⟩
  | _ => cases h

private theorem Tensor.ofValue_of_toScalar {x y z w : Value α} {a b c d : α}
    (hx : x.toScalar = .ok a) (hy : y.toScalar = .ok b) (hz : z.toScalar = .ok c)
    (hw : w.toScalar = .ok d) :
    ofValue (.list [x, y, z, w]) = .ok ⟨[4], [a, b, c, d]⟩ := by
  obtain ⟨hxdims, hxleaves, hxentry⟩ := entry_of_toScalar hx
  obtain ⟨hydims, hyleaves, hyentry⟩ := entry_of_toScalar hy
  obtain ⟨hzdims, hzleaves, hzentry⟩ := entry_of_toScalar hz
  obtain ⟨hwdims, hwleaves, hwentry⟩ := entry_of_toScalar hw
  have hdims : dims? (.list [x, y, z, w]) = some [4] := by
    simp [dims?, sharedDims?, hxdims, hydims, hzdims, hwdims]
  have hleaves : leaves (.list [x, y, z, w]) = [x, y, z, w] := by
    simp [leaves, leavesOfAll, hxleaves, hyleaves, hzleaves, hwleaves]
  rw [ofValue, hdims, hleaves]
  simp [List.mapM_cons, hxentry, hyentry, hzentry, hwentry, bind, Except.bind, pure,
    Except.pure, Except.map]

private theorem AttitudeRow.toSample_of_shows {row : AttitudeRow α} {q : Quaternion α} {t : α}
    (h : row.Shows q t) (hq : q.IsAttitude) :
    row.toSample = .ok ⟨q.normalized.toMat3, t⟩ := by
  have hnumeric : [q.x, q.y, q.z, q.w].any Scalar.isNaN = false := by
    rw [List.any_eq_false]
    intro a ha
    simp [hq.numeric a ha]
  have hrotation : q.toRotation = .ok q.normalized.toMat3 := by
    rw [Quaternion.toRotation, if_neg hq.long, hnumeric]
    rfl
  simp only [toSample, Tensor.ofValue_of_toScalar h.x h.y h.z h.w, Quaternion.ofTensor,
    bind, Except.bind, hrotation, h.time, pure, Except.pure]

/-- The samples of a recording whose rows show attitudes. -/
theorem Recording.samples_of_shows {r : Recording α P} {shown : List (Quaternion α × α)}
    (hshown : List.Forall₂ (fun row x => AttitudeRow.Shows row x.1 x.2)
      (r.attitudes.getD []) shown)
    (hattitudes : ∀ x ∈ shown, x.1.IsAttitude) :
    r.samples = .ok (shown.map fun x => ⟨x.1.normalized.toMat3, x.2⟩) := by
  rw [samples]
  generalize r.attitudes.getD [] = rows at hshown ⊢
  induction hshown with
  | nil => rfl
  | @cons row x rows shown hrow hrows ih =>
      have hsample := AttitudeRow.toSample_of_shows hrow (hattitudes x List.mem_cons_self)
      rw [List.mapM_cons, hsample, ih fun y hy => hattitudes y (List.mem_cons_of_mem x hy)]
      rfl

/-! ### Scans that count -/

/-- Whether a scan at a time counts for a pipeline: it does not wait with it. -/
def Settings.counts (s : Settings α) (times : List α) (t : α) : Bool :=
  !s.useInertial || times.any fun u => decide (u ≤ t)

/-- How many scans count: those that some sample is not later than, or all if the sensor is
not in use. -/
def Settings.countingScans (s : Settings α) (times stamps : List α) : Nat :=
  if s.useInertial then stamps.countP fun t => times.any fun u => decide (u ≤ t)
  else stamps.length

theorem Settings.countingScans_eq (s : Settings α) (times stamps : List α) :
    s.countingScans times stamps = stamps.countP (s.counts times) := by
  unfold countingScans counts
  cases s.useInertial with
  | true => simp
  | false => simp

/-- Where a property is kept from each member to the next, those that have it come last. -/
theorem BoundedQueue.filter_eq_lastItems {β : Type} {p : β → Bool} {xs : List β}
    (h : xs.Pairwise fun x y => p x = true → p y = true) :
    xs.filter p = lastItems (xs.countP p) xs := by
  induction xs with
  | nil => rfl
  | cons x xs ih =>
      rw [List.pairwise_cons] at h
      cases hx : p x with
      | true =>
          have hall : ∀ y ∈ x :: xs, p y = true := by
            intro y hy
            rcases List.mem_cons.mp hy with rfl | hrest
            · exact hx
            · exact h.1 y hrest hx
          rw [List.filter_eq_self.mpr hall, List.countP_eq_length.mpr hall, lastItems,
            Nat.sub_self, List.drop_zero]
      | false =>
          have hle := List.countP_le_length (p := p) (l := xs)
          have hdrop : (x :: xs).length - xs.countP p = xs.length - xs.countP p + 1 := by
            rw [List.length_cons]
            omega
          rw [List.filter_cons_of_neg (by simp [hx]), ih h.2,
            List.countP_cons_of_neg (by simp [hx]), lastItems, lastItems, hdrop,
            List.drop_succ_cons]

/-- All but the first of the last items. -/
theorem BoundedQueue.tail_lastItems {β : Type} {n : Nat} {xs : List β}
    (h : n ≤ xs.length) : (lastItems n xs).tail = lastItems (n - 1) xs := by
  rw [lastItems, lastItems, List.tail_drop]
  cases n with
  | zero => simp
  | succ n =>
      have hdrop : xs.length - (n + 1) + 1 = xs.length - n := by omega
      rw [hdrop, Nat.add_sub_cancel]

namespace Recording

def counts (r : Recording α P) (s : Settings α) (times : List α) (index : Nat) : Bool :=
  r.scans[index]?.any fun file => s.counts times file.stamp

/-- The scans that count are as many as their stamps. -/
theorem countP_counts (r : Recording α P) (s : Settings α) (times : List α) :
    (List.range r.scans.length).countP (r.counts s times) =
      s.countingScans times (r.scans.map (·.stamp)) := by
  have hscans : (List.range r.scans.length).map (fun index => r.scans[index]?) =
      r.scans.map some := by
    apply List.ext_getElem
    · simp
    · intro place _ hplace
      simp
  have hcounts : r.counts s times =
      (fun file : Option (ScanFile α) => file.any fun file => s.counts times file.stamp) ∘
        fun index => r.scans[index]? := rfl
  rw [s.countingScans_eq, hcounts, ← List.countP_map, hscans, List.countP_map,
    List.countP_map]
  rfl

/-- Where the scans are in order, those after a scan that counts count as well. -/
theorem pairwise_counts [OrderedScalar α] {r : Recording α P}
    (hstamps : (r.scans.map (·.stamp)).Pairwise (· ≤ ·)) (s : Settings α) (times : List α) :
    (List.range r.scans.length).Pairwise fun i j =>
      r.counts s times i = true → r.counts s times j = true := by
  rw [List.pairwise_map, List.pairwise_iff_getElem] at hstamps
  refine List.pairwise_lt_range.imp_of_mem fun {i j} hi hj hij => ?_
  rw [List.mem_range] at hi hj
  have hle := hstamps i j hi hj hij
  simp only [counts, List.getElem?_eq_getElem hi, List.getElem?_eq_getElem hj,
    Option.any_some, Settings.counts, Bool.or_eq_true, List.any_eq_true, decide_eq_true_iff]
  rintro (hunused | ⟨u, hu, hui⟩)
  · exact Or.inl hunused
  · exact Or.inr ⟨u, hu, Scalar.le_trans hui hle⟩

def Holds (r : Recording α P) (p : P) : Prop :=
  ∃ (index : Nat) (scan : Scan α P), r.scan index = .ok scan ∧ p = scan.points

end Recording

/-- The attitudes that a pipeline may come to know: those of samples, where it uses the
sensor. -/
def Settings.knows (s : Settings α) (samples : List (Sample α)) (m : Mat3 α) : Prop :=
  s.useInertial = true ∧ ∃ x ∈ samples, m = x.attitude

variable [HasSingularValues α]

namespace Odometry

/-- A scan with an estimate is counted as a cycle, and once by its verdict. -/
theorem counts_update (engine : Engine α P) (o : Odometry α P) (scan : Scan α P) :
    let added := (o.update engine scan).estimate?.toList.length
    let next := (o.update engine scan).state
    next.cycles = o.cycles + added ∧
      next.integrator.accepted + next.integrator.rejected =
        o.integrator.accepted + o.integrator.rejected + added := by
  intro added next
  obtain ⟨kept, hretains, hstate, -⟩ := update_credit engine o scan
  change next = _ at hstate
  rw [hstate, ← hretains.cycles, ← hretains.accepted, ← hretains.rejected]
  cases hestimate : (o.update engine scan).estimate? with
  | none => simp [added, hestimate, credit]
  | some e =>
      cases haccepted : e.accepted <;>
        simp [added, hestimate, credit, integrated, PoseIntegrator.integrate, haccepted] <;>
        omega

end Odometry

namespace Replay

open Odometry Event

/-- A replay that counts right: its pipeline runs once a scan has counted, and it has an
estimate for each later scan that counts. -/
structure OnCount (s : Settings α) (r : Recording α P) (samples : List (Sample α))
    (events : List (Event α)) (l : Replay α P) : Prop where
  unfailed : l.failure = none
  ready : l.odometry.Ready
  supplied : l.odometry.Supplied (s.knows samples) r.Holds
  running : l.odometry.initialized = true ↔
    (scansIn events).filter (r.counts s (samples.map Sample.time)) ≠ []
  indices : l.estimates.map (·.scanIndex) =
    ((scansIn events).filter (r.counts s (samples.map Sample.time))).tail.map Int.ofNat
  stamps : ∀ e ∈ l.estimates, ∃ file, r.scans[e.scanIndex.toNat]? = some file ∧
    e.stamp = .real file.stamp
  cycles : l.odometry.cycles = l.estimates.length
  verdicts : l.odometry.integrator.accepted + l.odometry.integrator.rejected =
    l.estimates.length

variable {engine : Nat → Engine α P} {s : Settings α} {r : Recording α P}
  {samples : List (Sample α)} {events : List (Event α)} {l : Replay α P}

omit [HasSingularValues α] in
private theorem onCount_start : OnCount s r samples [] (start (create s)) where
  unfailed := rfl
  ready := ready_create s
  supplied := supplied_create s
  running := by simp [start, create, scansIn]
  indices := rfl
  stamps := by simp [start]
  cycles := rfl
  verdicts := rfl

/-- A sample makes no difference to the count. -/
theorem OnCount.sample (h : OnCount s r samples events l)
    (hconfigured : Configured s l.odometry) (x : Sample α)
    (load : Nat → Except Failure (Scan α P)) :
    OnCount s r samples (events ++ [.sample x]) (l.step engine load (.sample x)) := by
  have hscans : scansIn (events ++ [.sample x]) = scansIn events := by
    rw [scansIn_append]
    exact List.append_nil _
  have hcapacity : 0 < l.odometry.buffer.queue.capacity := by
    rw [hconfigured.samples]
    exact s.capacity_pos
  refine ⟨h.unfailed, h.ready.pushSample hcapacity x, ⟨h.supplied.previous, h.supplied.deltas,
    h.supplied.query⟩, ?_, ?_, h.stamps, h.cycles, h.verdicts⟩
  · rw [hscans]
    exact h.running
  · rw [hscans]
    exact h.indices

omit [Scalar α] [HasSingularValues α] in
/-- What is told of the scans that count changes with a scan by whether it counts. -/
theorem filter_scansIn_concat (p : Nat → Bool) (events : List (Event α)) (index : Nat) :
    (scansIn (events ++ [.scan index])).filter p =
      (scansIn events).filter p ++ if p index = true then [index] else [] := by
  rw [scansIn_append, List.filter_append, scansIn_scan, List.filter_cons]
  rfl

/-- A scan is counted right if its estimate is. -/
theorem OnCount.present (h : OnCount s r samples events l)
    (hconfigured : Configured s l.odometry) {answer : Engine α P} {scan : Scan α P}
    {index : Nat} {estimate : Option (Estimate α P)}
    (hresult : (l.odometry.update answer scan).result = .ok estimate)
    (hsupplied : (l.odometry.update answer scan).state.Supplied (s.knows samples) r.Holds)
    (hrunning : (l.odometry.update answer scan).state.initialized = true ↔
      (scansIn (events ++ [.scan index])).filter (r.counts s (samples.map Sample.time)) ≠ [])
    (hindices : l.estimates.map (·.scanIndex) ++ estimate.toList.map (·.scanIndex) =
      ((scansIn (events ++ [.scan index])).filter
        (r.counts s (samples.map Sample.time))).tail.map Int.ofNat)
    (hstamps : ∀ e, estimate = some e → ∃ file, r.scans[e.scanIndex.toNat]? = some file ∧
      e.stamp = .real file.stamp) :
    OnCount s r samples (events ++ [.scan index]) (l.present answer scan) := by
  have hcapacity : 0 < l.odometry.buffer.queue.capacity := by
    rw [hconfigured.samples]
    exact s.capacity_pos
  have hestimate : (l.odometry.update answer scan).estimate? = estimate := by
    rw [CycleOutcome.estimate?, hresult]
  have hestimates : (l.present answer scan).estimates = l.estimates ++ estimate.toList := by
    rw [estimates_present, hestimate]
  obtain ⟨hcycles, hverdicts⟩ := counts_update answer l.odometry scan
  rw [hestimate, ← odometry_present] at hcycles hverdicts
  rw [← odometry_present] at hsupplied hrunning
  refine ⟨?_, ?_, hsupplied, hrunning, ?_, ?_, ?_, ?_⟩
  · rw [failure_present, hresult]
    exact h.unfailed
  · rw [odometry_present]
    exact h.ready.after hcapacity (by simp : Call.scan answer scan ≠ .clearBuffer)
  · rw [hestimates, List.map_append, hindices]
  · intro e he
    rw [hestimates, List.mem_append, Option.mem_toList] at he
    rcases he with hold | hnew
    · exact h.stamps e hold
    · exact hstamps e hnew
  · rw [hestimates, List.length_append, hcycles, h.cycles]
  · rw [hestimates, List.length_append, hverdicts, h.verdicts]

/-- A scan that can be read is counted right: it starts the pipeline, or it has a result. -/
theorem OnCount.scan (h : OnCount s r samples events l)
    (hconfigured : Configured s l.odometry) {index : Nat} {scan : Scan α P}
    (hscan : r.scan index = .ok scan) (hfed : l.odometry.Fed (s.knows samples))
    (hfirst : l.odometry.buffer.first ≠ none ↔ ∃ x ∈ samples, x.time ≤ scan.time)
    {answer : Engine α P}
    (hanswer : ∀ p q, r.Holds p → r.Holds q → ∃ registration raw angles,
      answer p q = .ok registration ∧ registration.Usable (s.knows samples) raw angles) :
    OnCount s r samples (events ++ [.scan index]) (l.present answer scan) := by
  obtain ⟨file, hfile, hstamp, hindex⟩ := Recording.file_of_scan hscan
  have htime : scan.time = file.stamp := congrArg Numeral.value hstamp
  have hholds : r.Holds scan.points := ⟨index, scan, hscan, rfl⟩
  have hcounts : r.counts s (samples.map Sample.time) index = true ↔
      l.odometry.settings.useInertial = false ∨ l.odometry.buffer.first ≠ none := by
    rw [hconfigured.settings, hfirst, htime]
    simp [Recording.counts, hfile, Settings.counts]
  have hrunning := initialized_update answer l.odometry scan
  cases hinitialized : l.odometry.initialized with
  | false =>
      -- No scan has counted so far, and this one has no estimate in any case.
      obtain ⟨hresult, hsupplied⟩ := h.supplied.wait hfed hinitialized answer hholds
      have hnone : (scansIn events).filter (r.counts s (samples.map Sample.time)) = [] := by
        by_contra hsome
        rw [h.running.mpr hsome] at hinitialized
        cases hinitialized
      refine h.present hconfigured hresult hsupplied ?_ ?_ (by simp)
      · rw [hrunning, filter_scansIn_concat, hnone, hinitialized, ← hcounts]
        simp
      · rw [filter_scansIn_concat, h.indices, hnone]
        split <;> rfl
  | true =>
      obtain ⟨e, hresult, hstamped, hplaced, hsupplied⟩ :=
        h.supplied.proceed hfed h.ready hinitialized hholds hanswer
      have hsome := h.running.mp hinitialized
      have hcount : r.counts s (samples.map Sample.time) index = true := by
        rw [hcounts]
        cases huse : l.odometry.settings.useInertial with
        | false => exact Or.inl rfl
        | true => exact Or.inr (h.ready.received hinitialized huse)
      refine h.present hconfigured hresult hsupplied ?_ ?_ ?_
      · rw [hrunning, filter_scansIn_concat]
        simp [hinitialized, hsome]
      · rw [filter_scansIn_concat, if_pos hcount, List.tail_append_of_ne_nil hsome,
          List.map_append, h.indices, Option.toList_some, List.map_singleton, hplaced, hindex]
        rfl
      · intro e' he'
        cases he'
        rw [hplaced, hindex, hstamped]
        exact ⟨file, hfile, hstamp⟩

/-- A replay of merged events counts right at every point. -/
theorem onCount_lead [OrderedScalar α] (hreadable : r.Readable)
    (hsamples : (samples.map Sample.time).Pairwise (· ≤ ·))
    (hscans : (r.scans.map (·.stamp)).Pairwise (· ≤ ·))
    (hengine : ∀ number p q, r.Holds p → r.Holds q → ∃ registration raw angles,
      engine number p q = .ok registration ∧
        registration.Usable (s.knows samples) raw angles)
    {before after : List (Event α)} (hmerge : merge samples r.stamps = before ++ after) :
    OnCount s r samples before (lead engine (fun index => r.scan index) s before) := by
  induction before using List.reverseRecOn generalizing after with
  | nil => exact onCount_start
  | append_singleton before event ih =>
      rw [List.append_assoc, List.singleton_append] at hmerge
      have hbefore := ih hmerge
      obtain ⟨hconfigured, hbuffer⟩ := received_lead s before hbefore.unfailed
      rw [lead_concat_of_none hbefore.unfailed]
      cases event with
      | sample x => exact hbefore.sample hconfigured x _
      | scan index =>
          have hplaced : index ∈ List.range r.scans.length := by
            rw [← Recording.map_fst_stamps, ← scansIn_merge samples, hmerge,
              mem_scansIn_iff]
            simp
          obtain ⟨scan, hscan⟩ := hreadable index (List.mem_range.mp hplaced)
          obtain ⟨file, hfile, hstamp, -⟩ := Recording.file_of_scan hscan
          have htime : scan.time = file.stamp := congrArg Numeral.value hstamp
          obtain ⟨hcame, -⟩ := Recording.samplesIn_split hmerge hfile hsamples hscans
          have hsub : samplesIn before ⊆ samples := by
            rw [hcame]
            exact List.filter_subset_self _
          rw [step_scan_of_ok engine _ hscan]
          refine hbefore.scan hconfigured hscan ?_ ?_ (hengine _)
          · intro huse x hx
            rw [hconfigured.settings] at huse
            rw [hbuffer] at hx
            refine ⟨huse, x, hsub ?_, rfl⟩
            rcases hx with hheld | hfirst
            · exact List.mem_of_mem_drop hheld
            · exact List.mem_of_mem_head? hfirst
          · rw [hbuffer, htime]
            change (samplesIn before).head? ≠ none ↔ _
            rw [hcame, ne_eq, List.head?_eq_none_iff, List.filter_eq_nil_iff]
            simp

end Replay

namespace Program

open Odometry

/-- A replay of events has the outcome that they lead to, or the failure that ends it. -/
theorem run_replay {engine : Nat → Engine α P} {r : Recording α P} {o : Odometry α P}
    {events : List (Event α)} (hevents : r.events = .ok events) {outcome : Replay α P}
    (houtcome : Replay.run engine (fun index => r.scan index) (.start o) events = outcome)
    (progress : Progress α P) :
    ((replay engine r o).run.run progress).1 =
      outcome.failure.elim (.ok outcome) .error := by
  have hlift : (liftM (Except.ok events : Except Failure (List (Event α))) :
      Step α P (List (Event α))) = pure events := rfl
  unfold replay
  rw [hevents, hlift, pure_bind]
  simp only [houtcome]
  cases hfailure : outcome.failure with
  | none => rfl
  | some f => rfl

/-- Without events there is no replay. -/
theorem run_replay_of_error {engine : Nat → Engine α P} {r : Recording α P}
    {o : Odometry α P} {f : Failure} (hevents : r.events = .error f)
    (progress : Progress α P) :
    ((replay engine r o).run.run progress).1 = .error f := by
  unfold replay
  rw [hevents]
  rfl

open Event BoundedQueue in
/-- The replay of a recording in which both streams are in order. The rows of samples show
quaternions that are taken for rotations, all scans can be read, and all that the engine
answers about them can be used. Then the replay comes to its end with one result less than
there are scans that count: those that some sample is not later than or, if the sensor is not
in use, all. The results are those of the last scans, in order and with their stamps, and the
pipeline has counted as many cycles and as many verdicts. -/
theorem replay_result_count [OrderedScalar α] {r : Recording α P} (hreadable : r.Readable)
    {shown : List (Quaternion α × α)}
    (hshown : List.Forall₂ (fun row x => AttitudeRow.Shows row x.1 x.2)
      (r.attitudes.getD []) shown)
    (hattitudes : ∀ x ∈ shown, x.1.IsAttitude)
    (hsamples : (shown.map Prod.snd).Pairwise (· ≤ ·))
    (hscans : (r.scans.map (·.stamp)).Pairwise (· ≤ ·)) (s : Settings α)
    {engine : Nat → Engine α P}
    (hengine : ∀ number p q, r.Holds p → r.Holds q → ∃ registration raw angles,
      engine number p q = .ok registration ∧
        registration.Usable (fun m => s.useInertial = true ∧
          ∃ x ∈ shown, m = x.1.normalized.toMat3) raw angles) :
    let count := s.countingScans (shown.map Prod.snd) (r.scans.map (·.stamp)) - 1
    ∃ outcome, (∀ progress, ((replay engine r (create s)).run.run progress).1 = .ok outcome) ∧
      outcome.estimates.length = count ∧
      outcome.estimates.map (·.scanIndex) =
        (lastItems count (List.range r.scans.length)).map Int.ofNat ∧
      (∀ e ∈ outcome.estimates, ∃ file, r.scans[e.scanIndex.toNat]? = some file ∧
        e.stamp = .real file.stamp) ∧
      outcome.odometry.cycles = count ∧
      outcome.odometry.integrator.accepted + outcome.odometry.integrator.rejected = count := by
  intro count
  generalize hall : (shown.map fun x => (⟨x.1.normalized.toMat3, x.2⟩ : Sample α)) = samples
  have htimes : samples.map Sample.time = shown.map Prod.snd := by
    rw [← hall, List.map_map]
    rfl
  have hread : r.samples = .ok samples := by
    rw [← hall]
    exact Recording.samples_of_shows hshown hattitudes
  have hevents : r.events = .ok (merge samples r.stamps) := by
    rw [Recording.events, hread]
    rfl
  have hknows : ∀ m, s.knows samples m → s.useInertial = true ∧
      ∃ x ∈ shown, m = x.1.normalized.toMat3 := by
    rintro m ⟨huse, x, hx, rfl⟩
    rw [← hall, List.mem_map] at hx
    obtain ⟨y, hy, rfl⟩ := hx
    exact ⟨huse, y, hy, rfl⟩
  have husable : ∀ number p q, r.Holds p → r.Holds q → ∃ registration raw angles,
      engine number p q = .ok registration ∧
        registration.Usable (s.knows samples) raw angles := by
    intro number p q hp hq
    obtain ⟨registration, raw, angles, hanswer, h⟩ := hengine number p q hp hq
    exact ⟨registration, raw, angles, hanswer, h.matrix, h.decomposable,
      fun a b ha hb => h.tiltable a b (hknows a ha) (hknows b hb)⟩
  have hsorted : (samples.map Sample.time).Pairwise (· ≤ ·) := by rwa [htimes]
  have hcount := Replay.onCount_lead hreadable hsorted hscans husable (List.append_nil _).symm
  have hlast := filter_eq_lastItems (r.pairwise_counts hscans s (samples.map Sample.time))
  have hbound := List.countP_le_length (p := r.counts s (samples.map Sample.time))
    (l := List.range r.scans.length)
  have hindices := hcount.indices
  rw [scansIn_merge, Recording.map_fst_stamps, hlast, tail_lastItems hbound,
    Recording.countP_counts, htimes] at hindices
  rw [Recording.countP_counts, htimes, List.length_range] at hbound
  have hlength : (Replay.lead engine (fun index => r.scan index) s
      (merge samples r.stamps)).estimates.length = count := by
    have hsize := congrArg List.length hindices
    rw [List.length_map, List.length_map, length_lastItems, List.length_range] at hsize
    omega
  refine ⟨_, fun progress => ?_, hlength, hindices, hcount.stamps,
    hcount.cycles.trans hlength, hcount.verdicts.trans hlength⟩
  rw [run_replay hevents rfl]
  exact congrArg (fun failure : Option Failure => failure.elim _ _) hcount.unfailed

/-- A recording of three scans with one sample at the time of the second. -/
noncomputable def lateStart : Recording ℝ Unit where
  directory := .ofText "run"
  scans := [⟨"0.pcd", 0⟩, ⟨"1.pcd", 1⟩, ⟨"2.pcd", 2⟩]
  attitudes := some [⟨.number 1, .number 0, .number 0, .number 0, .number 2⟩]
  points := [("0.pcd", some ()), ("1.pcd", some ()), ("2.pcd", some ())]

/-- The first scan does not count, and the second one starts the pipeline. -/
theorem replay_result_count_of_late_start :
    let s : Settings ℝ := { Settings.plain with useInertial := true }
    let shown : List (Quaternion ℝ × ℝ) := [(⟨0, 0, 0, 2⟩, 1)]
    lateStart.Readable ∧
      List.Forall₂ (fun row x => AttitudeRow.Shows row x.1 x.2)
        (lateStart.attitudes.getD []) shown ∧
      (∀ x ∈ shown, x.1.IsAttitude) ∧
      (lateStart.scans.map (·.stamp)).Pairwise (· ≤ ·) ∧
      ∃ outcome, (∀ progress, ((replay (fun _ => .still) lateStart
          (create s)).run.run progress).1 = .ok outcome) ∧
        outcome.estimates.map (·.scanIndex) = [2] ∧ outcome.odometry.cycles = 1 := by
  intro s shown
  have hreadable : lateStart.Readable
    | 0, _ => ⟨_, rfl⟩
    | 1, _ => ⟨_, rfl⟩
    | 2, _ => ⟨_, rfl⟩
  have hshown : List.Forall₂ (fun row x => AttitudeRow.Shows row x.1 x.2)
      (lateStart.attitudes.getD []) shown :=
    .cons ⟨rfl, rfl, rfl, rfl, rfl⟩ .nil
  have hnorm : (⟨0, 0, 0, 2⟩ : Quaternion ℝ).norm = 2 := by
    rw [Quaternion.norm, Scalar.sqrt_real, Real.sqrt_eq_iff_mul_self_eq_of_pos two_pos]
    norm_num
  have hleast : (Quaternion.leastNorm : ℝ) < 2 := by
    rw [Quaternion.leastNorm, Scalar.decimal_real]
    norm_num
  have hattitudes : ∀ x ∈ shown, x.1.IsAttitude := by
    intro x hx
    obtain rfl := List.mem_singleton.mp hx
    refine ⟨?_, fun a _ => Scalar.isNaN_eq_false_iff.mpr le_rfl⟩
    rw [hnorm]
    exact not_lt.mpr hleast.le
  have hscans : (lateStart.scans.map (·.stamp)).Pairwise (· ≤ ·) := by
    simp [lateStart]
  have hengine : ∀ (number : Nat) p q, lateStart.Holds p → lateStart.Holds q →
      ∃ registration raw angles, (Engine.still p q : Except Failure (Registration ℝ)) =
        .ok registration ∧ registration.Usable (fun m => s.useInertial = true ∧
          ∃ x ∈ shown, m = x.1.normalized.toMat3) raw angles := by
    intro _ p q _ _
    refine ⟨_, .identity, ⟨0, 0, 0⟩, rfl,
      Registration.usable_real ?_ rfl Mat3.toRpy_identity⟩
    rintro m ⟨-, x, hx, rfl⟩
    obtain rfl := List.mem_singleton.mp hx
    apply Quaternion.isRotation_normalized
    rw [hnorm]
    exact two_pos
  have hcount : s.countingScans (shown.map Prod.snd) (lateStart.scans.map (·.stamp)) = 2 := by
    have hearly : ¬(1 : ℝ) ≤ 0 := by norm_num
    have hlate : (1 : ℝ) ≤ 2 := by norm_num
    simp [Settings.countingScans, s, shown, lateStart, hearly, hlate]
  obtain ⟨outcome, hrun, -, hindices, -, hcycles, -⟩ := replay_result_count hreadable hshown
    hattitudes (by simp [shown]) hscans s hengine
  rw [hcount] at hindices hcycles
  exact ⟨hreadable, hshown, hattitudes, hscans, outcome, hrun, hindices, hcycles⟩

/-- A recording with two scans, each at the time of a sample that stands upright. The quaternions
have a length of their own. -/
def standing (w : Float) : Recording Float Unit where
  directory := .ofText "run"
  scans := [⟨"0.pcd", 0⟩, ⟨"1.pcd", 1⟩]
  attitudes := some
    [⟨.int 0, .int 0, .int 0, .int 0, .number w⟩, ⟨.int 1, .int 0, .int 0, .int 0, .number w⟩]
  points := [("0.pcd", some ()), ("1.pcd", some ())]

/-- Neither that quaternions are not zero nor that they are finite is enough. A very short one is
refused, so that there are no events; the length of a very long one is infinite, and its
matrix is no rotation. -/
theorem unfinished_replay_of_extreme_quaternions :
    let s : Settings Float := { Settings.plain with useInertial := true }
    (∃ angles, (RigidTransform.identity : RigidTransform Float).rpy = .ok angles) ∧
      s.countingScans [0, 1] [0, 1] - 1 = 1 ∧
      ∀ w ∈ [(1e-11 : Float), 1e200], 0 < w ∧ Scalar.isFinite w = true ∧
        (standing w).Readable ∧
        List.Forall₂ (fun row x => AttitudeRow.Shows row x.1 x.2)
          ((standing w).attitudes.getD []) [(⟨0, 0, 0, w⟩, 0), (⟨0, 0, 0, w⟩, 1)] ∧
        ∀ progress, ∃ f, ((replay (fun _ => .still) (standing w)
          (create s)).run.run progress).1 = .error f := by
  intro s
  have hangles : ∃ angles, (RigidTransform.identity : RigidTransform Float).rpy = .ok angles := by
    have hread : (RigidTransform.identity : RigidTransform Float).rpy.toOption.isSome = true := by
      decide +kernel
    obtain ⟨angles, hangles⟩ := Option.isSome_iff_exists.mp hread
    exact ⟨angles, Failure.of_toOption hangles⟩
  have hreadable (w : Float) : (standing w).Readable
    | 0, _ => ⟨_, rfl⟩
    | 1, _ => ⟨_, rfl⟩
  have hzero : (Value.int 0 : Value Float).toScalar = .ok 0 :=
    Failure.of_toOption (by decide +kernel)
  have hone : (Value.int 1 : Value Float).toScalar = .ok 1 :=
    Failure.of_toOption (by decide +kernel)
  have hfinite : ∀ w ∈ [(1e-11 : Float), 1e200], 0 < w ∧ Scalar.isFinite w = true := by
    decide +kernel
  -- The short quaternion is refused, the long one becomes a matrix that is no rotation.
  have hshort : (standing 1e-11).events.toOption = none := by decide +kernel
  let flat : Mat3 Float := ⟨⟨0, 0, 0⟩, ⟨0, 0, 0⟩, ⟨0, 0, 0⟩⟩
  have hlong : (standing 1e200).events =
      .ok [.sample ⟨flat, 0⟩, .scan 0, .sample ⟨flat, 1⟩, .scan 1] :=
    Failure.of_toOption (by decide +kernel)
  have hflat : (Replay.run (fun _ => .still) (fun index => (standing 1e200).scan index)
      (.start (create s)) [.sample ⟨flat, 0⟩, .scan 0, .sample ⟨flat, 1⟩,
        .scan 1]).failure.isSome = true := by decide +kernel
  refine ⟨hangles, by decide +kernel, fun w hw => ?_⟩
  obtain ⟨hpositive, hbounded⟩ := hfinite w hw
  refine ⟨hpositive, hbounded, hreadable w, ?_, fun progress => ?_⟩
  · exact .cons ⟨hzero, hzero, hzero, rfl, hzero⟩ (.cons ⟨hzero, hzero, hzero, rfl, hone⟩ .nil)
  · simp only [List.mem_cons, List.not_mem_nil, or_false] at hw
    rcases hw with rfl | rfl
    · cases hevents : (standing 1e-11).events with
      | error f => exact ⟨f, run_replay_of_error hevents progress⟩
      | ok events =>
          rw [hevents] at hshort
          cases hshort
    · obtain ⟨f, hf⟩ := Option.isSome_iff_exists.mp hflat
      exact ⟨f, by rw [run_replay hlong rfl, hf]; rfl⟩

end Program

end InertialOdometry
