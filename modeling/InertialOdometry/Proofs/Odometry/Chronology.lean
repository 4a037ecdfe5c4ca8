import InertialOdometry.Proofs.Inertial.Nearest
import InertialOdometry.Proofs.Odometry.Readiness
import InertialOdometry.Proofs.Odometry.Received

/-!
Alignment in the course of time. Samples and scans come in the order of their times, but
not in one order: the sensor may be far ahead of the scans or far behind them. Even so the
samples that a pipeline chooses, the one to start by and those that it aligns by, never go
back in time. A chosen sample has been passed: whatever the last scans could be aligned by
later on is not earlier than it.
-/

namespace InertialOdometry

variable {α P : Type} [Scalar α]

def Call.scanTime? : Call α P → Option α
  | .scan _ presented => some presented.time
  | _ => none

def scanTimes (calls : List (Call α P)) : List α := calls.filterMap Call.scanTime?

theorem scanTimes_concat (calls : List (Call α P)) (call : Call α P) :
    scanTimes (calls ++ [call]) = scanTimes calls ++ call.scanTime?.toList := by
  cases call <;> simp [scanTimes, Call.scanTime?]

/-- The samples come in the order of their times, and so do the scans, in any interleaving
of the two; all times are compared exactly. -/
structure Chronological (calls : List (Call α P)) : Prop where
  exact : ExactTimes (scanTimes calls ++ (samplesOf calls).map Sample.time)
  samples : ((samplesOf calls).map Sample.time).Pairwise (· ≤ ·)
  scans : (scanTimes calls).Pairwise (· ≤ ·)

theorem Chronological.of_concat {calls : List (Call α P)} {call : Call α P}
    (h : Chronological (calls ++ [call])) : Chronological calls := by
  obtain ⟨hexact, hsamples, hscans⟩ := h
  rw [samplesOf_concat, List.map_append] at hexact hsamples
  rw [scanTimes_concat] at hexact hscans
  refine ⟨hexact.mono ?_, hsamples.sublist (List.sublist_append_left _ _),
    hscans.sublist (List.sublist_append_left _ _)⟩
  exact ((List.sublist_append_left _ _).append (List.sublist_append_left _ _)).subset

/-- Among samples that have come, times can be chained. -/
theorem Chronological.le_trans {calls : List (Call α P)} (h : Chronological calls)
    {x y z : Sample α} (hx : x ∈ samplesOf calls) (hy : y ∈ samplesOf calls)
    (hz : z ∈ samplesOf calls) (hxy : x.time ≤ y.time) (hyz : y.time ≤ z.time) :
    x.time ≤ z.time := by
  have hmem : ∀ {w}, w ∈ samplesOf calls →
      w.time ∈ scanTimes calls ++ (samplesOf calls).map Sample.time := fun hw =>
    List.mem_append_right _ (List.mem_map_of_mem hw)
  exact h.exact.trans _ (hmem hx) _ (hmem hy) _ (hmem hz) hxy hyz

theorem Chronological.le_refl {calls : List (Call α P)} (h : Chronological calls)
    {x : Sample α} (hx : x ∈ samplesOf calls) : x.time ≤ x.time :=
  h.exact.le_refl (List.mem_append_right _ (List.mem_map_of_mem hx))

/-- The nearest sample to a scan does not get earlier for a later scan, with some more
samples. -/
theorem Chronological.nearest_le {calls : List (Call α P)} (h : Chronological calls)
    {t t' : α} (ht : t ∈ scanTimes calls) (ht' : t' ∈ scanTimes calls) (htt' : t ≤ t')
    {items more dropped kept : List (Sample α)} (hitems : (items ++ more).Sublist (samplesOf calls))
    (hkept : items ++ more = dropped ++ kept) {x y : Sample α}
    (hx : Nearest Sample.time t items x) (hy : Nearest Sample.time t' kept y) :
    x.time ≤ y.time := by
  refine hx.le_of_later hy hkept htt' (h.samples.sublist (hitems.map _)) (h.exact.mono ?_)
  intro a ha
  rcases List.mem_cons.mp ha with rfl | ha
  · exact List.mem_append_left _ ht
  · rcases List.mem_cons.mp ha with rfl | ha
    · exact List.mem_append_left _ ht'
    · exact List.mem_append_right _ ((hitems.map _).subset ha)

/-- A sample that comes is not earlier than those that came before. -/
theorem Chronological.le_of_mem {calls : List (Call α P)} {x y : Sample α}
    (h : Chronological (calls ++ [.sample y])) (hx : x ∈ samplesOf calls) :
    x.time ≤ y.time := by
  have hsamples := h.samples
  rw [samplesOf_concat, List.map_append, List.pairwise_append] at hsamples
  exact hsamples.2.2 _ (List.mem_map_of_mem hx) _ (by simp [Call.sample?])

namespace Odometry

variable [HasSingularValues α]

/-- The sample that a scan chooses: the first one that was received where the scan starts
the pipeline, and the one that it is aligned by in a running pipeline. -/
def chosen? (o : Odometry α P) : Call α P → Option (Sample α)
  | .scan _ scan =>
    match o.initialized, o.alignScan scan with
    | false, _ => if o.settings.useInertial then o.buffer.first else none
    | true, .ok (some alignment, _, _) => some alignment.sample
    | true, _ => none
  | _ => none

def chosen (o : Odometry α P) (calls : List (Call α P)) : List (Sample α) :=
  collect chosen? o calls

/-- A sample that the scans have passed: it has come, and nothing that the pipeline could
choose for the last scans is earlier, nor anything that it could start by. -/
structure Passed (s : Settings α) (calls : List (Call α P)) (c : Sample α) : Prop where
  mem : c ∈ samplesOf calls
  nearest : ∃ t ∈ scanTimes calls,
    ∀ y, Nearest Sample.time t ((create s).run calls).buffer.samples y → c.time ≤ y.time
  waiting : ((create s).run calls).initialized = false →
    ∀ y ∈ received calls, c.time ≤ y.time

/-- The buffer has the samples in the order in which they came. -/
theorem samples_run_sublist (s : Settings α) (calls : List (Call α P)) :
    ((create s).run calls).buffer.samples.Sublist (samplesOf calls) := by
  rw [samples_run]
  exact (List.drop_sublist _ _).trans (received_suffix calls).sublist

private theorem samples_run_sample (s : Settings α) (calls : List (Call α P)) (x : Sample α) :
    ((create s).run (calls ++ [.sample x])).buffer.samples =
      BoundedQueue.lastItems s.capacity (((create s).run calls).buffer.samples ++ [x]) := by
  rw [samples_run, samples_run, BoundedQueue.lastItems_append_lastItems, received_concat,
    Call.receive]

private theorem Passed.concat_sample {s : Settings α} {calls : List (Call α P)} {c x : Sample α}
    (h : Passed s calls c) (hchron : Chronological (calls ++ [.sample x])) :
    Passed s (calls ++ [.sample x]) c := by
  have hsamples : samplesOf (calls ++ [.sample x]) = samplesOf calls ++ [x] :=
    samplesOf_concat calls (.sample x)
  have hscans : scanTimes (calls ++ [.sample x]) = scanTimes calls := by
    simp [scanTimes_concat, Call.scanTime?]
  have hc : c ∈ samplesOf (calls ++ [.sample x]) := by simp [hsamples, h.mem]
  have hlast : c.time ≤ x.time := hchron.le_of_mem h.mem
  refine ⟨hc, ?_, ?_⟩
  · obtain ⟨t, ht, hle⟩ := h.nearest
    rw [← hscans] at ht
    refine ⟨t, ht, fun y hy => ?_⟩
    rw [samples_run_sample] at hy
    have hsub := (samples_run_sublist s calls).append_right [x]
    rw [← hsamples] at hsub
    generalize ((create s).run calls).buffer.samples = items at hle hy hsub
    have hymem : y ∈ items ++ [x] := List.mem_of_mem_drop hy.mem
    rcases List.eq_nil_or_concat items with rfl | ⟨front, last, hitems⟩
    · rw [List.nil_append, List.mem_singleton] at hymem
      rwa [hymem]
    · -- The nearest sample before the new one came lies between.
      have hexact : ExactTimes (items.map Sample.time) :=
        hchron.exact.mono fun a ha => List.mem_append_right _
          ((((List.sublist_append_left items [x]).trans hsub).map _).subset ha)
      obtain ⟨z, hz⟩ := exists_nearest (t := t) (by simp [hitems]) hexact
      have hzy : z.time ≤ y.time :=
        hchron.nearest_le ht ht (hchron.exact.le_refl (List.mem_append_left _ ht)) hsub
          (List.take_append_drop _ _).symm hz hy
      exact hchron.le_trans hc (hsub.subset (List.mem_append_left _ hz.mem))
        (hsub.subset hymem) (hle z hz) hzy
  · intro hwaits y hy
    rw [run_concat] at hwaits
    rw [received_concat, Call.receive, List.mem_append, List.mem_singleton] at hy
    rcases hy with hold | rfl
    · exact h.waiting hwaits y hold
    · exact hlast

private theorem Passed.concat_of_kept {s : Settings α} {calls : List (Call α P)} {call : Call α P}
    {c : Sample α} (h : Passed s calls c) (hsample : call.sample? = none)
    (hkept : received (calls ++ [call]) = received calls)
    (hwaits : (((create s).run calls).after call).initialized = false →
      ((create s).run calls).initialized = false) :
    Passed s (calls ++ [call]) c := by
  have hsamples : samplesOf (calls ++ [call]) = samplesOf calls := by simp [hsample]
  obtain ⟨hmem, ⟨t, ht, hle⟩, hwaiting⟩ := h
  refine ⟨by rwa [hsamples], ⟨t, ?_, ?_⟩, ?_⟩
  · rw [scanTimes_concat]
    exact List.mem_append_left _ ht
  · rw [samples_run] at hle ⊢
    rwa [hkept]
  · intro hwaits'
    rw [run_concat] at hwaits'
    rw [hkept]
    exact hwaiting (hwaits hwaits')

private theorem Passed.concat_of_emptied {s : Settings α} {calls : List (Call α P)}
    {call : Call α P} {c : Sample α} (h : Passed s calls c) (hsample : call.sample? = none)
    (hempty : received (calls ++ [call]) = []) : Passed s (calls ++ [call]) c := by
  obtain ⟨hmem, ⟨t, ht, -⟩, -⟩ := h
  refine ⟨by simp [hsample, hmem], ⟨t, ?_, fun y hy => ?_⟩, by simp [hempty]⟩
  · rw [scanTimes_concat]
    exact List.mem_append_left _ ht
  · have hnone := hy.mem
    rw [samples_run, hempty] at hnone
    cases List.mem_of_mem_drop hnone

/-- What has been passed stays so. -/
theorem Passed.concat {s : Settings α} {calls : List (Call α P)} {call : Call α P}
    {c : Sample α} (h : Passed s calls c) (hchron : Chronological (calls ++ [call])) :
    Passed s (calls ++ [call]) c := by
  cases call with
  | sample x => exact h.concat_sample hchron
  | scan engine scan =>
      refine h.concat_of_kept rfl (received_concat calls _) fun hwaits => ?_
      by_contra hrunning
      rw [Bool.not_eq_false] at hrunning
      have hstill := (initialized_update engine ((create s).run calls) scan).mpr
        (Or.inl hrunning)
      cases hwaits.symm.trans hstill
  | lastScan => exact h.concat_of_kept rfl (received_concat calls _) fun hwaits => hwaits
  | clearBuffer => exact h.concat_of_emptied rfl (received_concat calls _)
  | reset => exact h.concat_of_emptied rfl (received_concat calls _)

omit [HasSingularValues α] in
theorem chosen?_scan {o : Odometry α P} {engine : Engine α P} {scan : Scan α P}
    {c : Sample α} (h : o.chosen? (.scan engine scan) = some c) :
    (o.initialized = false ∧ o.buffer.first = some c) ∨
      (o.initialized = true ∧
        nearest? Sample.time scan.time o.buffer.samples = some c) := by
  unfold chosen? at h
  cases hrunning : o.initialized with
  | false =>
      simp only [hrunning] at h
      split at h
      · exact Or.inl ⟨rfl, h⟩
      · cases h
  | true =>
      cases hscan : o.alignScan scan with
      | error f => simp [hrunning, hscan] at h
      | ok aligned =>
          obtain ⟨alignment, next, journal⟩ := aligned
          obtain ⟨⟨aligner, -, halign⟩, -⟩ := alignScan_ok hscan
          cases halign with
          | unused huse => simp [hrunning, hscan] at h
          | bySample huse hprevious hnearest =>
              simp only [hrunning, hscan, Option.some.injEq] at h
              exact Or.inr ⟨rfl, h ▸ hnearest⟩

private theorem initialized_concat_of_initialized (s : Settings α) {calls : List (Call α P)}
    (engine : Engine α P) (scan : Scan α P)
    (h : ((create s).run calls).initialized = true ∨
      ((create s).run calls).buffer.first ≠ none) :
    ((create s).run (calls ++ [.scan engine scan])).initialized = true := by
  rw [run_concat]
  exact (initialized_update engine _ scan).mpr (h.imp_right Or.inr)

/-- The first sample received is passed by the scan that starts the pipeline, and it has
not been overtaken by a sample passed before. -/
theorem passed_of_start {s : Settings α} {calls : List (Call α P)} {engine : Engine α P}
    {scan : Scan α P} {c : Sample α}
    (hchron : Chronological (calls ++ [.scan engine scan]))
    (hwaits : ((create s).run calls).initialized = false)
    (hfirst : ((create s).run calls).buffer.first = some c) :
    Passed s (calls ++ [.scan engine scan]) c ∧
      ∀ earlier, Passed s calls earlier → earlier.time ≤ c.time := by
  have hsamples : samplesOf (calls ++ [.scan engine scan]) = samplesOf calls :=
    (samplesOf_concat calls _).trans (List.append_nil _)
  have hkept : received (calls ++ [.scan engine scan]) = received calls :=
    received_concat calls _
  have hreceived : (received calls).head? = some c := by
    rw [buffer_run] at hfirst
    exact hfirst
  have hc : c ∈ received calls := List.mem_of_head? hreceived
  have hsub := (received_suffix calls).sublist
  rw [← hsamples] at hsub
  have hfirst_le : ∀ y ∈ received calls, c.time ≤ y.time := by
    have hsorted := hchron.samples.sublist (hsub.map Sample.time)
    have hrefl := hchron.le_refl (hsub.subset hc)
    generalize received calls = received at hreceived hsorted
    cases received with
    | nil => cases hreceived
    | cons first rest =>
        cases hreceived
        rw [List.map_cons, List.pairwise_cons] at hsorted
        intro y hy
        rcases List.mem_cons.mp hy with rfl | hrest
        · exact hrefl
        · exact hsorted.1 _ (List.mem_map_of_mem hrest)
  refine ⟨⟨hsub.subset hc, ⟨scan.time, by simp [scanTimes_concat, Call.scanTime?], ?_⟩, ?_⟩,
    fun earlier hearlier => hearlier.waiting hwaits c hc⟩
  · intro y hy
    have hymem := hy.mem
    rw [samples_run, hkept] at hymem
    exact hfirst_le y (List.mem_of_mem_drop hymem)
  · intro hnot
    have hruns := initialized_concat_of_initialized s engine scan
      (Or.inr (hfirst ▸ Option.some_ne_none c))
    cases hnot.symm.trans hruns

/-- The sample that a scan is aligned by is passed by it, and it has not been overtaken by
a sample passed before. -/
theorem passed_of_aligned {s : Settings α} {calls : List (Call α P)} {engine : Engine α P}
    {scan : Scan α P} {c : Sample α}
    (hchron : Chronological (calls ++ [.scan engine scan]))
    (hruns : ((create s).run calls).initialized = true)
    (hnearest : nearest? Sample.time scan.time ((create s).run calls).buffer.samples =
      some c) :
    Passed s (calls ++ [.scan engine scan]) c ∧
      ∀ earlier, Passed s calls earlier → earlier.time ≤ c.time := by
  have hsamples : samplesOf (calls ++ [.scan engine scan]) = samplesOf calls :=
    (samplesOf_concat calls _).trans (List.append_nil _)
  have hscans : scanTimes (calls ++ [.scan engine scan]) = scanTimes calls ++ [scan.time] :=
    scanTimes_concat calls _
  have hscan : scan.time ∈ scanTimes (calls ++ [.scan engine scan]) := by simp [hscans]
  have hbuffer : ((create s).run (calls ++ [.scan engine scan])).buffer =
      ((create s).run calls).buffer := by
    rw [run_concat]
    exact buffer_update engine _ scan
  have hsub := samples_run_sublist s calls
  rw [← hsamples] at hsub
  have hexact : ExactTimes (scan.time ::
      (((create s).run calls).buffer.samples).map Sample.time) := by
    refine hchron.exact.mono fun a ha => ?_
    rcases List.mem_cons.mp ha with rfl | ha
    · exact List.mem_append_left _ hscan
    · exact List.mem_append_right _ ((hsub.map _).subset ha)
  have hc := ((nearest?_eq_some_iff hexact).mp hnearest)
  have hcmem := hsub.subset hc.mem
  refine ⟨⟨hcmem, ⟨scan.time, hscan, ?_⟩, ?_⟩, ?_⟩
  · intro y hy
    rw [hbuffer] at hy
    have hfound := hy.nearest?_eq hexact
    rw [hnearest] at hfound
    cases hfound
    exact hchron.le_refl hcmem
  · intro hnot
    cases hnot.symm.trans (initialized_concat_of_initialized s engine scan (Or.inl hruns))
  · intro earlier hearlier
    obtain ⟨t, ht, hle⟩ := hearlier.nearest
    have hsorted := hchron.scans
    rw [hscans, List.pairwise_append] at hsorted
    have hlater : t ≤ scan.time := hsorted.2.2 t ht _ (List.mem_singleton.mpr rfl)
    have ht' : t ∈ scanTimes (calls ++ [.scan engine scan]) := by simp [hscans, ht]
    obtain ⟨z, hz⟩ := exists_nearest (t := t) (List.ne_nil_of_mem hc.mem)
      (hexact.mono (List.subset_cons_self _ _))
    have hsame : ((create s).run calls).buffer.samples ++ [] =
        [] ++ ((create s).run calls).buffer.samples := List.append_nil _
    have hzc : z.time ≤ c.time :=
      hchron.nearest_le ht' hscan hlater (by rwa [List.append_nil]) hsame hz hc
    have hemem : earlier ∈ samplesOf (calls ++ [.scan engine scan]) := by
      rw [hsamples]
      exact hearlier.mem
    exact hchron.le_trans hemem (hsub.subset hz.mem) hcmem (hle z hz) hzc

private theorem chosen_concat (o : Odometry α P) (calls : List (Call α P)) (call : Call α P) :
    o.chosen (calls ++ [call]) = o.chosen calls ++ ((o.run calls).chosen? call).toList :=
  collect_concat chosen? o calls call

/-- The samples that are chosen come in the order of their times, and all of them have been
passed. -/
theorem chosen_run (s : Settings α) (calls : List (Call α P)) (h : Chronological calls) :
    (((create s).chosen calls).map Sample.time).Pairwise (· ≤ ·) ∧
      ∀ c ∈ (create s).chosen calls, Passed s calls c := by
  induction calls using List.reverseRecOn with
  | nil => exact ⟨List.Pairwise.nil, fun c hc => by cases hc⟩
  | append_singleton calls call ih =>
      obtain ⟨hsorted, hpassed⟩ := ih h.of_concat
      have hkept : ∀ c ∈ (create s).chosen calls, Passed s (calls ++ [call]) c :=
        fun c hc => (hpassed c hc).concat h
      rw [chosen_concat]
      cases hchosen : ((create s).run calls).chosen? call with
      | none => simpa using ⟨hsorted, hkept⟩
      | some c =>
          obtain ⟨engine, scan, rfl⟩ : ∃ engine scan, call = .scan engine scan := by
            cases call with
            | scan engine scan => exact ⟨engine, scan, rfl⟩
            | sample x => cases hchosen
            | lastScan => cases hchosen
            | clearBuffer => cases hchosen
            | reset => cases hchosen
          have hc : Passed s (calls ++ [.scan engine scan]) c ∧
              ∀ earlier, Passed s calls earlier → earlier.time ≤ c.time := by
            rcases chosen?_scan hchosen with ⟨hwaits, hfirst⟩ | ⟨hruns, hnearest⟩
            · exact passed_of_start h hwaits hfirst
            · exact passed_of_aligned h hruns hnearest
          rw [Option.toList_some, List.map_append, List.map_singleton]
          refine ⟨List.pairwise_append.mpr ⟨hsorted, List.pairwise_singleton _ _, ?_⟩, ?_⟩
          · intro a ha b hb
            obtain ⟨earlier, hearlier, rfl⟩ := List.mem_map.mp ha
            rw [List.mem_singleton.mp hb]
            exact hc.2 earlier (hpassed earlier hearlier)
          · intro c' hc'
            rcases List.mem_append.mp hc' with hold | hnew
            · exact hkept c' hold
            · rw [List.mem_singleton.mp hnew]
              exact hc.1

/-- Alignment never goes back in time. Whatever the capacity, the interleaving of samples
and scans, and the outcomes of the cycles: where samples and scans come in the order of
their times each, the sample that starts the pipeline and those that its scans are aligned
by are in the order of their times as well. -/
theorem chosen_in_order (s : Settings α) (o : Odometry α P) (hfresh : Fresh s o)
    (calls : List (Call α P)) (h : Chronological calls) :
    ((o.chosen calls).map Sample.time).Pairwise (· ≤ ·) := by
  rw [hfresh.eq_create]
  exact (chosen_run s calls h).1

/-- With room for two samples: the scan at 2 is aligned by the sample at 1, which is gone
at the scan at 3, so that the sample at 5 is the nearest. -/
theorem chosen_in_order_of_eviction :
    let o : Odometry Float Nat := create .checked
    let calls : List (Call Float Nat) := [.upright 0, .still 0, .upright 1, .upright 5,
      .still 2, .upright 6, .still 3]
    Fresh .checked o ∧ Chronological calls ∧
      (o.chosen calls).map Sample.time = [0, 1, 5] ∧
      ((o.chosen calls).map Sample.time).Pairwise (· ≤ ·) := by
  intro o calls
  have hchron : Chronological calls :=
    ⟨by decide +kernel, by decide +kernel, by decide +kernel⟩
  exact ⟨.created, hchron, by decide +kernel,
    chosen_in_order .checked o .created calls hchron⟩

end Odometry

end InertialOdometry
