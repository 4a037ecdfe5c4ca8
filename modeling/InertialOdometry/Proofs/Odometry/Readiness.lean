import InertialOdometry.Proofs.Odometry.Advance

/-!
What a running pipeline has at hand. Four parts of the state move together: a
pipeline that was started has a scan to compare with, and with the sensor in use
also an attitude to come from and a sample to align by. Full buffers and failing
cycles do not take these away; so every scan gets to the engine.
-/

namespace InertialOdometry

variable {α P : Type} [Scalar α] [HasSingularValues α]

namespace Odometry

/-- Whatever a pipeline may come to need is there: samples once one was received,
and for a running pipeline the scan, the attitude and the sample that its next cycle
asks for. -/
structure Ready (o : Odometry α P) : Prop where
  stocked : o.buffer.first ≠ none → o.buffer.samples ≠ []
  query : o.initialized = true → o.integrator.query ≠ none
  previous : o.initialized = true → o.settings.useInertial = true →
    o.aligner.previous ≠ none
  received : o.initialized = true → o.settings.useInertial = true →
    o.buffer.first ≠ none

omit [HasSingularValues α] in
theorem ready_create (s : Settings α) : (create s : Odometry α P).Ready where
  stocked h := absurd rfl h
  query h := by cases h
  previous h := by cases h
  received h := by cases h

omit [Scalar α] [HasSingularValues α] in
theorem Ready.primed {o : Odometry α P} (h : o.Ready) : o.Primed := ⟨h.query, h.previous⟩

omit [Scalar α] [HasSingularValues α] in
theorem Ready.pushSample {o : Odometry α P} (h : o.Ready)
    (hcapacity : 0 < o.buffer.queue.capacity) (x : Sample α) :
    (o.pushSample x).1.Ready := by
  -- A full buffer gives up its oldest sample, never the one that comes in.
  have hitems := BoundedQueue.items_push_ne_nil x hcapacity
  have hbuffer : (o.buffer.push x).1.first ≠ none ∧
      (o.buffer.push x).1.samples ≠ [] := by
    unfold SampleBuffer.push
    cases hfirst : o.buffer.first with
    | none => exact ⟨Option.some_ne_none _, hitems⟩
    | some first => exact ⟨Option.some_ne_none _, hitems⟩
  exact ⟨fun _ => hbuffer.2, h.query, h.previous, fun _ _ => hbuffer.1⟩

omit [HasSingularValues α] in
theorem Warmed.initialized_iff {o : Odometry α P} {scan : Scan α P}
    {out : Odometry α P × Journal α} (h : Warmed o scan out)
    (hwaits : o.initialized = false) :
    out.1.initialized = true ↔
      o.settings.useInertial = false ∨ o.buffer.first ≠ none := by
  cases h with
  | unused huse => simp [huse]
  | waiting huse hfirst => simp [huse, hfirst, hwaits]
  | bySample huse hfirst => simp [hfirst]

/-- A pipeline runs after a scan if it did before, or if the scan could start it. -/
theorem initialized_update (engine : Engine α P) (o : Odometry α P) (scan : Scan α P) :
    (o.update engine scan).state.initialized = true ↔
      o.initialized = true ∨ o.settings.useInertial = false ∨ o.buffer.first ≠ none := by
  cases hrunning : o.initialized with
  | true =>
      obtain ⟨hstill, -⟩ := (course_update engine scan hrunning).initialized_and_stamp
      simp [hstill, stamped, hrunning]
  | false =>
      rw [update_of_not_initialized engine scan hrunning]
      have hstart := (warmed_warmUp (o.stamped scan) scan).initialized_iff hrunning
      simp only [Bool.false_eq_true, false_or]
      exact hstart

/-- Every call but the one that empties the buffer leaves a pipeline ready. -/
theorem Ready.after {o : Odometry α P} (h : o.Ready)
    (hcapacity : 0 < o.buffer.queue.capacity) {call : Call α P}
    (hcall : call ≠ .clearBuffer) : (o.after call).Ready := by
  have hprimed := h.primed.after call
  cases call with
  | sample x => exact h.pushSample hcapacity x
  | scan engine scan =>
      have hbuffer : (o.after (.scan engine scan)).buffer = o.buffer :=
        buffer_update engine o scan
      have hsettings : (o.after (.scan engine scan)).settings = o.settings :=
        settings_update engine o scan
      refine ⟨?_, hprimed.query, hprimed.previous, ?_⟩
      · rw [hbuffer]
        exact h.stocked
      · intro hrunning huse
        rw [hbuffer]
        rw [hsettings] at huse
        -- The pipeline ran before, or the scan has found a sample to start by.
        rcases (initialized_update engine o scan).mp hrunning with hold | hunused | hfirst
        · exact h.received hold huse
        · cases huse.symm.trans hunused
        · exact hfirst
  | lastScan => exact h
  | clearBuffer => exact absurd rfl hcall
  | reset =>
      refine ⟨fun hfirst => absurd rfl hfirst, hprimed.query, hprimed.previous, ?_⟩
      intro hrunning
      cases hrunning

/-- A pipeline whose buffer nobody else empties is always ready. -/
theorem ready_run (s : Settings α) (calls : List (Call α P))
    (hclear : .clearBuffer ∉ calls) :
    ((create s).run calls).Ready := by
  induction calls using List.reverseRecOn with
  | nil => exact ready_create s
  | append_singleton calls call ih =>
      rw [List.mem_append, not_or, List.mem_singleton] at hclear
      have hcapacity : 0 < ((create s).run calls).buffer.queue.capacity := by
        rw [(configured_run s calls).samples]
        exact s.capacity_pos
      rw [run_concat]
      exact (ih hclear.1).after hcapacity (Ne.symm hclear.2)

/-- In a running pipeline that is ready a scan gets to the engine, and a cycle that
fails does so with the failure of the engine or for a matrix. -/
theorem Ready.asked {o : Odometry α P} (h : o.Ready) (hrunning : o.initialized = true)
    (engine : Engine α P) (scan : Scan α P) :
    ∃ reference, (o.update engine scan).call = some (scan.points, reference) ∧
      (o.update engine scan).result ≠ .ok none ∧
      ∀ f, (o.update engine scan).result = .error f →
        engine scan.points reference = .error f ∨ f.IsGeometric := by
  have hadvance := h.primed.advance hrunning engine scan
  generalize o.update engine scan = out at hadvance ⊢
  cases hadvance with
  | refused hscan huse hempty =>
      exact absurd hempty (h.stocked (h.received hrunning huse))
  | @asked alignment aligner reference deltas said result halign hquery hcause =>
      refine ⟨reference, rfl, ?_, ?_⟩
      · cases result <;> simp [Except.map]
      · intro f hf
        exact hcause f (Failure.of_map_error hf)

end Odometry

end InertialOdometry
