import InertialOdometry.Proofs.Odometry.Course

/-!
What the guard cannot touch. Two pipelines that differ in their guards alone are led
through the same calls. Their trajectories part where one of the guards rejects what the
other accepts, but nothing that a later cycle reads does: a rejection reaches no later
increment, no decision about fusion and no question to the engine.
-/

namespace InertialOdometry

def Settings.withGuard {α : Type} (s : Settings α) (g : MotionGuard α) : Settings α :=
  { s with
    thresholding := g.enabled
    maxTranslation := g.maxTranslation
    maxRotation := g.maxRotation }

variable {α P : Type}

/-- Two results that agree in all but the verdict of the guard and the pose that it led
to. -/
inductive Concur : Except Failure (Option (Estimate α P)) →
    Except Failure (Option (Estimate α P)) → Prop where
  | nothing : Concur (.ok none) (.ok none)
  | failed (f : Failure) : Concur (.error f) (.error f)
  | estimated (e : Estimate α P) (accepted : Bool) (pose : RigidTransform α) :
      Concur (.ok (some e)) (.ok (some { e with accepted := accepted, integrated := pose }))

variable [Scalar α] [HasSingularValues α]

namespace MotionGuard

/-- A guard fails only where an increment cannot be measured, and then every guard does. -/
theorem check_error_of_check_error {g : MotionGuard α} {increment : RigidTransform α}
    {f : Failure} (h : g.check increment = .error f) (other : MotionGuard α) :
    other.check increment = .error f := by
  unfold check at h ⊢
  rcases Failure.of_bind_error h with hnorm | ⟨r, -, hrest⟩
  · rw [hnorm]
    rfl
  · cases hrest

private theorem check_ok_of_check_ok {g : MotionGuard α} {increment : RigidTransform α}
    {verdict : Verdict α} (h : g.check increment = .ok verdict) (other : MotionGuard α) :
    ∃ verdict', other.check increment = .ok verdict' := by
  obtain ⟨angles, hangles, -⟩ := check_eq_ok_iff.mp h
  exact ⟨_, check_eq_ok_iff.mpr ⟨angles, hangles, rfl⟩⟩

end MotionGuard

namespace Odometry

/-- Two pipelines that differ at most in their guards and in what these have decided:
the pose, and how many increments were accepted and rejected. -/
inductive Twin (o : Odometry α P) : Odometry α P → Prop where
  | mk (g : MotionGuard α) (pose : RigidTransform α) (accepted rejected : Nat) :
      Twin o { o with
        settings := o.settings.withGuard g
        integrator := { o.integrator with
          integrated := pose
          accepted := accepted
          rejected := rejected } }

/-- Calls on a pipeline whose engine remembers: every scan meets the engine as the pairs
that it was asked about before have left it. -/
def remembering (memory : List (P × P) → Engine α P) (o : Odometry α P)
    (pairs : List (P × P)) : List (Call α P) → List (Call α P)
  | [] => []
  | .scan _ scan :: rest =>
    let call := .scan (memory pairs) scan
    call :: remembering memory (o.after call) (pairs ++ (o.asked? call).toList) rest
  | call :: rest => call :: remembering memory (o.after call) pairs rest

omit [HasSingularValues α] in
private theorem twin_create (s : Settings α) (g : MotionGuard α) :
    Twin (create s : Odometry α P) (create (s.withGuard g)) :=
  .mk g s.initialPose 0 0

omit [HasSingularValues α] in
theorem Twin.credited {o other : Odometry α P} (h : Twin o other)
    (increment : RigidTransform α) (accepted accepted' : Bool) :
    Twin (o.integrated increment accepted) (other.integrated increment accepted') := by
  obtain ⟨g, pose, m, n⟩ := h
  cases accepted <;> cases accepted' <;> exact .mk g _ _ _

/-- Whatever comes of a registration in one of two twins, the same comes of it in the
other, but for the verdict. -/
theorem Absorbed.twin {o other final : Odometry α P} {scan : Scan α P} {gap : Option α}
    {active : Bool} {query reference : P} {registration : Registration α}
    {journal : Journal α} {result : Except Failure (Estimate α P)}
    (h : Absorbed o scan gap active query reference registration (final, journal, result))
    (htwin : Twin o other) :
    ∃ final' journal' result',
      Absorbed other scan gap active query reference registration
        (final', journal', result') ∧
      Twin final final' ∧ Concur (result.map some) (result'.map some) := by
  obtain ⟨g, pose, m, n⟩ := htwin
  cases h with
  | unread hmatrix =>
      exact ⟨_, _, _, .unread hmatrix, .mk g pose m n, .failed _⟩
  | unfused hmatrix hfuse =>
      exact ⟨_, _, _, .unfused hmatrix hfuse, .mk g pose m n, .failed _⟩
  | unjudged hmatrix hfuse hguard =>
      have hguard' := MotionGuard.check_error_of_check_error hguard g
      exact ⟨_, _, _, .unjudged hmatrix hfuse hguard', .mk g pose m n, .failed _⟩
  | @judged raw deltas fusion said verdict hmatrix hfuse hguard =>
      obtain ⟨verdict', hguard'⟩ := MotionGuard.check_ok_of_check_ok hguard g
      have hdeltas : Twin (o.withDeltas deltas) _ := .mk g pose m n
      exact ⟨_, _, _, .judged hmatrix hfuse hguard',
        hdeltas.credited fusion.transform verdict.accepted verdict'.accepted,
        .estimated _ verdict'.accepted _⟩

omit [HasSingularValues α] in
theorem Twin.aligns {o other : Odometry α P} (h : Twin o other) {scan : Scan α P}
    {alignment : Option (Alignment α)} {aligner : Aligner α}
    (halign : Aligns o scan alignment aligner) : Aligns other scan alignment aligner := by
  obtain ⟨g, pose, m, n⟩ := h
  exact halign.congr rfl rfl rfl

omit [HasSingularValues α] in
theorem Twin.alignScan_error {o other : Odometry α P} (h : Twin o other)
    {scan : Scan α P} {f : Failure} (hscan : o.alignScan scan = .error f) :
    other.alignScan scan = .error f := by
  obtain ⟨g, pose, m, n⟩ := h
  exact alignScan_error_congr hscan rfl rfl rfl

/-- Every way for a cycle to go in one of two twins is a way in the other. -/
theorem Course.twin {engine : Engine α P} {o other : Odometry α P} {scan : Scan α P}
    {out : CycleOutcome α P} (h : Course engine o scan out) (htwin : Twin o other) :
    ∃ out', Course engine other scan out' ∧ Twin out.state out'.state ∧
      out'.call = out.call ∧ Concur out.result out'.result := by
  cases h with
  | unaligned hscan =>
      exact ⟨_, .unaligned (htwin.alignScan_error hscan), htwin, rfl, .failed _⟩
  | unpaired halign hquery hquiet =>
      have halign' := htwin.aligns halign
      obtain ⟨g, pose, m, n⟩ := htwin
      exact ⟨_, .unpaired halign' hquery hquiet, .mk g pose m n, rfl, .failed _⟩
  | unregistered halign hquery hengine hquiet =>
      have halign' := htwin.aligns halign
      obtain ⟨g, pose, m, n⟩ := htwin
      exact ⟨_, .unregistered halign' hquery hengine hquiet, .mk g pose m n, rfl,
        .failed _⟩
  | @registered alignment aligner final said last reference registration result
      halign hquery hengine hquiet habsorb =>
      have halign' := htwin.aligns halign
      obtain ⟨g, pose, m, n⟩ := htwin
      have hfacing : Twin (o.facing aligner scan.points reference) _ := .mk g pose m n
      obtain ⟨final', last', result', habsorb', hfinal, hresult⟩ := habsorb.twin hfacing
      exact ⟨_, .registered halign' hquery hengine hquiet habsorb', hfinal, rfl, hresult⟩

omit [HasSingularValues α] in
theorem Twin.warmUp {o other : Odometry α P} (h : Twin o other) (scan : Scan α P) :
    Twin (o.warmUp scan).1 (other.warmUp scan).1 := by
  obtain ⟨g, pose, m, n⟩ := h
  have huse : (o.settings.withGuard g).useInertial = o.settings.useInertial := rfl
  unfold Odometry.warmUp
  cases hused : o.settings.useInertial with
  | false =>
      simp only [huse, hused, Bool.false_eq_true, if_false]
      exact .mk g pose m n
  | true =>
      simp only [huse, hused, if_true]
      cases o.buffer.first with
      | none => exact .mk g pose m n
      | some sample => exact .mk g pose m n

/-- Twins that are shown the same scan ask the engine the same, come to the same result
but for the verdict, and stay twins. -/
theorem Twin.update {o other : Odometry α P} (h : Twin o other) (engine : Engine α P)
    (scan : Scan α P) :
    Twin (o.update engine scan).state (other.update engine scan).state ∧
      (other.update engine scan).call = (o.update engine scan).call ∧
      Concur (o.update engine scan).result (other.update engine scan).result := by
  have hstamped : Twin (o.stamped scan) (other.stamped scan) := by
    obtain ⟨g, pose, m, n⟩ := h
    exact .mk g pose m n
  have hinitialized : other.initialized = o.initialized := by
    obtain ⟨g, pose, m, n⟩ := h
    rfl
  cases hrunning : o.initialized with
  | false =>
      rw [update_of_not_initialized engine scan hrunning,
        update_of_not_initialized engine scan (hinitialized.trans hrunning)]
      exact ⟨hstamped.warmUp scan, rfl, .nothing⟩
  | true =>
      have hcourse := course_update engine scan hrunning
      obtain ⟨out', hcourse', hstate, hcall, hresult⟩ := hcourse.twin hstamped
      rw [update_of_initialized engine scan (hinitialized.trans hrunning)]
      -- The way found for the other is the only one that it has.
      obtain ⟨hstate', hcall', hresult'⟩ := hcourse'.cycle_eq
      rw [hstate', hcall', hresult']
      exact ⟨hstate, hcall, hresult⟩

/-- Twins stay twins, whatever their guards say: the step of `Twin.run`. -/
theorem Twin.after {o other : Odometry α P} (h : Twin o other) (call : Call α P) :
    Twin (o.after call) (other.after call) := by
  cases call with
  | sample x =>
      obtain ⟨g, pose, m, n⟩ := h
      exact .mk g pose m n
  | scan engine scan => exact (h.update engine scan).1
  | lastScan => exact h
  | clearBuffer =>
      obtain ⟨g, pose, m, n⟩ := h
      exact .mk g pose m n
  | reset =>
      obtain ⟨g, pose, m, n⟩ := h
      exact .mk g o.integrator.initialPose 0 0

theorem Twin.run {o other : Odometry α P} (h : Twin o other) (calls : List (Call α P)) :
    Twin (o.run calls) (other.run calls) := by
  induction calls generalizing o other with
  | nil => exact h
  | cons call rest ih => exact ih (h.after call)

/-- Twins ask their engines the same. -/
theorem Twin.asked?_eq {o other : Odometry α P} (h : Twin o other) (call : Call α P) :
    other.asked? call = o.asked? call := by
  cases call with
  | scan engine scan => exact (h.update engine scan).2.1
  | sample x => rfl
  | lastScan => rfl
  | clearBuffer => rfl
  | reset => rfl

theorem Twin.asked_eq {o other : Odometry α P} (h : Twin o other)
    (calls : List (Call α P)) : other.asked calls = o.asked calls := by
  induction calls generalizing o other with
  | nil => rfl
  | cons call rest ih =>
      simp only [asked, collect, h.asked?_eq call]
      exact congrArg _ (ih (h.after call))

/-- An engine that remembers what it was asked cannot tell twins apart, and so answers
both alike. -/
theorem Twin.remembering_eq {o other : Odometry α P} (h : Twin o other)
    (memory : List (P × P) → Engine α P) (pairs : List (P × P))
    (calls : List (Call α P)) :
    other.remembering memory pairs calls = o.remembering memory pairs calls := by
  induction calls generalizing o other pairs with
  | nil => rfl
  | cons call rest ih =>
      cases call with
      | scan engine scan =>
          simp only [remembering, h.asked?_eq]
          exact congrArg _ (ih (h.after _) _)
      | sample x => exact congrArg _ (ih (h.after _) pairs)
      | lastScan => exact congrArg _ (ih (h.after _) pairs)
      | clearBuffer => exact congrArg _ (ih (h.after _) pairs)
      | reset => exact congrArg _ (ih (h.after _) pairs)

/-- Two pipelines with different guards, led through the same calls. At every moment they
hold the same samples, deltas, attitude, scans and cycle count; whatever scan comes next,
they ask the engine the same and come to the same result but for the verdict. So they
ask the same throughout, and even an engine that remembers answers both alike. -/
theorem guard_noninterference (s : Settings α) (g : MotionGuard α)
    (calls : List (Call α P)) :
    let start : Odometry α P := create s
    let start' : Odometry α P := create (s.withGuard g)
    let o := start.run calls
    let o' := start'.run calls
    (o'.buffer = o.buffer ∧ o'.aligner.deltas = o.aligner.deltas ∧
        o'.aligner.previous = o.aligner.previous ∧
        o'.integrator.query = o.integrator.query ∧
        o'.integrator.reference = o.integrator.reference ∧
        o'.integrator.incremental = o.integrator.incremental ∧
        o'.initialized = o.initialized ∧ o'.stamp = o.stamp ∧ o'.cycles = o.cycles) ∧
      (∀ engine scan,
        (o'.update engine scan).call = (o.update engine scan).call ∧
          Concur (o.update engine scan).result (o'.update engine scan).result) ∧
      start'.asked calls = start.asked calls ∧
      ∀ memory, start'.remembering memory [] calls = start.remembering memory [] calls := by
  intro start start' o o'
  have hstart : Twin start start' := twin_create s g
  have htwin : Twin o o' := hstart.run calls
  refine ⟨?_, ?_, hstart.asked_eq calls, fun memory => hstart.remembering_eq memory [] calls⟩
  · clear_value o o'
    obtain ⟨_, _, _, _⟩ := htwin
    exact ⟨rfl, rfl, rfl, rfl, rfl, rfl, rfl, rfl, rfl⟩
  · intro engine scan
    exact (htwin.update engine scan).2

end Odometry

end InertialOdometry
