import InertialOdometry.Proofs.Odometry.Frame

/-!
What calls do to the deltas. A scan that is aligned queues one, and its cycle takes
the oldest one if the gate opens and the engine finds a registration that has
angles. Nothing else but a reset touches the queue.
-/

namespace InertialOdometry

variable {α P : Type} [Scalar α] [HasSingularValues α]

def RigidTransform.HasAngles (raw : RigidTransform α) : Prop :=
  ∃ angles, raw.rpy = .ok angles

/-- A registration is a homogeneous matrix whose rotation has roll, pitch and yaw. -/
def Registration.HasAngles (registration : Registration α) : Prop :=
  ∃ raw, RigidTransform.ofTensor registration.transformation = .ok raw ∧ raw.HasAngles

instance (registration : Registration α) : Decidable registration.HasAngles :=
  match hmatrix : RigidTransform.ofTensor registration.transformation with
  | .error f => isFalse (by simp [Registration.HasAngles, hmatrix])
  | .ok raw =>
    match hrpy : raw.rpy with
    | .error f => isFalse (by
        simp [Registration.HasAngles, RigidTransform.HasAngles, hmatrix, hrpy])
    | .ok angles => isTrue ⟨raw, hmatrix, angles, hrpy⟩

theorem Registration.hasAngles_iff {registration : Registration α}
    {raw : RigidTransform α}
    (hmatrix : RigidTransform.ofTensor registration.transformation = .ok raw) :
    registration.HasAngles ↔ raw.HasAngles := by
  constructor
  · rintro ⟨raw', hraw, hangles⟩
    rw [hmatrix] at hraw
    cases hraw
    exact hangles
  · intro hangles
    exact ⟨raw, hmatrix, hangles⟩

def IsTiltOf (delta : Tensor α) (angles : Option (Rpy α)) : Prop :=
  ∃ tilt, delta.toAttitude.bind Mat3.toRpy = .ok tilt ∧ angles = some tilt

/-- Fusion takes the oldest delta if it is active and the transform has angles, and
no delta otherwise. -/
theorem Fusion.Combined.deltas_cases {deltas left : BoundedQueue (Tensor α)}
    {raw : RigidTransform α} {active : Bool}
    {fused : Except Failure (Fusion α × Journal α)}
    (h : Combined deltas raw active (left, fused)) :
    (¬(active = true ∧ raw.HasAngles) ∧ left = deltas) ∨
      (active = true ∧ raw.HasAngles ∧
        (deltas.items = [] ∨ ∃ x, deltas.pop? = some (x, left) ∧
          ∀ fusion journal, fused = .ok (fusion, journal) →
            IsTiltOf x fusion.rpyInertial)) := by
  cases h with
  | angleless hrpy =>
      refine Or.inl ⟨?_, rfl⟩
      rintro ⟨-, angles, hangles⟩
      rw [hrpy] at hangles
      cases hangles
  | inactive hrpy hactive => exact Or.inl ⟨by simp [hactive], rfl⟩
  | drained hrpy hactive hpop =>
      exact Or.inr ⟨hactive, ⟨_, hrpy⟩, Or.inl (BoundedQueue.pop?_eq_none hpop)⟩
  | taken hrpy hactive hpop hdelta =>
      refine Or.inr ⟨hactive, ⟨_, hrpy⟩, Or.inr ⟨_, hpop, ?_⟩⟩
      intro fusion journal hfused
      exact (withDelta_ok (hdelta.trans hfused)).2.2.1

namespace Odometry

/-- The delta that a call queues: the rotation to the sample that a scan of a
running pipeline is aligned by. -/
def pushed? (o : Odometry α P) : Call α P → Option (Tensor α)
  | .scan _ scan =>
    match o.initialized, o.alignScan scan with
    | true, .ok (some alignment, _, _) => some (.ofMat3 alignment.delta)
    | _, _ => none
  | _ => none

def pushed (o : Odometry α P) (calls : List (Call α P)) : List (Tensor α) :=
  collect pushed? o calls

/-- A call comes to take a delta: the gate lets the sample through that a scan of a
running pipeline is aligned by, and the engine finds a registration that has angles. -/
def ReachesPop (o : Odometry α P) : Call α P → Prop
  | .scan engine scan =>
    o.initialized = true ∧
      (∃ alignment aligned journal,
        o.alignScan scan = .ok (some alignment, aligned, journal) ∧
          o.opensFor (some alignment) = true) ∧
      ∃ reference registration, o.integrator.query = some reference ∧
        engine scan.points reference = .ok registration ∧ registration.HasAngles
  | _ => False

instance (o : Odometry α P) (call : Call α P) : Decidable (o.ReachesPop call) :=
  match call with
  | .scan engine scan =>
    match hscan : o.alignScan scan, hquery : o.integrator.query with
    | .ok (some alignment, aligned, journal), some reference =>
      match hengine : engine scan.points reference with
      | .error f => isFalse (by simp [ReachesPop, hquery, hengine])
      | .ok registration =>
        decidable_of_iff
          (o.initialized = true ∧ o.opensFor (some alignment) = true ∧
            registration.HasAngles)
          (by simp [ReachesPop, hscan, hquery, hengine])
    | .ok (none, aligned, journal), _ => isFalse (by simp [ReachesPop, hscan])
    | .error f, _ => isFalse (by simp [ReachesPop, hscan])
    | _, none => isFalse (by simp [ReachesPop, hquery])
  | .sample _ => isFalse (by simp [ReachesPop])
  | .lastScan => isFalse (by simp [ReachesPop])
  | .clearBuffer => isFalse (by simp [ReachesPop])
  | .reset => isFalse (by simp [ReachesPop])

/-- Taking in a registration takes the oldest delta if the gate opened and there are
angles, and no delta otherwise. -/
theorem Absorbed.deltas_cases {o final : Odometry α P} {scan : Scan α P}
    {gap : Option α} {active : Bool} {query reference : P}
    {registration : Registration α} {journal : Journal α}
    {result : Except Failure (Estimate α P)}
    (h : Absorbed o scan gap active query reference registration
      (final, journal, result)) :
    (¬(active = true ∧ registration.HasAngles) ∧
        final.aligner.deltas = o.aligner.deltas) ∨
      (active = true ∧ registration.HasAngles ∧
        (o.aligner.deltas.items = [] ∨
          ∃ x, o.aligner.deltas.pop? = some (x, final.aligner.deltas) ∧
            ∀ e, result = .ok e → IsTiltOf x e.rpyInertial)) := by
  cases h with
  | unread hmatrix =>
      refine Or.inl ⟨?_, rfl⟩
      rintro ⟨-, raw, hraw, -⟩
      rw [hmatrix] at hraw
      cases hraw
  | unfused hmatrix hfuse =>
      rw [Registration.hasAngles_iff hmatrix]
      rcases hfuse.deltas_cases with hkept | ⟨hactive, hangles, hempty | ⟨x, hpop, -⟩⟩
      · exact Or.inl hkept
      · exact Or.inr ⟨hactive, hangles, Or.inl hempty⟩
      · exact Or.inr ⟨hactive, hangles, Or.inr ⟨x, hpop, by simp⟩⟩
  | unjudged hmatrix hfuse hguard =>
      rw [Registration.hasAngles_iff hmatrix]
      rcases hfuse.deltas_cases with hkept | ⟨hactive, hangles, hempty | ⟨x, hpop, -⟩⟩
      · exact Or.inl hkept
      · exact Or.inr ⟨hactive, hangles, Or.inl hempty⟩
      · exact Or.inr ⟨hactive, hangles, Or.inr ⟨x, hpop, by simp⟩⟩
  | judged hmatrix hfuse hguard =>
      rw [Registration.hasAngles_iff hmatrix]
      rcases hfuse.deltas_cases with hkept | ⟨hactive, hangles, hempty | ⟨x, hpop, htilt⟩⟩
      · exact Or.inl hkept
      · exact Or.inr ⟨hactive, hangles, Or.inl hempty⟩
      · refine Or.inr ⟨hactive, hangles, Or.inr ⟨x, hpop, ?_⟩⟩
        intro e he
        cases he
        exact htilt _ _ rfl

/-- What a call does to the deltas: nothing, or it queues one, or it queues one and
takes the oldest. -/
inductive DeltaTurn (o : Odometry α P) (call : Call α P) :
    BoundedQueue (Tensor α) → Prop where
  | untouched (hpush : o.pushed? call = none) (hpop : ¬o.ReachesPop call) :
      DeltaTurn o call o.aligner.deltas
  | queued {d : Tensor α} (hpush : o.pushed? call = some d)
      (hpop : ¬o.ReachesPop call) :
      DeltaTurn o call (o.aligner.deltas.push d)
  | taken {d x : Tensor α} {left : BoundedQueue (Tensor α)}
      (hpush : o.pushed? call = some d) (hpop : o.ReachesPop call)
      (htaken : (o.aligner.deltas.push d).pop? = some (x, left))
      (htilt : ∀ e, o.estimate? call = some e → IsTiltOf x e.rpyInertial) :
      DeltaTurn o call left

omit [HasSingularValues α] in
theorem Aligns.of_stamped {o : Odometry α P} {scan : Scan α P}
    {alignment : Option (Alignment α)} {aligner : Aligner α}
    (h : Aligns (o.stamped scan) scan alignment aligner) :
    Aligns o scan alignment aligner := h.congr rfl rfl rfl

omit [HasSingularValues α] in
theorem opensFor_none (o : Odometry α P) : o.opensFor none = false := by
  unfold opensFor FusionGate.evaluate
  cases o.settings.gate.useInertial <;> rfl

omit [HasSingularValues α] in
theorem Warmed.deltas_eq {o : Odometry α P} {scan : Scan α P}
    {out : Odometry α P × Journal α} (h : Warmed o scan out) :
    out.1.aligner.deltas = o.aligner.deltas := by
  cases h with
  | unused huse => rfl
  | waiting huse hfirst => rfl
  | bySample huse hfirst => rfl

omit [HasSingularValues α] in
/-- A scan that is aligned queues the delta of its alignment, if there was one. -/
theorem Aligns.pushed?_eq (engine : Engine α P) {o : Odometry α P} {scan : Scan α P}
    {alignment : Option (Alignment α)} {aligner : Aligner α}
    (hrunning : o.initialized = true) (halign : Aligns o scan alignment aligner) :
    o.pushed? (.scan engine scan) = alignment.map (fun a => .ofMat3 a.delta) := by
  obtain ⟨journal, hscan⟩ := halign.alignScan_eq
  simp only [pushed?, hrunning, hscan]
  cases alignment <;> rfl

/-- For a scan that is aligned, only the gate and the engine decide whether a delta
is taken. -/
theorem reachesPop_iff (engine : Engine α P) {o : Odometry α P} {scan : Scan α P}
    {alignment : Option (Alignment α)} {aligner : Aligner α}
    (hrunning : o.initialized = true) (halign : Aligns o scan alignment aligner) :
    o.ReachesPop (.scan engine scan) ↔
      o.opensFor alignment = true ∧ ∃ reference registration,
        o.integrator.query = some reference ∧
          engine scan.points reference = .ok registration ∧
          registration.HasAngles := by
  obtain ⟨journal, hscan⟩ := halign.alignScan_eq
  constructor
  · rintro ⟨-, ⟨alignment', aligned, journal', hscan', hopen⟩, hengine⟩
    rw [hscan] at hscan'
    cases hscan'
    exact ⟨hopen, hengine⟩
  · rintro ⟨hopen, hengine⟩
    cases halign with
    | unused huse => simp [opensFor_none] at hopen
    | bySample huse hprevious hnearest =>
        exact ⟨hrunning, ⟨_, _, _, hscan, hopen⟩, hengine⟩

/-- A scan that is aligned without coming to take a delta leaves the deltas as the
alignment has left them. -/
theorem DeltaTurn.of_aligns {engine : Engine α P} {o : Odometry α P}
    {scan : Scan α P} {alignment : Option (Alignment α)} {aligner : Aligner α}
    (hrunning : o.initialized = true) (halign : Aligns o scan alignment aligner)
    (hpop : ¬o.ReachesPop (.scan engine scan)) :
    DeltaTurn o (.scan engine scan) aligner.deltas := by
  have hpush := halign.pushed?_eq engine hrunning
  cases halign with
  | unused huse => exact .untouched hpush hpop
  | bySample huse hprevious hnearest => exact .queued hpush hpop

private theorem deltaTurn_of_initialized (engine : Engine α P) {o : Odometry α P}
    (scan : Scan α P) (hrunning : o.initialized = true)
    (hcapacity : 0 < o.aligner.deltas.capacity) :
    DeltaTurn o (.scan engine scan) (o.update engine scan).state.aligner.deltas := by
  have hcourse := course_update engine scan hrunning
  have hestimate : o.estimate? (.scan engine scan) =
      (o.update engine scan).estimate? := rfl
  generalize o.update engine scan = out at hcourse hestimate
  cases hcourse with
  | unaligned hfail =>
      have hscan : o.alignScan scan = .error _ := alignScan_error_congr hfail rfl rfl rfl
      refine .untouched (by simp [pushed?, hrunning, hscan]) ?_
      rintro ⟨-, ⟨alignment, aligned, journal, hscan', -⟩, -⟩
      rw [hscan] at hscan'
      cases hscan'
  | unpaired halign hquery hquiet =>
      refine .of_aligns hrunning halign.of_stamped ?_
      rw [reachesPop_iff engine hrunning halign.of_stamped]
      rintro ⟨-, reference, registration, hreference, -⟩
      cases hquery.symm.trans hreference
  | unregistered halign hquery hengine hquiet =>
      refine .of_aligns hrunning halign.of_stamped ?_
      rw [reachesPop_iff engine hrunning halign.of_stamped]
      rintro ⟨-, reference, registration, hreference, hanswer, -⟩
      cases hquery.symm.trans hreference
      cases hengine.symm.trans hanswer
  | @registered alignment aligner final said last reference registration result
      halign hquery hengine hquiet habsorb =>
      have hreach := reachesPop_iff engine hrunning halign.of_stamped
      rcases habsorb.deltas_cases with ⟨hnot, hkept⟩ | ⟨hopen, hangles, htaken⟩
      · rw [hkept]
        refine .of_aligns hrunning halign.of_stamped ?_
        rw [hreach]
        rintro ⟨hopen, reference', registration', hreference, hanswer, hangles⟩
        cases hquery.symm.trans hreference
        cases hengine.symm.trans hanswer
        exact hnot ⟨hopen, hangles⟩
      · have hpop := hreach.mpr ⟨hopen, reference, registration, hquery, hengine, hangles⟩
        have hpush := halign.of_stamped.pushed?_eq engine hrunning
        cases halign with
        | unused huse => exact absurd hopen (by simp [opensFor_none])
        | bySample huse hprevious hnearest =>
            -- The delta that this very alignment has queued is still there.
            rcases htaken with hempty | ⟨x, hx, htilt⟩
            · exact absurd hempty (BoundedQueue.items_push_ne_nil _ hcapacity)
            · refine .taken hpush hpop hx ?_
              intro e he
              rw [hestimate] at he
              cases result with
              | error f => cases he
              | ok estimate =>
                  cases he
                  exact htilt e rfl

/-- Every call but a reset does one of three things to the deltas. -/
theorem deltaTurn_after {o : Odometry α P} {call : Call α P} (hcall : call ≠ .reset)
    (hcapacity : 0 < o.aligner.deltas.capacity) :
    DeltaTurn o call (o.after call).aligner.deltas := by
  cases call with
  | sample x => exact .untouched rfl (by simp [ReachesPop])
  | scan engine scan =>
      cases hrunning : o.initialized with
      | true => exact deltaTurn_of_initialized engine scan hrunning hcapacity
      | false =>
          have hkept : (o.after (.scan engine scan)).aligner.deltas =
              o.aligner.deltas := by
            simp only [Odometry.after, update_of_not_initialized engine scan hrunning]
            exact (warmed_warmUp (o.stamped scan) scan).deltas_eq
          rw [hkept]
          exact .untouched (by simp [pushed?, hrunning]) (by simp [ReachesPop, hrunning])
  | lastScan => exact .untouched rfl (by simp [ReachesPop])
  | clearBuffer => exact .untouched rfl (by simp [ReachesPop])
  | reset => exact absurd rfl hcall

theorem pushed_concat (o : Odometry α P) (calls : List (Call α P)) (call : Call α P) :
    o.pushed (calls ++ [call]) = o.pushed calls ++ ((o.run calls).pushed? call).toList :=
  collect_concat pushed? o calls call

end Odometry

end InertialOdometry
