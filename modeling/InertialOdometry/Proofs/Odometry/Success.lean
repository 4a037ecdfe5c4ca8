import InertialOdometry.Proofs.Exact.Angles
import InertialOdometry.Proofs.Inertial.Nearest
import InertialOdometry.Proofs.Odometry.Readiness

/-!
Cycles that succeed. An engine whose answers have angles can let a cycle down only through
fusion, and fusion can go wrong only for what it is given: the transform that was answered
and the turn between two attitudes of samples. So where every answer keeps its angles under
such turns, every scan that a running pipeline is presented with has an estimate. Over exact
scalars the angles are always kept.
-/

namespace InertialOdometry

variable {α P : Type} [Scalar α] [HasSingularValues α]

/-- A registration that a cycle can be finished with. Its transform has angles, and has
angles still when it is tilted by the turn between two known attitudes. -/
structure Registration.Usable (known : Mat3 α → Prop) (registration : Registration α)
    (raw : RigidTransform α) (angles : Rpy α) : Prop where
  matrix : RigidTransform.ofTensor registration.transformation = .ok raw
  decomposable : raw.rpy = .ok angles
  tiltable : ∀ a b, known a → known b → ∃ fusion journal,
    Fusion.withDelta raw angles (.ofMat3 (relativeRotation a b)) = .ok (fusion, journal) ∧
      ∃ tilted, fusion.transform.rpy = .ok tilted

theorem MotionGuard.exists_check_of_rpy {g : MotionGuard α} {increment : RigidTransform α}
    {angles : Rpy α} (h : increment.rpy = .ok angles) :
    ∃ verdict, g.check increment = .ok verdict :=
  ⟨_, check_eq_ok_iff.mpr ⟨angles, h, rfl⟩⟩

/-- The turn between two known attitudes. -/
def Tensor.IsTurn (known : Mat3 α → Prop) (delta : Tensor α) : Prop :=
  ∃ a b, known a ∧ known b ∧ delta = .ofMat3 (relativeRotation a b)

/-- A usable answer is fused, and what comes of it has angles. -/
theorem Fusion.Combined.exists_rpy {known : Mat3 α → Prop} {registration : Registration α}
    {raw : RigidTransform α} {angles : Rpy α} (husable : registration.Usable known raw angles)
    {deltas left : BoundedQueue (Tensor α)} {active : Bool}
    {fused : Except Failure (Fusion α × Journal α)}
    (hdeltas : ∀ delta ∈ deltas.items, delta.IsTurn known)
    (h : Combined deltas raw active (left, fused)) :
    ∃ fusion journal, fused = .ok (fusion, journal) ∧
      ∃ angles, fusion.transform.rpy = .ok angles := by
  cases h with
  | angleless hrpy => cases hrpy.symm.trans husable.decomposable
  | inactive hrpy hactive => exact ⟨_, _, rfl, _, hrpy⟩
  | drained hrpy hactive hpop => exact ⟨_, _, rfl, _, hrpy⟩
  | @taken found delta rest fused hrpy hactive hpop hdelta =>
      obtain ⟨hitems, -⟩ := BoundedQueue.pop?_eq_some hpop
      obtain ⟨a, b, ha, hb, rfl⟩ := hdeltas delta (by rw [hitems]; exact List.mem_cons_self)
      cases hrpy.symm.trans husable.decomposable
      obtain ⟨fusion, journal, hfused, htilted⟩ := husable.tiltable a b ha hb
      exact ⟨fusion, journal, hdelta.symm.trans hfused, htilted⟩

/-- Fusion leaves no deltas but those that it was given. -/
theorem Fusion.Combined.mem_of_mem_left {deltas left : BoundedQueue (Tensor α)}
    {raw : RigidTransform α} {active : Bool}
    {fused : Except Failure (Fusion α × Journal α)}
    (h : Combined deltas raw active (left, fused)) {delta : Tensor α}
    (hdelta : delta ∈ left.items) : delta ∈ deltas.items := by
  cases h with
  | angleless hrpy => exact hdelta
  | inactive hrpy hactive => exact hdelta
  | drained hrpy hactive hpop => exact hdelta
  | taken hrpy hactive hpop hwith =>
      rw [(BoundedQueue.pop?_eq_some hpop).1]
      exact List.mem_cons_of_mem _ hdelta

namespace Odometry

/-- What a pipeline has at hand comes from known attitudes and from scans seen. -/
structure Supplied (known : Mat3 α → Prop) (seen : P → Prop) (o : Odometry α P) : Prop where
  previous : ∀ m, o.aligner.previous = some m → known m
  deltas : ∀ delta ∈ o.aligner.deltas.items, delta.IsTurn known
  query : ∀ p, o.integrator.query = some p → seen p

/-- Where the sensor is in use, the samples in the buffer show known attitudes. -/
def Fed (known : Mat3 α → Prop) (o : Odometry α P) : Prop :=
  o.settings.useInertial = true →
    ∀ x, x ∈ o.buffer.samples ∨ o.buffer.first = some x → known x.attitude

variable {known : Mat3 α → Prop} {seen : P → Prop} {o : Odometry α P}

omit [HasSingularValues α] in
theorem supplied_create (s : Settings α) : (create s).Supplied known seen where
  previous m h := by cases h
  deltas delta h := by cases h
  query p h := by cases h

omit [HasSingularValues α] in
/-- An alignment comes to a known attitude, and by the turn between two of them. -/
theorem Aligns.supplied {scan : Scan α P} {alignment : Option (Alignment α)}
    {aligner : Aligner α} (h : Aligns o scan alignment aligner)
    (hsupplied : o.Supplied known seen) (hfed : o.Fed known) :
    (∀ m, aligner.previous = some m → known m) ∧
      ∀ delta ∈ aligner.deltas.items, delta.IsTurn known := by
  cases h with
  | unused huse => exact ⟨hsupplied.previous, hsupplied.deltas⟩
  | @bySample previous sample huse hprevious hnearest =>
      have hsample : known sample.attitude :=
        hfed huse sample (Or.inl (mem_of_nearest? hnearest))
      refine ⟨fun m hm => ?_, fun delta hdelta => ?_⟩
      · cases hm
        exact hsample
      · have hpushed : delta ∈ o.aligner.deltas.items ++
            [.ofMat3 (relativeRotation sample.attitude previous)] :=
          List.mem_of_mem_drop hdelta
        rcases List.mem_append.mp hpushed with hold | hnew
        · exact hsupplied.deltas delta hold
        · rw [List.mem_singleton] at hnew
          exact ⟨_, _, hsample, hsupplied.previous _ hprevious, hnew⟩

/-- A scan that finds a pipeline not running has no estimate, and all at hand stays known. -/
theorem Supplied.wait (h : o.Supplied known seen) (hfed : o.Fed known)
    (hwaits : o.initialized = false) (engine : Engine α P) {scan : Scan α P}
    (hseen : seen scan.points) :
    (o.update engine scan).result = .ok none ∧
      (o.update engine scan).state.Supplied known seen := by
  rw [update_of_not_initialized engine scan hwaits]
  refine ⟨rfl, ?_⟩
  have hquery : ∀ p, some scan.points = some p → seen p := by
    intro p hp
    cases hp
    exact hseen
  have hwarmed := warmed_warmUp (o.stamped scan) scan
  generalize (o.stamped scan).warmUp scan = out at hwarmed ⊢
  cases hwarmed with
  | unused huse => exact ⟨h.previous, h.deltas, hquery⟩
  | waiting huse hfirst => exact ⟨h.previous, h.deltas, hquery⟩
  | @bySample sample huse hfirst =>
      refine ⟨fun m hm => ?_, h.deltas, hquery⟩
      cases hm
      exact hfed huse sample (Or.inr hfirst)

/-- A scan that finds a pipeline running has an estimate, if all answers are usable. -/
theorem Supplied.proceed (h : o.Supplied known seen) (hfed : o.Fed known) (hready : o.Ready)
    (hrunning : o.initialized = true) {engine : Engine α P} {scan : Scan α P}
    (hseen : seen scan.points)
    (hengine : ∀ p q, seen p → seen q → ∃ registration raw angles,
      engine p q = .ok registration ∧ registration.Usable known raw angles) :
    ∃ e, (o.update engine scan).result = .ok (some e) ∧ e.stamp = scan.stamp ∧
      e.scanIndex = scan.index ∧ (o.update engine scan).state.Supplied known seen := by
  have hcourse := course_update engine scan hrunning
  generalize o.update engine scan = out at hcourse ⊢
  cases hcourse with
  | unaligned hfail =>
      have hscan : o.alignScan scan = .error _ := alignScan_error_congr hfail rfl rfl rfl
      obtain ⟨huse, ⟨-, hprevious⟩ | ⟨-, hnearest⟩⟩ := alignScan_error hscan
      · exact absurd hprevious (hready.previous hrunning huse)
      · have hstocked := hready.stocked (hready.received hrunning huse)
        exact absurd hnearest (nearest?_ne_none Sample.time scan.time hstocked)
  | unpaired halign hquery hquiet => exact absurd hquery (hready.query hrunning)
  | @unregistered alignment aligner said reference f halign hquery hasked hquiet =>
      obtain ⟨registration, _, _, hanswer, -⟩ := hengine _ _ hseen (h.query reference hquery)
      cases hasked.symm.trans hanswer
  | @registered alignment aligner final said last reference registration result
      halign hquery hasked hquiet habsorb =>
      obtain ⟨_, raw, angles, hanswer, husable⟩ :=
        hengine _ _ hseen (h.query reference hquery)
      cases hasked.symm.trans hanswer
      obtain ⟨hprevious, hdeltas⟩ := halign.of_stamped.supplied h hfed
      cases habsorb with
      | unread hmatrix => cases hmatrix.symm.trans husable.matrix
      | unfused hmatrix hfuse =>
          cases hmatrix.symm.trans husable.matrix
          obtain ⟨_, _, hfused, -⟩ := hfuse.exists_rpy husable hdeltas
          cases hfused
      | unjudged hmatrix hfuse hguard =>
          cases hmatrix.symm.trans husable.matrix
          obtain ⟨_, _, hfused, _, hrpy⟩ := hfuse.exists_rpy husable hdeltas
          cases hfused
          obtain ⟨verdict, hverdict⟩ := MotionGuard.exists_check_of_rpy hrpy
          cases hguard.symm.trans hverdict
      | judged hmatrix hfuse hguard =>
          refine ⟨_, rfl, rfl, rfl, ⟨hprevious, ?_, ?_⟩⟩
          · exact fun delta hdelta => hdeltas delta (hfuse.mem_of_mem_left hdelta)
          · intro p hp
            simp only [integrated, withDeltas, facing, PoseIntegrator.integrate] at hp
            split at hp <;> cases hp <;> exact hseen

end Odometry

/-! ### Exact scalars -/

section

variable [HasSingularValues ℝ] [ExactSingularValues]

/-- The turn between two rotations lets every transform keep its angles. -/
theorem Registration.usable_real {known : Mat3 ℝ → Prop}
    (hknown : ∀ m, known m → m.IsRotation) {registration : Registration ℝ}
    {raw : RigidTransform ℝ} {angles : Rpy ℝ}
    (hmatrix : RigidTransform.ofTensor registration.transformation = .ok raw)
    (hrpy : raw.rpy = .ok angles) : registration.Usable known raw angles := by
  refine ⟨hmatrix, hrpy, fun a b ha hb => ?_⟩
  have hraw : 0 < raw.rotation.det := by
    cases hq : raw.rotation.toQuaternion with
    | error f =>
        rw [RigidTransform.rpy, Mat3.toRpy, hq] at hrpy
        cases hrpy
    | ok q => exact Mat3.det_pos_of_toQuaternion hq
  obtain ⟨tilt, htilt⟩ := Mat3.exists_toRpy ((hknown a ha).mul (hknown b hb).transpose).det_pos
  have hturn := (angles.tiltedAs tilt).isRotation_turn
  have hfused : Fusion.fuseRotation angles tilt = .ok (angles.tiltedAs tilt).turn :=
    (angles.tiltedAs tilt).toMat3_eq
  have hcorrection : 0 < ((angles.tiltedAs tilt).turn * raw.rotation.transpose).det := by
    rw [Mat3.det_mul, Mat3.det_transpose]
    exact mul_pos hturn.det_pos hraw
  obtain ⟨q, hq⟩ := Mat3.exists_toQuaternion hcorrection
  obtain ⟨tilted, htilted⟩ := Mat3.exists_toRpy hturn.det_pos
  simp only [Fusion.withDelta, Tensor.toAttitude_ofMat3, relativeRotation, htilt, hfused,
    Mat3.angleBetween, hq, Except.map, bind, Except.bind, pure, Except.pure]
  exact ⟨_, _, rfl, tilted, htilted⟩

end

end InertialOdometry
