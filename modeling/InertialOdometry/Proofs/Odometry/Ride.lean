import InertialOdometry.Proofs.Exact.Angles
import InertialOdometry.Proofs.Exact.Transform
import InertialOdometry.Proofs.Odometry.Increments

/-!
Rides with perfect data. The sensor shows the very attitude at each scan, and the engine
answers the very motion between two scans, in the frame of the former. On such a ride the
sample at a scan is the one that the scan is aligned by, and the delta that is fused is the
one that the scan has queued. So every increment has the translation and the yaw of the
motion and the roll and the pitch of the turn between the two attitudes.
-/

namespace InertialOdometry

/-! ### The nearest sample -/

section

variable {β : Type} {time : β → ℝ} {t : ℝ}

/-- An item of the very time is nearer than all that were before. -/
theorem nearest?_concat_eq {earlier : List β} {last : β} (hearlier : ∀ x ∈ earlier, time x < t)
    (hlast : time last = t) : nearest? time t (earlier ++ [last]) = some last := by
  have hpast : ((earlier ++ [last]).foldl (Candidates.weigh time t) ⟨none, none⟩).past =
      some last := by
    rw [List.foldl_concat]
    cases hbest : (earlier.foldl (Candidates.weigh time t) ⟨none, none⟩).past with
    | none => simp [Candidates.weigh, hlast, hbest]
    | some old =>
        have hmem : old ∈ earlier := by simpa using Candidates.mem_of_past hbest
        have hnearer : 0 < |time old - t| := abs_pos.mpr (sub_ne_zero.mpr (hearlier old hmem).ne)
        simp [Candidates.weigh, hlast, hbest, hnearer]
  rw [nearest?, hpast]
  rfl

end

section

variable [HasSingularValues ℝ] [ExactSingularValues]

/-- A rotation is fused with a rotation into the turn by the yaw of the one and the roll and
the pitch of the other. -/
theorem Fusion.exists_withDelta {raw : RigidTransform ℝ} (hraw : raw.rotation.IsRotation)
    (angles : Rpy ℝ) {delta : Mat3 ℝ} {tilt : Rpy ℝ} (htilt : delta.toRpy = .ok tilt) :
    ∃ fusion journal, withDelta raw angles (.ofMat3 delta) = .ok (fusion, journal) ∧
      fusion.transform = raw.withRotation (angles.tiltedAs tilt).turn := by
  have hcorrection :
      ((angles.tiltedAs tilt).turn * raw.rotation.transpose).IsRotation :=
    (angles.tiltedAs tilt).isRotation_turn.mul hraw.transpose
  have hfused : fuseRotation angles tilt = .ok (angles.tiltedAs tilt).turn :=
    (angles.tiltedAs tilt).toMat3_eq
  simp only [withDelta, Tensor.toAttitude_ofMat3, htilt, hfused, Mat3.angleBetween,
    hcorrection.toQuaternion_eq, Except.map, bind, Except.bind, pure, Except.pure]
  exact ⟨_, _, rfl, rfl⟩

/-- Without limits every rigid increment passes. -/
theorem MotionGuard.exists_check {g : MotionGuard ℝ} (hunlimited : g.enabled = false)
    {increment : RigidTransform ℝ} (hrigid : increment.rotation.IsRotation) :
    ∃ verdict, g.check increment = .ok verdict ∧ verdict.accepted = true := by
  obtain ⟨angles, hangles⟩ := Mat3.exists_toRpy hrigid.det_pos
  exact ⟨_, check_eq_ok_iff.mpr ⟨angles, hangles, rfl⟩, by simp [admits, hunlimited]⟩

end

/-- A ride: the pose at each scan, the scans, and the engine that answers for each. -/
structure Ride (P : Type) where
  pose : ℕ → RigidTransform ℝ
  scan : ℕ → Scan ℝ P
  engine : ℕ → Engine ℝ P

variable {P : Type}

namespace Ride

/-- The motion from a pose to the next one, in the frame of the former. -/
noncomputable def motion (r : Ride P) (k : ℕ) : RigidTransform ℝ :=
  (r.pose k).inverse.compose (r.pose (k + 1))

/-- The turn from an attitude to the next one, in the fixed frame. -/
noncomputable def turn (r : Ride P) (k : ℕ) : Mat3 ℝ :=
  relativeRotation (r.pose (k + 1)).rotation (r.pose k).rotation

noncomputable def sampleCall (r : Ride P) (k : ℕ) : Call ℝ P :=
  .sample ⟨(r.pose k).rotation, (r.scan k).time⟩

noncomputable def scanCall (r : Ride P) (k : ℕ) : Call ℝ P := .scan (r.engine k) (r.scan k)

/-- The calls up to a scan, each scan right after its sample. -/
noncomputable def calls (r : Ride P) : ℕ → List (Call ℝ P)
  | 0 => [r.sampleCall 0, r.scanCall 0]
  | n + 1 => r.calls n ++ [r.sampleCall (n + 1)] ++ [r.scanCall (n + 1)]

/-- The data of a ride are perfect up to a scan: the poses are rigid, time passes between the
scans, the engine answers the motion between them, and neither the motions nor the turns
are locked. -/
structure Perfect (r : Ride P) (n : ℕ) : Prop where
  rigid : ∀ k ≤ n, (r.pose k).rotation.IsRotation
  later : ∀ k < n, (r.scan k).time < (r.scan (k + 1)).time
  answers : ∀ k < n,
    (r.engine (k + 1)).Answers (r.scan (k + 1)).points (r.scan k).points (r.motion k)
  freeMotion : ∀ k < n, ¬(r.motion k).rotation.Locked
  freeTurn : ∀ k < n, ¬(r.turn k).Locked

variable {r : Ride P}

private theorem Perfect.prev {n : ℕ} (h : r.Perfect (n + 1)) : r.Perfect n where
  rigid k hk := h.rigid k (by omega)
  later k hk := h.later k (by omega)
  answers k hk := h.answers k (by omega)
  freeMotion k hk := h.freeMotion k (by omega)
  freeTurn k hk := h.freeTurn k (by omega)

theorem Perfect.isRotation_motion {n : ℕ} (h : r.Perfect n) {k : ℕ} (hk : k < n) :
    (r.motion k).rotation.IsRotation :=
  (h.rigid k (by omega)).transpose.mul (h.rigid (k + 1) hk)

theorem Perfect.isRotation_turn {n : ℕ} (h : r.Perfect n) {k : ℕ} (hk : k < n) :
    (r.turn k).IsRotation :=
  (h.rigid (k + 1) hk).mul (h.rigid k (by omega)).transpose

/-- Settings that suit a ride: every delta is fused, no increment is discarded, and the
trajectory starts at the first pose. -/
structure Suits (r : Ride P) (s : Settings ℝ) : Prop where
  used : s.useInertial = true
  unchecked : s.checkInertial = false
  unlimited : s.thresholding = false
  start : s.initialPose = r.pose 0

/-- A pipeline has gone along with a ride up to a scan, and no delta is left over. -/
structure OnTrack (r : Ride P) (k : ℕ) (o : Odometry ℝ P) : Prop where
  running : o.initialized = true
  query : o.integrator.query = some (r.scan k).points
  previous : o.aligner.previous = some (r.pose k).rotation
  drained : o.aligner.deltas.items = []
  past : ∀ x ∈ o.buffer.samples, x.time ≤ (r.scan k).time

/-- An estimate has the translation and the yaw of a motion, and the roll and the pitch of
the turn. -/
structure Fuses [HasSingularValues ℝ] (r : Ride P) (k : ℕ) (e : Estimate ℝ P) : Prop where
  accepted : e.accepted = true
  translation : e.incremental.translation = (r.motion k).translation
  rotation : ∃ angles tilt, (r.motion k).rotation.toRpy = .ok angles ∧
    (r.turn k).toRpy = .ok tilt ∧ e.incremental.rotation = (angles.tiltedAs tilt).turn

open Odometry

variable {s : Settings ℝ} {o : Odometry ℝ P}

section

variable [HasSingularValues ℝ]

/-- The first scan finds its sample and the pipeline on its way. -/
theorem onTrack_first (h : r.Suits s) :
    r.OnTrack 0 ((create s).run (r.calls 0)) ∧ (create s).estimates (r.calls 0) = [] := by
  let first : Sample ℝ := ⟨(r.pose 0).rotation, (r.scan 0).time⟩
  let sampled : Odometry ℝ P := (create s).after (r.sampleCall 0)
  have hupdate := update_of_not_initialized (o := sampled) (r.engine 0) (r.scan 0) rfl
  have hwarm := warmed_warmUp (sampled.stamped (r.scan 0)) (r.scan 0)
  have hrun : (create s).run (r.calls 0) = (sampled.update (r.engine 0) (r.scan 0)).state := rfl
  have hestimates : (create s).estimates (r.calls 0) =
      (sampled.update (r.engine 0) (r.scan 0)).estimate?.toList := by
    exact List.append_nil _
  rw [hrun, hestimates, hupdate]
  generalize (sampled.stamped (r.scan 0)).warmUp (r.scan 0) = out at hwarm ⊢
  cases hwarm with
  | unused huse => cases h.used.symm.trans huse
  | waiting huse hfirst => cases hfirst
  | @bySample sample huse hfirst =>
      cases hfirst
      refine ⟨⟨rfl, rfl, rfl, rfl, ?_⟩, rfl⟩
      intro x hx
      have hmem : x ∈ BoundedQueue.lastItems s.capacity [first] := hx
      obtain rfl := List.mem_singleton.mp (List.mem_of_mem_drop hmem)
      exact le_rfl

/-- The sample at the time of a scan is the nearest to it, and not younger than the scan. -/
theorem OnTrack.samples {n k : ℕ} (hperfect : r.Perfect n) (hk : k < n)
    (hconfigured : Configured s o) (h : r.OnTrack k o) :
    let sampled := o.after (r.sampleCall (k + 1))
    nearest? Sample.time (r.scan (k + 1)).time sampled.buffer.samples =
        some ⟨(r.pose (k + 1)).rotation, (r.scan (k + 1)).time⟩ ∧
      ∀ x ∈ sampled.buffer.samples, x.time ≤ (r.scan (k + 1)).time := by
  intro sampled
  let sample : Sample ℝ := ⟨(r.pose (k + 1)).rotation, (r.scan (k + 1)).time⟩
  have hqueue : sampled.buffer.queue = o.buffer.queue.push sample := by
    change (o.buffer.push sample).1.queue = _
    unfold SampleBuffer.push
    split <;> rfl
  have hroom := s.capacity_pos
  let kept := o.buffer.samples.drop (o.buffer.samples.length + 1 - s.capacity)
  have hitems : sampled.buffer.samples = kept ++ [sample] := by
    rw [SampleBuffer.samples, hqueue, BoundedQueue.items_push, hconfigured.samples,
      BoundedQueue.lastItems, List.drop_append_of_le_length]
    · rw [List.length_append]
      rfl
    · rw [List.length_append, List.length_singleton]
      omega
  have hlater := hperfect.later k hk
  have hkept : ∀ x ∈ kept, x.time < (r.scan (k + 1)).time := fun x hx =>
    (h.past x (List.mem_of_mem_drop hx)).trans_lt hlater
  rw [hitems]
  refine ⟨nearest?_concat_eq hkept rfl, ?_⟩
  intro x hx
  rcases List.mem_append.mp hx with hold | hnew
  · exact (hkept x hold).le
  · rw [List.mem_singleton.mp hnew]

variable [ExactSingularValues]

/-- From each scan to the next the oldest delta is the one that was just queued. -/
theorem OnTrack.next (hsuits : r.Suits s) {n k : ℕ} (hperfect : r.Perfect n) (hk : k < n)
    (hconfigured : Configured s o) (h : r.OnTrack k o) :
    let sampled := o.after (r.sampleCall (k + 1))
    r.OnTrack (k + 1) (sampled.after (r.scanCall (k + 1))) ∧
      ∃ e, sampled.estimate? (r.scanCall (k + 1)) = some e ∧ r.Fuses k e := by
  intro sampled
  let scan := r.scan (k + 1)
  obtain ⟨hnearest, hpast⟩ := h.samples hperfect hk hconfigured
  obtain rfl := hconfigured.settings
  have halign : Aligns (sampled.stamped scan) scan _ _ :=
    .bySample hsuits.used h.previous hnearest
  obtain ⟨angles, hangles, -, -⟩ :=
    (hperfect.isRotation_motion hk).exists_angles (hperfect.freeMotion k hk)
  obtain ⟨tilt, htilt, -, -⟩ :=
    (hperfect.isRotation_turn hk).exists_angles (hperfect.freeTurn k hk)
  obtain ⟨fusion, journal, hfusion, htransform⟩ :=
    Fusion.exists_withDelta (hperfect.isRotation_motion hk) angles htilt
  obtain ⟨registration, hengine, hmatrix⟩ := hperfect.answers k hk
  have hrigid : fusion.transform.rotation.IsRotation := by
    rw [htransform]
    exact (angles.tiltedAs tilt).isRotation_turn
  obtain ⟨verdict, hguard, haccepted⟩ :=
    MotionGuard.exists_check (g := o.settings.guard) hsuits.unlimited hrigid
  let aligner := alignedBy o.aligner ⟨(r.pose (k + 1)).rotation, scan.time⟩ (r.pose k).rotation
  -- No delta was left over, so the one that is queued here is also the oldest.
  have hdeltas : aligner.deltas.items = [.ofMat3 (r.turn k)] := by
    have hroom : 1 - o.settings.capacity = 0 :=
      Nat.sub_eq_zero_of_le o.settings.capacity_pos
    change BoundedQueue.lastItems o.aligner.deltas.capacity
      (o.aligner.deltas.items ++ [.ofMat3 (r.turn k)]) = _
    rw [h.drained, hconfigured.deltas, List.nil_append, BoundedQueue.lastItems,
      List.length_singleton, hroom, List.drop_zero]
  have hpop : aligner.deltas.pop? =
      some (.ofMat3 (r.turn k), { aligner.deltas with items := [] }) := by
    rw [BoundedQueue.pop?, hdeltas]
  have hactive : (sampled.stamped scan).opensFor
      (some (alignmentOf ⟨(r.pose (k + 1)).rotation, scan.time⟩ (r.pose k).rotation
        scan.time)) = true := by
    change (o.settings.gate.evaluate (some _)).opens = true
    simp [FusionGate.evaluate, Settings.gate, hsuits.used, hsuits.unchecked, GateReason.opens]
  have hquiet : Entry.queueEmpty ∉ ([] : Journal ℝ) := List.not_mem_nil
  have hcourse := Course.registered halign h.query hengine hquiet
    (.judged hmatrix (.taken hangles hactive hpop hfusion) hguard)
  obtain ⟨hstate, -, hresult⟩ := hcourse.cycle_eq
  have hupdate := update_of_initialized (o := sampled) (r.engine (k + 1)) scan h.running
  have hafter : sampled.after (r.scanCall (k + 1)) = _ :=
    (congrArg CycleOutcome.state hupdate).trans hstate
  have hestimate : sampled.estimate? (r.scanCall (k + 1)) = some _ :=
    CycleOutcome.estimate?_eq_some_iff.mpr ((congrArg CycleOutcome.result hupdate).trans hresult)
  rw [hafter, hestimate]
  refine ⟨?_, _, rfl, haccepted, ?_, angles, tilt, hangles, htilt, ?_⟩
  · simp only [integrated, PoseIntegrator.integrate, haccepted, if_true]
    exact ⟨h.running, rfl, rfl, rfl, hpast⟩
  · exact (congrArg RigidTransform.translation htransform).trans rfl
  · exact congrArg RigidTransform.rotation htransform

/-- A ride with perfect data is gone along with, and every scan but the first is fused. -/
theorem onTrack_run (hsuits : r.Suits s) {n : ℕ} (hperfect : r.Perfect n) :
    r.OnTrack n ((create s).run (r.calls n)) ∧
      ((create s).estimates (r.calls n)).length = n ∧
      ∀ k e, ((create s).estimates (r.calls n))[k]? = some e → r.Fuses k e := by
  -- On the scan: the engine answers a scan by the motion from the very scan it was left with,
  -- and the delta of a scan is used up before the next one.
  induction n with
  | zero =>
      obtain ⟨htrack, hestimates⟩ := onTrack_first hsuits
      rw [hestimates]
      exact ⟨htrack, rfl, by simp⟩
  | succ n ih =>
      obtain ⟨htrack, hlength, hfuses⟩ := ih hperfect.prev
      obtain ⟨hnext, e, hestimate, hfused⟩ :=
        htrack.next hsuits hperfect n.lt_succ_self (configured_run s (r.calls n))
      have hestimates : (create s).estimates (r.calls (n + 1)) =
          (create s).estimates (r.calls n) ++ [e] := by
        have hsample : ((create s).run (r.calls n)).estimate? (r.sampleCall (n + 1)) = none := rfl
        rw [calls, estimates_concat, estimates_concat, run_concat, hsample, hestimate,
          Option.toList_none, Option.toList_some, List.append_nil]
      rw [hestimates, calls, run_concat, run_concat]
      refine ⟨hnext, by rw [List.length_append, hlength, List.length_singleton], ?_⟩
      intro k e' he'
      rw [List.getElem?_append, hlength] at he'
      split_ifs at he' with hk
      · exact hfuses k e' he'
      · obtain ⟨hlast, rfl⟩ := List.getElem?_eq_some_iff.mp he'
        rw [List.length_singleton] at hlast
        obtain rfl : k = n := by omega
        simpa using hfused

end

end Ride

end InertialOdometry
