import InertialOdometry.Proofs.Exact.Embedding
import InertialOdometry.Proofs.Config.RoundTrip
import InertialOdometry.Odometry.Pipeline
import InertialOdometry.Registration.Basic

/-!
From a configuration to an engine and a pipeline. What a configuration was checked for is
checked again on the way, in another form: the method is looked up by its name, the capacity
is counted to, and the orientation is held against the shortest length instead of its
square. None of this can fail once the configuration was accepted. What can fail is to make
the engine known, where the number of iterations is too long to be written out.
-/

namespace InertialOdometry

variable {α : Type} [Scalar α]

private theorem EngineSettings.ofArguments_eq {given : List (Value α × Value α)} {m : Method}
    (hnames : Value.checkNames Section.registration.required ["method"] given = .ok ())
    (hmethod : (Value.argument given "method" (.text Method.generalized.name)).textKey?.bind
      Method.ofName? = some m) :
    ofArguments given = announced ⟨m, Value.argument given "tf_epsilon" .null,
      Value.argument given "corr_dist" .null, Value.argument given "iterations" .null⟩ := by
  simp only [ofArguments, hnames, hmethod, bind, Except.bind]

/-- An engine is made for every configuration whose number of iterations can be written. -/
theorem EngineSettings.ofConfig_eq (c : RegistrationConfig α) :
    ofConfig c = if c.iterations.natAbs < Nat.pow 10 Decimal.digitLimit then
      .ok ⟨c.method, .number c.epsilon, .number c.correspondence, .int c.iterations⟩
    else .error .tooLongToWrite := by
  have hengine : ofConfig c =
      announced ⟨c.method, .number c.epsilon, .number c.correspondence, .int c.iterations⟩ :=
    ofArguments_eq rfl (Method.ofName?_name c.method)
  rw [hengine, announced]
  simp only [Value.isWritable, Bool.true_and, decide_eq_true_eq]

/-- The capacity of a configuration can be counted to unless it is out of the range of counts. -/
theorem SampleBuffer.exists_capacityOf {n : Int} (hpos : 0 < n) (hcount : n < 2 ^ 63) :
    ∃ capacity, capacityOf (.int n : Value α) = .ok capacity := by
  have habove : (Value.int n : Value α).aboveZero = .ok true := by
    rw [Value.aboveZero, decide_eq_true hpos]
  have hbound : ¬Nat.pow 2 63 ≤ n.natAbs := by
    have hlimit : Nat.pow 2 63 = 9223372036854775808 := rfl
    omega
  have hqueue : BoundedQueue.capacityOf (.int n : Value α) = .ok n.toNat := by
    rw [BoundedQueue.capacityOf, if_neg hbound, if_neg (by omega)]
  have hnat : 0 < n.toNat := by omega
  refine ⟨⟨n.toNat, hnat⟩, ?_⟩
  simp only [capacityOf, habove, hqueue, bind, Except.bind, if_true, dif_pos hnat, pure,
    Except.pure]

/-- A pipeline can be set up where the orientation has a rotation and the capacity can be
counted to. -/
theorem Settings.exists_ofConfig {c : Config α} {rotation : Mat3 α}
    (hrotation : c.initialPose.orientation.toRotation = .ok rotation)
    (hcount : c.inertial.capacity < 2 ^ 63) :
    ∃ settings, ofConfig c = .ok settings ∧
      settings.initialPose = ⟨c.initialPose.position, rotation⟩ := by
  obtain ⟨capacity, hcapacity⟩ : ∃ capacity,
      SampleBuffer.capacityOf (.int c.inertial.capacity : Value α) = .ok capacity :=
    SampleBuffer.exists_capacityOf c.inertial.capacity_pos hcount
  simp only [ofConfig, RigidTransform.ofPositionQuaternion, hrotation, hcapacity, Except.map, bind,
    Except.bind, pure, Except.pure]
  exact ⟨_, rfl, rfl⟩

variable [ContainsReals α]

open ContainsReals

def Config.RealCalibration (d : Value α) : Prop :=
  ∀ path ∈ calibrationPaths, ∀ x,
    d.Reads ("fiducial_calibration" :: path) Value.toScalar x → ∃ r : ℝ, x = ofReal r

/-- The squared length and the length are held against the same limit. -/
theorem Quaternion.leastNorm_le {q : Quaternion ℝ}
    (h : (Config.leastSquaredNorm : ℝ) ≤ q.normSq) : (leastNorm : ℝ) ≤ q.norm := by
  have hsquare : (leastNorm : ℝ) ^ 2 = Config.leastSquaredNorm := by
    simp only [leastNorm, Config.leastSquaredNorm, Scalar.decimal_real]
    norm_num
  rw [norm_eq_sqrt]
  apply Real.le_sqrt_of_sq_le
  rwa [hsquare]

/-- The orientation that a calibration with real numbers asks for is real, and no shorter than
what is taken for a rotation. -/
theorem Config.Poses.exists_real {d : Value α} {pose : InitialPose α}
    (h : Poses ((d.at? ["fiducial_calibration"]).getD .null) pose) (hreal : RealCalibration d) :
    ∃ q : Quaternion ℝ, pose.orientation = q.ofReal ∧ (Quaternion.leastNorm : ℝ) ≤ q.norm := by
  have hread {part key : String} {x : α} (hpath : [part, key] ∈ calibrationPaths)
      (hx : ((d.at? ["fiducial_calibration"]).getD .null).Reads [part, key] Value.toScalar x) :
      ∃ r : ℝ, x = ofReal r := by
    rw [Value.Reads, Value.at?_getD_null d _ (List.cons_ne_nil _ _)] at hx
    exact hreal _ hpath x hx
  cases h with
  | origin hpath hmissing =>
      refine ⟨⟨0, 0, 0, 1⟩, ?_, ?_⟩
      · simp only [InitialPose.origin, Quaternion.ofReal, Scalar.ofReal_zero, Scalar.ofReal_one]
      · apply Quaternion.leastNorm_le
        rw [leastSquaredNorm, Scalar.decimal_real, Quaternion.normSq]
        norm_num
  | calibrated _ _ _ hx hy hz hw hnorm =>
      obtain ⟨x, rfl⟩ := hread (by decide) hx
      obtain ⟨y, rfl⟩ := hread (by decide) hy
      obtain ⟨z, rfl⟩ := hread (by decide) hz
      obtain ⟨w, rfl⟩ := hread (by decide) hw
      refine ⟨⟨x, y, z, w⟩, rfl, Quaternion.leastNorm_le ?_⟩
      rw [leastSquaredNorm, ← Scalar.ofReal_zero, ← ofReal_decimal] at hnorm
      simp only [← ofReal_mul, ← ofReal_add, ofReal_lt, not_lt, zero_add] at hnorm
      exact hnorm

/-- An accepted configuration can be run. Neither the engine nor the pipeline refuses it, and
the trajectory starts at the position of the configuration with the rotation of its
orientation, whatever the length of that. The capacity has to be one that can be counted to,
and the number of iterations one that can be written out. -/
theorem Odometry.accepted_starts {d : Value α} {c : Config α} {journal : Journal α}
    (h : Config.ofValue d = .ok (c, journal)) (hreal : Config.RealCalibration d)
    (hcapacity : c.inertial.capacity < 2 ^ 63)
    (hiterations : c.registration.iterations.natAbs < Nat.pow 10 Decimal.digitLimit) :
    EngineSettings.ofConfig c.registration = .ok ⟨c.registration.method,
        .number c.registration.epsilon, .number c.registration.correspondence,
        .int c.registration.iterations⟩ ∧
      ∃ settings, Settings.ofConfig c = .ok settings ∧
        ∃ q : Quaternion ℝ, c.initialPose.orientation = q.ofReal ∧
          q.normalized.toMat3.IsRotation ∧
          ∀ P : Type, (create settings : Odometry α P).integrator.integrated =
            ⟨c.initialPose.position, .ofReal q.normalized.toMat3⟩ := by
  obtain ⟨hpose, -⟩ := Config.poses_of_ofValue h
  obtain ⟨q, horientation, hlength⟩ := hpose.exists_real hreal
  have hpos : 0 < q.norm := (Scalar.decimal_pos one_pos _).trans_le hlength
  have hrotation : c.initialPose.orientation.toRotation =
      .ok (.ofReal q.normalized.toMat3) := by
    rw [horientation, Quaternion.toRotation_ofReal hlength]
  obtain ⟨settings, hsettings, hstart⟩ := Settings.exists_ofConfig hrotation hcapacity
  refine ⟨by rw [EngineSettings.ofConfig_eq, if_pos hiterations], settings, hsettings, q,
    horientation, Quaternion.isRotation_normalized hpos, ?_⟩
  intro P
  exact hstart

/-! ### A configuration for real scalars -/

namespace Config

/-- A configuration with given iterations and a quarter turn about the axis x, by a quaternion
that is not of length one. -/
def tilted (iterations : Int) (hpos : 0 < iterations) : Config ℝ where
  frameIds := ⟨"map", "odom"⟩
  registration := ⟨0, 1, iterations, .generalized, by simp, hpos⟩
  thresholding := ⟨false, 1, 1⟩
  inertial := ⟨true, true, 1, 100, by decide⟩
  initialPose := ⟨⟨1, 0, 0⟩, ⟨1, 0, 0, 1⟩, true⟩
  output := ⟨.text "output", .bool true, .bool true, .text "INFO"⟩

private theorem ofValue_tilted (iterations : Int) (hpos : 0 < iterations) :
    ofValue (tilted iterations hpos).toValue = .ok (tilted iterations hpos, []) := by
  let calibration : Value ℝ := .ofFields [("position", .ofFields (positionFields ⟨1, 0, 0⟩)),
    ("orientation", .ofFields (orientationFields ⟨1, 0, 0, 1⟩))]
  have hlong : ¬Scalar.zero + (1 : ℝ) * 1 + 0 * 0 + 0 * 0 + 1 * 1 < leastSquaredNorm := by
    rw [leastSquaredNorm, Scalar.decimal_real, Scalar.zero_real]
    norm_num
  have hpose : Poses calibration (tilted iterations hpos).initialPose :=
    .calibrated ⟨_, rfl, rfl⟩ ⟨_, rfl, rfl⟩ ⟨_, rfl, rfl⟩ ⟨_, rfl, rfl⟩ ⟨_, rfl, rfl⟩
      ⟨_, rfl, rfl⟩ ⟨_, rfl, rfl⟩ hlong
  exact (spells_toValue hpose).ofValue_eq

private theorem realCalibration_real (d : Value ℝ) : RealCalibration d := fun _ _ x _ => ⟨x, rfl⟩

end Config

theorem Odometry.accepted_starts_of_long_orientation :
    let c := Config.tilted 30 (by decide)
    Config.ofValue c.toValue = .ok (c, []) ∧
      ∃ settings, Settings.ofConfig c = .ok settings ∧
        (create settings : Odometry ℝ Unit).integrator.integrated.translation = ⟨1, 0, 0⟩ ∧
        (create settings : Odometry ℝ Unit).integrator.integrated.rotation.IsRotation := by
  intro c
  have hc : Config.ofValue c.toValue = .ok (c, []) := Config.ofValue_tilted 30 (by decide)
  have hshort {digits : ℕ} (hdigits : 2 ≤ digits) :
      c.registration.iterations.natAbs < Nat.pow 10 digits := by
    calc c.registration.iterations.natAbs < 10 ^ 2 := by decide
      _ ≤ 10 ^ digits := Nat.pow_le_pow_right (by decide) hdigits
  have hiterations : c.registration.iterations.natAbs < Nat.pow 10 Decimal.digitLimit :=
    hshort (by decide)
  obtain ⟨-, settings, hsettings, q, -, hrotation, hstart⟩ :=
    accepted_starts hc (Config.realCalibration_real _) (by decide) hiterations
  refine ⟨hc, settings, hsettings, ?_, ?_⟩
  · rw [hstart]
    rfl
  · rw [hstart]
    exact hrotation

/-- More iterations than can be written out are accepted, but no engine is made for them. -/
theorem EngineSettings.accepted_and_refused :
    ∃ (d : Value ℝ) (c : Config ℝ), Config.ofValue d = .ok (c, []) ∧ Config.RealCalibration d ∧
      c.inertial.capacity < 2 ^ 63 ∧
      EngineSettings.ofConfig c.registration = .error .tooLongToWrite := by
  have hpos (digits : ℕ) : (0 : Int) < (Nat.pow 10 digits : ℕ) :=
    Int.natCast_pos.mpr (Nat.pow_pos (by decide))
  let c (digits : ℕ) : Config ℝ := .tilted (Nat.pow 10 digits : ℕ) (hpos digits)
  have hlong (digits : ℕ) : ¬(c digits).registration.iterations.natAbs < Nat.pow 10 digits := by
    simp [c, Config.tilted]
  refine ⟨(c Decimal.digitLimit).toValue, c Decimal.digitLimit, Config.ofValue_tilted _ _,
    Config.realCalibration_real _, ?_, ?_⟩
  · change (100 : Int) < 2 ^ 63
    decide
  · rw [EngineSettings.ofConfig_eq, if_neg (hlong _)]

end InertialOdometry
