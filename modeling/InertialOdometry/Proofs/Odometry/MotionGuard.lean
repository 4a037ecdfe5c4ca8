import InertialOdometry.Proofs.Exact.Decomposition
import InertialOdometry.Proofs.Exact.RotationAngle
import InertialOdometry.Proofs.Scalar.Order
import InertialOdometry.Odometry.MotionGuard

/-!
What the guard lets through. It measures the translation and the size of roll, pitch and yaw
taken as a vector, which is not the angle of the rotation and may be smaller. What passes
keeps within the limit of the translation all the same, and turns by no more than the root of
three times the limit of the angles. Wider limits let through at least as much.
-/

namespace InertialOdometry

namespace RigidTransform

noncomputable def place (a : RigidTransform ℝ) (v : Vec3 ℝ) : Vec3 ℝ :=
  a.rotation.apply v + a.translation

private theorem place_zero (a : RigidTransform ℝ) : a.place .zero = a.translation := by
  rw [place, Mat3.apply_zero, Vec3.zero_add]

end RigidTransform

namespace MotionGuard

section

variable {α : Type} [Scalar α] {g other : MotionGuard α} {translationNorm rotationNorm : α}

theorem admits_iff (henabled : g.enabled = true) :
    g.admits translationNorm rotationNorm = true ↔
      translationNorm ≤ g.maxTranslation ∧ rotationNorm ≤ g.maxRotation := by
  simp [admits, henabled]

theorem admits_of_disabled (hdisabled : g.enabled = false) :
    g.admits translationNorm rotationNorm = true := by
  simp [admits, hdisabled]

/-- A guard lets through what a guard with limits no wider than its own lets through. -/
theorem admits_mono [OrderedScalar α] (henabled : g.enabled = true)
    (htranslation : g.maxTranslation ≤ other.maxTranslation)
    (hrotation : g.maxRotation ≤ other.maxRotation)
    (h : g.admits translationNorm rotationNorm = true) :
    other.admits translationNorm rotationNorm = true := by
  obtain ⟨hnear, hslight⟩ := (admits_iff henabled).mp h
  cases hother : other.enabled with
  | false => exact admits_of_disabled hother
  | true =>
      exact (admits_iff hother).mpr
        ⟨Scalar.le_trans hnear htranslation, Scalar.le_trans hslight hrotation⟩

end

variable [HasSingularValues ℝ]

/-- What a guard with limits bounds. It judges every rigid increment whose roll and yaw do not
turn about the same axis, and the angle of the rotation is then no more than the sizes of roll,
pitch and yaw together. If it accepts the increment, the origin is moved by no more than the
limit of the translation, and the three sizes together are no more than the root of three
times the limit of the angles. Whatever increment is accepted, rigid or not, is accepted as
well by guards whose limits are at least as wide, and by those without limits. -/
theorem accepted_bounds {g : MotionGuard ℝ} (henabled : g.enabled = true) :
    (∀ increment : RigidTransform ℝ, increment.rotation.IsRotation →
      ¬increment.rotation.Locked →
      ∃ v angles angle, g.check increment = .ok v ∧ increment.rpy = .ok angles ∧
        increment.rotation.angleBetween .identity = .ok angle ∧
        angle = increment.rotation.angle ∧
        angle ≤ |angles.roll| + |angles.pitch| + |angles.yaw| ∧
        (v.accepted = true → (increment.place .zero).norm ≤ g.maxTranslation ∧
          |angles.roll| + |angles.pitch| + |angles.yaw| ≤ √3 * g.maxRotation)) ∧
      ∀ increment v, g.check increment = .ok v → v.accepted = true → ∀ other : MotionGuard ℝ,
        (g.maxTranslation ≤ other.maxTranslation ∧ g.maxRotation ≤ other.maxRotation) ∨
            other.enabled = false →
          ∃ v', other.check increment = .ok v' ∧ v'.accepted = true := by
  refine ⟨?_, ?_⟩
  · intro increment hrigid hfree
    obtain ⟨angles, hangles, hturn, -⟩ := hrigid.exists_angles hfree
    have hangle := angles.angle_turn_le
    rw [hturn] at hangle
    refine ⟨_, angles, _, check_eq_ok_iff.mpr ⟨angles, hangles, rfl⟩, hangles,
      Mat3.angleBetween_identity hrigid, rfl, hangle, ?_⟩
    intro haccepted
    obtain ⟨hnear, hslight⟩ := (admits_iff henabled).mp haccepted
    refine ⟨?_, ?_⟩
    · rw [RigidTransform.place_zero]
      exact hnear
    · calc |angles.roll| + |angles.pitch| + |angles.yaw| ≤ √3 * angles.norm := angles.sum_abs_le
        _ ≤ √3 * g.maxRotation := by gcongr
  · intro increment v hcheck haccepted other hother
    obtain ⟨angles, hangles, rfl⟩ := check_eq_ok_iff.mp hcheck
    refine ⟨_, check_eq_ok_iff.mpr ⟨angles, hangles, rfl⟩, ?_⟩
    rcases hother with ⟨htranslation, hrotation⟩ | hdisabled
    · exact admits_mono henabled htranslation hrotation haccepted
    · exact admits_of_disabled hdisabled

end MotionGuard

def Mat3.halfTurn : Mat3 ℝ :=
  ⟨⟨1, 0, 0⟩, ⟨0, -1, 0⟩, ⟨0, 0, -1⟩⟩

private theorem Mat3.isRotation_halfTurn : halfTurn.IsRotation := by
  refine ⟨isOrthogonal_iff.mpr ?_, ?_⟩ <;> simp only [halfTurn, det, Vec3.dot, Vec3.cross] <;>
    norm_num

private theorem Mat3.not_locked_halfTurn : ¬halfTurn.Locked := by
  apply not_locked
  rw [halfTurn, lockTolerance_real]
  norm_num

namespace Quaternion

private theorem normSq_i : (⟨1, 0, 0, 0⟩ : Quaternion ℝ).normSq = 1 := by
  simp [normSq]

private theorem toMat3_i : (⟨1, 0, 0, 0⟩ : Quaternion ℝ).toMat3 = .halfTurn := by
  simp [toMat3, Mat3.halfTurn]

private theorem ofMat3_halfTurn : ofMat3 .halfTurn = ⟨1, 0, 0, 0⟩ := by
  have hnorm : (⟨4, 0, 0, 0⟩ : Quaternion ℝ).norm = 4 := by
    simp [norm, Scalar.sqrt_real]
  have hlead : (1 + 1 + (1 + 1) : ℝ) = 4 := by norm_num
  simp [ofMat3, Mat3.halfTurn, hlead, normalized, hnorm]

private theorem sum_i : (⟨1, 0, 0, 0⟩ : Quaternion ℝ).sum = Real.pi / 2 := by
  simp only [sum, add_zero, sub_zero]
  exact Complex.arg_I

private theorem difference_i : (⟨1, 0, 0, 0⟩ : Quaternion ℝ).difference = -(Real.pi / 2) := by
  have hpoint : (⟨0, -1⟩ : ℂ) = -Complex.I := Complex.ext (by simp) (by simp)
  simp only [difference, add_zero, zero_sub]
  change Complex.arg ⟨0, -1⟩ = _
  rw [hpoint, Complex.arg_neg_I]

private theorem double_half_i :
    (⟨1, 0, 0, 0⟩ : Quaternion ℝ).half + (⟨1, 0, 0, 0⟩ : Quaternion ℝ).half = Real.pi / 2 := by
  rw [← tilt_toMat3 normSq_i, toMat3_i, Mat3.tilt, Mat3.halfTurn, Real.arccos_zero]

end Quaternion

/-- Half a turn about the axis x is all roll. -/
theorem Mat3.toRpy_halfTurn [HasSingularValues ℝ] :
    halfTurn.toRpy = .ok ⟨Real.pi, 0, 0⟩ := by
  have hfree := not_locked_halfTurn
  rw [← Quaternion.toMat3_i] at hfree
  have hwrap {t : ℝ} (hlow : -Real.pi ≤ t) (hhigh : t ≤ Real.pi) : Rpy.wrap t = t := by
    rw [Rpy.wrap, Scalar.pi_real, if_neg (not_lt.mpr hlow), if_neg (not_lt.mpr hhigh)]
  have hpi := Real.pi_pos
  rw [toRpy, isRotation_halfTurn.toQuaternion_eq, Quaternion.ofMat3_halfTurn]
  simp only [Except.map, Quaternion.ofQuaternion_eq Quaternion.normSq_i hfree,
    Quaternion.double_half_i, Quaternion.sum_i, Quaternion.difference_i, sub_neg_eq_add,
    add_halves, sub_self, add_neg_cancel]
  rw [hwrap (by linarith) le_rfl, hwrap (by linarith) hpi.le]

/-- A step of one with half a turn is let through by a guard that allows a step of one and
angles of four. -/
theorem MotionGuard.accepted_bounds_of_half_turn :
    let g : MotionGuard ℝ := ⟨true, 1, 4⟩
    let increment : RigidTransform ℝ := ⟨⟨1, 0, 0⟩, .halfTurn⟩
    g.enabled = true ∧ increment.rotation.IsRotation ∧ ¬increment.rotation.Locked ∧
      (∃ v angle, g.check increment = .ok v ∧ v.accepted = true ∧
        increment.rotation.angleBetween .identity = .ok angle ∧
        (increment.place .zero).norm ≤ 1 ∧ angle ≤ |Real.pi| + |0| + |0| ∧
        |Real.pi| + |0| + |0| ≤ √3 * 4) ∧
      (∃ v, (⟨true, 2, 5⟩ : MotionGuard ℝ).check increment = .ok v ∧ v.accepted = true) ∧
      ∃ v, (⟨false, 0, 0⟩ : MotionGuard ℝ).check increment = .ok v ∧ v.accepted = true := by
  intro g increment
  have hangles : increment.rpy = .ok ⟨Real.pi, 0, 0⟩ := Mat3.toRpy_halfTurn
  have haccepted {v : Verdict ℝ} (hv : g.check increment = .ok v) : v.accepted = true := by
    obtain ⟨angles, hread, rfl⟩ := check_eq_ok_iff.mp hv
    obtain rfl : angles = ⟨Real.pi, 0, 0⟩ := Except.ok.inj (hread.symm.trans hangles)
    refine (admits_iff (g := g) rfl).mpr ⟨?_, ?_⟩
    · simp [g, increment, RigidTransform.translationNorm, Vec3.norm, Vec3.dot, Scalar.sqrt_real]
    · simpa [g, Rpy.norm, Rpy.toVec3, Vec3.norm, Vec3.dot, Scalar.sqrt_real,
        Real.sqrt_mul_self Real.pi_pos.le] using Real.pi_le_four
  obtain ⟨hbounds, hwider⟩ := accepted_bounds (g := g) rfl
  obtain ⟨v, angles, angle, hv, hread, hangle, -, hsum, hlimits⟩ :=
    hbounds increment Mat3.isRotation_halfTurn Mat3.not_locked_halfTurn
  obtain rfl : angles = ⟨Real.pi, 0, 0⟩ := Except.ok.inj (hread.symm.trans hangles)
  obtain ⟨hnear, hslight⟩ := hlimits (haccepted hv)
  refine ⟨rfl, Mat3.isRotation_halfTurn, Mat3.not_locked_halfTurn,
    ⟨v, angle, hv, haccepted hv, hangle, hnear, hsum, hslight⟩, ?_, ?_⟩
  · exact hwider increment v hv (haccepted hv) _ (.inl (by norm_num [g]))
  · exact hwider increment v hv (haccepted hv) _ (.inr rfl)

end InertialOdometry
