import InertialOdometry.Proofs.Exact.Nearness
import InertialOdometry.Proofs.Report.Exports
import InertialOdometry.Proofs.Value.Fields

/-!
Poses by their coordinates, which are the position and a quaternion. The quaternion is found by the
largest of four numbers and has no sign of its own. Over exact scalars it has length one and
stands for the rotation of the pose, so the pose is the one that is made of its coordinates, and
coordinates that are off by little make a pose that is off by little. The document of a
result has the coordinates of its pose.
-/

namespace InertialOdometry

/-! ### Poses and their coordinates -/

namespace Quaternion

variable {q : Quaternion ℝ}

theorem norm_eq_one (h : q.normSq = 1) : q.norm = 1 := by
  rw [norm_eq_sqrt, h, Real.sqrt_one]

private theorem normalized_eq_self (h : q.norm = 1) : q.normalized = q := by
  simp only [normalized, h, div_one]

theorem leastNorm_le_one : (leastNorm : ℝ) ≤ 1 := by
  rw [leastNorm, Scalar.decimal_real]
  norm_num

/-- The length and the sign of a quaternion make no difference to its rotation. -/
theorem toRotation_scale (h : leastNorm ≤ q.norm) {k : ℝ} (hk : k ≠ 0)
    (hscaled : leastNorm ≤ (q.scale k).norm) : (q.scale k).toRotation = q.toRotation := by
  have hpos : 0 < q.norm := (Scalar.decimal_pos one_pos _).trans_le h
  rw [(toRotation_eq hscaled).1, (toRotation_eq h).1, toMat3_normalized_scale hpos hk]

end Quaternion

namespace RigidTransform

variable {α : Type} [Scalar α]

/-- The numbers that a pose is shown by: its position and its quaternion. -/
def coordinates [HasSingularValues α] (a : RigidTransform α) : Except Failure (List α) := do
  let q ← a.quaternion
  return a.translation.toList ++ [q.x, q.y, q.z, q.w]

def ofCoordinates : List α → Except Failure (RigidTransform α)
  | [x, y, z, qx, qy, qz, qw] => ofPositionQuaternion ⟨x, y, z⟩ ⟨qx, qy, qz, qw⟩
  | _ => .error .rowTooShort

theorem ofPositionQuaternion_eq {t : Vec3 α} {q : Quaternion α} {m : Mat3 α}
    (h : q.toRotation = .ok m) : ofPositionQuaternion t q = .ok ⟨t, m⟩ := by
  rw [ofPositionQuaternion, h]
  rfl

section

variable [HasSingularValues α] {a : RigidTransform α}

theorem coordinates_eq {q : Quaternion α} (h : a.quaternion = .ok q) :
    a.coordinates = .ok (a.translation.toList ++ [q.x, q.y, q.z, q.w]) := by
  rw [coordinates, h]
  rfl

/-- The quaternion in the description of a transform is the one that is asked for. -/
theorem coordinates_of_describe {d : Described α} (h : a.describe = .ok d) :
    a.coordinates =
      .ok (d.translation.toList ++ [d.quaternion.x, d.quaternion.y, d.quaternion.z,
        d.quaternion.w]) := by
  obtain ⟨q, hq, h⟩ := Failure.of_bind_ok h
  obtain ⟨angles, -, h⟩ := Failure.of_bind_ok h
  cases h
  exact coordinates_eq hq

end

structure Near (position rotation : ℝ) (a b : RigidTransform ℝ) : Prop where
  x : |a.translation.x - b.translation.x| ≤ position
  y : |a.translation.y - b.translation.y| ≤ position
  z : |a.translation.z - b.translation.z| ≤ position
  rotation : ∀ i j, |a.rotation.toMatrix i j - b.rotation.toMatrix i j| ≤ rotation

end RigidTransform

section

variable [HasSingularValues ℝ]

/-- The quaternion of a rotation has length one and stands for that rotation. -/
theorem Mat3.IsRotation.exists_quaternion {m : Mat3 ℝ} (h : m.IsRotation) :
    ∃ q, m.toQuaternion = .ok q ∧ q.normSq = 1 ∧ q.toMat3 = m ∧ q.toRotation = .ok m := by
  obtain ⟨hunit, hmatrix⟩ := Quaternion.ofMat3_spec h
  have hnorm := Quaternion.norm_eq_one hunit
  have hlong := Quaternion.leastNorm_le_one.trans_eq hnorm.symm
  refine ⟨_, h.toQuaternion_eq, hunit, hmatrix, ?_⟩
  rw [(Quaternion.toRotation_eq hlong).1, Quaternion.normalized_eq_self hnorm, hmatrix]

open RigidTransform in
/-- Coordinates that are rounded to six places stand for a pose that is near to the one that is
shown. -/
theorem RigidTransform.exists_ofCoordinates_near {a : RigidTransform ℝ}
    (h : a.rotation.IsRotation) {ns ms : List ℝ} (hns : a.coordinates = .ok ns)
    (hms : List.Forall₂ (fun m n => |m - n| ≤ 1 / 2 * 10 ^ (-6 : ℤ)) ms ns) :
    ∃ b, ofCoordinates ms = .ok b ∧ b.rotation.IsRotation ∧
      b.Near (1 / 2 * 10 ^ (-6 : ℤ)) (10 ^ (-5 : ℤ)) a := by
  obtain ⟨q, hq, hunit, hmatrix, -⟩ := h.exists_quaternion
  cases (coordinates_eq hq).symm.trans hns
  simp only [Vec3.toList, List.cons_append, List.nil_append, List.forall₂_cons_right_iff,
    List.forall₂_nil_right_iff] at hms
  obtain ⟨x, _, hx, ⟨y, _, hy, ⟨z, _, hz, ⟨qx, _, hqx, ⟨qy, _, hqy, ⟨qz, _, hqz, ⟨qw, _, hqw, rfl,
    rfl⟩, rfl⟩, rfl⟩, rfl⟩, rfl⟩, rfl⟩, rfl⟩ := hms
  have hnear : Quaternion.Near (1 / 2 * 10 ^ (-6 : ℤ)) ⟨qx, qy, qz, qw⟩ q := ⟨hqx, hqy, hqz, hqw⟩
  obtain ⟨m, hrotation, hm, hentries⟩ :=
    hnear.exists_toRotation hunit (by norm_num [Quaternion.slack])
  refine ⟨⟨⟨x, y, z⟩, m⟩, ofPositionQuaternion_eq hrotation, hm, hx, hy, hz, fun i j => ?_⟩
  rw [← hmatrix]
  refine (hentries i j).trans ?_
  norm_num [Quaternion.slack]

end

/-! ### Documents -/

section

variable {α P : Type} [Scalar α]

def Value.poseNumbers? (v : Value α) : Option (List α) := do
  let .list entries ← v.at? ["integrated", "translation"] | none
  let position ← entries.mapM number?
  let quaternion ← ["x", "y", "z", "w"].mapM fun key =>
    (v.at? ["integrated", "quaternion", key]).bind number?
  return position ++ quaternion

variable [HasSingularValues α]

/-- The coordinates of an integrated pose, as its result has them. -/
theorem CycleResult.coordinates_of_ofEstimate {e : Estimate α P} {r : CycleResult α P}
    (h : ofEstimate e = .ok r) :
    e.integrated.coordinates = .ok (r.integrated.translation.toList ++
      [r.integrated.quaternion.x, r.integrated.quaternion.y, r.integrated.quaternion.z,
        r.integrated.quaternion.w]) := by
  obtain ⟨increment, -, h⟩ := Failure.of_bind_ok h
  obtain ⟨pose, hpose, h⟩ := Failure.of_bind_ok h
  cases h
  exact RigidTransform.coordinates_of_describe hpose

/-- The document of a result has the coordinates of its pose. -/
theorem CycleResult.poseNumbers?_toValue {e : Estimate α P} {r : CycleResult α P}
    (h : ofEstimate e = .ok r) :
    ∃ ns, e.integrated.coordinates = .ok ns ∧ r.toValue.poseNumbers? = some ns :=
  ⟨_, coordinates_of_ofEstimate h, rfl⟩

end

end InertialOdometry
