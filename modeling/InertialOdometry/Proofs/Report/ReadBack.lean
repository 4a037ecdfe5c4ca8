import InertialOdometry.Proofs.Report.Files

/-!
Reports of a pose can be read back. Documents and tables determine it over exact scalars. A line of a
trajectory has six places, so that poses which are closer than that may have the same line; it
determines the pose up to what the places leave open.
-/

namespace InertialOdometry

/-! ### Poses without rotation -/

private theorem toQuaternion_identity :
    (Mat3.identity : Mat3 Float).toQuaternion = .ok ⟨0, 0, 0, 1⟩ := by
  have h : (match (Mat3.identity : Mat3 Float).toQuaternion with
      | .ok q => decide (q = ⟨0, 0, 0, 1⟩)
      | .error _ => false) = true := by
    decide +kernel
  split at h
  · next q hq => rw [hq, of_decide_eq_true h]
  · cases h

def Estimate.still (position : Vec3 Float) : Estimate Float Unit where
  stamp := .real 0
  scanIndex := 0
  fixedFrame := "map"
  odometryFrame := "odom"
  incremental := .identity
  integrated := ⟨position, .identity⟩
  accepted := true
  fusionActive := false
  timeGap := none
  rpyRegistration := ⟨0, 0, 0⟩
  rpyInertial := none
  fitness := .real 1
  rmse := .real 0
  processingTime := .real 0
  query := ()
  reference := ()

private theorem Estimate.quaternion_still (position : Vec3 Float) :
    (still position).integrated.quaternion = .ok ⟨0, 0, 0, 1⟩ := toQuaternion_identity

private theorem Estimate.coordinates_still (position : Vec3 Float) :
    (still position).integrated.coordinates =
      .ok [position.x, position.y, position.z, 0, 0, 0, 1] :=
  RigidTransform.coordinates_eq (quaternion_still position)

def Exporter.still (position : Vec3 Float) : Exporter Float Unit :=
  ⟨.ofText "", "", [.still position]⟩

theorem Exporter.trajectory_still (position : Vec3 Float) :
    ∃ file, (still position).trajectory none = .ok file ∧ file.artifact =
      .trajectory [[0, position.x, position.y, position.z, 0, 0, 0, 1]] := by
  have hrow : Artifact.poseRow (.still position) =
      .ok [0, position.x, position.y, position.z, 0, 0, 0, 1] := by
    rw [Artifact.poseRow, Estimate.quaternion_still]
    rfl
  have hposes : (still position).estimates.mapM Artifact.poseRow =
      .ok [[0, position.x, position.y, position.z, 0, 0, 0, 1]] := by
    rw [Failure.mapM_eq_ok_iff]
    exact .cons hrow .nil
  exact ⟨_, by rw [trajectory, hposes]; rfl, rfl⟩

private theorem CycleResult.ofEstimate_still (position : Vec3 Float) :
    ∃ r, ofEstimate (.still position) = .ok r := by
  obtain ⟨increment, hincrement⟩ :=
    RigidTransform.exists_describe (a := (.identity : RigidTransform Float)) ⟨_, toQuaternion_identity⟩
  obtain ⟨pose, hpose⟩ :=
    RigidTransform.exists_describe (a := ⟨position, .identity⟩) ⟨_, toQuaternion_identity⟩
  have hincrement' : (Estimate.still position).incremental.describe = .ok increment := hincrement
  have hpose' : (Estimate.still position).integrated.describe = .ok pose := hpose
  exact ⟨_, by rw [ofEstimate, hincrement', hpose']; rfl⟩

/-! ### Reports of any pose -/

open RigidTransform in
/-- Poses that were reported can be read back. A transform with a rotation has a quaternion of
length one, and is the transform made of its translation and of that quaternion; these seven
numbers are its coordinates, and coordinates that were rounded to six places make a transform with
a rotation that is near to it. The document of a result has the coordinates of its integrated
pose. The table of results, read from its text, has cells that are read as the coordinates of
each pose, and the words of a trajectory are read as the coordinates up to half a unit of the sixth
place. Of any other quaternion that is not too short a rotation is made as well, and the
quaternion can be stretched, shrunk or turned around without a change of that rotation. -/
theorem poses_read_back [HasSingularValues ℝ] [HasSingularValues Float] {P : Type} :
    (∀ a : RigidTransform ℝ, a.rotation.IsRotation →
        (∃ q, a.quaternion = .ok q ∧ q.norm = 1 ∧
          ofPositionQuaternion a.translation q = .ok a) ∧
        ∃ ns, a.coordinates = .ok ns ∧ ofCoordinates ns = .ok a ∧
          ∀ ms, List.Forall₂ (fun m n => |m - n| ≤ 1 / 2 * 10 ^ (-6 : ℤ)) ms ns →
            ∃ b, ofCoordinates ms = .ok b ∧ b.rotation.IsRotation ∧
              b.Near (1 / 2 * 10 ^ (-6 : ℤ)) (10 ^ (-5 : ℤ)) a) ∧
      (∀ (α : Type) [Scalar α] [HasSingularValues α] (e : Estimate α P) (r : CycleResult α P),
        CycleResult.ofEstimate e = .ok r →
          ∃ ns, e.integrated.coordinates = .ok ns ∧ r.toValue.poseNumbers? = some ns) ∧
      (∀ (x : Exporter Float P) (name : Option String) (file : Exported Float P)
        (started finished : String),
        (x.estimates ≠ [] → x.table name = .ok file →
          ∃ rows, Table.rowsOf (file.artifact.text started finished) =
              .ok (Artifact.header :: rows) ∧
            List.Forall₂ (fun e row => ∃ ns, e.integrated.coordinates = .ok ns ∧
              Artifact.rowNumbers? row = some ns) x.estimates rows) ∧
        (x.trajectory name = .ok file →
          List.Forall₂ (fun e words => ∃ ns, e.integrated.coordinates = .ok ns ∧
              Artifact.Words words (e.stamp.value :: ns)) x.estimates
            (Artifact.wordsOf (file.artifact.text started finished)))) ∧
      ∀ (q : Quaternion ℝ) (k : ℝ), k ≠ 0 → Quaternion.leastNorm ≤ q.norm →
        Quaternion.leastNorm ≤ (q.scale k).norm →
        ∃ m, q.toRotation = .ok m ∧ (q.scale k).toRotation = .ok m ∧ m.IsRotation := by
  refine ⟨fun a ha => ?_, ?_, ?_, ?_⟩
  · obtain ⟨q, hq, hunit, -, hrotation⟩ := ha.exists_quaternion
    have hread := ofPositionQuaternion_eq (t := a.translation) hrotation
    exact ⟨⟨q, hq, Quaternion.norm_eq_one hunit, hread⟩, _, coordinates_eq hq, hread,
      fun ms hms => exists_ofCoordinates_near ha (coordinates_eq hq) hms⟩
  · exact fun _ _ _ _ _ => CycleResult.poseNumbers?_toValue
  · exact fun _ _ _ started finished =>
      ⟨fun hne h => Exporter.table_read_back hne h started finished,
        fun h => Exporter.trajectory_read_back h started finished⟩
  · intro q k hk hq hscaled
    obtain ⟨hrotation, hm⟩ := Quaternion.toRotation_eq hq
    exact ⟨_, hrotation, (Quaternion.toRotation_scale hq hk hscaled).trans hrotation, hm⟩

/-- Two positions that differ by less than half a unit of the sixth place have the same trajectory. -/
theorem Exporter.trajectory_confuses_poses :
    (1e-7 : Float) ≠ 2e-7 ∧ ∃ file file',
      (still ⟨1e-7, 0, 0⟩).trajectory none = .ok file ∧
        (still ⟨2e-7, 0, 0⟩).trajectory none = .ok file' ∧
        ∀ started finished, file.artifact.text started finished =
          file'.artifact.text started finished := by
  obtain ⟨file, hfile, hposes⟩ := trajectory_still ⟨1e-7, 0, 0⟩
  obtain ⟨file', hfile', hposes'⟩ := trajectory_still ⟨2e-7, 0, 0⟩
  refine ⟨by decide +kernel, file, file', hfile, hfile', fun started finished => ?_⟩
  have hlines : Artifact.poseLine [0, 1e-7, 0, 0, 0, 0, 0, 1] =
      Artifact.poseLine [0, 2e-7, 0, 0, 0, 0, 0, 1] := by
    decide +kernel
  rw [hposes, hposes', Artifact.text, Artifact.text, List.map_singleton, List.map_singleton, hlines]

private theorem ofMat3_diagonalTurn :
    Quaternion.ofMat3 (⟨⟨0, 1, 0⟩, ⟨1, 0, 0⟩, ⟨0, 0, -1⟩⟩ : Mat3 ℝ) = ⟨√(1 / 2), √(1 / 2), 0, 0⟩ := by
  have hnorm : (⟨2, 2, 0, 0⟩ : Quaternion ℝ).norm = √8 := by
    rw [Quaternion.norm_eq_sqrt, Quaternion.normSq]
    norm_num
  have hroot : 2 / √8 = √(1 / 2) := by
    rw [show (1 / 2 : ℝ) = 2 ^ 2 / 8 by norm_num, Real.sqrt_div (by norm_num),
      Real.sqrt_sq (by norm_num)]
  have htwo : (1 + 1 : ℝ) = 2 := by norm_num
  simp [Quaternion.ofMat3, Quaternion.normalized, htwo, hnorm, hroot]

/-- A half turn about the diagonal of two axes, where two entries of the matrix are largest
and the scalar part of the quaternion is zero, is read back as well, also from coordinates with
six places, and from a quaternion that was turned around and stretched threefold. The files of
a pose without rotation have one row and one line. -/
theorem poses_read_back_of_half_turn :
    let a : RigidTransform ℝ := ⟨⟨1, 2, 3⟩, ⟨⟨0, 1, 0⟩, ⟨1, 0, 0⟩, ⟨0, 0, -1⟩⟩⟩
    let q : Quaternion ℝ := ⟨1, 1, 0, 0⟩
    let t : Vec3 Float := ⟨1, 0.1, -2⟩
    a.rotation.IsRotation ∧
      (∃ p, a.quaternion = .ok p ∧ p.norm = 1 ∧
        RigidTransform.ofPositionQuaternion ⟨1, 2, 3⟩ p = .ok a) ∧
      (∃ b, RigidTransform.ofCoordinates [1, 2, 3, 0.707107, 0.707107, 0, 0] = .ok b ∧
        b.rotation.IsRotation ∧ b.Near (1 / 2 * 10 ^ (-6 : ℤ)) (10 ^ (-5 : ℤ)) a) ∧
      (∃ r, CycleResult.ofEstimate (.still t) = .ok r ∧
        r.toValue.poseNumbers? = some [t.x, t.y, t.z, 0, 0, 0, 1]) ∧
      (∃ file row, (Exporter.still t).table none = .ok file ∧
        Table.rowsOf (file.artifact.text "" "") = .ok [Artifact.header, row] ∧
        Artifact.rowNumbers? row = some [t.x, t.y, t.z, 0, 0, 0, 1]) ∧
      (∃ file words, (Exporter.still t).trajectory none = .ok file ∧
        Artifact.wordsOf (file.artifact.text "" "") = [words] ∧
        Artifact.Words words [0, t.x, t.y, t.z, 0, 0, 0, 1]) ∧
      Quaternion.leastNorm ≤ q.norm ∧ Quaternion.leastNorm ≤ (q.scale (-3)).norm ∧
      ∃ m, q.toRotation = .ok m ∧ (q.scale (-3)).toRotation = .ok m ∧ m.IsRotation := by
  intro a q t
  clear_value t
  have ha : a.rotation.IsRotation := by
    refine ⟨Mat3.isOrthogonal_iff.mpr ?_, ?_⟩ <;>
      simp only [a, Mat3.det, Vec3.dot, Vec3.cross] <;> norm_num
  have hlong {p : Quaternion ℝ} (hp : 1 ≤ p.normSq) : Quaternion.leastNorm ≤ p.norm := by
    rw [Quaternion.norm_eq_sqrt]
    exact Quaternion.leastNorm_le_one.trans (Real.one_le_sqrt.mpr hp)
  have hq : Quaternion.leastNorm ≤ q.norm := hlong (by norm_num [Quaternion.normSq, q])
  have hscaled : Quaternion.leastNorm ≤ (q.scale (-3)).norm :=
    hlong (by norm_num [Quaternion.normSq, Quaternion.scale, q])
  have hcoordinates := Estimate.coordinates_still t
  obtain ⟨hreads, hdocuments, hfiles, hscales⟩ := poses_read_back (P := Unit)
  obtain ⟨hquaternion, ns, hns, -, hrounded⟩ := hreads a ha
  obtain ⟨r, hr⟩ := CycleResult.ofEstimate_still t
  obtain ⟨_, hn, hdocument⟩ := hdocuments Float _ r hr
  cases hcoordinates.symm.trans hn
  have hresults : ∃ results, (Exporter.still t).results = .ok results :=
    ⟨[r], Failure.mapM_eq_ok_iff.mpr (.cons hr .nil)⟩
  obtain ⟨table, htable⟩ := Exporter.exists_table hresults none
  obtain ⟨trajectory, htrajectory, -⟩ := Exporter.trajectory_still t
  refine ⟨ha, hquaternion, ?_, ⟨r, hr, hdocument⟩, ?_, ?_, hq, hscaled,
    hscales q (-3) (by norm_num) hq hscaled⟩
  · have hquaternion : a.quaternion = .ok ⟨√(1 / 2), √(1 / 2), 0, 0⟩ := by
      rw [RigidTransform.quaternion, ha.toQuaternion_eq, ofMat3_diagonalTurn]
    cases (RigidTransform.coordinates_eq hquaternion).symm.trans hns
    have hroot : |0.707107 - √(1 / 2)| ≤ 1 / 2 * 10 ^ (-6 : ℤ) := by
      rw [abs_le]
      constructor
      · rw [neg_le_sub_iff_le_add, Real.sqrt_le_left (by norm_num)]
        norm_num
      · rw [sub_le_comm]
        refine Real.le_sqrt_of_sq_le ?_
        norm_num
    refine hrounded _ (.cons ?_ (.cons ?_ (.cons ?_ (.cons hroot (.cons hroot (.cons ?_ (.cons ?_
      .nil))))))) <;> simp [a]
  · obtain ⟨rows, hrows, hforall⟩ :=
      (hfiles (.still t) none table "" "").1 (List.cons_ne_nil _ _) htable
    obtain ⟨row, _, ⟨_, hn, hrow⟩, hnil, rfl⟩ := List.forall₂_cons_left_iff.mp hforall
    obtain rfl := List.forall₂_nil_left_iff.mp hnil
    cases hcoordinates.symm.trans hn
    exact ⟨table, row, htable, hrows, hrow⟩
  · have hforall := (hfiles (.still t) none trajectory "" "").2 htrajectory
    obtain ⟨words, _, ⟨_, hn, hwords⟩, hnil, hlines⟩ := List.forall₂_cons_left_iff.mp hforall
    obtain rfl := List.forall₂_nil_left_iff.mp hnil
    cases hcoordinates.symm.trans hn
    exact ⟨trajectory, words, htrajectory, hlines, hwords⟩

end InertialOdometry
