import Mathlib.LinearAlgebra.Matrix.Trace
import InertialOdometry.Proofs.Exact.Decomposition
import InertialOdometry.Proofs.Exact.Quaternion

/-!
The rotation nearest to a matrix. Which rotation is near is told by the trace of its
product with the matrix, and there the singular values weigh the diagonal of an orthogonal
matrix. No entry of the diagonal is above one. Of a matrix that reverses orientation not
even the trace is, so that the smallest singular value has to count against the others.
-/

namespace InertialOdometry

namespace Mat3

/-- The root of the sum of the squares by which the entries of two matrices differ. -/
noncomputable def distance (m n : Mat3 ℝ) : ℝ :=
  √(∑ i, ∑ j, (m.toMatrix i j - n.toMatrix i j) ^ 2)

noncomputable def overlap (m n : Mat3 ℝ) : ℝ := (n.transpose * m).toMatrix.trace

private theorem overlap_eq (m n : Mat3 ℝ) :
    m.overlap n = m.row0.dot n.row0 + m.row1.dot n.row1 + m.row2.dot n.row2 := by
  rw [overlap, Matrix.trace_fin_three, mul_eq]
  simp [toMatrix, Vec3.toColumn, transpose, column0, column1, column2, Vec3.dot]
  ring

private theorem IsOrthogonal.overlap_self {q : Mat3 ℝ} (h : q.IsOrthogonal) : q.overlap q = 3 := by
  rw [overlap, h.transpose_mul_self, toMatrix_identity, Matrix.trace_one]
  norm_num

/-- The nearer two orthogonal matrices are, the more they overlap. -/
theorem distance_eq (m n : Mat3 ℝ) :
    m.distance n = √(m.overlap m + n.overlap n - 2 * m.overlap n) := by
  simp only [distance, overlap_eq, Fin.sum_univ_three]
  congr 1
  simp [toMatrix, Vec3.toColumn, Vec3.dot]
  ring

/-- Of two orthogonal matrices the nearer one is the one that overlaps more. -/
theorem IsOrthogonal.distance_le {m r q : Mat3 ℝ} (hr : r.IsOrthogonal) (hq : q.IsOrthogonal)
    (h : m.overlap q ≤ m.overlap r) : m.distance r ≤ m.distance q := by
  rw [distance_eq, distance_eq, hr.overlap_self, hq.overlap_self]
  apply Real.sqrt_le_sqrt
  linarith

/-- The diagonal of a matrix, weighed by the entries of a vector. -/
def weigh (s : Vec3 ℝ) (z : Mat3 ℝ) : ℝ := s.x * z.row0.x + s.y * z.row1.y + s.z * z.row2.z

private theorem trace_diagonal_mul (s : Vec3 ℝ) (z : Mat3 ℝ) :
    (diagonal s * z).toMatrix.trace = weigh s z := by
  rw [Matrix.trace_fin_three, mul_eq]
  simp [toMatrix, Vec3.toColumn, diagonal, column0, column1, column2, Vec3.dot, weigh]

/-! ### Diagonals of orthogonal matrices -/

private theorem IsOrthogonal.diagonal_le_one {z : Mat3 ℝ} (h : z.IsOrthogonal) :
    z.row0.x ≤ 1 ∧ z.row1.y ≤ 1 ∧ z.row2.z ≤ 1 := by
  obtain ⟨h0, h1, h2, -⟩ := isOrthogonal_iff.mp h
  rw [Vec3.dot] at h0 h1 h2
  refine ⟨?_, ?_, ?_⟩ <;> nlinarith

/-- The trace of a rotation is that of a turn about some axis; the quaternion tells how
far it is above its least value. -/
theorem IsRotation.neg_one_le_trace {z : Mat3 ℝ} (h : z.IsRotation) :
    -1 ≤ z.row0.x + z.row1.y + z.row2.z := by
  have hspan := (Quaternion.spans_of_isRotation h).2.2.2.normSq_eq
  have hnonneg := Quaternion.normSq_nonneg _ |>.trans_eq hspan
  linarith

theorem IsOrthogonal.neg {z : Mat3 ℝ} (h : z.IsOrthogonal) : (-z).IsOrthogonal := by
  have hproduct : z.toMatrix * z.toMatrix.transpose = 1 := by
    rw [← toMatrix_transpose, ← toMatrix_mul, h, toMatrix_identity]
  apply toMatrix_injective
  rw [toMatrix_mul, toMatrix_transpose, toMatrix_neg, Matrix.transpose_neg, neg_mul_neg,
    hproduct, toMatrix_identity]

private theorem det_neg (z : Mat3 ℝ) : (-z).det = -z.det := by
  rw [← det_toMatrix, toMatrix_neg, Matrix.det_neg, det_toMatrix]
  norm_num

/-- An orthogonal matrix that reverses orientation is the negative of a rotation. -/
theorem IsOrthogonal.trace_le_one {z : Mat3 ℝ} (h : z.IsOrthogonal) (hdet : z.det < 0) :
    z.row0.x + z.row1.y + z.row2.z ≤ 1 := by
  have hrotation : (-z).IsRotation := by
    apply h.neg.isRotation
    rw [det_neg]
    linarith
  have htrace := hrotation.neg_one_le_trace
  have hentries : (-z).row0.x = -z.row0.x ∧ (-z).row1.y = -z.row1.y ∧ (-z).row2.z = -z.row2.z :=
    ⟨rfl, rfl, rfl⟩
  rw [hentries.1, hentries.2.1, hentries.2.2] at htrace
  linarith

private theorem IsOrthogonal.weigh_le {z : Mat3 ℝ} (h : z.IsOrthogonal) {s : Vec3 ℝ} (hz : 0 ≤ s.z)
    (hzy : s.z ≤ s.y) (hyx : s.y ≤ s.x) : weigh s z ≤ s.x + s.y + s.z := by
  obtain ⟨h0, h1, h2⟩ := h.diagonal_le_one
  rw [weigh]
  nlinarith

/-- Where orientation is reversed the smallest weight counts against the others: the
entries are summed up from the first one on, and the sum of all three is at most one. -/
theorem IsOrthogonal.weigh_le_of_det_neg {z : Mat3 ℝ} (h : z.IsOrthogonal) (hdet : z.det < 0)
    {s : Vec3 ℝ} (hz : 0 ≤ s.z) (hzy : s.z ≤ s.y) (hyx : s.y ≤ s.x) :
    weigh s z ≤ s.x + s.y - s.z := by
  obtain ⟨h0, h1, -⟩ := h.diagonal_le_one
  have htrace := h.trace_le_one hdet
  calc weigh s z = (s.x - s.y) * z.row0.x + (s.y - s.z) * (z.row0.x + z.row1.y) +
        s.z * (z.row0.x + z.row1.y + z.row2.z) := by
        rw [weigh]
        ring
    _ ≤ (s.x - s.y) * 1 + (s.y - s.z) * (1 + 1) + s.z * 1 := by
        gcongr
    _ = s.x + s.y - s.z := by ring

end Mat3

namespace SingularValues

variable {d : SingularValues ℝ} {m : Mat3 ℝ}

/-- A matrix overlaps with another one as much as its singular values weigh the diagonal
of what is left of the other one between the bases. -/
theorem Decomposes.overlap_eq (h : d.Decomposes m) (q : Mat3 ℝ) :
    m.overlap q = Mat3.weigh d.s (d.vt * q.transpose * d.u) := by
  rw [← Mat3.trace_diagonal_mul, Mat3.overlap, ← h.product]
  simp only [Mat3.toMatrix_mul]
  rw [Matrix.mul_assoc d.u.toMatrix, ← Matrix.mul_assoc, Matrix.trace_mul_comm]
  simp only [Matrix.mul_assoc]

private theorem Decomposes.overlap_between (h : d.Decomposes m) (middle : Mat3 ℝ) :
    m.overlap (d.u * middle * d.vt) = Mat3.weigh d.s middle.transpose := by
  have hbetween : d.vt * (d.u * middle * d.vt).transpose * d.u = middle.transpose := by
    calc d.vt * (d.u * middle * d.vt).transpose * d.u
        = d.vt * d.vt.transpose * middle.transpose * (d.u.transpose * d.u) := by
          simp only [Mat3.transpose_mul, Mat3.mul_assoc]
      _ = middle.transpose := by
          rw [h.right, h.left.transpose_mul_self, Mat3.identity_mul, Mat3.mul_identity]
  rw [h.overlap_eq, hbetween]

private theorem Decomposes.overlap_mul (h : d.Decomposes m) :
    m.overlap (d.u * d.vt) = d.s.x + d.s.y + d.s.z := by
  have hbetween := h.overlap_between .identity
  rw [Mat3.mul_identity] at hbetween
  rw [hbetween]
  simp [Mat3.weigh, Mat3.transpose, Mat3.identity, Mat3.column0, Mat3.column1, Mat3.column2]

private theorem Decomposes.overlap_mirrored (h : d.Decomposes m) :
    m.overlap (d.u * .diagonal ⟨1, 1, -1⟩ * d.vt) = d.s.x + d.s.y - d.s.z := by
  rw [h.overlap_between, Mat3.transpose_diagonal]
  simp [Mat3.weigh, Mat3.diagonal, sub_eq_add_neg]

/-- No rotation overlaps more with a matrix than the one that is made of a decomposition. -/
theorem Decomposes.overlap_le (h : d.Decomposes m) {q : Mat3 ℝ} (hq : q.IsRotation) :
    m.overlap q ≤ m.overlap (if (d.u * d.vt).det < 0 then
      d.u * .diagonal ⟨1, 1, -1⟩ * d.vt else d.u * d.vt) := by
  have hz := (h.right.mul hq.orthogonal.transpose).mul h.left
  rw [h.overlap_eq q]
  split_ifs with hdet
  · have hzdet : (d.vt * q.transpose * d.u).det < 0 := by
      rw [Mat3.det_mul] at hdet
      rw [Mat3.det_mul, Mat3.det_mul, Mat3.det_transpose, hq.det_eq_one]
      linarith
    rw [h.overlap_mirrored]
    exact hz.weigh_le_of_det_neg hzdet h.nonneg h.descending.1 h.descending.2
  · rw [h.overlap_mul]
    exact hz.weigh_le h.nonneg h.descending.1 h.descending.2

end SingularValues

namespace Mat3

/-- Whatever decompositions are found, as long as they keep their contract: of every matrix,
also where it flattens space or reverses orientation, a rotation is computed that no other
rotation is nearer to the matrix than. Of a rotation it is the rotation itself, so that
computing it again changes nothing. -/
theorem orthonormalize_nearest [HasSingularValues ℝ] [ExactSingularValues] (m : Mat3 ℝ) :
    ∃ r, m.orthonormalize = .ok r ∧ r.IsRotation ∧
      (∀ q : Mat3 ℝ, q.IsRotation → m.distance r ≤ m.distance q) ∧
      (m.IsRotation → r = m) ∧ r.orthonormalize = .ok r := by
  obtain ⟨r, hr, hrotation⟩ := m.exists_orthonormalize
  obtain ⟨d, hdecomposes, hd⟩ := m.exists_orthonormalize_eq
  refine ⟨r, hr, hrotation, ?_, ?_, hrotation.orthonormalize_eq⟩
  · intro q hq
    have hmade := Except.ok.inj (hr.symm.trans hd)
    apply hrotation.orthogonal.distance_le hq.orthogonal
    rw [hmade]
    exact hdecomposes.overlap_le hq
  · intro hm
    exact Except.ok.inj (hr.symm.trans hm.orthonormalize_eq)

/-- A matrix that reverses orientation has a rotation near it that is no farther away than
the identity. -/
theorem orthonormalize_nearest_of_mirror :
    let m : Mat3 ℝ := diagonal ⟨3, 2, -1⟩
    m.det < 0 ∧ (∃ r, m.orthonormalize = .ok r ∧ r.IsRotation ∧ m.distance r ≤ 3) ∧
      (identity : Mat3 ℝ).IsRotation ∧
      (identity : Mat3 ℝ).orthonormalize = .ok identity := by
  intro m
  have hdet : m.det < 0 := by
    rw [det_diagonal]
    norm_num
  have hdistance : m.distance identity = 3 := by
    have hnine : m.overlap m + overlap identity identity - 2 * m.overlap identity = 3 ^ 2 := by
      simp only [overlap_eq, m, diagonal, identity, Vec3.dot, Scalar.one_real, Scalar.zero_real]
      norm_num
    rw [distance_eq, hnine, Real.sqrt_sq (by norm_num)]
  obtain ⟨r, hr, hrotation, hnearest, -⟩ := orthonormalize_nearest m
  obtain ⟨r', hr', -, -, hsame, -⟩ := orthonormalize_nearest (identity : Mat3 ℝ)
  rw [hsame isRotation_identity] at hr'
  exact ⟨hdet, ⟨r, hr, hrotation, (hnearest identity isRotation_identity).trans_eq hdistance⟩,
    isRotation_identity, hr'⟩

end Mat3

end InertialOdometry
