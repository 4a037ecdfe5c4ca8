import InertialOdometry.Proofs.Exact.Embedding

/-!
Quaternions that are known up to a tolerance. A quaternion that is near to one of length one
is long enough to stand for a rotation, and the entries of its matrix are near to those
of the other one.
-/

namespace InertialOdometry

/-- Products of numbers that are no larger than one and known up to a tolerance. -/
theorem abs_mul_sub_mul_le {a b c d tolerance : ℝ} (hb : |b| ≤ 1) (hd : |d| ≤ 1)
    (hab : |a - b| ≤ tolerance) (hcd : |c - d| ≤ tolerance) :
    |a * c - b * d| ≤ 2 * tolerance + tolerance * tolerance := by
  have hnonneg : 0 ≤ tolerance := (abs_nonneg _).trans hab
  calc |a * c - b * d| = |(a - b) * d + b * (c - d) + (a - b) * (c - d)| := by ring_nf
    _ ≤ |(a - b) * d| + |b * (c - d)| + |(a - b) * (c - d)| := abs_add_three _ _ _
    _ = |a - b| * |d| + |b| * |c - d| + |a - b| * |c - d| := by simp only [abs_mul]
    _ ≤ tolerance * 1 + 1 * tolerance + tolerance * tolerance := by gcongr
    _ = 2 * tolerance + tolerance * tolerance := by ring

private theorem Mat3.IsOrthogonal.abs_entry_le_one {m : Mat3 ℝ} (h : m.IsOrthogonal) (i j : Fin 3) :
    |m.toMatrix i j| ≤ 1 := by
  obtain ⟨h0, h1, h2, -⟩ := isOrthogonal_iff.mp h
  rw [Vec3.dot] at h0 h1 h2
  -- Every entry is one of three whose squares add up to one.
  have hone {a b c : ℝ} (h : a * a + b * b + c * c = 1) : |a| ≤ 1 ∧ |b| ≤ 1 ∧ |c| ≤ 1 := by
    simp only [abs_le_one_iff_mul_self_le_one]
    refine ⟨?_, ?_, ?_⟩ <;> linarith [mul_self_nonneg a, mul_self_nonneg b, mul_self_nonneg c]
  obtain ⟨h00, h01, h02⟩ := hone h0
  obtain ⟨h10, h11, h12⟩ := hone h1
  obtain ⟨h20, h21, h22⟩ := hone h2
  fin_cases i <;> fin_cases j <;> assumption

namespace Quaternion

/-- A quaternion that is long enough stands for the rotation of the normalized one. -/
theorem toRotation_eq {q : Quaternion ℝ} (h : leastNorm ≤ q.norm) :
    q.toRotation = .ok q.normalized.toMat3 ∧ q.normalized.toMat3.IsRotation :=
  ⟨toRotation_ofReal h, isRotation_normalized ((Scalar.decimal_pos one_pos _).trans_le h)⟩

/-- Quaternions whose components differ by no more than a tolerance. -/
structure Near (tolerance : ℝ) (p q : Quaternion ℝ) : Prop where
  x : |p.x - q.x| ≤ tolerance
  y : |p.y - q.y| ≤ tolerance
  z : |p.z - q.z| ≤ tolerance
  w : |p.w - q.w| ≤ tolerance

variable {p q : Quaternion ℝ} {tolerance : ℝ}

private theorem abs_component_le_one (h : q.normSq = 1) :
    |q.x| ≤ 1 ∧ |q.y| ≤ 1 ∧ |q.z| ≤ 1 ∧ |q.w| ≤ 1 := by
  rw [normSq] at h
  simp only [← sq_le_one_iff_abs_le_one]
  refine ⟨?_, ?_, ?_, ?_⟩ <;> nlinarith

/-- The difference that a tolerance makes to a sum of four products. -/
def slack (tolerance : ℝ) : ℝ :=
  let part := tolerance + tolerance + tolerance * tolerance
  part + part + part + part

private theorem Near.abs_normSq_sub_le (h : Near tolerance p q) (hq : q.normSq = 1) :
    |p.normSq - 1| ≤ slack tolerance := by
  obtain ⟨hx, hy, hz, hw⟩ := abs_component_le_one hq
  have hxx := abs_mul_sub_mul_le hx hx h.x h.x
  have hyy := abs_mul_sub_mul_le hy hy h.y h.y
  have hzz := abs_mul_sub_mul_le hz hz h.z h.z
  have hww := abs_mul_sub_mul_le hw hw h.w h.w
  rw [← hq, normSq, normSq, slack]
  rw [abs_le] at *
  constructor <;> linarith

private theorem Near.abs_entry_sub_le (h : Near tolerance p q) (hq : q.normSq = 1) (i j : Fin 3) :
    |p.toMat3.toMatrix i j - q.toMat3.toMatrix i j| ≤ slack tolerance := by
  obtain ⟨hx, hy, hz, hw⟩ := abs_component_le_one hq
  have hxx := abs_mul_sub_mul_le hx hx h.x h.x
  have hyy := abs_mul_sub_mul_le hy hy h.y h.y
  have hzz := abs_mul_sub_mul_le hz hz h.z h.z
  have hww := abs_mul_sub_mul_le hw hw h.w h.w
  have hxy := abs_mul_sub_mul_le hx hy h.x h.y
  have hxz := abs_mul_sub_mul_le hx hz h.x h.z
  have hyz := abs_mul_sub_mul_le hy hz h.y h.z
  have hxw := abs_mul_sub_mul_le hx hw h.x h.w
  have hyw := abs_mul_sub_mul_le hy hw h.y h.w
  have hzw := abs_mul_sub_mul_le hz hw h.z h.w
  rw [slack]
  rw [abs_le] at *
  fin_cases i <;> fin_cases j <;> simp [toMat3, Mat3.toMatrix, Vec3.toColumn] <;>
    constructor <;> linarith

/-- A quaternion that is near to one of length one stands for a rotation whose entries are near
to those of the other one. -/
theorem Near.exists_toRotation (h : Near tolerance p q) (hq : q.normSq = 1)
    (hsmall : slack tolerance ≤ 1 / 2) :
    ∃ m, p.toRotation = .ok m ∧ m.IsRotation ∧
      ∀ i j, |m.toMatrix i j - q.toMat3.toMatrix i j| ≤ 2 * slack tolerance := by
  have hnear := abs_le.mp (h.abs_normSq_sub_le hq)
  have hlength : leastNorm ≤ p.norm := by
    rw [norm_eq_sqrt, leastNorm, Scalar.decimal_real]
    refine Real.le_sqrt_of_sq_le ?_
    norm_num
    linarith
  have hpos : 0 < p.norm := (Scalar.decimal_pos one_pos _).trans_le hlength
  obtain ⟨heq, hrotation⟩ := toRotation_eq hlength
  refine ⟨_, heq, hrotation, fun i j => ?_⟩
  have hentry : p.toMat3.toMatrix i j = p.normSq * p.normalized.toMat3.toMatrix i j := by
    rw [(spans_normalized hpos).toMat3_eq]
    fin_cases i <;> fin_cases j <;> rfl
  have hone := hrotation.orthogonal.abs_entry_le_one i j
  have hscale := h.abs_normSq_sub_le hq
  have hdiff := h.abs_entry_sub_le hq i j
  rw [hentry] at hdiff
  generalize p.normalized.toMat3.toMatrix i j = a at hone hdiff
  generalize q.toMat3.toMatrix i j = b at hdiff
  calc |a - b| = |(p.normSq * a - b) - (p.normSq - 1) * a| := by ring_nf
    _ ≤ |p.normSq * a - b| + |(p.normSq - 1) * a| := abs_sub _ _
    _ = |p.normSq * a - b| + |p.normSq - 1| * |a| := by rw [abs_mul]
    _ ≤ slack tolerance + slack tolerance * 1 := by
      have := (abs_nonneg _).trans hscale
      gcongr
    _ = 2 * slack tolerance := by ring

end Quaternion

end InertialOdometry
