import InertialOdometry.Proofs.Exact.Quaternion
import InertialOdometry.Geometry.Rotation

/-!
Scalars among which are the real numbers. Arithmetic on the real ones is exact; what else
there is, such as infinities and what is no number, is left open. What is computed of real
components is then computed as over the real numbers.
-/

namespace InertialOdometry

/-- Scalars among which are the real numbers, with exact arithmetic and order on them. -/
class ContainsReals (α : Type) [Scalar α] where
  ofReal : ℝ → α
  ofReal_add : ∀ x y, ofReal (x + y) = ofReal x + ofReal y
  ofReal_sub : ∀ x y, ofReal (x - y) = ofReal x - ofReal y
  ofReal_mul : ∀ x y, ofReal (x * y) = ofReal x * ofReal y
  ofReal_neg : ∀ x, ofReal (-x) = -ofReal x
  ofReal_div : ∀ x {y}, y ≠ 0 → ofReal (x / y) = ofReal x / ofReal y
  ofReal_sqrt : ∀ {x}, 0 ≤ x → ofReal √x = Scalar.sqrt (ofReal x)
  ofReal_decimal : ∀ digits scale,
    ofReal (Scalar.decimal digits scale) = Scalar.decimal digits scale
  ofReal_le : ∀ {x y}, ofReal x ≤ ofReal y ↔ x ≤ y
  ofReal_lt : ∀ {x y}, ofReal x < ofReal y ↔ x < y

noncomputable instance : ContainsReals ℝ where
  ofReal x := x
  ofReal_add _ _ := rfl
  ofReal_sub _ _ := rfl
  ofReal_mul _ _ := rfl
  ofReal_neg _ := rfl
  ofReal_div _ _ _ := rfl
  ofReal_sqrt _ := rfl
  ofReal_decimal _ _ := rfl
  ofReal_le := Iff.rfl
  ofReal_lt := Iff.rfl

open ContainsReals

variable {α : Type} [Scalar α] [ContainsReals α]

namespace Scalar

private theorem isNaN_ofReal (x : ℝ) : isNaN (ofReal x : α) = false := by
  simp [isNaN, ofReal_le]

theorem ofReal_zero : ofReal 0 = (Scalar.zero : α) := by
  rw [← Scalar.zero_real]
  exact ofReal_decimal 0 0

theorem ofReal_one : ofReal 1 = (Scalar.one : α) := by
  rw [← Scalar.one_real]
  exact ofReal_decimal 1 0

end Scalar

def Mat3.ofReal (m : Mat3 ℝ) : Mat3 α :=
  ⟨⟨ContainsReals.ofReal m.row0.x, ContainsReals.ofReal m.row0.y, ContainsReals.ofReal m.row0.z⟩,
    ⟨ContainsReals.ofReal m.row1.x, ContainsReals.ofReal m.row1.y, ContainsReals.ofReal m.row1.z⟩,
    ⟨ContainsReals.ofReal m.row2.x, ContainsReals.ofReal m.row2.y, ContainsReals.ofReal m.row2.z⟩⟩

namespace Quaternion

def ofReal (q : Quaternion ℝ) : Quaternion α :=
  ⟨ContainsReals.ofReal q.x, ContainsReals.ofReal q.y, ContainsReals.ofReal q.z,
    ContainsReals.ofReal q.w⟩

variable (q : Quaternion ℝ)

theorem norm_eq_sqrt : q.norm = √q.normSq := rfl

private theorem norm_ofReal : (ofReal q : Quaternion α).norm = ContainsReals.ofReal q.norm := by
  rw [norm_eq_sqrt, ofReal_sqrt q.normSq_nonneg]
  simp only [norm, ofReal, normSq, ofReal_add, ofReal_mul]

private theorem normalized_ofReal (h : q.norm ≠ 0) :
    (ofReal q : Quaternion α).normalized = ofReal q.normalized := by
  rw [normalized, norm_ofReal]
  simp only [ofReal, normalized, ofReal_div _ h]

private theorem toMat3_ofReal : (ofReal q : Quaternion α).toMat3 = Mat3.ofReal q.toMat3 := by
  simp only [toMat3, ofReal, Mat3.ofReal, ofReal_add, ofReal_sub, ofReal_mul, ofReal_neg]

variable {q}

/-- A quaternion of real components that is long enough has a rotation, that of the
normalized one. -/
theorem toRotation_ofReal (h : (leastNorm : ℝ) ≤ q.norm) :
    (ofReal q : Quaternion α).toRotation = .ok (Mat3.ofReal q.normalized.toMat3) := by
  have hpos : (0 : ℝ) < leastNorm := Scalar.decimal_pos one_pos _
  have hshort : ¬(ofReal q : Quaternion α).norm < leastNorm := by
    rw [norm_ofReal, leastNorm, ← ofReal_decimal, ofReal_lt]
    exact not_lt.mpr h
  have hnumbers : ([(ofReal q : Quaternion α).x, (ofReal q : Quaternion α).y,
      (ofReal q : Quaternion α).z, (ofReal q : Quaternion α).w].any Scalar.isNaN) = false := by
    simp [ofReal, Scalar.isNaN_ofReal]
  rw [toRotation, if_neg hshort, hnumbers, normalized_ofReal q (hpos.trans_le h).ne',
    toMat3_ofReal]
  rfl

end Quaternion

end InertialOdometry
