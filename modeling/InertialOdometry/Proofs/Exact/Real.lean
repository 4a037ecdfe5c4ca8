import Mathlib.Analysis.SpecialFunctions.Complex.Arg
import InertialOdometry.Scalar

/-!
Exact arithmetic. The scalars are the real numbers, and every operation gives the very
number that it is named for. What is defined for all scalars can then be reasoned about
as algebra and trigonometry.

There is no infinity among the reals, no number that is none, and no shortest text; what
stands in their places is never asked for by an exact computation.
-/

namespace InertialOdometry

noncomputable instance : Scalar ℝ where
  decidableLE := inferInstance
  decidableLT := inferInstance
  decimal digits scale := digits * (10 : ℝ) ^ scale
  infinity := 0
  notANumber := 0
  sqrt := Real.sqrt
  sin := Real.sin
  cos := Real.cos
  atan2 y x := Complex.arg ⟨x, y⟩
  pi := Real.pi
  truncate x := if 0 ≤ x then ⌊x⌋ else ⌈x⌉
  text _ := ""

namespace Scalar

@[simp]
theorem nat_real (n : ℕ) : (Scalar.nat n : ℝ) = n := by
  change (n : ℝ) * (10 : ℝ) ^ (0 : ℤ) = n
  rw [zpow_zero, mul_one]

@[simp]
theorem zero_real : (Scalar.zero : ℝ) = 0 := by simp [zero]

@[simp]
theorem one_real : (Scalar.one : ℝ) = 1 := by simp [one]

@[simp]
theorem abs_real (x : ℝ) : Scalar.abs x = |x| := by
  unfold Scalar.abs
  rw [zero_real]
  split_ifs with hneg
  · exact (abs_of_neg hneg).symm
  · exact (abs_of_nonneg (not_lt.mp hneg)).symm

theorem decimal_real (digits : ℕ) (scale : ℤ) :
    (Scalar.decimal digits scale : ℝ) = digits * (10 : ℝ) ^ scale := rfl

theorem decimal_pos {digits : ℕ} (h : 0 < digits) (scale : ℤ) :
    (0 : ℝ) < Scalar.decimal digits scale := by
  rw [decimal_real]
  positivity

theorem sqrt_real (x : ℝ) : Scalar.sqrt x = √x := rfl

theorem sin_real (x : ℝ) : Scalar.sin x = Real.sin x := rfl

theorem cos_real (x : ℝ) : Scalar.cos x = Real.cos x := rfl

theorem pi_real : (Scalar.pi : ℝ) = Real.pi := rfl

end Scalar

end InertialOdometry
