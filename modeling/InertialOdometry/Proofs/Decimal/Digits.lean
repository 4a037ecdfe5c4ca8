import Mathlib.Algebra.Order.Ring.Nat
import Mathlib.Data.List.TakeWhile
import InertialOdometry.Decimal.Reading
import InertialOdometry.Decimal.Rounding

/-!
Rows of decimal digits and the numbers that they stand for. The digits of a number stand for it,
and they are as many as its size asks for. Zeros in front of a row do not count, and those that
are taken away behind it are a power of ten.
-/

namespace InertialOdometry.Decimal

variable {cs : List Char} {c : Char} {n : ℕ}

/-- Digits in front count as many places higher as there are digits behind them. -/
theorem ofDigits_append (cs ds : List Char) :
    ofDigits (cs ++ ds) = ofDigits cs * 10 ^ ds.length + ofDigits ds := by
  change Nat.ofDigitChars 10 (cs ++ ds) 0 = _
  rw [Nat.ofDigitChars_append, Nat.ofDigitChars_eq_ofDigitChars_zero, mul_comm]
  rfl

@[simp]
theorem ofDigits_replicate_zero (k : ℕ) : ofDigits (List.replicate k '0') = 0 :=
  Nat.ofDigitChars_replicate_zero

@[simp]
theorem ofDigits_digits (n : ℕ) : ofDigits (digits n) = n :=
  Nat.ofDigitChars_ten_toDigits

theorem digits_ne_nil (n : ℕ) : digits n ≠ [] := Nat.toDigits_ne_nil

theorem isDigit_of_mem_digits (h : c ∈ digits n) : c.isDigit :=
  Nat.isDigit_of_mem_toDigits (by decide) (by decide) h

/-- A number with so many digits is below that power of ten. -/
theorem lt_pow_length_digits (n : ℕ) : n < 10 ^ (digits n).length :=
  (Nat.length_toDigits_le_iff (by decide) Nat.length_toDigits_pos).mp le_rfl

theorem pow_le_of_pos (hn : 0 < n) : 10 ^ ((digits n).length - 1) ≤ n := by
  by_contra hlt
  have hlength : (digits n).length - 1 ≠ 0 := by
    intro hzero
    rw [hzero, pow_zero] at hlt
    exact hlt hn
  have hle : (digits n).length ≤ (digits n).length - 1 :=
    (Nat.length_toDigits_le_iff (by decide) (Nat.pos_of_ne_zero hlength)).mpr (not_le.mp hlt)
  omega

/-! ### Zeros in front and behind -/

@[simp]
theorem ofDigits_padZeros (width : ℕ) (cs : List Char) :
    ofDigits (padZeros width cs) = ofDigits cs := by
  rw [padZeros, ofDigits_append, ofDigits_replicate_zero, zero_mul, zero_add]

theorem isDigit_of_mem_zeros {k : ℕ} (h : c ∈ List.replicate k '0') : c.isDigit := by
  rw [List.eq_of_mem_replicate h]
  rfl

theorem isDigit_of_mem_padZeros {width : ℕ} (hcs : ∀ c ∈ cs, c.isDigit)
    (h : c ∈ padZeros width cs) : c.isDigit :=
  (List.mem_append.mp h).elim isDigit_of_mem_zeros (hcs c)

theorem le_length_padZeros (width : ℕ) (cs : List Char) : width ≤ (padZeros width cs).length := by
  rw [padZeros, List.length_append, List.length_replicate]
  omega

/-- What is left out at the end are zeros. -/
theorem exists_eq_trimZeros_append (cs : List Char) :
    ∃ k, cs = trimZeros cs ++ List.replicate k '0' := by
  have hzeros : ∀ c ∈ cs.reverse.takeWhile (· == '0'), c = '0' := fun c hc => by
    simpa using List.mem_takeWhile_imp hc
  refine ⟨(cs.reverse.takeWhile (· == '0')).length, ?_⟩
  calc cs = (cs.reverse.takeWhile (· == '0') ++ cs.reverse.dropWhile (· == '0')).reverse := by
        rw [List.takeWhile_append_dropWhile, List.reverse_reverse]
    _ = trimZeros cs ++ (cs.reverse.takeWhile (· == '0')).reverse := by
        rw [List.reverse_append, trimZeros]
    _ = _ := by
        congr 1
        exact List.eq_replicate_iff.mpr
          ⟨List.length_reverse, fun c hc => hzeros c (List.mem_reverse.mp hc)⟩

end InertialOdometry.Decimal
