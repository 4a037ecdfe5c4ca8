import InertialOdometry.Proofs.Exact.Real
import InertialOdometry.Decimal.Binary64
import InertialOdometry.Decimal.Fixed

/-!
Rounding of quotients, held against the exact quotient. A quotient of naturals is rounded to
the whole number that is no more than a half away, and to the even one of two such numbers.
Binary fractions, and quotients in other units, are quotients of naturals as well.
-/

namespace InertialOdometry.Decimal

/-- The whole number that a number is rounded to. -/
structure RoundsTo (x : ℝ) (n : ℕ) : Prop where
  near : |x - n| ≤ 1 / 2
  even : |x - n| = 1 / 2 → n % 2 = 0

/-- Ties go to even numbers, so that no number is rounded to two. -/
theorem RoundsTo.unique {x : ℝ} {n m : ℕ} (hn : RoundsTo x n) (hm : RoundsTo x m) : n = m := by
  have hapart : |(n : ℝ) - m| ≤ 1 := by
    calc |(n : ℝ) - m| ≤ |n - x| + |x - m| := abs_sub_le _ _ _
      _ = |x - n| + |x - m| := by rw [abs_sub_comm (n : ℝ) x]
      _ ≤ 1 / 2 + 1 / 2 := add_le_add hn.near hm.near
      _ = 1 := by norm_num
  have hcases : n = m ∨ n = m + 1 ∨ m = n + 1 := by
    have hint : |(n : ℤ) - m| ≤ 1 := by exact_mod_cast hapart
    rw [abs_le] at hint
    omega
  have hn' := abs_le.mp hn.near
  have hm' := abs_le.mp hm.near
  -- Of two neighbours that are both a half away, one is odd.
  have htie {a b : ℕ} (hab : a = b + 1) (ha : RoundsTo x a) (hb : RoundsTo x b) : False := by
    have hcast : (a : ℝ) = b + 1 := by exact_mod_cast hab
    have ha' := abs_le.mp ha.near
    have hb' := abs_le.mp hb.near
    have hx : x = b + 1 / 2 := by linarith
    have haeven := ha.even (by rw [hx, hcast]; norm_num [abs_of_neg])
    have hbeven := hb.even (by rw [hx]; norm_num)
    omega
  rcases hcases with h | h | h
  · exact h
  · exact (htie h hn hm).elim
  · exact (htie h hm hn).elim

variable {num den : ℕ}

theorem roundsTo_roundDiv (hden : 0 < den) : RoundsTo (num / den) (roundDiv num den) := by
  have hd : (0 : ℝ) < den := Nat.cast_pos.mpr hden
  obtain ⟨q, r, hr, rfl⟩ : ∃ q r, r < den ∧ num = den * q + r :=
    ⟨num / den, num % den, Nat.mod_lt num hden, (Nat.div_add_mod num den).symm⟩
  have hdiv : (den * q + r) / den = q := by
    rw [Nat.mul_add_div hden, Nat.div_eq_of_lt hr, Nat.add_zero]
  have hmod : (den * q + r) % den = r := by rw [Nat.mul_add_mod, Nat.mod_eq_of_lt hr]
  have hquotient : ((den * q + r : ℕ) / den : ℝ) = q + r / den := by
    push_cast
    rw [add_div, mul_div_cancel_left₀ _ hd.ne']
  have hcompare : (r / den : ℝ) < 1 / 2 ↔ 2 * r < den := by
    rw [div_lt_iff₀ hd, ← Nat.cast_lt (α := ℝ)]
    push_cast
    constructor <;> intro h <;> linarith
  have hcompare' : (1 / 2 : ℝ) < r / den ↔ den < 2 * r := by
    rw [lt_div_iff₀ hd, ← Nat.cast_lt (α := ℝ)]
    push_cast
    constructor <;> intro h <;> linarith
  have hnonneg : (0 : ℝ) ≤ r / den := by positivity
  have hless : (r / den : ℝ) < 1 := (div_lt_one hd).mpr (Nat.cast_lt.mpr hr)
  rw [hquotient, roundDiv, hdiv, hmod]
  split_ifs with hbelow habove
  · have hdist : |(q + r / den : ℝ) - q| < 1 / 2 := by
      rw [add_sub_cancel_left, abs_of_nonneg hnonneg]
      exact hcompare.mpr hbelow
    exact ⟨hdist.le, fun h => absurd h hdist.ne⟩
  · have hdist : |(q + r / den : ℝ) - (q + 1 : ℕ)| < 1 / 2 := by
      have := hcompare'.mpr habove
      push_cast
      rw [add_sub_add_left_eq_sub, abs_of_neg (by linarith)]
      linarith
    exact ⟨hdist.le, fun h => absurd h hdist.ne⟩
  · have hhalf : (r / den : ℝ) = 1 / 2 :=
      le_antisymm (not_lt.mp fun h => habove (hcompare'.mp h))
        (not_lt.mp fun h => hbelow (hcompare.mp h))
    rw [hhalf]
    rcases Nat.mod_two_eq_zero_or_one q with heven | hodd
    · rw [heven, Nat.add_zero]
      exact ⟨by norm_num, fun _ => heven⟩
    · rw [hodd]
      refine ⟨?_, fun _ => by omega⟩
      push_cast
      rw [add_sub_add_left_eq_sub]
      norm_num [abs_of_neg]

theorem roundDiv_eq_iff {n : ℕ} (hden : 0 < den) :
    roundDiv num den = n ↔ RoundsTo (num / den) n := by
  constructor
  · rintro rfl
    exact roundsTo_roundDiv hden
  · exact (roundsTo_roundDiv hden).unique

/-- A binary fraction by its numerator and denominator. -/
theorem fraction_value (mantissa : ℕ) (exponent : ℤ) :
    0 < (fraction mantissa exponent).2 ∧
      ((fraction mantissa exponent).1 / (fraction mantissa exponent).2 : ℝ) =
        mantissa * 2 ^ exponent := by
  unfold fraction
  split_ifs with h
  · obtain ⟨k, rfl⟩ := Int.eq_ofNat_of_zero_le h
    simp
  · obtain ⟨k, hk⟩ := Int.eq_ofNat_of_zero_le (a := -exponent) (by omega)
    obtain rfl : exponent = -k := by omega
    simp [div_eq_mul_inv]

/-- A quotient in units of a power of two is a rounded real number. -/
theorem inUnits_eq_iff {n : ℕ} (hden : 0 < den) (exponent : ℤ) :
    inUnits num den exponent = n ↔ RoundsTo (num / den / 2 ^ exponent) n := by
  unfold inUnits
  split_ifs with h
  · obtain ⟨k, rfl⟩ := Int.eq_ofNat_of_zero_le h
    rw [roundDiv_eq_iff (by simp; omega)]
    simp [div_div]
  · obtain ⟨k, hk⟩ := Int.eq_ofNat_of_zero_le (a := -exponent) (by omega)
    obtain rfl : exponent = -k := by omega
    rw [roundDiv_eq_iff hden]
    simp [div_eq_mul_inv, mul_right_comm]

theorem shifted_eq_iff {n : ℕ} (hden : 0 < den) (shift : ℤ) :
    shifted num den shift = n ↔ RoundsTo (num / den * 10 ^ shift) n := by
  unfold shifted
  split_ifs with h
  · obtain ⟨k, rfl⟩ := Int.eq_ofNat_of_zero_le h
    rw [roundDiv_eq_iff hden]
    simp [div_eq_mul_inv, mul_right_comm]
  · obtain ⟨k, hk⟩ := Int.eq_ofNat_of_zero_le (a := -shift) (by omega)
    obtain rfl : shift = -k := by omega
    rw [roundDiv_eq_iff (by simp; omega)]
    simp [div_eq_mul_inv, mul_assoc, mul_comm (den : ℝ)⁻¹]

/-- A quotient that is rounded at a decimal place is off by no more than half a unit of the place. -/
theorem abs_shifted_sub_le (num : ℕ) (hden : 0 < den) (shift : ℤ) :
    |(shifted num den shift * 10 ^ (-shift) - num / den : ℝ)| ≤ 1 / 2 * 10 ^ (-shift) := by
  have hpow : (0 : ℝ) < 10 ^ (-shift) := by positivity
  have hround : RoundsTo (num / den * 10 ^ shift) (shifted num den shift) :=
    (shifted_eq_iff hden shift).mp rfl
  have hnear := hround.near
  calc |(shifted num den shift * 10 ^ (-shift) - num / den : ℝ)|
      = |((num / den * 10 ^ shift - shifted num den shift) * 10 ^ (-shift) : ℝ)| := by
        rw [sub_mul, mul_assoc, ← zpow_add₀ (by norm_num), add_neg_cancel, zpow_zero, mul_one,
          abs_sub_comm]
    _ = |(num / den * 10 ^ shift - shifted num den shift : ℝ)| * 10 ^ (-shift) := by
        rw [abs_mul, abs_of_pos hpow]
    _ ≤ 1 / 2 * 10 ^ (-shift) := by gcongr

/-- The comparison by whole numbers is that of the real numbers. -/
theorem reaches_iff (hden : 0 < den) (exponent : ℤ) :
    reaches num den exponent = true ↔ (2 : ℝ) ^ exponent ≤ num / den := by
  have hd : (0 : ℝ) < den := Nat.cast_pos.mpr hden
  unfold reaches
  split_ifs with h
  · obtain ⟨k, rfl⟩ := Int.eq_ofNat_of_zero_le h
    rw [decide_eq_true_iff, le_div_iff₀ hd, ← Nat.cast_le (α := ℝ)]
    simp [mul_comm]
  · obtain ⟨k, hk⟩ := Int.eq_ofNat_of_zero_le (a := -exponent) (by omega)
    obtain rfl : exponent = -k := by omega
    rw [decide_eq_true_iff, le_div_iff₀ hd, ← Nat.cast_le (α := ℝ), zpow_neg, zpow_natCast,
      inv_mul_le_iff₀ (by positivity)]
    simp [mul_comm]

end InertialOdometry.Decimal
