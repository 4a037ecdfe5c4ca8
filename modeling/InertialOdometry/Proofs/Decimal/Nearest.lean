import InertialOdometry.Proofs.Scalar.Sign
import InertialOdometry.Proofs.Decimal.Rounding

/-!
The double nearest to a quotient. A double above zero is stored as a mantissa and an exponent,
and the numbers that round to it make an interval around it, which is narrower below where the
next double is only half as far away. Whatever quotient lies in that interval, the bits that
are computed for it are those of the double.
-/

namespace InertialOdometry.Decimal

/-! ### Mantissa and exponent -/

/-- A magnitude in the form in which doubles are stored: the mantissa has 53 bits, unless the
exponent is the least one. -/
structure Stored (mantissa : ℕ) (exponent : ℤ) : Prop where
  pos : 0 < mantissa
  lt : mantissa < 2 ^ 53
  least : -1074 ≤ exponent
  most : exponent ≤ 971
  normal : 2 ^ 52 ≤ mantissa ∨ exponent = -1074

def encode (mantissa : ℕ) (exponent : ℤ) : ℕ :=
  if mantissa < 2 ^ 52 then mantissa
  else (exponent + 1075).toNat * 2 ^ 52 + (mantissa - 2 ^ 52)

/-- Whether the next smaller magnitude is half as far away as the next larger one. -/
def halved (mantissa : ℕ) (exponent : ℤ) : Bool := mantissa == 2 ^ 52 && decide (-1074 < exponent)

/-- The numbers that round to a magnitude, in units of its exponent. The ends of the interval are
among them where the mantissa is even. -/
structure Within (mantissa : ℕ) (exponent : ℤ) (x : ℝ) : Prop where
  low : (mantissa : ℝ) - (if halved mantissa exponent then 1 / 4 else 1 / 2) ≤ x / 2 ^ exponent
  high : x / 2 ^ exponent ≤ mantissa + 1 / 2
  ends : mantissa % 2 = 0 ∨
    (mantissa : ℝ) - (if halved mantissa exponent then 1 / 4 else 1 / 2) < x / 2 ^ exponent ∧
      x / 2 ^ exponent < mantissa + 1 / 2

variable {m : ℕ} {e : ℤ} {x : ℝ}

/-- Below a magnitude half a unit is the most that rounds to it. -/
theorem Within.half_le (h : Within m e x) : (m : ℝ) - 1 / 2 ≤ x / 2 ^ e := by
  refine le_trans ?_ h.low
  split_ifs <;> linarith

/-- What lies in the interval rounds to the mantissa. -/
theorem Within.roundsTo (h : Within m e x) : RoundsTo (x / 2 ^ e) m := by
  have hlow := h.half_le
  have hhigh := h.high
  refine ⟨abs_le.mpr ⟨by linarith, by linarith⟩, fun hhalf => ?_⟩
  refine h.ends.resolve_right ?_
  rintro ⟨hlt, hgt⟩
  have hlow' : (m : ℝ) - 1 / 2 < x / 2 ^ e := by
    refine lt_of_le_of_lt ?_ hlt
    split_ifs <;> linarith
  exact absurd hhalf (abs_lt.mpr ⟨by linarith, by linarith⟩).ne

theorem Within.pos (h : Within m e x) (hm : 0 < m) : 0 < x := by
  have hone : (1 : ℝ) ≤ m := Nat.one_le_cast.mpr hm
  have hlow := h.half_le
  have hdiv : 0 < x / 2 ^ e := by linarith
  have hpow : (0 : ℝ) < 2 ^ e := by positivity
  exact (div_pos_iff_of_pos_right hpow).mp hdiv

/-! ### The nearest double of a quotient -/

variable {num den : ℕ}

private theorem leadingBit_spec (hnum : 0 < num) (hden : 0 < den) :
    (2 : ℝ) ^ leadingBit num den ≤ num / den ∧ (num / den : ℝ) < 2 ^ (leadingBit num den + 1) := by
  have hn : (0 : ℝ) < num := Nat.cast_pos.mpr hnum
  have hd : (0 : ℝ) < den := Nat.cast_pos.mpr hden
  have hnlow : (2 : ℝ) ^ (Nat.log2 num : ℤ) ≤ num := by
    rw [zpow_natCast]
    exact_mod_cast Nat.log2_self_le hnum.ne'
  have hnhigh : (num : ℝ) < 2 ^ (Nat.log2 num + 1 : ℤ) := by
    exact_mod_cast Nat.lt_log2_self
  have hdlow : (2 : ℝ) ^ (Nat.log2 den : ℤ) ≤ den := by
    rw [zpow_natCast]
    exact_mod_cast Nat.log2_self_le hden.ne'
  have hdhigh : (den : ℝ) < 2 ^ (Nat.log2 den + 1 : ℤ) := by
    exact_mod_cast Nat.lt_log2_self
  have htwo : (2 : ℝ) ≠ 0 := two_ne_zero
  unfold leadingBit
  simp only [reaches_iff hden]
  split_ifs with hreach
  · refine ⟨hreach, ?_⟩
    rw [div_lt_iff₀ hd]
    calc (num : ℝ) < 2 ^ (Nat.log2 num + 1 : ℤ) := hnhigh
      _ = 2 ^ ((Nat.log2 num : ℤ) - Nat.log2 den + 1) * 2 ^ (Nat.log2 den : ℤ) := by
        rw [← zpow_add₀ htwo]
        congr 1
        ring
      _ ≤ 2 ^ ((Nat.log2 num : ℤ) - Nat.log2 den + 1) * den :=
        mul_le_mul_of_nonneg_left hdlow (by positivity)
  · refine ⟨?_, by simpa using hreach⟩
    rw [le_div_iff₀ hd]
    calc (2 : ℝ) ^ ((Nat.log2 num : ℤ) - Nat.log2 den - 1) * den
        ≤ 2 ^ ((Nat.log2 num : ℤ) - Nat.log2 den - 1) * 2 ^ (Nat.log2 den + 1 : ℤ) :=
          mul_le_mul_of_nonneg_left hdhigh.le (by positivity)
      _ = 2 ^ (Nat.log2 num : ℤ) := by
        rw [← zpow_add₀ htwo]
        congr 1
        ring
      _ ≤ num := hnlow

/-- The leading bit is told by the power of two below the quotient. -/
theorem leadingBit_eq (hnum : 0 < num) (hden : 0 < den) {k : ℤ} (hlow : (2 : ℝ) ^ k ≤ num / den)
    (hhigh : (num / den : ℝ) < 2 ^ (k + 1)) : leadingBit num den = k := by
  obtain ⟨hlow', hhigh'⟩ := leadingBit_spec hnum hden
  have hone : (1 : ℝ) < 2 := one_lt_two
  have hlt := (zpow_lt_zpow_iff_right₀ hone).mp (hlow.trans_lt hhigh')
  have hgt := (zpow_lt_zpow_iff_right₀ hone).mp (hlow'.trans_lt hhigh)
  omega

/-- The bits of a quotient above zero by its mantissa in units of the exponent. -/
private theorem nearestBits_of_roundsTo (hnum : 0 < num) (hden : 0 < den) {exponent : ℤ}
    {mantissa : ℕ} (hexponent : max (leadingBit num den - 52) (-1074) = exponent)
    (hmantissa : RoundsTo (num / den / 2 ^ exponent) mantissa) :
    nearestBits num den =
      let parts := if 2 ^ 53 ≤ mantissa then (mantissa / 2, exponent + 1) else (mantissa, exponent)
      if parts.1 < 2 ^ 52 then parts.1 else if 971 < parts.2 then 2047 * 2 ^ 52
      else (parts.2 + 1075).toNat * 2 ^ 52 + (parts.1 - 2 ^ 52) := by
  rw [nearestBits, if_neg hnum.ne']
  simp only [hexponent, (inUnits_eq_iff hden exponent).mpr hmantissa, Nat.pow_eq]

/-- What rounds to the first number with 53 bits from below has a unit of half the size. -/
private theorem Within.below_first (h : Within (2 ^ 52) e x) (hleast : -1074 < e)
    (hbelow : x / 2 ^ e < 2 ^ 52) :
    2 ^ 51 ≤ x / 2 ^ e ∧ RoundsTo (x / 2 ^ (e - 1)) (2 ^ 53) := by
  have hhalved : halved (2 ^ 52) e = true := by simp [halved, hleast]
  have hlow := h.low
  rw [hhalved, if_pos rfl] at hlow
  push_cast at hlow
  have hunit : x / 2 ^ (e - 1) = x / 2 ^ e * 2 := by
    rw [zpow_sub_one₀ two_ne_zero]
    field_simp
  norm_num at hlow hbelow ⊢
  refine ⟨by linarith, ?_⟩
  rw [hunit]
  refine ⟨abs_le.mpr ⟨?_, ?_⟩, fun _ => by norm_num⟩ <;>
    · push_cast
      linarith

/-- The bits that are computed for a quotient are those of the magnitude that it rounds to. -/
theorem nearestBits_eq (h : Stored m e) (hden : 0 < den) (hx : Within m e (num / den)) :
    nearestBits num den = encode m e := by
  have hpow : (0 : ℝ) < 2 ^ e := by positivity
  have hnum : 0 < num := by
    have hpos := hx.pos h.pos
    rw [div_pos_iff_of_pos_right (Nat.cast_pos.mpr hden)] at hpos
    exact_mod_cast hpos
  have hm53 : (m : ℝ) + 1 ≤ 2 ^ 53 := by exact_mod_cast h.lt
  have hm : m < 9007199254740992 := h.lt
  have hleast := h.least
  have hmost := h.most
  have hhigh := hx.high
  have hsame (hexponent : max (leadingBit num den - 52) (-1074) = e) :
      nearestBits num den = encode m e := by
    have hfew : ¬2 ^ 53 ≤ m := by omega
    simp only [nearestBits_of_roundsTo hnum hden hexponent hx.roundsTo, if_neg hfew, encode]
    split_ifs <;> omega
  have hscale (k : ℤ) (c : ℝ) (hc : c = 2 ^ k) : c ≤ num / den / 2 ^ e ↔
      (2 : ℝ) ^ (k + e) ≤ num / den := by
    rw [hc, le_div_iff₀ hpow, zpow_add₀ two_ne_zero]
  have hscale' (k : ℤ) (c : ℝ) (hc : c = 2 ^ k) : num / den / 2 ^ e < c ↔
      (num / den : ℝ) < 2 ^ (k + e) := by
    rw [hc, div_lt_iff₀ hpow, zpow_add₀ two_ne_zero]
  have htop : (num / den : ℝ) < 2 ^ (53 + e) :=
    (hscale' 53 (2 ^ 53) (by norm_num)).mp (by linarith)
  -- In units of the exponent, the quotient has 53 bits, or the exponent is the least one, or the
  -- quotient lies just below the first number with 53 bits.
  by_cases hfull : (2 : ℝ) ^ 52 ≤ num / den / 2 ^ e
  · have hlead : leadingBit num den = 52 + e :=
      leadingBit_eq hnum hden ((hscale 52 (2 ^ 52) (by norm_num)).mp hfull)
        (by rwa [show 52 + e + 1 = 53 + e by ring])
    exact hsame (by omega)
  · have hbelow : (num / den : ℝ) < 2 ^ (52 + e) :=
      (hscale' 52 (2 ^ 52) (by norm_num)).mp (not_le.mp hfull)
    by_cases hsub : e = -1074
    · obtain ⟨hlow, -⟩ := leadingBit_spec hnum hden
      have hlt := (zpow_lt_zpow_iff_right₀ (one_lt_two (α := ℝ))).mp (hlow.trans_lt hbelow)
      exact hsame (by omega)
    · have hlow := hx.half_le
      obtain rfl : m = 2 ^ 52 := by
        refine le_antisymm (not_lt.mp fun hlt => hfull ?_) (h.normal.resolve_right hsub)
        have : (2 : ℝ) ^ 52 + 1 ≤ m := by exact_mod_cast hlt
        linarith
      obtain ⟨hquarter, hround⟩ := hx.below_first (by omega) (not_le.mp hfull)
      have hlead : leadingBit num den = 51 + e :=
        leadingBit_eq hnum hden ((hscale 51 (2 ^ 51) (by norm_num)).mp hquarter)
          (by rwa [show 51 + e + 1 = 52 + e by ring])
      rw [nearestBits_of_roundsTo hnum hden (show _ = e - 1 by omega) hround, if_pos le_rfl, encode]
      simp only [if_neg (show ¬2 ^ 53 / 2 < 2 ^ 52 by norm_num), sub_add_cancel,
        if_neg (show ¬971 < e by omega), lt_irrefl, if_false]
      norm_num

end InertialOdometry.Decimal
