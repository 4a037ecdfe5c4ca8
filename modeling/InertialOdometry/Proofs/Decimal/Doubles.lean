import InertialOdometry.Proofs.Decimal.Digits
import InertialOdometry.Proofs.Decimal.Nearest

/-!
Doubles by their parts. A double is told by its sign and the bits of its magnitude: a finite one is
the magnitude that its mantissa and its exponent encode, or the opposite of it, and there is one
infinity and one value that is no number. So a quotient that lies in the rounding interval of a
magnitude is rounded to that very double.
-/

namespace InertialOdometry.Decimal

open Float.Model Float.Model.UnpackedFloat

/-! ### Fields -/

private theorem toNat_packComponents (s : Sign) (e : BitVec 11) (m : BitVec 52) :
    (packComponents .binary64 s e m).toNat =
      s.toBitVec.toNat * 2 ^ 63 + e.toNat * 2 ^ 52 + m.toNat := by
  change (s.toBitVec ++ e ++ m).toNat = _
  rw [BitVec.toNat_append, BitVec.toNat_append, ← Nat.shiftLeft_add_eq_or_of_lt e.isLt,
    ← Nat.shiftLeft_add_eq_or_of_lt m.isLt, Nat.shiftLeft_eq, Nat.shiftLeft_eq]
  ring

private theorem exists_fields (x : Float) :
    ∃ (s : Sign) (e : BitVec 11) (m : BitVec 52),
      x.toBits.toBitVec = packComponents .binary64 s e m ∧
        x.toBits.toNat = s.toBitVec.toNat * 2 ^ 63 + e.toNat * 2 ^ 52 + m.toNat := by
  obtain ⟨s, e, m, h⟩ : ∃ s e m, x.toBits.toBitVec = packComponents .binary64 s e m :=
    ⟨_, _, _, (@packComponents_unpackSign_unpackExponent_unpackMantissa .binary64 _).symm⟩
  refine ⟨s, e, m, h, ?_⟩
  rw [← toNat_packComponents, ← h]
  rfl

private theorem unpack_ofBits (b : UInt64) :
    (Float.ofBits b).toModel.unpack = UnpackedFloat.unpack .binary64 b.toBitVec :=
  DoubleOrder.unpack_pack_unpack (by decide) _

private theorem eq_of_unpack_eq {x y : Float} (h : x.toModel.unpack = y.toModel.unpack) : x = y :=
  Float.toBits_inj.mp (UInt64.toBitVec_inj.mp
    ((unpack_inj_of_valid x.toModel.valid y.toModel.valid).mp h))

/-! ### Sign and magnitude -/

def signedBy (negative : Bool) (x : Float) : Float := if negative then -x else x

private theorem eq_neg_ofBits {x : Float} (h : 2 ^ 63 ≤ x.toBits.toNat) :
    x = -Float.ofBits (UInt64.ofNat (x.toBits.toNat - 2 ^ 63)) := by
  obtain ⟨s, e, m, hx, hbits⟩ := exists_fields x
  have he := e.isLt
  have hm := m.isLt
  obtain rfl : s = .negative := by
    cases s
    · rfl
    · simp only [Sign.toBitVec] at hbits
      norm_num at hbits h he hm
      omega
  have hrest : (UInt64.ofNat (x.toBits.toNat - 2 ^ 63)).toBitVec =
      packComponents .binary64 .positive e m := by
    apply BitVec.eq_of_toNat_eq
    rw [toNat_packComponents]
    simp only [Sign.toBitVec] at hbits ⊢
    norm_num at hbits h he hm ⊢
    omega
  apply eq_of_unpack_eq
  rw [DoubleOrder.unpack_neg, unpack_ofBits, hrest, DoubleOrder.neg_unpack,
    unpackSign_packComponents, unpackExponent_packComponents, unpackMantissa_packComponents]
  change UnpackedFloat.unpack .binary64 x.toBits.toBitVec = _
  rw [hx]
  rfl

/-- A double is told by its sign and the bits of its magnitude. -/
theorem eq_signedBy_ofBits (x : Float) :
    x = signedBy (decide (2 ^ 63 ≤ x.toBits.toNat))
      (Float.ofBits (UInt64.ofNat (x.toBits.toNat % 2 ^ 63))) := by
  have hlt := x.toBits.toNat_lt
  by_cases h : 2 ^ 63 ≤ x.toBits.toNat
  · rw [signedBy, if_pos (decide_eq_true h),
      show x.toBits.toNat % 2 ^ 63 = x.toBits.toNat - 2 ^ 63 by omega]
    exact eq_neg_ofBits h
  · rw [signedBy, if_neg (by simpa using h), Nat.mod_eq_of_lt (not_le.mp h), UInt64.ofNat_toNat,
      Float.ofBits_toBits]

def magnitude (mantissa : ℕ) (exponent : ℤ) : Float :=
  Float.ofBits (UInt64.ofNat (encode mantissa exponent))

/-- A finite double is its magnitude with its sign, and zero or in stored form. -/
theorem eq_of_finite {x : Float} {negative half : Bool} {m : ℕ} {e : ℤ}
    (h : Binary64.ofFloat x = .finite negative m e half) :
    x = signedBy negative (magnitude m e) ∧ (m = 0 ∨ Stored m e ∧ half = halved m e) := by
  rw [eq_signedBy_ofBits x, magnitude]
  simp only [Binary64.ofFloat, Binary64.ofBits, Nat.pow_eq] at h
  generalize x.toBits.toNat = bits at h ⊢
  split_ifs at h with hspecial hfraction hfield <;> cases h
  · have hbits : bits % 2 ^ 63 = encode (bits % 2 ^ 52) (-1074) := by
      rw [encode, if_pos (by omega)]
      omega
    refine ⟨by rw [hbits], or_iff_not_imp_left.mpr fun hm => ⟨⟨?_, ?_, ?_, ?_, ?_⟩, ?_⟩⟩
    case refine_6 => simp [halved]
    all_goals omega
  · have hbits : bits % 2 ^ 63 =
        encode (2 ^ 52 + bits % 2 ^ 52) ((bits / 2 ^ 52 % 2 ^ 11 : ℕ) - 1075) := by
      rw [encode, if_neg (by omega), sub_add_cancel, Int.toNat_natCast]
      omega
    refine ⟨by rw [hbits], Or.inr ⟨⟨?_, ?_, ?_, ?_, ?_⟩, ?_⟩⟩
    case refine_6 =>
      rw [halved, Bool.eq_iff_iff]
      simp only [Bool.and_eq_true, beq_iff_eq, bne_iff_ne, decide_eq_true_eq]
      omega
    all_goals omega

theorem eq_of_infinite {x : Float} {negative : Bool}
    (h : Binary64.ofFloat x = .infinite negative) : x = signedBy negative (1.0 / 0.0) := by
  rw [eq_signedBy_ofBits x]
  simp only [Binary64.ofFloat, Binary64.ofBits, Nat.pow_eq] at h
  split_ifs at h with hspecial hfraction hfield
  cases h
  rw [show x.toBits.toNat % 2 ^ 63 = 2047 * 2 ^ 52 by omega,
    show Float.ofBits (UInt64.ofNat (2047 * 2 ^ 52)) = 1.0 / 0.0 by decide +kernel]

private theorem eq_of_packedNaN {x : Float} (h : x.toBits.toBitVec = packedNaN .binary64) :
    x = 0.0 / 0.0 := by
  refine Float.toBits_inj.mp (UInt64.toBitVec_inj.mp (h.trans ?_))
  decide +kernel

/-- There is only one double that is no number, whatever its bits are. -/
theorem eq_of_notANumber {x : Float} (h : Binary64.ofFloat x = .notANumber) : x = 0.0 / 0.0 := by
  simp only [Binary64.ofFloat, Binary64.ofBits, Nat.pow_eq] at h
  split_ifs at h with hspecial hfraction
  obtain ⟨s, e, m, hx, hbits⟩ := exists_fields x
  have he := e.isLt
  have hm := m.isLt
  rw [hbits] at hspecial hfraction
  have hexponent : e = -1#11 := by
    apply BitVec.eq_of_toNat_eq
    rw [show (-1#11).toNat = 2047 by decide]
    omega
  have hmantissa : m ≠ 0#52 := by
    rintro rfl
    rw [BitVec.toNat_zero] at hfraction
    omega
  refine eq_of_packedNaN (x.toModel.valid.eq_packedNaN ?_ ?_)
  · change @unpackExponent .binary64 x.toBits.toBitVec = _
    rw [hx, unpackExponent_packComponents, hexponent]
  · change @unpackMantissa .binary64 x.toBits.toBitVec ≠ _
    rwa [hx, unpackMantissa_packComponents]

/-- A double that is not comparable with itself is the one value that is no number. -/
theorem eq_of_isNaN {x : Float} (h : Scalar.isNaN x = true) : x = 0.0 / 0.0 := by
  have hunordered : ¬x ≤ x := by simpa [Scalar.isNaN] using h
  have hnone : DoubleOrder.place? x.toModel.unpack = none :=
    Option.eq_none_iff_forall_not_mem.mpr fun p hp =>
      hunordered (DoubleOrder.le_iff.mpr ⟨p, hp, p, hp, le_rfl⟩)
  have hunpack : x.toModel.unpack = .notANumber := by
    generalize x.toModel.unpack = u at hnone
    rcases u with (_ | _) | _ | _ | ⟨_ | _, m, e, hm⟩ <;> simp_all [DoubleOrder.place?]
  exact eq_of_packedNaN ((unpack_eq_notANumber_iff_of_valid x.toModel.valid).mp hunpack)

/-! ### The double nearest to a decimal fraction -/

/-- The size of a decimal fraction by the number of its digits. -/
private theorem decimal_bounds {n : ℕ} (hn : 0 < n) (scale : ℤ) :
    (10 : ℝ) ^ ((digits n).length + scale - 1) ≤ n * 10 ^ scale ∧
      n * 10 ^ scale < (10 : ℝ) ^ ((digits n).length + scale) := by
  have hlength : 0 < (digits n).length := List.length_pos_of_ne_nil (digits_ne_nil n)
  have hten : (10 : ℝ) ≠ 0 := by norm_num
  constructor
  · rw [show ((digits n).length + scale - 1 : ℤ) = ((digits n).length - 1 : ℕ) + scale by omega,
      zpow_add₀ hten, zpow_natCast]
    gcongr
    exact_mod_cast pow_le_of_pos hn
  · rw [zpow_add₀ hten, zpow_natCast]
    gcongr
    exact_mod_cast lt_pow_length_digits n

private theorem two_pow_lt_ten_pow : (2 : ℝ) ^ 1075 < 10 ^ 400 :=
  calc (2 : ℝ) ^ 1075 ≤ 2 ^ (3 * 400) := pow_le_pow_right₀ one_le_two (by norm_num)
    _ = (2 ^ 3) ^ 400 := pow_mul 2 3 400
    _ < 10 ^ 400 := by gcongr; norm_num

/-- What rounds to a magnitude is no smaller than half of the least one, and no larger than twice
the largest one. -/
private theorem bounds_of_within {m : ℕ} {e : ℤ} {x : ℝ} (h : Stored m e) (hx : Within m e x) :
    (10 ^ 400 : ℝ)⁻¹ < x ∧ x < 10 ^ 400 := by
  have hpow : (0 : ℝ) < 2 ^ e := by positivity
  have hone : (1 : ℝ) ≤ m := Nat.one_le_cast.mpr h.pos
  have hm : (m : ℝ) + 1 ≤ 2 ^ 53 := by exact_mod_cast h.lt
  constructor
  · calc (10 ^ 400 : ℝ)⁻¹ < (2 ^ 1075)⁻¹ := by gcongr; exact two_pow_lt_ten_pow
      _ = 2 ^ (-1075 : ℤ) := by rw [zpow_neg]; rfl
      _ = 1 / 2 * 2 ^ (-1074 : ℤ) := by
        rw [show (-1075 : ℤ) = -1074 - 1 by norm_num, zpow_sub_one₀ two_ne_zero]
        ring
      _ ≤ (m - 1 / 2) * 2 ^ e :=
        mul_le_mul (by linarith) (zpow_le_zpow_right₀ one_le_two h.least) (by positivity)
          (by linarith)
      _ ≤ x := (le_div_iff₀ hpow).mp hx.half_le
  · calc x ≤ (m + 1 / 2) * 2 ^ e := (div_le_iff₀ hpow).mp hx.high
      _ ≤ 2 ^ 53 * 2 ^ (971 : ℤ) :=
        mul_le_mul (by linarith) (zpow_le_zpow_right₀ one_le_two h.most) (by positivity)
          (by positivity)
      _ = 2 ^ (53 + 971) := (pow_add 2 53 971).symm
      _ ≤ 2 ^ 1075 := pow_le_pow_right₀ one_le_two (by norm_num)
      _ < 10 ^ 400 := two_pow_lt_ten_pow

/-- A decimal fraction in the rounding interval of a magnitude is rounded to it. The powers of ten
that are not computed lie beyond the least and the largest magnitude. -/
theorem nearest_eq {m n : ℕ} {e scale : ℤ} (h : Stored m e) (hx : Within m e (n * 10 ^ scale)) :
    nearest n scale = magnitude m e := by
  have hn : 0 < n := by
    have hpos := hx.pos h.pos
    rw [mul_pos_iff_of_pos_right (by positivity)] at hpos
    exact_mod_cast hpos
  have hten : (1 : ℝ) < 10 := by norm_num
  obtain ⟨hlow, hhigh⟩ := decimal_bounds hn scale
  obtain ⟨hleast, hmost⟩ := bounds_of_within h hx
  have hbelow : ¬((digits n).length + scale < -400) := by
    have hlt := hleast.trans hhigh
    rw [← zpow_natCast, ← zpow_neg, zpow_lt_zpow_iff_right₀ hten] at hlt
    omega
  have habove : ¬(400 < (digits n).length + scale) := by
    have hlt := hlow.trans_lt hmost
    rw [← zpow_natCast, zpow_lt_zpow_iff_right₀ hten] at hlt
    omega
  unfold nearest
  rw [if_neg (by simp; omega), if_neg habove, magnitude]
  split_ifs with hscale
  · obtain ⟨k, rfl⟩ := Int.eq_ofNat_of_zero_le hscale
    rw [nearestBits_eq h one_pos]
    simpa using hx
  · obtain ⟨k, hk⟩ := Int.eq_ofNat_of_zero_le (a := -scale) (by omega)
    obtain rfl : scale = -k := by omega
    rw [nearestBits_eq h (by simp)]
    simpa [div_eq_mul_inv] using hx

end InertialOdometry.Decimal
