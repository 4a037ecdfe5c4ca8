import InertialOdometry.Proofs.Decimal.Doubles
import InertialOdometry.Proofs.Decimal.Reading

/-!
The shortest text of a double is read back as that double. The digits that are chosen lie in the
rounding interval of the double: either they were tested for that, or there are seventeen of them,
which no rounding interval is narrow enough to miss.
-/

namespace InertialOdometry.Decimal

/-! ### The leading digit -/

private theorem leading_le {num den : ℕ} (hnum : 0 < num) (hden : 0 < den) :
    (10 : ℝ) ^ leading num den ≤ num / den := by
  have hn : (0 : ℝ) < num := Nat.cast_pos.mpr hnum
  have hd : (0 : ℝ) < den := Nat.cast_pos.mpr hden
  have hlength (k : ℕ) : 0 < (digits k).length := List.length_pos_of_ne_nil (digits_ne_nil k)
  unfold leading
  split_ifs with hge hpower
  · have hpos : 0 < num / den := Nat.div_pos hge hden
    have hcast : ((digits (num / den)).length - 1 : ℤ) = ((digits (num / den)).length - 1 : ℕ) := by
      have := hlength (num / den)
      omega
    rw [hcast, zpow_natCast]
    calc (10 : ℝ) ^ ((digits (num / den)).length - 1) ≤ (num / den : ℕ) := by
          exact_mod_cast pow_le_of_pos hpos
      _ ≤ num / den := Nat.cast_div_le
  · obtain ⟨hexact, hten⟩ : den % num = 0 ∧ den / num = 10 ^ ((digits (den / num)).length - 1) := by
      simpa [leading.isPower] using hpower
    have hden' : (den : ℝ) = 10 ^ ((digits (den / num)).length - 1) * num := by
      have := Nat.div_add_mod den num
      rw [hexact, add_zero, hten, mul_comm] at this
      exact_mod_cast this.symm
    have hcast : -((digits (den / num)).length : ℤ) + 1 =
        -((digits (den / num)).length - 1 : ℕ) := by
      have := hlength (den / num)
      omega
    rw [hcast, zpow_neg, zpow_natCast, hden', div_mul_cancel_right₀ hn.ne']
  · have hlt : den < 10 ^ (digits (den / num)).length * num :=
      (Nat.div_lt_iff_lt_mul hnum).mp (lt_pow_length_digits (den / num))
    rw [add_zero, zpow_neg, zpow_natCast, le_div_iff₀ hd, inv_mul_le_iff₀ (by positivity)]
    exact_mod_cast hlt.le

/-! ### The rounding interval -/

namespace Interval

variable {i : Interval} {n : ℕ} {scale : ℤ}

theorem holds_iff (hden : 0 < i.den) :
    i.holds n scale = true ↔
      ((i.low / i.den : ℝ) ≤ n * 10 ^ scale ∧ (n * 10 ^ scale : ℝ) ≤ i.high / i.den) ∧
        (i.closed = true ∨
          (i.low / i.den : ℝ) < n * 10 ^ scale ∧ (n * 10 ^ scale : ℝ) < i.high / i.den) := by
  have hd : (0 : ℝ) < i.den := Nat.cast_pos.mpr hden
  -- The three numbers are compared in the same unit, whatever it is.
  have hcompare {point low high : ℕ} (unit : ℝ) (hunit : 0 < unit)
      (hpoint : (point : ℝ) = n * 10 ^ scale * unit) (hlow : (low : ℝ) = i.low / i.den * unit)
      (hhigh : (high : ℝ) = i.high / i.den * unit) :
      (if i.closed then decide (low ≤ point) && decide (point ≤ high)
        else decide (low < point) && decide (point < high)) = true ↔
      ((i.low / i.den : ℝ) ≤ n * 10 ^ scale ∧ (n * 10 ^ scale : ℝ) ≤ i.high / i.den) ∧
        (i.closed = true ∨
          (i.low / i.den : ℝ) < n * 10 ^ scale ∧ (n * 10 ^ scale : ℝ) < i.high / i.den) := by
    have hle {a b : ℕ} {x y : ℝ} (ha : (a : ℝ) = x * unit) (hb : (b : ℝ) = y * unit) :
        a ≤ b ↔ x ≤ y := by
      rw [← Nat.cast_le (α := ℝ), ha, hb, mul_le_mul_iff_of_pos_right hunit]
    have hlt {a b : ℕ} {x y : ℝ} (ha : (a : ℝ) = x * unit) (hb : (b : ℝ) = y * unit) :
        a < b ↔ x < y := by
      rw [← Nat.cast_lt (α := ℝ), ha, hb, mul_lt_mul_iff_of_pos_right hunit]
    split_ifs with hclosed
    · simp [hclosed, hle hlow hpoint, hle hpoint hhigh]
    · simp only [Bool.and_eq_true, decide_eq_true_eq, hlt hlow hpoint, hlt hpoint hhigh, hclosed,
        Bool.false_eq_true, false_or]
      exact ⟨fun h => ⟨⟨h.1.le, h.2.le⟩, h⟩, fun h => h.2⟩
  by_cases hscale : 0 ≤ scale
  · obtain ⟨k, rfl⟩ := Int.eq_ofNat_of_zero_le hscale
    rw [holds, if_pos hscale]
    refine hcompare i.den hd ?_ ?_ ?_
    · simp
    · rw [div_mul_cancel₀ _ hd.ne']
    · rw [div_mul_cancel₀ _ hd.ne']
  · obtain ⟨k, hk⟩ := Int.eq_ofNat_of_zero_le (a := -scale) (by omega)
    obtain rfl : scale = -k := by omega
    rw [holds, if_neg hscale]
    refine hcompare (i.den * 10 ^ k) (by positivity) ?_ ?_ ?_ <;>
      · simp
        field_simp

/-! ### The interval of a magnitude -/

variable {m : ℕ} {e : ℤ}

private theorem ofBinary_den_pos (m : ℕ) (e : ℤ) (half : Bool) : 0 < (ofBinary m e half).den :=
  Nat.mul_pos (by decide) (fraction_value 1 e).1

/-- Numbers in quarters of a unit. -/
private theorem quarters (a : ℕ) (e : ℤ) :
    ((a * (fraction 1 e).1 : ℕ) / (4 * (fraction 1 e).2 : ℕ) : ℝ) = a / 4 * 2 ^ e := by
  have hunit := (fraction_value 1 e).2
  rw [Nat.cast_one, one_mul] at hunit
  rw [← hunit]
  push_cast
  rw [mul_div_mul_comm]

private theorem ofBinary_value (m : ℕ) (e : ℤ) (half : Bool) :
    ((ofBinary m e half).value / (ofBinary m e half).den : ℝ) = m * 2 ^ e := by
  refine (quarters (4 * m) e).trans ?_
  push_cast
  ring

/-- The interval of a magnitude in whole numbers is the one in real numbers. -/
theorem holds_ofBinary_iff (hm : 0 < m) :
    (ofBinary m e (halved m e)).holds n scale = true ↔ Within m e (n * 10 ^ scale) := by
  have hpow : (0 : ℝ) < 2 ^ e := by positivity
  have hlow : ((ofBinary m e (halved m e)).low / (ofBinary m e (halved m e)).den : ℝ) =
      (m - if halved m e then 1 / 4 else 1 / 2) * 2 ^ e := by
    refine (quarters _ e).trans ?_
    split_ifs <;> rw [Nat.cast_sub (by omega)] <;> push_cast <;> ring
  have hhigh : ((ofBinary m e (halved m e)).high / (ofBinary m e (halved m e)).den : ℝ) =
      (m + 1 / 2) * 2 ^ e := by
    refine (quarters _ e).trans ?_
    push_cast
    ring
  have hclosed : (ofBinary m e (halved m e)).closed = true ↔ m % 2 = 0 := beq_iff_eq
  rw [holds_iff (ofBinary_den_pos ..), hlow, hhigh, hclosed]
  simp only [← le_div_iff₀ hpow, ← div_le_iff₀ hpow, ← lt_div_iff₀ hpow, ← div_lt_iff₀ hpow]
  exact ⟨fun h => ⟨h.1.1, h.1.2, h.2⟩, fun h => ⟨⟨h.low, h.high⟩, h.ends⟩⟩

/-- Seventeen digits are enough to stay in the rounding interval. -/
private theorem within_of_near (h : Stored m e) {x : ℝ} {top : ℤ}
    (htop : (10 : ℝ) ^ top ≤ m * 2 ^ e) (hx : |x - m * 2 ^ e| ≤ 1 / 2 * 10 ^ (top - 16)) :
    Within m e x := by
  have hpow : (0 : ℝ) < 2 ^ e := by positivity
  have hm : (m : ℝ) < 9007199254740992 := by exact_mod_cast h.lt
  have hnear : |x / 2 ^ e - m| ≤ 1 / 2 * (m / 10 ^ 16) := by
    refine le_of_mul_le_mul_right ?_ hpow
    calc |x / 2 ^ e - m| * 2 ^ e = |(x / 2 ^ e - m) * 2 ^ e| := by rw [abs_mul, abs_of_pos hpow]
      _ = |x - m * 2 ^ e| := by rw [sub_mul, div_mul_cancel₀ _ hpow.ne']
      _ ≤ 1 / 2 * 10 ^ (top - 16) := hx
      _ = 1 / 2 * (10 ^ top / 10 ^ 16) := by rw [zpow_sub₀ (by norm_num)]; rfl
      _ ≤ 1 / 2 * (m * 2 ^ e / 10 ^ 16) := by gcongr
      _ = 1 / 2 * (m / 10 ^ 16) * 2 ^ e := by ring
  -- Half of that is less than a quarter of a unit where the next magnitude is half as far away.
  have hstrict : (m : ℝ) - (if halved m e then 1 / 4 else 1 / 2) < x / 2 ^ e ∧
      x / 2 ^ e < m + 1 / 2 := by
    rw [abs_le] at hnear
    split_ifs with hhalved
    · have hfirst : (m : ℝ) = 4503599627370496 := by
        simp only [halved, Bool.and_eq_true, beq_iff_eq] at hhalved
        exact_mod_cast hhalved.1
      constructor <;> linarith
    · constructor <;> linarith
  exact ⟨hstrict.1.le, hstrict.2.le, Or.inr hstrict⟩

/-- A point of a grid is chosen only if it rounds to the number. -/
private theorem holds_of_onGrid {i : Interval} {top scale : ℤ} {count n : ℕ}
    (h : i.onGrid top count = some (n, scale)) : i.holds n scale = true := by
  unfold onGrid at h
  dsimp only at h
  split_ifs at h <;> cases h <;> assumption

/-- The digits that are chosen round to the magnitude. -/
theorem holds_shortest (h : Stored m e) :
    let i := ofBinary m e (halved m e)
    i.holds i.shortest.1 i.shortest.2 = true := by
  intro i
  rw [shortest]
  cases hgrid : (List.range 17).findSome? fun k => i.onGrid (leading i.value i.den) (k + 1) with
  | some point =>
    obtain ⟨k, -, hk⟩ := List.exists_of_findSome?_eq_some hgrid
    exact holds_of_onGrid hk
  | none =>
    have hden : 0 < i.den := ofBinary_den_pos ..
    have hvalue : (i.value / i.den : ℝ) = m * 2 ^ e := ofBinary_value ..
    have hpos : 0 < i.value := by
      have hm : (0 : ℝ) < m := Nat.cast_pos.mpr h.pos
      have hquotient : (0 : ℝ) < i.value / i.den := by
        rw [hvalue]
        positivity
      rw [div_pos_iff_of_pos_right (Nat.cast_pos.mpr hden)] at hquotient
      exact_mod_cast hquotient
    have hleading := leading_le hpos hden
    rw [hvalue] at hleading
    have hrounds := abs_shifted_sub_le i.value hden (16 - leading i.value i.den)
    rw [neg_sub, hvalue] at hrounds
    rw [Option.getD_none, holds_ofBinary_iff h.pos]
    exact within_of_near h hleading hrounds

end Interval

/-! ### Texts -/

/-- The text of a magnitude is read as a decimal fraction in the rounding interval. -/
theorem exists_reads_shortestMagnitude {m : ℕ} {e : ℤ} (h : Stored m e) :
    ∃ n scale, Reads (shortestMagnitude m e (halved m e)) n scale ∧ Within m e (n * 10 ^ scale) := by
  have hwithin := (Interval.holds_ofBinary_iff h.pos).mp (Interval.holds_shortest h)
  have hn : 0 < (Interval.ofBinary m e (halved m e)).shortest.1 := by
    have hpos := hwithin.pos h.pos
    rw [mul_pos_iff_of_pos_right (by positivity)] at hpos
    exact_mod_cast hpos
  rw [shortestMagnitude, if_neg h.pos.ne']
  generalize (Interval.ofBinary m e (halved m e)).shortest = point at hwithin hn ⊢
  obtain ⟨n, scale⟩ := point
  obtain ⟨k, hk⟩ := exists_eq_trimZeros_append (digits n)
  have hvalue : n = ofDigits (trimZeros (digits n)) * 10 ^ k := by
    conv_lhs => rw [← ofDigits_digits n, hk, ofDigits_append, ofDigits_replicate_zero,
      List.length_replicate, add_zero]
  have hne : trimZeros (digits n) ≠ [] := by
    intro hnil
    rw [hnil, ofDigits, List.foldl_nil, zero_mul] at hvalue
    exact hn.ne' hvalue
  have hdigits : ∀ c ∈ trimZeros (digits n), c.isDigit := fun c hc =>
    isDigit_of_mem_digits (by rw [hk]; exact List.mem_append_left _ hc)
  have hlength : (digits n).length = (trimZeros (digits n)).length + k := by
    conv_lhs => rw [hk, List.length_append, List.length_replicate]
  obtain ⟨n', k', scale', hreads, hn', hscale'⟩ :=
    exists_reads_layOut hne hdigits (scale + (digits n).length - 1)
  refine ⟨n', scale', hreads, ?_⟩
  have hten : (10 : ℝ) ≠ 0 := by norm_num
  have hsame : (n' * 10 ^ scale' : ℝ) = n * 10 ^ scale := by
    calc (n' * 10 ^ scale' : ℝ)
        = ofDigits (trimZeros (digits n)) * 10 ^ ((k' : ℤ) + scale') := by
          rw [hn', zpow_add₀ hten, zpow_natCast]
          push_cast
          ring
      _ = ofDigits (trimZeros (digits n)) * 10 ^ ((k : ℤ) + scale) := by
          congr 2
          omega
      _ = (ofDigits (trimZeros (digits n)) * 10 ^ k : ℕ) * 10 ^ scale := by
          rw [zpow_add₀ hten, zpow_natCast]
          push_cast
          ring
      _ = n * 10 ^ scale := by rw [← hvalue]
  rwa [hsame]

/-- The text of a double is read back as that double. -/
theorem exists_readsAs_shortestText (x : Float) :
    ∃ l, ReadsAs (shortestText x) l ∧ Scalar.ofLiteral l = x := by
  unfold shortestText
  cases hx : Binary64.ofFloat x with
  | notANumber =>
    obtain rfl := eq_of_notANumber hx
    exact ⟨.notANumber, readsAs_notANumber, rfl⟩
  | infinite negative =>
    obtain rfl := eq_of_infinite hx
    exact ⟨.infinite negative, readsAs_infinite negative, rfl⟩
  | finite negative m e half =>
    obtain ⟨rfl, rfl | ⟨h, rfl⟩⟩ := eq_of_finite hx
    · refine ⟨_, reads_zero negative, ?_⟩
      have hzero : magnitude 0 e = Scalar.decimal 0 (-1) := by
        rw [magnitude, encode, if_pos (by norm_num)]
        decide +kernel
      rw [hzero]
      rfl
    · obtain ⟨n, scale, hreads, hwithin⟩ := exists_reads_shortestMagnitude h
      refine ⟨_, hreads negative, ?_⟩
      rw [← nearest_eq h hwithin]
      rfl

end InertialOdometry.Decimal
