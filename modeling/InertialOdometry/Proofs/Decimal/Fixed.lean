import InertialOdometry.Proofs.Decimal.Doubles
import InertialOdometry.Proofs.Decimal.Reading

/-!
Texts with a fixed number of places. What such a text says of a finite double is off by no more than
half a unit of its last place, and of all other doubles it says what they are.
-/

namespace InertialOdometry.Decimal

/-- The real number that a double stands for, if it is finite. -/
noncomputable def real? (x : Float) : Option ℝ :=
  match Binary64.ofFloat x with
  | .finite negative mantissa exponent _ =>
    let parts := fraction mantissa exponent
    some ((if negative then -1 else 1) * (parts.1 / parts.2))
  | _ => none

/-- What a text with a number of places may say of a double. -/
def Literal.Shows (l : Literal) (places : ℕ) (x : Float) : Prop :=
  match real? x with
  | some v => |Scalar.ofLiteral l - v| ≤ ((2 * 10 ^ places : ℕ) : ℝ)⁻¹
  | none => Scalar.ofLiteral l = x

/-- The text of a double is read as the double up to half a unit of the last place. -/
theorem exists_readsAs_fixedText (places : ℕ) (x : Float) :
    ∃ l, ReadsAs (fixedText places x) l ∧ l.Shows places x := by
  unfold fixedText render Literal.Shows real?
  cases hx : Binary64.ofFloat x with
  | notANumber =>
    obtain rfl := eq_of_notANumber hx
    exact ⟨.notANumber, readsAs_notANumber, rfl⟩
  | infinite negative =>
    obtain rfl := eq_of_infinite hx
    exact ⟨.infinite negative, readsAs_infinite negative, rfl⟩
  | finite negative m e half =>
    refine ⟨_, reads_pointed places _ negative, ?_⟩
    obtain ⟨hden, -⟩ := fraction_value m e
    have hnear := abs_shifted_sub_le (fraction m e).1 hden places
    rw [shifted, if_pos (Int.natCast_nonneg places), Int.toNat_natCast] at hnear
    have hsigned (y : ℝ) : (if negative then -y else y) = (if negative then -1 else 1) * y := by
      split_ifs <;> ring
    have hsign : |(if negative then -1 else 1 : ℝ)| = 1 := by
      split_ifs <;> norm_num
    dsimp only
    rw [Scalar.ofLiteral, Scalar.decimal_real, hsigned, ← mul_sub, abs_mul, hsign, one_mul]
    refine hnear.trans_eq ?_
    rw [zpow_neg, zpow_natCast]
    push_cast
    ring

end InertialOdometry.Decimal
