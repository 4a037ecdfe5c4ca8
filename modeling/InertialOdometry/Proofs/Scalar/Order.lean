import Mathlib.Algebra.Order.Ring.Int
import Mathlib.Data.Prod.Lex
import InertialOdometry.Proofs.Exact.Real

/-!
The order of scalars. It is transitive, and total on those that are numbers. Doubles have
this order because each that is a number has a place in a linear order: below and above
all, the infinities; between them, the sign counts first, then the exponent, then the
mantissa.
-/

namespace InertialOdometry

/-- Scalars of which those that are numbers are in a total order. -/
class OrderedScalar (α : Type) [Scalar α] : Prop where
  le_trans : ∀ {a b c : α}, a ≤ b → b ≤ c → a ≤ c
  le_total : ∀ {a b : α}, a ≤ a → b ≤ b → a ≤ b ∨ b ≤ a

namespace Scalar

variable {α : Type} [Scalar α]

theorem isNaN_eq_false_iff {x : α} : isNaN x = false ↔ x ≤ x := by
  simp [isNaN]

variable [OrderedScalar α]

theorem le_trans {a b c : α} (hab : a ≤ b) (hbc : b ≤ c) : a ≤ c :=
  OrderedScalar.le_trans hab hbc

theorem le_of_not_le {a b : α} (ha : isNaN a = false) (hb : isNaN b = false)
    (h : ¬a ≤ b) : b ≤ a :=
  (OrderedScalar.le_total (isNaN_eq_false_iff.mp ha) (isNaN_eq_false_iff.mp hb)).resolve_left h

end Scalar

instance : OrderedScalar ℝ where
  le_trans := le_trans
  le_total {a b} _ _ := le_total a b

/-! ### Doubles -/

namespace DoubleOrder

open Float.Model

/-- The place of a number among all numbers. -/
def place? : UnpackedFloat → Option (ℤ ×ₗ ℤ ×ₗ ℤ)
  | .notANumber => none
  | .infinity .negative => some (toLex (-2, toLex (0, 0)))
  | .finite .negative mantissa exponent _ =>
    some (toLex (-1, toLex (-exponent, -mantissa)))
  | .zero _ => some (toLex (0, toLex (0, 0)))
  | .finite .positive mantissa exponent _ => some (toLex (1, toLex (exponent, mantissa)))
  | .infinity .positive => some (toLex (2, toLex (0, 0)))

@[simp]
theorem isLE_then_compare (e f : ℤ) (m n : ℕ) :
    ((compare e f).then (compare m n)).isLE = true ↔ e < f ∨ e = f ∧ m ≤ n := by
  rcases lt_trichotomy e f with hlt | rfl | hgt
  · simp [Int.compare_eq_lt.mpr hlt, hlt]
  · simp [Nat.isLE_compare]
  · have hne : e ≠ f := ne_of_gt hgt
    simp [Int.compare_eq_gt.mpr hgt, not_lt_of_gt hgt, hne]

@[simp]
theorem isGE_then_compare (e f : ℤ) (m n : ℕ) :
    ((compare e f).then (compare m n)).isGE = true ↔ f < e ∨ e = f ∧ n ≤ m := by
  rcases lt_trichotomy e f with hlt | rfl | hgt
  · have hne : e ≠ f := ne_of_lt hlt
    simp [Int.compare_eq_lt.mpr hlt, not_lt_of_gt hlt, hne]
  · simp [Nat.isGE_compare]
  · simp [Int.compare_eq_gt.mpr hgt, hgt]

theorem le_iff_place {a b : UnpackedFloat} :
    a.le b = true ↔ ∃ p ∈ place? a, ∃ q ∈ place? b, p ≤ q := by
  rcases a with (_ | _) | _ | (_ | _) | ⟨_ | _, m, e, hm⟩ <;>
    rcases b with (_ | _) | _ | (_ | _) | ⟨_ | _, n, f, hn⟩ <;>
    dsimp only [UnpackedFloat.le, UnpackedFloat.compare, place?] <;>
    simp [Prod.Lex.toLex_le_toLex] <;>
    decide

/-- Doubles are compared by their places, and what is no number has none. -/
theorem le_iff {x y : Float} :
    x ≤ y ↔ ∃ p ∈ place? x.toModel.unpack, ∃ q ∈ place? y.toModel.unpack, p ≤ q := by
  rw [← le_iff_place]
  change Float.le x y = true ↔ _
  rw [Float.le, decide_eq_true_iff]
  exact Iff.rfl

end DoubleOrder

instance : OrderedScalar Float where
  le_trans {a b c} hab hbc := by
    obtain ⟨p, hp, q, hq, hpq⟩ := DoubleOrder.le_iff.mp hab
    obtain ⟨q', hq', r, hr, hqr⟩ := DoubleOrder.le_iff.mp hbc
    obtain rfl : q = q' := Option.mem_unique hq hq'
    exact DoubleOrder.le_iff.mpr ⟨p, hp, r, hr, hpq.trans hqr⟩
  le_total {a b} ha hb := by
    obtain ⟨p, hp, -⟩ := DoubleOrder.le_iff.mp ha
    obtain ⟨q, hq, -⟩ := DoubleOrder.le_iff.mp hb
    rcases le_total p q with hpq | hqp
    · exact Or.inl (DoubleOrder.le_iff.mpr ⟨p, hp, q, hq, hpq⟩)
    · exact Or.inr (DoubleOrder.le_iff.mpr ⟨q, hq, p, hp, hqp⟩)

end InertialOdometry
