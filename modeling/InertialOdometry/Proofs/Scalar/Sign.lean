import Mathlib
import InertialOdometry.Proofs.Scalar.Order

/-!
Strict comparison, opposites and absolute values of scalars. Of two scalars that are not
positive, the one with the smaller absolute value is the larger one. Doubles have this
order because taking the opposite loses no digits: it turns the place of a number in
their linear order into the opposite place.
-/

namespace InertialOdometry

/-- Ordered scalars whose strict comparisons and opposites fit their order. -/
class SignedScalar (α : Type) [Scalar α] : Prop extends OrderedScalar α where
  le_self_of_le : ∀ {a b : α}, a ≤ b → a ≤ a
  lt_iff : ∀ {a b : α}, a < b ↔ a ≤ b ∧ ¬b ≤ a
  neg_le_neg_iff : ∀ {a b : α}, -a ≤ -b ↔ b ≤ a
  zero_le_neg_zero : (Scalar.zero : α) ≤ -Scalar.zero

namespace Scalar

variable {α : Type} [Scalar α] [SignedScalar α] {a b c : α}

/-- What is at most some scalar is a number. -/
theorem le_self_of_le (h : a ≤ b) : a ≤ a := SignedScalar.le_self_of_le h

theorem lt_iff : a < b ↔ a ≤ b ∧ ¬b ≤ a := SignedScalar.lt_iff

theorem neg_le_neg_iff : -a ≤ -b ↔ b ≤ a := SignedScalar.neg_le_neg_iff

theorem lt_of_lt_of_le (hab : a < b) (hbc : b ≤ c) : a < c := by
  obtain ⟨hle, hnot⟩ := lt_iff.mp hab
  exact lt_iff.mpr ⟨le_trans hle hbc, fun hca => hnot (le_trans hbc hca)⟩

theorem not_lt_of_lt (hab : a < b) : ¬b < a := fun hba =>
  (lt_iff.mp hab).2 (lt_iff.mp hba).1

/-- Of two numbers the one that is not less is at least as large. -/
theorem not_lt_iff (ha : a ≤ a) (hb : b ≤ b) : ¬a < b ↔ b ≤ a := by
  refine ⟨fun h => ?_, fun hba hab => (lt_iff.mp hab).2 hba⟩
  by_contra hba
  exact h (lt_iff.mpr ⟨(OrderedScalar.le_total ha hb).resolve_right hba, hba⟩)

private theorem zero_le_neg (ha : a ≤ zero) : zero ≤ -a :=
  le_trans SignedScalar.zero_le_neg_zero (neg_le_neg_iff.mpr ha)

private theorem zero_le_of_neg_le_zero (h : -a ≤ zero) : zero ≤ a :=
  neg_le_neg_iff.mp (le_trans h SignedScalar.zero_le_neg_zero)

omit [SignedScalar α] in
theorem abs_of_lt_zero (ha : a < zero) : abs a = -a := if_pos ha

theorem abs_of_zero_le (ha : zero ≤ a) : abs a = a := if_neg fun h => (lt_iff.mp h).2 ha

/-- On the scalars that are not positive absolute values run against the order. -/
theorem abs_le_abs_iff (ha : a ≤ zero) (hb : b ≤ zero) : abs a ≤ abs b ↔ b ≤ a := by
  by_cases ha0 : zero ≤ a <;> by_cases hb0 : zero ≤ b
  · rw [abs_of_zero_le ha0, abs_of_zero_le hb0]
    exact iff_of_true (le_trans ha hb0) (le_trans hb ha0)
  · rw [abs_of_zero_le ha0, abs_of_lt_zero (lt_iff.mpr ⟨hb, hb0⟩)]
    exact iff_of_true (le_trans ha (zero_le_neg hb)) (le_trans hb ha0)
  · rw [abs_of_lt_zero (lt_iff.mpr ⟨ha, ha0⟩), abs_of_zero_le hb0]
    exact iff_of_false (fun h => ha0 (zero_le_of_neg_le_zero (le_trans h hb)))
      fun h => ha0 (le_trans hb0 h)
  · rw [abs_of_lt_zero (lt_iff.mpr ⟨ha, ha0⟩), abs_of_lt_zero (lt_iff.mpr ⟨hb, hb0⟩),
      neg_le_neg_iff]

theorem abs_lt_abs_iff (ha : a ≤ zero) (hb : b ≤ zero) : abs a < abs b ↔ b < a := by
  rw [lt_iff, lt_iff, abs_le_abs_iff ha hb, abs_le_abs_iff hb ha]

end Scalar

instance : SignedScalar ℝ where
  le_self_of_le _ := le_rfl
  lt_iff := lt_iff_le_not_ge
  neg_le_neg_iff := neg_le_neg_iff
  zero_le_neg_zero := by rw [Scalar.zero_real, neg_zero]

/-! ### Doubles -/

namespace DoubleOrder

open Float.Model

private theorem then_compare_eq_lt (e f : ℤ) (m n : ℕ) :
    (compare e f).then (compare m n) = .lt ↔ e < f ∨ e = f ∧ m < n := by
  rw [Ordering.then_eq_lt, compare_lt_iff_lt, compare_eq_iff_eq, compare_lt_iff_lt]

private theorem then_compare_eq_gt (e f : ℤ) (m n : ℕ) :
    (compare e f).then (compare m n) = .gt ↔ f < e ∨ e = f ∧ n < m := by
  rw [Ordering.then_eq_gt, compare_gt_iff_gt, compare_eq_iff_eq, compare_gt_iff_gt]

theorem lt_iff_place {a b : UnpackedFloat} :
    a.lt b = true ↔ ∃ p ∈ place? a, ∃ q ∈ place? b, p < q := by
  rcases a with (_ | _) | _ | (_ | _) | ⟨_ | _, m, e, hm⟩ <;>
    rcases b with (_ | _) | _ | (_ | _) | ⟨_ | _, n, f, hn⟩ <;>
    dsimp only [UnpackedFloat.lt, UnpackedFloat.compare, place?] <;>
    simp [Prod.Lex.toLex_lt_toLex, then_compare_eq_lt, then_compare_eq_gt]
  all_goals decide

theorem lt_iff {x y : Float} :
    x < y ↔ ∃ p ∈ place? x.toModel.unpack, ∃ q ∈ place? y.toModel.unpack, p < q := by
  rw [← lt_iff_place]
  change Float.lt x y = true ↔ _
  rw [Float.lt, decide_eq_true_iff]
  exact Iff.rfl

/-- The opposite of a number has the opposite place. -/
theorem place?_neg (u : UnpackedFloat) : place? u.neg = (place? u).map (-·) := by
  rcases u with (_ | _) | _ | (_ | _) | ⟨_ | _, m, e, hm⟩ <;>
    simp [place?, UnpackedFloat.neg, ← toLex_neg]

/-- The opposite of a number has the same exponent and mantissa, and the other sign. -/
theorem neg_unpack {spec : Format} (bits : BitVec spec.numBits) :
    (UnpackedFloat.unpack spec bits).neg =
      UnpackedFloat.unpack spec (UnpackedFloat.packComponents spec
        (-UnpackedFloat.Sign.ofBitVec (UnpackedFloat.unpackSign bits))
        (UnpackedFloat.unpackExponent bits) (UnpackedFloat.unpackMantissa bits)) := by
  unfold UnpackedFloat.unpack
  simp only [UnpackedFloat.unpackExponent_packComponents,
    UnpackedFloat.unpackMantissa_packComponents, UnpackedFloat.unpackSign_packComponents,
    UnpackedFloat.Sign.ofBitVec_toBitVec]
  split_ifs <;> rfl

/-- A number that was unpacked is packed without loss. -/
theorem unpack_pack_unpack {spec : Format} (hspec : 2 ≤ spec.exponentBits)
    (bits : BitVec spec.numBits) :
    UnpackedFloat.unpack spec (UnpackedFloat.pack spec (UnpackedFloat.unpack spec bits)) =
      UnpackedFloat.unpack spec bits := by
  rw [UnpackedFloat.pack_unpack bits hspec]
  split
  · next hnan =>
      obtain ⟨hexponent, hmantissa⟩ := of_decide_eq_true hnan
      rw [UnpackedFloat.unpack_packedNaN, UnpackedFloat.unpack, if_pos hexponent,
        if_neg hmantissa]
  · rfl

theorem unpack_neg (x : Float) : (-x).toModel.unpack = x.toModel.unpack.neg := by
  change UnpackedFloat.unpack .binary64 (UnpackedFloat.pack .binary64
    (UnpackedFloat.unpack .binary64 x.toModel.toBits.toBitVec).neg) = _
  rw [neg_unpack, unpack_pack_unpack (by decide), ← neg_unpack]
  rfl

theorem place?_neg_float (x : Float) :
    place? (-x).toModel.unpack = (place? x.toModel.unpack).map (-·) := by
  rw [unpack_neg, place?_neg]

end DoubleOrder

instance : SignedScalar Float where
  le_self_of_le h := by
    obtain ⟨p, hp, -⟩ := DoubleOrder.le_iff.mp h
    exact DoubleOrder.le_iff.mpr ⟨p, hp, p, hp, le_rfl⟩
  lt_iff {a b} := by
    rw [DoubleOrder.lt_iff, DoubleOrder.le_iff, DoubleOrder.le_iff]
    constructor
    · rintro ⟨p, hp, q, hq, hpq⟩
      refine ⟨⟨p, hp, q, hq, hpq.le⟩, ?_⟩
      rintro ⟨q', hq', p', hp', hqp⟩
      obtain rfl : p = p' := Option.mem_unique hp hp'
      obtain rfl : q = q' := Option.mem_unique hq hq'
      exact absurd hqp (not_le_of_gt hpq)
    · rintro ⟨⟨p, hp, q, hq, -⟩, hnot⟩
      exact ⟨p, hp, q, hq, not_le.mp fun hqp => hnot ⟨q, hq, p, hp, hqp⟩⟩
  neg_le_neg_iff {a b} := by
    rw [DoubleOrder.le_iff, DoubleOrder.le_iff, DoubleOrder.place?_neg_float,
      DoubleOrder.place?_neg_float]
    simp only [Option.mem_map, exists_exists_and_eq_and, neg_le_neg_iff]
    exact ⟨fun ⟨p, hp, q, hq, hqp⟩ => ⟨q, hq, p, hp, hqp⟩,
      fun ⟨q, hq, p, hp, hqp⟩ => ⟨p, hp, q, hq, hqp⟩⟩
  zero_le_neg_zero := by decide +kernel

end InertialOdometry
