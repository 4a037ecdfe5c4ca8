import InertialOdometry.Journal

/-!
The guard keeps increments out of the trajectory that are too large to be true. Both the translation
and the angles have to keep within their limits; without thresholding every increment passes.
-/

namespace InertialOdometry

structure MotionGuard (α : Type) where
  enabled : Bool
  maxTranslation : α
  maxRotation : α

/-- The verdict on an increment, with the two sizes that were measured. -/
structure Verdict (α : Type) where
  accepted : Bool
  translationNorm : α
  rotationNorm : α

namespace MotionGuard

variable {α : Type} [Scalar α]

def admits (g : MotionGuard α) (translationNorm rotationNorm : α) : Bool :=
  !g.enabled ||
    (decide (translationNorm ≤ g.maxTranslation) && decide (rotationNorm ≤ g.maxRotation))

def check [HasSingularValues α] (g : MotionGuard α) (increment : RigidTransform α) :
    Except Failure (Verdict α) := do
  let t := increment.translationNorm
  let r ← increment.rotationNorm
  return ⟨g.admits t r, t, r⟩

/-- An increment is judged if it has angles, and by their size and that of its translation. -/
theorem check_eq_ok_iff [HasSingularValues α] {g : MotionGuard α} {increment : RigidTransform α}
    {v : Verdict α} : g.check increment = .ok v ↔ ∃ angles, increment.rpy = .ok angles ∧
      v = ⟨g.admits increment.translationNorm angles.norm, increment.translationNorm,
        angles.norm⟩ := by
  rw [check, RigidTransform.rotationNorm]
  cases increment.rpy with
  | error f => exact ⟨nofun, fun ⟨_, h, _⟩ => nomatch h⟩
  | ok angles =>
      constructor
      · rintro ⟨⟩
        exact ⟨angles, rfl, rfl⟩
      · rintro ⟨_, ⟨⟩, rfl⟩
        rfl

def keepsWithin (size : α) (limit : Value α) : Except Failure Bool :=
  match limit.number? with
  | some x => .ok (decide (size ≤ x))
  | none => .error (.noLimit (limit.kindName true))

private theorem keepsWithin_of_number? {size x : α} {limit : Value α} (h : limit.number? = some x) :
    keepsWithin size limit = .ok (decide (size ≤ x)) := by
  rw [keepsWithin, h]

/-- The verdict of a guard whose limits have not been looked at yet. A limit that is no number does harm
only where the verdict needs it. -/
def checkUnread [HasSingularValues α] (enabled : Bool) (maxTranslation maxRotation : Value α)
    (increment : RigidTransform α) : Except Failure (Verdict α) := do
  let t := increment.translationNorm
  let r ← increment.rotationNorm
  if !enabled then return ⟨true, t, r⟩
  else if ← keepsWithin t maxTranslation then return ⟨← keepsWithin r maxRotation, t, r⟩
  else return ⟨false, t, r⟩

/-- A guard that looks at limits which are numbers judges as one that was made with them. It does
not look at them without thresholding. -/
theorem checkUnread_eq_check [HasSingularValues α] {enabled : Bool}
    {maxTranslation maxRotation : Value α} {x y : α} {increment : RigidTransform α}
    (htranslation : enabled = true → maxTranslation.number? = some x)
    (hrotation : enabled = true → maxRotation.number? = some y) :
    checkUnread enabled maxTranslation maxRotation increment =
      check ⟨enabled, x, y⟩ increment := by
  rw [checkUnread, check]
  cases increment.rotationNorm with
  | error f => rfl
  | ok r =>
      cases enabled with
      | false => rfl
      | true =>
          simp only [keepsWithin_of_number? (htranslation rfl), keepsWithin_of_number? (hrotation rfl)]
          cases h : decide (increment.translationNorm ≤ x) <;> simp [admits, h] <;> rfl

end MotionGuard

def Verdict.journal {α : Type} (v : Verdict α) : Journal α :=
  if v.accepted then [] else [.incrementDiscarded v.translationNorm v.rotationNorm]

end InertialOdometry
