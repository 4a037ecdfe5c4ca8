import InertialOdometry.Journal

/-!
The gate decides, for each cycle anew, whether the aligned sample is used. With the quality check on,
a sample is used only if it lies closer to the scan than the limit.
-/

namespace InertialOdometry

inductive GateReason where
  | disabled
  | noAlignment
  | unchecked
  | accepted
  | stale
deriving DecidableEq

namespace GateReason

def opens : GateReason → Bool
  | unchecked | accepted => true
  | _ => false

def text : GateReason → String
  | disabled => "disabled"
  | noAlignment => "no_alignment"
  | unchecked => "unchecked"
  | accepted => "accepted"
  | stale => "stale"

end GateReason

/-- The settings of the gate; the limit counts by its size, whatever its sign. -/
structure FusionGate (α : Type) where
  useInertial : Bool
  checkQuality : Bool
  maxGap : α

namespace FusionGate

variable {α : Type} [Scalar α]

def needsLimit (useInertial checkQuality : Bool) (gap : Option α) : Bool :=
  useInertial && checkQuality && gap.isSome

def evaluate (g : FusionGate α) (gap : Option α) : GateReason :=
  if !g.useInertial then .disabled
  else
    match gap with
    | none => .noAlignment
    | some x =>
      if !g.checkQuality then .unchecked
      else if Scalar.abs x < Scalar.abs g.maxGap then .accepted
      else .stale

def journal (g : FusionGate α) (gap : Option α) : Journal α :=
  match g.evaluate gap, gap with
  | .stale, some x => [.staleSample x g.maxGap]
  | _, _ => []

/-- The decision of a gate whose limit has not been looked at yet. A limit that is no number does
harm only where the decision needs it. -/
def evaluateUnread (useInertial checkQuality : Bool) (limit : Value α) (gap : Option α) :
    Except Failure (GateReason × Journal α) := do
  let maxGap ←
    if needsLimit useInertial checkQuality gap then
      limit.number?.elim (.error (.noMagnitude (limit.kindName true))) .ok
    else pure Scalar.zero
  let g : FusionGate α := ⟨useInertial, checkQuality, maxGap⟩
  return (g.evaluate gap, g.journal gap)

/-- A gate that looks at a limit which is a number decides as one that was made with it, and so it
does with any limit that the decision does not need. -/
theorem evaluateUnread_eq {useInertial checkQuality : Bool} {limit : Value α} {x : α}
    {gap : Option α}
    (h : needsLimit useInertial checkQuality gap = true → limit.number? = some x) :
    evaluateUnread useInertial checkQuality limit gap =
      .ok (evaluate ⟨useInertial, checkQuality, x⟩ gap,
        journal ⟨useInertial, checkQuality, x⟩ gap) := by
  rw [evaluateUnread]
  cases hneeds : needsLimit useInertial checkQuality gap with
  | true =>
      rw [h hneeds]
      rfl
  | false =>
      cases gap with
      | none => cases useInertial <;> rfl
      | some y =>
          cases useInertial with
          | false => rfl
          | true =>
              cases checkQuality with
              | false => rfl
              | true => cases hneeds

end FusionGate

end InertialOdometry
