import InertialOdometry.Config.Basic
import InertialOdometry.Geometry.Tensor
import InertialOdometry.Numeral

/-!
Registration: finding the transform that takes the points of a query scan onto those of a reference
scan. The work is done by an engine outside this library. Here is what an engine is asked, a `Request`,
what it answers, and the `Registration` that is made of the answer.
-/

namespace InertialOdometry

/-- What a registration took: how many points were paired, and the time in seconds that passes from the
presentation of the scan to the end of its cycle, which only a clock outside can tell. -/
structure Effort (α : Type) where
  correspondences : Nat
  elapsed : α

/-- A number alone tells of so many pairs, found in no time. -/
instance {α : Type} [Scalar α] (n : Nat) : OfNat (Effort α) n := ⟨⟨n, Scalar.zero⟩⟩

structure Registration (α : Type) where
  transformation : Tensor α
  fitness : Numeral α
  rmse : Numeral α
  effort : Effort α

/-- An engine that registers a query scan against a reference scan. Scans may be of any type `P`. -/
abbrev Engine (α P : Type) := P → P → Except Failure (Registration α)

/-- The settings of an engine. Only the method is looked at here; the engine converts the others. -/
structure EngineSettings (α : Type) where
  method : Method
  epsilon : Value α
  correspondence : Value α
  iterations : Value α

structure Request (α : Type) where
  settings : EngineSettings α
  source : Tensor α
  target : Tensor α

structure Answer (α : Type) where
  transformation : Value α
  fitness : Value α
  rmse : Value α
  correspondences : Nat

variable {α : Type} [Scalar α]

namespace EngineSettings

/-- Settings as they are made known, which takes numbers that can be written out. -/
def announced (s : EngineSettings α) : Except Failure (EngineSettings α) :=
  if s.correspondence.isWritable && s.iterations.isWritable then .ok s else .error .tooLongToWrite

def ofArguments (given : List (Value α × Value α)) : Except Failure (EngineSettings α) := do
  Value.checkNames Section.registration.required ["method"] given
  let get (name : String) : Value α := Value.argument given name .null
  let method := Value.argument given "method" (.text Method.generalized.name)
  match method.textKey?.bind Method.ofName? with
  | none => throw (.unknownMethod (← method.written))
  | some m => announced ⟨m, get "tf_epsilon", get "corr_dist", get "iterations"⟩

def ofSection (given : List (Value α × Value α)) : Except Failure (EngineSettings α) := do
  let fields ← Section.registration.build given
  ofArguments (fields.map fun (name, value) => (.text name, value))

def ofConfig (c : RegistrationConfig α) : Except Failure (EngineSettings α) :=
  ofArguments [(.text "tf_epsilon", .number c.epsilon), (.text "corr_dist", .number c.correspondence),
    (.text "iterations", .int c.iterations), (.text "method", .text c.method.name)]

def journal (s : EngineSettings α) : Journal α :=
  [.engineCreated s.method.name s.correspondence.plain s.iterations.plain]

end EngineSettings

def EngineSettings.request (s : EngineSettings α) (query reference : Value α) :
    Except Failure (Request α) := do
  let source ← Tensor.pointsOfValue query
  let target ← Tensor.pointsOfValue reference
  return ⟨s, source, target⟩

/-- The registration that an answer stands for, by a clock that stands still unless it is given. -/
def Answer.toRegistration (a : Answer α) (elapsed : α := Scalar.zero) :
    Except Failure (Registration α) := do
  let transformation ← Tensor.ofValue a.transformation
  let fitness ← a.fitness.toScalar
  let rmse ← a.rmse.toScalar
  return ⟨transformation, .real fitness, .real rmse, ⟨a.correspondences, elapsed⟩⟩

/-- The engine that takes scans for unmoved against each other, and no time. -/
def Engine.still {P : Type} : Engine α P := fun _ _ =>
  .ok ⟨⟨[4, 4], RigidTransform.identity.toMat4.toRows.flatten⟩, .real Scalar.zero, .real Scalar.zero, 0⟩

def Registration.journal (r : Registration α) : Journal α :=
  [.registered r.fitness.value r.rmse.value r.effort.correspondences]

end InertialOdometry
