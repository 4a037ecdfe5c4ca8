import Mathlib.Data.List.Induction
import InertialOdometry.Odometry.Pipeline

/-!
Runs of a pipeline: calls in any order, each made in the state that the one before
has left. A scan brings the engine that answers for it along, so that an engine may
change its answers from call to call. What a run shows is collected call by call,
and a longer run extends what a shorter one shows.
-/

namespace InertialOdometry

/-- One call on a pipeline. Asking for the last scan stands for all the questions
that leave a pipeline as it is. -/
inductive Call (α P : Type) where
  | sample (s : Sample α)
  | scan (engine : Engine α P) (scan : Scan α P)
  | lastScan
  | clearBuffer
  | reset

/-- The estimate of an outcome, if there is one: a failed cycle has none, and neither
has a scan that the pipeline warms up with. -/
def CycleOutcome.estimate? {α P : Type} (out : CycleOutcome α P) :
    Option (Estimate α P) :=
  match out.result with
  | .ok estimate => estimate
  | .error _ => none

/-- What a scan shows to the outside: its result, and what the engine was asked. -/
def CycleOutcome.shown {α P : Type} (out : CycleOutcome α P) :
    Except Failure (Option (Estimate α P)) × Option (P × P) :=
  (out.result, out.call)

theorem CycleOutcome.estimate?_eq_some_iff {α P : Type} {out : CycleOutcome α P}
    {e : Estimate α P} :
    out.estimate? = some e ↔ out.result = .ok (some e) := by
  unfold estimate?
  cases out.result <;> simp

namespace Odometry

variable {α P : Type} [Scalar α] [HasSingularValues α]

def after (o : Odometry α P) : Call α P → Odometry α P
  | .sample s => (o.pushSample s).1
  | .scan engine scan => (o.update engine scan).state
  | .lastScan => o
  | .clearBuffer => o.clearBuffer
  | .reset => o.reset.1

def outcome? (o : Odometry α P) : Call α P → Option (CycleOutcome α P)
  | .scan engine scan => some (o.update engine scan)
  | _ => none

def estimate? (o : Odometry α P) (call : Call α P) : Option (Estimate α P) :=
  (o.outcome? call).bind CycleOutcome.estimate?

/-- The pair of scans that a call asks the engine about, if it asks it at all. -/
def asked? (o : Odometry α P) (call : Call α P) : Option (P × P) :=
  (o.outcome? call).bind CycleOutcome.call

def run (o : Odometry α P) (calls : List (Call α P)) : Odometry α P :=
  calls.foldl after o

/-- What `read` finds in the calls of a run, each in the state in which it is made. -/
def collect {β : Type} (read : Odometry α P → Call α P → Option β) (o : Odometry α P) :
    List (Call α P) → List β
  | [] => []
  | call :: rest => (read o call).toList ++ collect read (o.after call) rest

def outcomes (o : Odometry α P) (calls : List (Call α P)) : List (CycleOutcome α P) :=
  collect outcome? o calls

def estimates (o : Odometry α P) (calls : List (Call α P)) : List (Estimate α P) :=
  collect estimate? o calls

def asked (o : Odometry α P) (calls : List (Call α P)) : List (P × P) :=
  collect asked? o calls

/-- A pipeline without a past: a new one, or one that was reset after calls of any
kind. -/
inductive Fresh (s : Settings α) : Odometry α P → Prop where
  | created : Fresh s (create s)
  | reset (calls : List (Call α P)) : Fresh s ((create s).run calls).reset.1

@[simp]
theorem run_nil (o : Odometry α P) : o.run [] = o := rfl

@[simp]
theorem run_cons (o : Odometry α P) (call : Call α P) (rest : List (Call α P)) :
    o.run (call :: rest) = (o.after call).run rest := rfl

theorem run_append (o : Odometry α P) (first second : List (Call α P)) :
    o.run (first ++ second) = (o.run first).run second :=
  List.foldl_append

@[simp]
theorem run_concat (o : Odometry α P) (calls : List (Call α P)) (call : Call α P) :
    o.run (calls ++ [call]) = (o.run calls).after call :=
  run_append o calls [call]

@[simp]
theorem collect_nil {β : Type} (read : Odometry α P → Call α P → Option β)
    (o : Odometry α P) :
    collect read o [] = [] := rfl

theorem collect_append {β : Type} (read : Odometry α P → Call α P → Option β)
    (o : Odometry α P) (first second : List (Call α P)) :
    collect read o (first ++ second) =
      collect read o first ++ collect read (o.run first) second := by
  induction first generalizing o with
  | nil => rfl
  | cons call rest ih =>
      simp only [List.cons_append, collect, run_cons, ih, List.append_assoc]

@[simp]
theorem collect_concat {β : Type} (read : Odometry α P → Call α P → Option β)
    (o : Odometry α P) (calls : List (Call α P)) (call : Call α P) :
    collect read o (calls ++ [call]) =
      collect read o calls ++ (read (o.run calls) call).toList := by
  rw [collect_append]
  simp [collect]

/-- What is collected of a run was found in one of its calls. -/
theorem mem_collect_iff {β : Type} {read : Odometry α P → Call α P → Option β}
    {o : Odometry α P} {calls : List (Call α P)} {b : β} :
    b ∈ collect read o calls ↔ ∃ earlier call later,
      calls = earlier ++ call :: later ∧ read (o.run earlier) call = some b := by
  constructor
  · intro h
    induction calls using List.reverseRecOn with
    | nil => cases h
    | append_singleton calls call ih =>
        rw [collect_concat, List.mem_append, Option.mem_toList] at h
        rcases h with hearlier | hlast
        · obtain ⟨earlier, found, later, rfl, hread⟩ := ih hearlier
          exact ⟨earlier, found, later ++ [call], by simp, hread⟩
        · exact ⟨calls, call, [], rfl, hlast⟩
  · rintro ⟨earlier, call, later, rfl, hread⟩
    simp [collect_append, collect, hread]

theorem outcomes_concat (o : Odometry α P) (calls : List (Call α P)) (call : Call α P) :
    o.outcomes (calls ++ [call]) =
      o.outcomes calls ++ ((o.run calls).outcome? call).toList :=
  collect_concat outcome? o calls call

theorem estimates_concat (o : Odometry α P) (calls : List (Call α P))
    (call : Call α P) :
    o.estimates (calls ++ [call]) =
      o.estimates calls ++ ((o.run calls).estimate? call).toList :=
  collect_concat estimate? o calls call

theorem asked_concat (o : Odometry α P) (calls : List (Call α P)) (call : Call α P) :
    o.asked (calls ++ [call]) = o.asked calls ++ ((o.run calls).asked? call).toList :=
  collect_concat asked? o calls call

end Odometry

/-- Settings of a pipeline that checks the age of its samples, with queues for two. -/
def Settings.checked : Settings Float :=
  { Settings.plain with
    useInertial := true
    checkInertial := true
    capacity := 2
    capacity_pos := by decide }

def Call.upright (t : Float) : Call Float Nat := .sample ⟨.identity, t⟩

def Call.still (t : Float) : Call Float Nat := .scan .still ⟨0, .real t, 0⟩

/-- A scan at a time, for which the engine answers with no homogeneous matrix. -/
def Call.shapeless (t : Float) : Call Float Nat :=
  .scan (fun _ _ => .ok ⟨⟨[3, 3], []⟩, .real 0, .real 0, 0⟩) ⟨0, .real t, 0⟩

end InertialOdometry
