import InertialOdometry.Odometry.Pipeline

/-!
The summary of a run: how many cycles there were and of which kind, the length of the path, and where it
ended.
-/

namespace InertialOdometry

/-- Where a run ended, and how long its cycles took on average. -/
structure RunEnd (α : Type) where
  position : Vec3 α
  averageTime : α

/-- A summary. A run without results has no end. -/
structure Summary (α : Type) where
  cycles : Nat
  accepted : Nat
  rejected : Nat
  fused : Nat
  pathLength : α
  finish : Option (RunEnd α)

namespace Summary

variable {α P : Type} [Scalar α]

/-- The sum of scalars that are added one by one from the first to the last, with a rounding after
each. -/
def total (xs : List α) : α := xs.foldl (· + ·) Scalar.zero

/-- The sum of a block of scalars. From eight scalars on, eight sums are taken side by side, each of
every eighth scalar; they are added in pairs, and what is left over behind them. -/
def blockTotal (xs : List α) : α :=
  let whole := xs.length - xs.length % 8
  let lane (j : Nat) : α :=
    total ((List.range (whole / 8)).map fun i => xs.getD (8 * i + j) Scalar.zero)
  if xs.length < 8 then total xs
  else (xs.drop whole).foldl (· + ·)
    (((lane 0 + lane 1) + (lane 2 + lane 3)) + ((lane 4 + lane 5) + (lane 6 + lane 7)))

/-- The sum of scalars in blocks of no more than 128, which are added in pairs. -/
def pairwiseTotal (xs : List α) : α :=
  if xs.length ≤ 128 then blockTotal xs
  else
    let half := xs.length / 2 - xs.length / 2 % 8
    pairwiseTotal (xs.take half) + pairwiseTotal (xs.drop half)
termination_by xs.length
decreasing_by all_goals simp only [List.length_take, List.length_drop]; omega

/-- The summary of the results of a run. The path is made of the increments that were accepted. -/
def ofEstimates (estimates : List (Estimate α P)) : Summary α :=
  let accepted := estimates.filter (·.accepted)
  { cycles := estimates.length
    accepted := accepted.length
    rejected := estimates.length - accepted.length
    fused := (estimates.filter (·.fusionActive)).length
    pathLength := total (accepted.map fun e => e.incremental.translationNorm)
    finish := estimates.getLast?.map fun last =>
      ⟨last.integrated.translation,
        pairwiseTotal (estimates.map fun e => e.processingTime.value) /
          Scalar.nat estimates.length⟩ }

omit [Scalar α] in
def toValue (s : Summary α) : Value α :=
  let finish : List (String × Value α) :=
    match s.finish with
    | none => []
    | some f => [("final_position", .list (f.position.toList.map .number)),
        ("avg_processing_time_ms", .number f.averageTime)]
  .ofFields ([("cycles", .int s.cycles), ("accepted", .int s.accepted), ("rejected", .int s.rejected),
    ("fused", .int s.fused), ("path_length", .number s.pathLength)] ++ finish)

end Summary

end InertialOdometry
