import InertialOdometry.Proofs.Odometry.Deltas

/-!
The lag of the deltas. A cycle that does not come to take a delta leaves its own
behind, and cycles after it use deltas of earlier scans. At every moment the queue
holds the last of all deltas that were queued, and how far back a cycle reaches
follows from the length of the queue before it.
-/

namespace InertialOdometry

private theorem BoundedQueue.eq_lastItems_of_suffix {β : Type} {q : BoundedQueue β}
    {xs : List β} (h : q.items <:+ xs) : q.items = lastItems q.size xs :=
  List.suffix_iff_eq_drop.mp h

/-- The head of a suffix stands as far from the end as the suffix is long. -/
theorem BoundedQueue.getElem?_of_suffix {β : Type} {x : β} {rest xs : List β}
    (h : x :: rest <:+ xs) : xs[xs.length - (rest.length + 1)]? = some x := by
  obtain ⟨front, rfl⟩ := h
  simp

namespace Odometry

variable {α P : Type} [Scalar α] [HasSingularValues α]

/-- A queue holds the last of the deltas that were queued, and not more than it may. -/
structure HoldsLast (capacity : Nat) (queued : List (Tensor α))
    (queue : BoundedQueue (Tensor α)) :
    Prop where
  capacity_eq : queue.capacity = capacity
  size_le : queue.size ≤ capacity
  suffix : queue.items <:+ queued

omit [Scalar α] [HasSingularValues α] in
private theorem HoldsLast.size_le_length {capacity : Nat} {queued : List (Tensor α)}
    {queue : BoundedQueue (Tensor α)} (h : HoldsLast capacity queued queue) :
    queue.size ≤ queued.length := h.suffix.length_le

omit [Scalar α] [HasSingularValues α] in
/-- A queue that holds the last deltas still does when one more is queued. -/
theorem HoldsLast.push {capacity : Nat} {queued : List (Tensor α)}
    {queue : BoundedQueue (Tensor α)} (h : HoldsLast capacity queued queue)
    (d : Tensor α) :
    HoldsLast capacity (queued ++ [d]) (queue.push d) := by
  refine ⟨h.capacity_eq, ?_, ?_⟩
  · rw [BoundedQueue.size_push, h.capacity_eq]
    omega
  · rw [BoundedQueue.items_push]
    exact (List.drop_suffix _ _).trans (List.suffix_append_self_iff.mpr h.suffix)

omit [Scalar α] [HasSingularValues α] in
/-- Taking the oldest delta leaves one less, and the one taken stood right before
those left. -/
theorem HoldsLast.pop {capacity : Nat} {queued : List (Tensor α)}
    {queue left : BoundedQueue (Tensor α)} {x : Tensor α}
    (h : HoldsLast capacity queued queue) (hpop : queue.pop? = some (x, left)) :
    HoldsLast capacity queued left ∧ queue.size = left.size + 1 ∧
      queued[queued.length - queue.size]? = some x := by
  obtain ⟨hitems, hcapacity⟩ := BoundedQueue.pop?_eq_some hpop
  have hsize : queue.size = left.size + 1 := by
    rw [BoundedQueue.size, hitems, List.length_cons, BoundedQueue.size]
  have hsuffix := h.suffix
  rw [hitems] at hsuffix
  refine ⟨⟨hcapacity.trans h.capacity_eq, ?_, ?_⟩, hsize, ?_⟩
  · have hle := h.size_le
    omega
  · exact (List.suffix_cons x left.items).trans hsuffix
  · rw [hsize]
    exact BoundedQueue.getElem?_of_suffix hsuffix

/-- The length of the queue after a call, by what the call does. -/
theorem DeltaTurn.holdsLast {o : Odometry α P} {call : Call α P}
    {queued : List (Tensor α)} {next : BoundedQueue (Tensor α)} {capacity : Nat}
    (hturn : DeltaTurn o call next) (hpositive : 0 < capacity)
    (h : HoldsLast capacity queued o.aligner.deltas) :
    HoldsLast capacity (queued ++ (o.pushed? call).toList) next ∧
      (o.pushed? call = none → next.size = o.aligner.deltas.size) ∧
      ∀ d, o.pushed? call = some d →
        (o.ReachesPop call → next.size = min o.aligner.deltas.size (capacity - 1) ∧
          ∃ x, (o.aligner.deltas.push d).pop? = some (x, next) ∧
            (queued ++ [d])[queued.length -
              min o.aligner.deltas.size (capacity - 1)]? = some x ∧
            ∀ e, o.estimate? call = some e → IsTiltOf x e.rpyInertial) ∧
        (¬o.ReachesPop call → next.size = min (o.aligner.deltas.size + 1) capacity) := by
  cases hturn with
  | untouched hpush hpop =>
      rw [hpush]
      exact ⟨by simpa using h, fun _ => rfl, by simp⟩
  | @queued d hpush hpop =>
      rw [hpush]
      refine ⟨h.push d, by simp, ?_⟩
      rintro d' hd
      cases hd
      refine ⟨fun hreach => absurd hreach hpop, fun _ => ?_⟩
      rw [BoundedQueue.size_push, h.capacity_eq, Nat.min_comm]
  | @taken d x left hpush hpop htaken htilt =>
      obtain ⟨hleft, hsize, hx⟩ := (h.push d).pop htaken
      have hlength := h.size_le_length
      have hpushed : (o.aligner.deltas.push d).size =
          min capacity (o.aligner.deltas.size + 1) := by
        rw [BoundedQueue.size_push, h.capacity_eq]
      -- A full queue has given up its oldest for the new one before one is taken.
      have hnext : next.size = min o.aligner.deltas.size (capacity - 1) := by omega
      have hplace : (queued ++ [d]).length - (o.aligner.deltas.push d).size =
          queued.length - min o.aligner.deltas.size (capacity - 1) := by
        rw [List.length_append, List.length_singleton, hpushed]
        omega
      rw [hpush]
      refine ⟨hleft, by simp, ?_⟩
      rintro d' hd
      cases hd
      refine ⟨fun _ => ⟨hnext, x, htaken, ?_, htilt⟩, fun hreach => absurd hpop hreach⟩
      rw [← hplace]
      exact hx

/-- What any call but a reset does to the deltas of a run. -/
theorem deltaTurn_run (s : Settings α) (calls : List (Call α P)) {call : Call α P}
    (hcall : call ≠ .reset) :
    DeltaTurn ((create s).run calls) call
      (((create s).run calls).after call).aligner.deltas := by
  refine deltaTurn_after hcall ?_
  rw [(configured_run s calls).deltas]
  exact s.capacity_pos

/-- The queue holds the last deltas throughout a run. -/
theorem holdsLast_run (s : Settings α) (calls : List (Call α P))
    (hreset : .reset ∉ calls) :
    HoldsLast s.capacity ((create s).pushed calls)
      ((create s).run calls).aligner.deltas := by
  induction calls using List.reverseRecOn with
  | nil => exact ⟨rfl, Nat.zero_le _, List.suffix_rfl⟩
  | append_singleton calls call ih =>
      rw [List.mem_append, not_or, List.mem_singleton] at hreset
      have hturn := deltaTurn_run s calls (Ne.symm hreset.2)
      rw [pushed_concat, run_concat]
      exact (hturn.holdsLast s.capacity_pos (ih hreset.1)).1

def queuedCount (o : Odometry α P) (calls : List (Call α P)) : Nat :=
  (o.pushed calls).length

def waiting (o : Odometry α P) (calls : List (Call α P)) : Nat :=
  (o.run calls).aligner.deltas.size

/-- The number of the delta, counted from one, that a cycle after some calls takes
if it comes to take one. Its own has the number after all queued before; it reaches
back from there by the length of the queue, less one where a full queue gives up its
oldest delta for the new one. -/
def lagIndex (s : Settings α) (o : Odometry α P) (calls : List (Call α P)) : Nat :=
  o.queuedCount calls + 1 - min (o.waiting calls) (s.capacity - 1)

private theorem pushed?_of_reachesPop {o : Odometry α P} {call : Call α P}
    (h : o.ReachesPop call) :
    ∃ d, o.pushed? call = some d := by
  cases call with
  | scan engine scan =>
      obtain ⟨hrunning, ⟨alignment, aligned, journal, hscan, -⟩, -⟩ := h
      exact ⟨.ofMat3 alignment.delta, by simp [pushed?, hrunning, hscan]⟩
  | sample x => cases h
  | lastScan => cases h
  | clearBuffer => cases h
  | reset => cases h

private theorem waiting_le_queuedCount (s : Settings α) (calls : List (Call α P))
    (hreset : .reset ∉ calls) :
    (create s).waiting calls ≤ (create s).queuedCount calls :=
  (holdsLast_run s calls hreset).size_le_length

/-- How a call moves the count of queued deltas and the length of the queue. -/
theorem counts_concat (s : Settings α) (calls : List (Call α P)) (call : Call α P)
    (hreset : .reset ∉ calls ++ [call]) :
    (((create s).run calls).pushed? call = none ∧
        (create s).queuedCount (calls ++ [call]) = (create s).queuedCount calls ∧
        (create s).waiting (calls ++ [call]) = (create s).waiting calls) ∨
      (((create s).run calls).ReachesPop call ∧
        (create s).queuedCount (calls ++ [call]) = (create s).queuedCount calls + 1 ∧
        (create s).waiting (calls ++ [call]) =
          min ((create s).waiting calls) (s.capacity - 1)) ∨
      ((((create s).run calls).pushed? call).isSome ∧
        ¬((create s).run calls).ReachesPop call ∧
        (create s).queuedCount (calls ++ [call]) = (create s).queuedCount calls + 1 ∧
        (create s).waiting (calls ++ [call]) =
          min ((create s).waiting calls + 1) s.capacity) := by
  rw [List.mem_append, not_or, List.mem_singleton] at hreset
  have hturn := deltaTurn_run s calls (Ne.symm hreset.2)
  have hlast := holdsLast_run s calls hreset.1
  obtain ⟨-, hnone, hsome⟩ := hturn.holdsLast s.capacity_pos hlast
  simp only [queuedCount, waiting, pushed_concat, run_concat, List.length_append]
  cases hpush : ((create s).run calls).pushed? call with
  | none => exact Or.inl ⟨rfl, rfl, hnone hpush⟩
  | some d =>
      obtain ⟨hreach, hnot⟩ := hsome d hpush
      by_cases hpop : ((create s).run calls).ReachesPop call
      · exact Or.inr (Or.inl ⟨hpop, rfl, (hreach hpop).1⟩)
      · exact Or.inr (Or.inr ⟨rfl, hpop, rfl, hnot hpop⟩)

/-- The deltas that have left the queue, taken or given up, never come back. -/
theorem released_le (s : Settings α) (earlier later : List (Call α P))
    (hreset : .reset ∉ earlier ++ later) :
    (create s).queuedCount earlier - (create s).waiting earlier ≤
      (create s).queuedCount (earlier ++ later) -
        (create s).waiting (earlier ++ later) := by
  induction later using List.reverseRecOn with
  | nil => simp
  | append_singleton later call ih =>
      rw [← List.append_assoc] at hreset ⊢
      have hbefore : .reset ∉ earlier ++ later :=
        fun h => hreset (List.mem_append_left _ h)
      have hle := ih hbefore
      have hlength := waiting_le_queuedCount s (earlier ++ later) hbefore
      rcases counts_concat s (earlier ++ later) call hreset with
        ⟨-, hn, hl⟩ | ⟨-, hn, hl⟩ | ⟨-, -, hn, hl⟩ <;> omega

/-- Of two cycles that come to take a delta, the later one takes a later delta. -/
theorem lagIndex_lt (s : Settings α) (earlier later : List (Call α P)) (call : Call α P)
    (hreset : .reset ∉ earlier ++ call :: later)
    (hpop : ((create s).run earlier).ReachesPop call) :
    lagIndex s (create s) earlier < lagIndex s (create s) (earlier ++ call :: later) := by
  have hsplit : earlier ++ call :: later = earlier ++ [call] ++ later := by simp
  rw [hsplit] at hreset ⊢
  have hcall : .reset ∉ earlier ++ [call] := fun h => hreset (List.mem_append_left _ h)
  have hreleased := released_le s (earlier ++ [call]) later hreset
  have hlength := waiting_le_queuedCount s _ hreset
  have hstart := waiting_le_queuedCount s earlier
    (fun h => hcall (List.mem_append_left _ h))
  obtain ⟨d, hd⟩ := pushed?_of_reachesPop hpop
  unfold lagIndex
  rcases counts_concat s earlier call hcall with ⟨hnone, -⟩ | ⟨-, hn, hl⟩ | ⟨-, hnot, -⟩
  · rw [hd] at hnone
    cases hnone
  · omega
  · exact absurd hpop hnot

/-- While every aligned scan comes to take a delta, none is left over. -/
theorem waiting_eq_zero (s : Settings α) (calls : List (Call α P))
    (hreset : .reset ∉ calls)
    (hall : ∀ earlier call later, calls = earlier ++ call :: later →
      (((create s).run earlier).pushed? call).isSome →
      ((create s).run earlier).ReachesPop call) :
    (create s).waiting calls = 0 := by
  induction calls using List.reverseRecOn with
  | nil => rfl
  | append_singleton calls call ih =>
      have hzero := ih (fun h => hreset (List.mem_append_left _ h)) (by
        intro earlier before later hcalls
        exact hall earlier before (later ++ [call]) (by simp [hcalls]))
      rcases counts_concat s calls call hreset with
        ⟨-, -, hl⟩ | ⟨-, -, hl⟩ | ⟨hsome, hnot, -⟩
      · omega
      · omega
      · exact absurd (hall calls call [] rfl hsome) hnot

/-- A delta that was left over once leaves one over for good, if the queue may hold
two. -/
theorem one_le_waiting (s : Settings α) (hcapacity : 2 ≤ s.capacity)
    (earlier later : List (Call α P)) (hreset : .reset ∉ earlier ++ later)
    (hone : 1 ≤ (create s).waiting earlier) :
    1 ≤ (create s).waiting (earlier ++ later) := by
  induction later using List.reverseRecOn with
  | nil => simpa using hone
  | append_singleton later call ih =>
      rw [← List.append_assoc] at hreset ⊢
      have hle := ih (fun h => hreset (List.mem_append_left _ h))
      rcases counts_concat s (earlier ++ later) call hreset with
        ⟨-, -, hl⟩ | ⟨-, -, hl⟩ | ⟨-, -, -, hl⟩ <;> omega

/-- A cycle that comes to take a delta takes the one that `lagIndex` names, and one
that queues a delta without taking any leaves the queue longer, as far as there is
room. -/
theorem lag_of_pushed (s : Settings α) (calls : List (Call α P))
    (hreset : .reset ∉ calls) {call : Call α P} {d : Tensor α}
    (hpush : ((create s).run calls).pushed? call = some d) :
    let queue := ((create s).run calls).aligner.deltas
    let next := ((create s).run (calls ++ [call])).aligner.deltas
    (((create s).run calls).ReachesPop call →
        next.size = min queue.size (s.capacity - 1) ∧
        ∃ x, ((create s).pushed (calls ++ [call]))[lagIndex s (create s) calls - 1]? =
            some x ∧
          (queue.push d).pop? = some (x, next) ∧
          ∀ e, ((create s).run calls).estimate? call = some e →
            IsTiltOf x e.rpyInertial) ∧
      (¬((create s).run calls).ReachesPop call →
        next.size = min (queue.size + 1) s.capacity) := by
  intro queue next
  have hcall : call ≠ .reset := by
    rintro rfl
    cases hpush
  have hlast := holdsLast_run s calls hreset
  obtain ⟨-, -, hsome⟩ :=
    (deltaTurn_run s calls hcall).holdsLast s.capacity_pos hlast
  obtain ⟨hreach, hnot⟩ := hsome d hpush
  have hnext : next = (((create s).run calls).after call).aligner.deltas := by
    simp only [next, run_concat]
  rw [hnext]
  refine ⟨fun hpop => ?_, hnot⟩
  obtain ⟨hsize, x, hpopped, hplace, htilt⟩ := hreach hpop
  have hindex : lagIndex s (create s) calls - 1 =
      (create s).queuedCount calls -
        min ((create s).waiting calls) (s.capacity - 1) := by
    unfold lagIndex
    omega
  refine ⟨hsize, x, ?_, hpopped, htilt⟩
  rw [hindex, pushed_concat, hpush]
  exact hplace

/-- The law of the lag, for a run since the creation or the last reset of a
pipeline. At every moment the queue holds the last of the deltas that were queued. A
cycle that comes to take a delta takes the one that `lagIndex` names and shows its
tilt; a cycle that queues one and fails to take any leaves one more behind, as far
as there is room. So deltas are taken in order and none twice, a cycle takes its own
if no aligned cycle before it failed to, and a queue for two that lags once lags for
good. -/
theorem delta_lag (s : Settings α) (o : Odometry α P) (hfresh : Fresh s o)
    (calls : List (Call α P)) (hreset : .reset ∉ calls) :
    let queue := (o.run calls).aligner.deltas
    (queue.size ≤ s.capacity ∧
        queue.items = BoundedQueue.lastItems queue.size (o.pushed calls)) ∧
      (∀ call d, (o.run calls).pushed? call = some d →
        let next := (o.run (calls ++ [call])).aligner.deltas
        ((o.run calls).ReachesPop call →
          next.size = min queue.size (s.capacity - 1) ∧
          ∃ x, (o.pushed (calls ++ [call]))[lagIndex s o calls - 1]? = some x ∧
            (queue.push d).pop? = some (x, next) ∧
            ∀ e, (o.run calls).estimate? call = some e → IsTiltOf x e.rpyInertial) ∧
        (¬(o.run calls).ReachesPop call → next.size = min (queue.size + 1) s.capacity)) ∧
      (∀ earlier call later, calls = earlier ++ call :: later →
        (o.run earlier).ReachesPop call → lagIndex s o earlier < lagIndex s o calls) ∧
      ((∀ earlier call later, calls = earlier ++ call :: later →
          ((o.run earlier).pushed? call).isSome → (o.run earlier).ReachesPop call) →
        lagIndex s o calls = (o.pushed calls).length + 1) ∧
      (2 ≤ s.capacity → ∀ earlier later, calls = earlier ++ later →
        1 ≤ (o.run earlier).aligner.deltas.size → 1 ≤ queue.size) := by
  obtain rfl := hfresh.eq_create
  intro queue
  have hlast := holdsLast_run s calls hreset
  have hitems := BoundedQueue.eq_lastItems_of_suffix hlast.suffix
  refine ⟨⟨hlast.size_le, hitems⟩, ?_, ?_, ?_, ?_⟩
  · intro call d hpush
    exact lag_of_pushed s calls hreset hpush
  · rintro earlier call later rfl hpop
    exact lagIndex_lt s earlier later call hreset hpop
  · intro hall
    have hzero := waiting_eq_zero s calls hreset hall
    unfold lagIndex
    rw [hzero]
    rfl
  · rintro hcapacity earlier later rfl hone
    exact one_le_waiting s hcapacity earlier later hreset hone

/-- A stale scan leaves its delta behind, and the fused scan after it takes that
one, not its own. -/
theorem delta_lag_after_stale_scan :
    let o : Odometry Float Nat := create .checked
    let calls : List (Call Float Nat) := [.upright 0, .still 0, .still 1, .upright 2]
    Fresh .checked o ∧ .reset ∉ calls ∧ (o.run calls).ReachesPop (.still 2) ∧
      (o.pushed calls).length = 1 ∧ lagIndex .checked o calls = 1 ∧
      (o.run (calls ++ [.still 2])).aligner.deltas.size = 1 ∧
      ∃ x, (o.pushed (calls ++ [.still 2]))[0]? = some x ∧
        ∀ e, (o.run calls).estimate? (.still 2) = some e → IsTiltOf x e.rpyInertial := by
  intro o calls
  have hfresh : Fresh .checked o := .created
  have hreset : .reset ∉ calls := by simp [calls, Call.upright, Call.still]
  have hpop : (o.run calls).ReachesPop (.still 2) := by decide +kernel
  have hindex : lagIndex .checked o calls = 1 := by decide +kernel
  have hwaiting : (o.run calls).aligner.deltas.size = 1 := by decide +kernel
  obtain ⟨d, hd⟩ := pushed?_of_reachesPop hpop
  obtain ⟨hsize, x, hplace, -, htilt⟩ :=
    ((delta_lag .checked o hfresh calls hreset).2.1 (.still 2) d hd).1 hpop
  rw [hwaiting] at hsize
  rw [hindex] at hplace
  exact ⟨hfresh, hreset, hpop, by decide +kernel, hindex, hsize, x, hplace, htilt⟩

end Odometry

end InertialOdometry
