import InertialOdometry.Inertial.SampleBuffer

/-!
What a sample buffer holds, told by what was pushed into it. Since it was last cleared it
has received a row of samples. It holds the last of them, as many as it may, and remembers
the first, also once that one had to give up its place.
-/

namespace InertialOdometry

namespace SampleBuffer

variable {α : Type}

/-- The buffer that has received some samples. -/
def holding (capacity : Nat) (received : List (Sample α)) : SampleBuffer α :=
  ⟨⟨capacity, BoundedQueue.lastItems capacity received⟩, received.head?⟩

theorem holding_nil (capacity : Nat) :
    (holding capacity [] : SampleBuffer α) = empty capacity := by
  simp [holding, empty, BoundedQueue.empty, BoundedQueue.lastItems]

theorem push_holding (capacity : Nat) (received : List (Sample α)) (x : Sample α) :
    ((holding capacity received).push x).1 = holding capacity (received ++ [x]) := by
  have hqueue : (holding capacity received).queue.push x =
      (holding capacity (received ++ [x])).queue := by
    simp only [holding, BoundedQueue.push, BoundedQueue.lastItems_append_lastItems]
  cases received with
  | nil =>
      simp only [push, holding, List.head?_nil] at hqueue ⊢
      rw [hqueue]
      rfl
  | cons y ys =>
      simp only [push, holding, List.head?_cons] at hqueue ⊢
      rw [hqueue]
      rfl

theorem clear_holding (capacity : Nat) (received : List (Sample α)) :
    (holding capacity received).clear = holding capacity [] := by
  rw [holding_nil]
  rfl

private theorem samples_holding (capacity : Nat) (received : List (Sample α)) :
    (holding capacity received).samples = BoundedQueue.lastItems capacity received := rfl

private theorem hasReceived_holding (capacity : Nat) (received : List (Sample α)) :
    (holding capacity received).hasReceived = true ↔ 0 < received.length := by
  cases received <;> simp [holding, hasReceived]

inductive Change (α : Type) where
  | push (x : Sample α)
  | clear

def changed (b : SampleBuffer α) : Change α → SampleBuffer α
  | .push x => (b.push x).1
  | .clear => b.clear

def Change.receive (received : List (Sample α)) : Change α → List (Sample α)
  | .push x => received ++ [x]
  | .clear => []

/-- The samples pushed since the last clear, or since the beginning where there was none. -/
def pushedSince (changes : List (Change α)) : List (Sample α) :=
  changes.foldl Change.receive []

theorem pushedSince_pushes (xs : List (Sample α)) : pushedSince (xs.map .push) = xs := by
  have hpushes (received : List (Sample α)) :
      (xs.map .push).foldl Change.receive received = received ++ xs := by
    induction xs generalizing received with
    | nil => simp
    | cons x xs ih => simp [Change.receive, ih]
  exact hpushes []

theorem pushedSince_clear (before after : List (Change α)) :
    pushedSince (before ++ .clear :: after) = pushedSince after := by
  simp [pushedSince, Change.receive]

/-- A change of the buffer by what it holds: the step of the induction over a run. -/
theorem changed_holding (capacity : Nat) (received : List (Sample α)) (change : Change α) :
    (holding capacity received).changed change = holding capacity (change.receive received) := by
  cases change with
  | push x => exact push_holding capacity received x
  | clear => exact clear_holding capacity received

/-- Whatever the changes are, the buffer is told by what was pushed since the last clear. -/
theorem foldl_changed (capacity : Nat) (changes : List (Change α)) :
    changes.foldl changed (empty capacity) = holding capacity (pushedSince changes) := by
  have hrun (received : List (Sample α)) :
      changes.foldl changed (holding capacity received) =
        holding capacity (changes.foldl Change.receive received) := by
    induction changes generalizing received with
    | nil => rfl
    | cons change changes ih => rw [List.foldl_cons, changed_holding, ih, List.foldl_cons]
  rw [← holding_nil]
  exact hrun []

/-- A buffer refines the row of all samples pushed since the last clear. The samples in it
are the last of that row in the order in which they came, as many as there are or as the
buffer may hold. The sample that it remembers is the first of the row, whether or not it is
still in the buffer. It says that it has received a sample if and only if there was one,
and that is if and only if there is one in it. -/
theorem refines_pushed {capacity : Nat} (hcapacity : 0 < capacity)
    (changes : List (Change α)) :
    let b := changes.foldl changed (empty capacity)
    let pushed := pushedSince changes
    b.samples <:+ pushed ∧ b.samples.length = min pushed.length capacity ∧
      b.samples.length ≤ capacity ∧ b.first = pushed.head? ∧
      (b.hasReceived = true ↔ 0 < pushed.length) ∧
      (0 < pushed.length ↔ b.samples ≠ []) := by
  intro b pushed
  have hb : b = holding capacity pushed := foldl_changed capacity changes
  have hlength : b.samples.length = min pushed.length capacity := by
    rw [hb, samples_holding, BoundedQueue.length_lastItems, Nat.min_comm]
  refine ⟨?_, hlength, ?_, ?_, ?_, ?_⟩
  · rw [hb, samples_holding]
    exact List.drop_suffix _ pushed
  · rw [hlength]
    exact Nat.min_le_right _ _
  · rw [hb]
    rfl
  · rw [hb]
    exact hasReceived_holding capacity pushed
  · rw [← List.length_pos_iff, hlength]
    omega

/-- A buffer with room for one sample was cleared and refilled. It holds the second sample
that came since, and remembers the first. -/
theorem refines_pushed_of_refill :
    let sample (time : Nat) : Sample Nat := ⟨⟨⟨1, 0, 0⟩, ⟨0, 1, 0⟩, ⟨0, 0, 1⟩⟩, time⟩
    let changes : List (Change Nat) :=
      [.push (sample 0), .clear, .push (sample 1), .push (sample 2)]
    let b := changes.foldl changed (empty 1)
    0 < 1 ∧ pushedSince changes = [sample 1, sample 2] ∧ b.samples <:+ [sample 1, sample 2] ∧
      b.samples.length = 1 ∧ b.first = some (sample 1) ∧ b.hasReceived = true := by
  intro sample changes b
  have hpushed : pushedSince changes = [sample 1, sample 2] :=
    (pushedSince_clear [.push (sample 0)] _).trans (pushedSince_pushes [sample 1, sample 2])
  obtain ⟨hsuffix, hlength, -, hfirst, hreceived, -⟩ := refines_pushed Nat.one_pos changes
  rw [hpushed] at hsuffix hlength hfirst hreceived
  exact ⟨Nat.one_pos, hpushed, hsuffix, hlength, hfirst, hreceived.mpr (by decide)⟩

end SampleBuffer

end InertialOdometry
