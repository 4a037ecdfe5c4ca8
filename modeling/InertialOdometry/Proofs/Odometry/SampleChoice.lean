import InertialOdometry.Proofs.Inertial.NearestGap
import InertialOdometry.Proofs.Odometry.Course

/-!
The sample that a scan is aligned by. As long as there are samples, an aligner that has an
attitude to come from aligns every scan, by one of the samples; without samples it
refuses, and a pipeline that it is part of keeps its aligner as it was.
-/

namespace InertialOdometry

variable {α P : Type} [Scalar α]

/-- What the search among some samples comes to for a scan at time `t`. -/
structure Choice (samples : List (Sample α)) (t : α) (x : Sample α) : Prop where
  found : nearest? Sample.time t samples = some x
  mem : x ∈ samples
  /-- The first of the samples with the largest gap that is zero or less. -/
  latest : (∃ y ∈ samples, y.time - t ≤ Scalar.zero) →
    samples.find? (fun y => decide (LatestPast Sample.time t samples y)) = some x
  /-- The first of the samples with the smallest gap. -/
  soonest : (∀ y ∈ samples, ¬y.time - t ≤ Scalar.zero ∧ Scalar.isNaN (y.time - t) = false) →
    samples.find? (fun y => decide (Soonest Sample.time t samples y)) = some x

private theorem exists_choice [SignedScalar α] {samples : List (Sample α)} (t : α)
    (hsome : samples ≠ []) : ∃ x, Choice samples t x := by
  obtain ⟨x, hx⟩ := Option.ne_none_iff_exists'.mp (nearest?_ne_none Sample.time t hsome)
  refine ⟨x, hx, mem_of_nearest? hx, ?_, ?_⟩
  · intro hpast
    rw [← nearest?_eq_find?_latestPast hpast, hx]
  · intro hfuture
    rw [← nearest?_eq_find?_soonest (fun y hy => (hfuture y hy).1) (fun y hy => (hfuture y hy).2),
      hx]

/-- The sample chosen is not after the scan just where one of them is not. -/
theorem Choice.past_iff {samples : List (Sample α)} {t : α} {x : Sample α}
    (h : Choice samples t x) :
    x.time - t ≤ Scalar.zero ↔ ∃ y ∈ samples, y.time - t ≤ Scalar.zero := by
  refine ⟨fun hle => ⟨x, h.mem, hle⟩, fun hpast => ?_⟩
  have hbest := List.find?_some (h.latest hpast)
  exact (of_decide_eq_true hbest).1

namespace Aligner

theorem align_of_choice {a : Aligner α} {previous : Mat3 α} {samples : List (Sample α)} {t : α}
    {x : Sample α} (hprevious : a.previous = some previous) (h : Choice samples t x) :
    ∃ journal, a.align samples t =
      .ok (Odometry.alignmentOf x previous t, Odometry.alignedBy a x previous, journal) := by
  simp only [align, hprevious, h.found]
  exact ⟨_, rfl⟩

private theorem align_nil {a : Aligner α} {previous : Mat3 α}
    (hprevious : a.previous = some previous)
    (t : α) : a.align [] t = .error .emptySnapshot := by
  simp only [align, hprevious]
  rfl

end Aligner

namespace Odometry

variable [HasSingularValues α]

private theorem update_of_no_samples (engine : Engine α P) {o : Odometry α P} (scan : Scan α P)
    (hrunning : o.initialized = true) (huse : o.settings.useInertial = true)
    (haligner : o.aligner.isInitialized = true) (hempty : o.buffer.samples = []) :
    o.update engine scan = ⟨o.stamped scan, [], none, .error .emptySnapshot⟩ := by
  obtain ⟨previous, hprevious⟩ := Option.isSome_iff_exists.mp haligner
  rw [update_of_initialized engine scan hrunning]
  simp [cycle, alignScan, stamped, huse, hempty, Aligner.align_nil hprevious]

/-- The choice of samples. Whatever the samples, in whatever order: an aligner with an
attitude to come from aligns a scan by one of them, the latest that is not after it or, where
there is none and all gaps are numbers, the soonest, and of equally near ones the first.
Without samples it fails, and a running pipeline keeps the aligner and its deltas. -/
theorem align_chooses [SignedScalar α] (a : Aligner α) (ha : a.isInitialized = true)
    (samples : List (Sample α)) (t : α) :
    (samples ≠ [] → ∃ x, Choice samples t x ∧ ∃ alignment next journal,
      a.align samples t = .ok (alignment, next, journal) ∧ alignment.sample = x ∧
        alignment.gap = x.time - t ∧
        (alignment.fromPast = true ↔ ∃ y ∈ samples, y.time - t ≤ Scalar.zero)) ∧
    (samples = [] → nearest? Sample.time t samples = none ∧
      a.align samples t = .error .emptySnapshot ∧
      Failure.emptySnapshot.category = .value ∧
      ∀ (engine : Engine α P) (o : Odometry α P) (scan : Scan α P), o.initialized = true →
        o.settings.useInertial = true → o.buffer.samples = samples → o.aligner = a →
        (o.update engine scan).result = .error .emptySnapshot ∧
          (o.update engine scan).state.aligner = a) := by
  obtain ⟨previous, hprevious⟩ := Option.isSome_iff_exists.mp ha
  refine ⟨fun hsome => ?_, ?_⟩
  · obtain ⟨x, hx⟩ := exists_choice t hsome
    obtain ⟨journal, halign⟩ := Aligner.align_of_choice hprevious hx
    exact ⟨x, hx, _, _, journal, halign, rfl, rfl, decide_eq_true_iff.trans hx.past_iff⟩
  · rintro rfl
    refine ⟨rfl, Aligner.align_nil hprevious t, rfl, ?_⟩
    rintro engine o scan hrunning huse hempty rfl
    rw [update_of_no_samples engine scan hrunning huse ha hempty]
    exact ⟨rfl, rfl⟩

/-- For a scan at 2.5, once among samples out of order, one of them at no time: the first of
the two at 2 is chosen. Then among samples that are all after it: the first of the two at 3.
And last by a pipeline whose buffer was emptied, which refuses. -/
theorem align_chooses_of_shuffle :
    let flipped : Mat3 Float := ⟨⟨-1, 0, 0⟩, ⟨0, -1, 0⟩, ⟨0, 0, 1⟩⟩
    let shuffled : List (Sample Float) := [⟨.identity, 3⟩, ⟨.identity, Scalar.notANumber⟩,
      ⟨.identity, 1⟩, ⟨flipped, 2⟩, ⟨.identity, 2⟩, ⟨.identity, 1.5⟩]
    let ahead : List (Sample Float) := [⟨.identity, 4⟩, ⟨flipped, 3⟩, ⟨.identity, 3⟩]
    let o : Odometry Float Nat := (create .checked).run [.upright 0, .still 0, .clearBuffer]
    let scan : Scan Float Nat := ⟨0, .real 2.5, 0⟩
    o.aligner.isInitialized = true ∧
      (∃ y ∈ shuffled, y.time - 2.5 ≤ Scalar.zero) ∧
      (∃ alignment next journal,
        o.aligner.align shuffled 2.5 = .ok (alignment, next, journal) ∧
          alignment.sample = ⟨flipped, 2⟩ ∧ alignment.fromPast = true) ∧
      (∀ y ∈ ahead, ¬y.time - 2.5 ≤ Scalar.zero ∧ Scalar.isNaN (y.time - 2.5) = false) ∧
      (∃ alignment next journal,
        o.aligner.align ahead 2.5 = .ok (alignment, next, journal) ∧
          alignment.sample = ⟨flipped, 3⟩ ∧ alignment.fromPast = false) ∧
      o.initialized = true ∧ o.settings.useInertial = true ∧ o.buffer.samples = [] ∧
      (o.update .still scan).result = .error .emptySnapshot ∧
      (o.update .still scan).state.aligner = o.aligner := by
  intro flipped shuffled ahead o scan
  have haligner : o.aligner.isInitialized = true := by decide +kernel
  have hrunning : o.initialized = true := by decide +kernel
  have hempty : o.buffer.samples = [] := by decide +kernel
  have hpast : ∃ y ∈ shuffled, y.time - 2.5 ≤ Scalar.zero := by decide +kernel
  have hahead : ∀ y ∈ ahead, ¬y.time - 2.5 ≤ Scalar.zero ∧ Scalar.isNaN (y.time - 2.5) = false := by
    decide +kernel
  have hlatest : shuffled.find? (fun y => decide (LatestPast Sample.time 2.5 shuffled y)) =
      some ⟨flipped, 2⟩ := by decide +kernel
  have hsoonest : ahead.find? (fun y => decide (Soonest Sample.time 2.5 ahead y)) =
      some ⟨flipped, 3⟩ := by decide +kernel
  obtain ⟨x, hx, alignment, next, journal, halign, hsample, -, hside⟩ :=
    (align_chooses (P := Nat) o.aligner haligner shuffled 2.5).1 (List.cons_ne_nil _ _)
  obtain ⟨y, hy, alignment', next', journal', halign', hsample', -, hside'⟩ :=
    (align_chooses (P := Nat) o.aligner haligner ahead 2.5).1 (List.cons_ne_nil _ _)
  obtain ⟨-, -, -, hrefused⟩ := (align_chooses o.aligner haligner [] 2.5).2 rfl
  have hfound : x = ⟨flipped, 2⟩ := Option.some.inj ((hx.latest hpast).symm.trans hlatest)
  have hfound' : y = ⟨flipped, 3⟩ := Option.some.inj ((hy.soonest hahead).symm.trans hsoonest)
  refine ⟨haligner, hpast, ⟨_, _, _, halign, hsample.trans hfound, hside.mpr hpast⟩, hahead,
    ⟨_, _, _, halign', hsample'.trans hfound', ?_⟩, hrunning, rfl, hempty,
    hrefused .still o scan hrunning rfl hempty rfl⟩
  refine Bool.eq_false_of_not_eq_true fun h => ?_
  obtain ⟨z, hz, hle⟩ := hside'.mp h
  exact (hahead z hz).1 hle

end Odometry

end InertialOdometry
