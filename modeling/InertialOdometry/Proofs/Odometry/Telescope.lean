import InertialOdometry.Proofs.Exact.Decomposition
import InertialOdometry.Proofs.Exact.Homogeneous
import InertialOdometry.Proofs.Inertial.Nearest
import InertialOdometry.Proofs.Odometry.Advance
import InertialOdometry.Proofs.Odometry.Chronology
import InertialOdometry.Proofs.Odometry.Lifecycle

/-!
Deltas telescope. Every alignment comes from the attitude that the one before went to, so
that in exact arithmetic the deltas of some alignments in a row make up the way from the
attitude before the first of them to the attitude of the last. That is so for an aligner
by itself, whatever it is asked, and for the aligner of a pipeline, which comes from the
first sample that the pipeline has received.
-/

namespace InertialOdometry

section

variable {α : Type} [Scalar α]

/-- The product of rotations made one after another, the newest on the left. -/
def Mat3.chain (rotations : List (Mat3 α)) : Mat3 α :=
  rotations.foldl (fun product r => r * product) .identity

private theorem Mat3.chain_concat (rotations : List (Mat3 α)) (r : Mat3 α) :
    chain (rotations ++ [r]) = r * chain rotations := by
  simp [chain]

/-- Alignments one after another, the first of them from the attitude `start` and the last
to the attitude `final`. -/
inductive Successive (start : Mat3 α) :
    (alignments : List (Alignment α)) → (final : Mat3 α) → Prop where
  | start : Successive start [] start
  | next {alignments : List (Alignment α)} {previous : Mat3 α}
      (h : Successive start alignments previous) (sample : Sample α) (t : α) :
      Successive start (alignments ++ [Odometry.alignmentOf sample previous t]) sample.attitude

/-- The attitudes on the way: the one to start from and then one for each alignment. -/
def attitudes (start : Mat3 α) (alignments : List (Alignment α)) : List (Mat3 α) :=
  start :: alignments.map (·.sample.attitude)

omit [Scalar α] in
private theorem attitudes_concat (start : Mat3 α) (alignments : List (Alignment α))
    (alignment : Alignment α) :
    attitudes start (alignments ++ [alignment]) =
      attitudes start alignments ++ [alignment.sample.attitude] := by
  simp [attitudes]

omit [Scalar α] in
private theorem eq_of_getElem?_attitudes_nil {start m : Mat3 α} {i : Nat}
    (h : (attitudes start [])[i]? = some m) : m = start :=
  List.mem_singleton.mp (List.mem_of_getElem? h)

omit [Scalar α] in
/-- An attitude on the way is on the way without the last alignment, or it is the last. -/
theorem getElem?_attitudes_concat {start m : Mat3 α} {alignments : List (Alignment α)}
    {alignment : Alignment α} {i : Nat}
    (h : (attitudes start (alignments ++ [alignment]))[i]? = some m) :
    (i ≤ alignments.length ∧ (attitudes start alignments)[i]? = some m) ∨
      (i = alignments.length + 1 ∧ m = alignment.sample.attitude) := by
  have hlength : (attitudes start alignments).length = alignments.length + 1 := by
    simp [attitudes]
  rw [attitudes_concat, List.getElem?_append] at h
  split at h
  · exact Or.inl ⟨by omega, h⟩
  · obtain ⟨hi, hm⟩ := List.getElem?_eq_some_iff.mp h
    rw [List.length_singleton] at hi
    exact Or.inr ⟨by omega, by simpa using hm.symm⟩

theorem Successive.getLast?_attitudes {start final : Mat3 α} {alignments : List (Alignment α)}
    (h : Successive start alignments final) :
    (attitudes start alignments).getLast? = some final := by
  cases h with
  | start => rfl
  | next h sample t => rw [attitudes_concat, List.getLast?_concat]; rfl

/-- Going only part of the way is going to one of the attitudes on it. -/
theorem Successive.take {start final : Mat3 α} {alignments : List (Alignment α)}
    (h : Successive start alignments final) {j : Nat} {q : Mat3 α}
    (hq : (attitudes start alignments)[j]? = some q) : Successive start (alignments.take j) q := by
  induction h with
  | start =>
      rw [List.take_nil, eq_of_getElem?_attitudes_nil hq]
      exact .start
  | next h sample t ih =>
      rcases getElem?_attitudes_concat hq with ⟨hj, hq⟩ | ⟨rfl, rfl⟩
      · rw [List.take_append_of_le_length hj]
        exact ih hq
      · rw [List.take_of_length_le (by simp)]
        exact .next h sample t

end

/-- The deltas of some alignments are rotations that lead from each attitude on the way to
each later one, and from the last attitude the next alignment will come. -/
structure Telescopes (start : Mat3 ℝ) (alignments : List (Alignment ℝ))
    (previous : Option (Mat3 ℝ)) : Prop where
  rotations : ∀ alignment ∈ alignments, alignment.delta.IsRotation
  chain : ∀ i j, i ≤ j → ∀ p ∈ (attitudes start alignments)[i]?,
    ∀ q ∈ (attitudes start alignments)[j]?,
      Mat3.chain (((alignments.map (·.delta)).take j).drop i) * p = q
  previous : previous = (attitudes start alignments).getLast?

theorem relativeRotation_mul {current previous : Mat3 ℝ} (h : previous.IsOrthogonal) :
    relativeRotation current previous * previous = current := by
  rw [relativeRotation, Mat3.mul_assoc, h.transpose_mul_self, Mat3.mul_identity]

theorem Successive.isRotation_final {start final : Mat3 ℝ} {alignments : List (Alignment ℝ)}
    (h : Successive start alignments final)
    (hrotations : ∀ m ∈ attitudes start alignments, m.IsRotation) : final.IsRotation :=
  hrotations final (List.mem_of_getLast? h.getLast?_attitudes)

theorem Successive.isRotation_delta {start final : Mat3 ℝ} {alignments : List (Alignment ℝ)}
    (h : Successive start alignments final)
    (hrotations : ∀ m ∈ attitudes start alignments, m.IsRotation) :
    ∀ alignment ∈ alignments, alignment.delta.IsRotation := by
  induction h with
  | start => simp
  | next h sample t ih =>
      rw [attitudes_concat] at hrotations
      have hearlier := fun m hm => hrotations m (List.mem_append_left _ hm)
      have hlast := hrotations sample.attitude (by simp [Odometry.alignmentOf])
      intro alignment hmem
      rw [List.mem_append, List.mem_singleton] at hmem
      rcases hmem with hmem | rfl
      · exact ih hearlier alignment hmem
      · exact hlast.mul (h.isRotation_final hearlier).transpose

/-- The deltas after an attitude on the way lead from there to the end. -/
theorem Successive.chain_mul {start final : Mat3 ℝ} {alignments : List (Alignment ℝ)}
    (h : Successive start alignments final)
    (hrotations : ∀ m ∈ attitudes start alignments, m.IsRotation) {i : Nat} {p : Mat3 ℝ}
    (hp : (attitudes start alignments)[i]? = some p) :
    Mat3.chain ((alignments.map (·.delta)).drop i) * p = final := by
  induction h with
  | start =>
      rw [List.map_nil, List.drop_nil, eq_of_getElem?_attitudes_nil hp]
      exact Mat3.identity_mul start
  | @next alignments previous h sample t ih =>
      rw [attitudes_concat] at hrotations
      have hearlier := fun m hm => hrotations m (List.mem_append_left _ hm)
      have hdeltas : (alignments.map (·.delta)).length = alignments.length := List.length_map _
      rw [List.map_append, List.map_singleton]
      rcases getElem?_attitudes_concat hp with ⟨hi, hp⟩ | ⟨rfl, rfl⟩
      · rw [List.drop_append_of_le_length (by omega), Mat3.chain_concat, Mat3.mul_assoc,
          ih hearlier hp]
        exact relativeRotation_mul (h.isRotation_final hearlier).orthogonal
      · rw [List.drop_of_length_le (by simp)]
        exact Mat3.identity_mul _

/-- The deltas of successive alignments telescope. -/
theorem Successive.telescopes {start final : Mat3 ℝ} {alignments : List (Alignment ℝ)}
    (h : Successive start alignments final) (hstart : start.IsRotation)
    (hsamples : ∀ alignment ∈ alignments, alignment.sample.attitude.IsRotation) :
    Telescopes start alignments (some final) := by
  have hrotations : ∀ m ∈ attitudes start alignments, m.IsRotation := by
    simpa [attitudes] using ⟨hstart, hsamples⟩
  refine ⟨h.isRotation_delta hrotations, ?_, h.getLast?_attitudes.symm⟩
  intro i j hij p hp q hq
  have hway : attitudes start (alignments.take j) = (attitudes start alignments).take (j + 1) := by
    simp [attitudes, List.map_take]
  rw [← List.map_take]
  refine (h.take hq).chain_mul ?_ ?_
  · intro m hm
    rw [hway] at hm
    exact hrotations m (List.mem_of_mem_take hm)
  · rw [hway, List.getElem?_take_of_lt (by omega)]
    exact hp

/-! ### Attitudes as they are given -/

/-- An array that stands for a rotation: of its rows, or of those of a homogeneous matrix with
the rotation as its block. -/
inductive Tensor.IsRotation : Tensor ℝ → Prop where
  | rows {m : Mat3 ℝ} (hm : m.IsRotation) : IsRotation (.ofMat3 m)
  | homogeneous {m : Mat4 ℝ} (hm : m.block.IsRotation) : IsRotation m.toTensor

theorem Tensor.IsRotation.toAttitude {t : Tensor ℝ} (h : t.IsRotation) :
    ∃ m, t.toAttitude = .ok m ∧ m.IsRotation := by
  cases h with
  | rows hm => exact ⟨_, rfl, hm⟩
  | homogeneous hm => exact ⟨_, rfl, hm⟩

def Sample.IsRotation (x : Sample ℝ) : Prop :=
  ∃ t : Tensor ℝ, t.IsRotation ∧ Sample.ofTensor t x.time = .ok x

theorem Sample.IsRotation.attitude {x : Sample ℝ} (h : x.IsRotation) : x.attitude.IsRotation := by
  obtain ⟨t, ht, hx⟩ := h
  obtain ⟨m, hm, hrotation⟩ := ht.toAttitude
  rw [ofTensor, hm] at hx
  rw [← Except.ok.inj hx]
  exact hrotation

/-! ### The aligner by itself -/

structure Query (α : Type) where
  samples : List (Sample α)
  time : α

namespace Aligner

variable {α : Type} [Scalar α]

/-- The answer to a query, and the aligner after it; one that fails leaves it as it was. -/
def answer (a : Aligner α) (q : Query α) : Option (Alignment α) × Aligner α :=
  match a.align q.samples q.time with
  | .ok (alignment, next, _) => (some alignment, next)
  | .error _ => (none, a)

def answers (a : Aligner α) (queries : List (Query α)) : List (Alignment α) × Aligner α :=
  queries.foldl (fun (alignments, a) q =>
    (alignments ++ (a.answer q).1.toList, (a.answer q).2)) ([], a)

private theorem answer_cases {a : Aligner α} {previous : Mat3 α}
    (hprevious : a.previous = some previous)
    (q : Query α) :
    (nearest? Sample.time q.time q.samples = none ∧ a.answer q = (none, a)) ∨
      ∃ x, nearest? Sample.time q.time q.samples = some x ∧
        a.answer q = (some (Odometry.alignmentOf x previous q.time),
          Odometry.alignedBy a x previous) := by
  cases hnearest : nearest? Sample.time q.time q.samples with
  | none => exact Or.inl ⟨rfl, by simp only [answer, align, hprevious, hnearest]⟩
  | some x =>
      refine Or.inr ⟨x, rfl, ?_⟩
      simp only [answer, align, hprevious, hnearest]
      rfl

/-- However an aligner is queried, its alignments are by the nearest samples, where there are
any, and link the attitude that it comes from to the one that it has come to. -/
theorem successive_answers {a : Aligner α} {start : Mat3 α} (hstart : a.previous = some start)
    (queries : List (Query α)) :
    (a.answers queries).1.map (·.sample) =
        queries.filterMap (fun q => nearest? Sample.time q.time q.samples) ∧
      ∃ final, Successive start (a.answers queries).1 final ∧
        (a.answers queries).2.previous = some final := by
  induction queries using List.reverseRecOn with
  | nil => exact ⟨rfl, start, .start, hstart⟩
  | append_singleton queries q ih =>
      obtain ⟨hsamples, final, hsuccessive, hprevious⟩ := ih
      have hstep : a.answers (queries ++ [q]) =
          ((a.answers queries).1 ++ ((a.answers queries).2.answer q).1.toList,
            ((a.answers queries).2.answer q).2) := by
        simp [answers]
      rcases answer_cases hprevious q with ⟨hnone, hanswer⟩ | ⟨x, hx, hanswer⟩
      · rw [hstep, hanswer]
        exact ⟨by simp [hsamples, hnone], final, by simpa using hsuccessive, hprevious⟩
      · rw [hstep, hanswer]
        exact ⟨by simp [hsamples, hx, Odometry.alignmentOf], _, .next hsuccessive x q.time, rfl⟩

end Aligner

/-! ### The aligner of a pipeline -/

namespace Odometry

section

variable {α P : Type} [Scalar α] [HasSingularValues α]

def alignment? (o : Odometry α P) : Call α P → Option (Alignment α)
  | .scan _ scan =>
    match o.initialized, o.alignScan scan with
    | true, .ok (some alignment, _, _) => some alignment
    | _, _ => none
  | _ => none

def alignments (o : Odometry α P) (calls : List (Call α P)) : List (Alignment α) :=
  collect alignment? o calls

private theorem alignments_concat (o : Odometry α P) (calls : List (Call α P)) (call : Call α P) :
    o.alignments (calls ++ [call]) = o.alignments calls ++ ((o.run calls).alignment? call).toList :=
  collect_concat alignment? o calls call

/-- What a call that is no reset does to the attitude that a running pipeline comes from. -/
theorem alignment?_cases {o : Odometry α P} (hprimed : o.Primed) (hrunning : o.initialized = true)
    (huse : o.settings.useInertial = true) {previous : Mat3 α}
    (hprevious : o.aligner.previous = some previous) {call : Call α P} (hcall : call ≠ .reset) :
    (o.alignment? call = none ∧ (o.after call).aligner.previous = some previous) ∨
      ∃ x t, x ∈ o.buffer.samples ∧ o.alignment? call = some (alignmentOf x previous t) ∧
        (o.after call).aligner.previous = some x.attitude := by
  cases call with
  | scan engine scan =>
      have hadvance := hprimed.advance hrunning engine scan
      simp only [Odometry.after]
      generalize o.update engine scan = out at hadvance ⊢
      cases hadvance with
      | refused hscan huse hempty => exact Or.inl ⟨by simp [alignment?, hrunning, hscan], hprevious⟩
      | asked deltas said result halign hquery hcause =>
          obtain ⟨journal, hscan⟩ := halign.alignScan_eq
          obtain ⟨x, hx, hnext⟩ := (halign.movedOn hquery deltas result.toOption).used huse
          cases halign with
          | unused hunused => cases hunused.symm.trans huse
          | @bySample previous' sample _ hprevious' hnearest =>
              obtain rfl : previous = previous' :=
                Option.some.inj (hprevious.symm.trans hprevious')
              obtain rfl : x = sample := Option.some.inj (hx.symm.trans hnearest)
              exact Or.inr ⟨x, scan.time, mem_of_nearest? hx, by simp [alignment?, hrunning, hscan],
                hnext⟩
  | sample x => exact Or.inl ⟨rfl, hprevious⟩
  | lastScan => exact Or.inl ⟨rfl, hprevious⟩
  | clearBuffer => exact Or.inl ⟨rfl, hprevious⟩
  | reset => exact absurd rfl hcall

/-- However a running pipeline is called, short of a reset, its alignments link the attitude
that it comes from to the one that it has come to. -/
theorem successive_run {s : Settings α} (huse : s.useInertial = true) {earlier : List (Call α P)}
    (hrunning : ((create s).run earlier).initialized = true) {start : Mat3 α}
    (hstart : ((create s).run earlier).aligner.previous = some start) (later : List (Call α P))
    (hreset : .reset ∉ later) :
    (∀ alignment ∈ ((create s).run earlier).alignments later,
        alignment.sample ∈ samplesOf (earlier ++ later)) ∧
      ((create s).run (earlier ++ later)).initialized = true ∧
      ∃ final, Successive start (((create s).run earlier).alignments later) final ∧
        ((create s).run (earlier ++ later)).aligner.previous = some final := by
  induction later using List.reverseRecOn with
  | nil =>
      rw [List.append_nil]
      exact ⟨by simp [alignments], hrunning, start, .start, hstart⟩
  | append_singleton later call ih =>
      rw [List.mem_append, not_or, List.mem_singleton] at hreset
      obtain ⟨hsamples, hstill, final, hsuccessive, hprevious⟩ := ih hreset.1
      have hcall : call ≠ .reset := Ne.symm hreset.2
      have hsettings : ((create s).run (earlier ++ later)).settings.useInertial = true := by
        rw [(configured_run s _).settings, huse]
      have hruns : (((create s).run (earlier ++ later)).after call).initialized = true :=
        Bool.eq_true_of_not_eq_false fun hstops => hcall (reset_of_stops hstill hstops)
      have hmore : samplesOf (earlier ++ later) ⊆ samplesOf (earlier ++ later ++ [call]) := by
        rw [samplesOf_concat]
        exact List.subset_append_left _ _
      rw [alignments_concat, ← run_append, ← List.append_assoc, run_concat]
      rcases alignment?_cases (primed_run s _) hstill hsettings hprevious hcall with
        ⟨hnone, hnext⟩ | ⟨x, t, hx, hsome, hnext⟩
      · rw [hnone, Option.toList_none, List.append_nil]
        exact ⟨fun alignment hmem => hmore (hsamples alignment hmem), hruns, final, hsuccessive,
          hnext⟩
      · rw [hsome, Option.toList_some]
        refine ⟨?_, hruns, x.attitude, .next hsuccessive x t, hnext⟩
        intro alignment hmem
        rw [List.mem_append, List.mem_singleton] at hmem
        rcases hmem with hmem | rfl
        · exact hmore (hsamples alignment hmem)
        · exact hmore ((samples_run_sublist s _).subset hx)

/-- A pipeline that a call sets running comes from the first sample that it has received. -/
theorem previous_of_starts {s : Settings α} (huse : s.useInertial = true)
    {calls : List (Call α P)} {call : Call α P}
    (hwaits : ((create s).run calls).initialized = false)
    (hruns : ((create s).run (calls ++ [call])).initialized = true) :
    ∃ first, (received calls).head? = some first ∧
      ((create s).run (calls ++ [call])).aligner.previous = some first.attitude := by
  rw [run_concat] at hruns ⊢
  obtain ⟨engine, scan, rfl⟩ := scan_of_starts hwaits hruns
  have hused : ((create s).run calls).settings.useInertial = true := by
    rw [(configured_run s calls).settings, huse]
  have hfirst : ((create s).run calls).buffer.first = (received calls).head? := by
    rw [buffer_run]
    rfl
  have hwarmed := warmed_warmUp (((create s).run calls).stamped scan) scan
  simp only [Odometry.after, update_of_not_initialized engine scan hwaits] at hruns ⊢
  generalize (((create s).run calls).stamped scan).warmUp scan = out at hwarmed hruns ⊢
  cases hwarmed with
  | unused hunused => cases hunused.symm.trans hused
  | waiting hused hnone => cases hwaits.symm.trans hruns
  | @bySample first hused hsome => exact ⟨first, hfirst.symm.trans hsome, rfl⟩

omit [HasSingularValues α] in
theorem pushed?_eq_map_alignment? (o : Odometry α P) (call : Call α P) :
    o.pushed? call = (o.alignment? call).map fun alignment => Tensor.ofMat3 alignment.delta := by
  cases call with
  | scan engine scan =>
      rcases hscan : o.alignScan scan with f | ⟨_ | alignment, next, journal⟩ <;>
        cases hrunning : o.initialized <;> simp [pushed?, alignment?, hscan, hrunning]
  | sample x => rfl
  | lastScan => rfl
  | clearBuffer => rfl
  | reset => rfl

/-- The deltas that a run queues are those of its alignments. -/
theorem pushed_eq_map_alignments (o : Odometry α P) (calls : List (Call α P)) :
    o.pushed calls = (o.alignments calls).map fun alignment => Tensor.ofMat3 alignment.delta := by
  induction calls using List.reverseRecOn with
  | nil => rfl
  | append_singleton calls call ih =>
      rw [pushed_concat, alignments_concat, ih, pushed?_eq_map_alignment?, List.map_append,
        Option.toList_map]

end

/-- Deltas telescope. An aligner that is set to a rotation and then queried in any way, with
samples before or after the scans and the same ones time and again, answers with deltas that
lead from each attitude on its way to each later one. So does a pipeline, however it was
called before and is called after the scan that sets it running, from the first sample that
came since its buffer was last emptied, whether or not the buffer still holds it. -/
theorem deltas_telescope {P : Type} [HasSingularValues ℝ] :
    (∀ (a : Aligner ℝ) (t : Tensor ℝ) (queries : List (Query ℝ)), t.IsRotation →
      (∀ q ∈ queries, ∀ x ∈ q.samples, x.IsRotation) →
      ∃ start, t.toAttitude = .ok start ∧
        let out := (a.startFrom start).1.answers queries
        out.1.map (·.sample) =
            queries.filterMap (fun q => nearest? Sample.time q.time q.samples) ∧
          Telescopes start out.1 out.2.previous) ∧
    ∀ (s : Settings ℝ) (earlier later : List (Call ℝ P)) (call : Call ℝ P),
      s.useInertial = true → (∀ x ∈ samplesOf (earlier ++ call :: later), x.IsRotation) →
      ((create s).run earlier).initialized = false →
      ((create s).run (earlier ++ [call])).initialized = true → .reset ∉ later →
      ∃ first, (received earlier).head? = some first ∧
        let o := (create s).run (earlier ++ [call])
        o.aligner.previous = some first.attitude ∧
          o.pushed later = (o.alignments later).map (fun d => Tensor.ofMat3 d.delta) ∧
          Telescopes first.attitude (o.alignments later) (o.run later).aligner.previous := by
  constructor
  · intro a t queries ht hqueries
    obtain ⟨start, hattitude, hstart⟩ := ht.toAttitude
    have hset : (a.startFrom start).1.previous = some start := rfl
    obtain ⟨hsamples, final, hsuccessive, hprevious⟩ := Aligner.successive_answers hset queries
    refine ⟨start, hattitude, hsamples, ?_⟩
    rw [hprevious]
    refine hsuccessive.telescopes hstart fun alignment hmem => ?_
    have hchosen := List.mem_map_of_mem (f := (·.sample)) hmem
    rw [hsamples, List.mem_filterMap] at hchosen
    obtain ⟨q, hq, hnearest⟩ := hchosen
    exact (hqueries q hq _ (mem_of_nearest? hnearest)).attitude
  · intro s earlier later call huse hrotations hwaits hruns hreset
    obtain ⟨first, hfirst, hprevious⟩ := previous_of_starts huse hwaits hruns
    refine ⟨first, hfirst, hprevious, pushed_eq_map_alignments _ later, ?_⟩
    obtain ⟨hsamples, -, final, hsuccessive, hfinal⟩ :=
      successive_run huse hruns hprevious later hreset
    rw [List.append_assoc, List.singleton_append] at hsamples
    have hmem : first ∈ samplesOf (earlier ++ call :: later) := by
      have hearlier := (received_suffix earlier).subset (List.mem_of_head? hfirst)
      rw [samplesOf, List.filterMap_append]
      exact List.mem_append_left _ hearlier
    rw [← run_append, hfinal]
    exact hsuccessive.telescopes (hrotations first hmem).attitude fun alignment halignment =>
      (hrotations _ (hsamples alignment halignment)).attitude

/-- A quarter turn about the vertical axis, and one about the first axis: the scans of an
aligner are aligned by the first, from before and from after it, and then by the other. In a
pipeline that holds one sample, the first is gone when the scan comes that sets it running. -/
theorem deltas_telescope_of_quarter_turns :
    let aboutZ : Mat3 ℝ := ⟨⟨0, -1, 0⟩, ⟨1, 0, 0⟩, ⟨0, 0, 1⟩⟩
    let aboutX : Mat3 ℝ := ⟨⟨1, 0, 0⟩, ⟨0, 0, -1⟩, ⟨0, 1, 0⟩⟩
    let t : Tensor ℝ := Mat4.toTensor ⟨aboutX, ⟨1, 2, 3⟩, ⟨0, 0, 0⟩, 1⟩
    let samples : List (Sample ℝ) := [⟨aboutZ, 1⟩, ⟨aboutX, 3⟩]
    let queries : List (Query ℝ) := [⟨samples, 0⟩, ⟨samples, 2⟩, ⟨[], 3⟩, ⟨samples, 4⟩]
    let s : Settings ℝ := { Settings.plain with
      useInertial := true
      capacity := 1
      capacity_pos := one_pos }
    let earlier : List (Call ℝ Unit) := [.sample ⟨aboutZ, 0⟩, .sample ⟨aboutX, 1⟩]
    let call : Call ℝ Unit := .scan .still ⟨(), .real 1, 0⟩
    let later : List (Call ℝ Unit) := [.scan .still ⟨(), .real 2, 1⟩]
    let o := (create s).run (earlier ++ [call])
    t.IsRotation ∧ (∀ q ∈ queries, ∀ x ∈ q.samples, x.IsRotation) ∧
      (∃ start, t.toAttitude = .ok start ∧
        let out := (Aligner.startFrom (.empty 2) start).1.answers queries
        out.1.map (·.sample) = [⟨aboutZ, 1⟩, ⟨aboutZ, 1⟩, ⟨aboutX, 3⟩] ∧
          Telescopes start out.1 out.2.previous) ∧
      (∀ x ∈ samplesOf (earlier ++ call :: later), x.IsRotation) ∧
      ((create s).run earlier).buffer.samples = [⟨aboutX, 1⟩] ∧
      ((create s).run earlier).initialized = false ∧ o.initialized = true ∧ .reset ∉ later ∧
      o.aligner.previous = some aboutZ ∧
      Telescopes aboutZ (o.alignments later) (o.run later).aligner.previous := by
  intro aboutZ aboutX t samples queries s earlier call later o
  have hz : aboutZ.IsRotation := by
    refine ⟨Mat3.isOrthogonal_iff.mpr ?_, ?_⟩
    · norm_num [aboutZ, Vec3.dot]
    · norm_num [aboutZ, Mat3.det, Vec3.dot, Vec3.cross]
  have hx : aboutX.IsRotation := by
    refine ⟨Mat3.isOrthogonal_iff.mpr ?_, ?_⟩
    · norm_num [aboutX, Vec3.dot]
    · norm_num [aboutX, Mat3.det, Vec3.dot, Vec3.cross]
  have hgiven {m : Mat3 ℝ} (hm : m.IsRotation) (time : ℝ) : Sample.IsRotation ⟨m, time⟩ :=
    ⟨_, .rows hm, rfl⟩
  have ht : t.IsRotation := .homogeneous hx
  have hqueries : ∀ q ∈ queries, ∀ x ∈ q.samples, x.IsRotation := by
    simp [queries, samples, hgiven hz, hgiven hx]
  have hsamples : ∀ x ∈ samplesOf (earlier ++ call :: later), x.IsRotation := by
    simp [samplesOf, earlier, call, later, Call.sample?, hgiven hz, hgiven hx]
  have hchosen : queries.filterMap (fun q => nearest? Sample.time q.time q.samples) =
      [⟨aboutZ, 1⟩, ⟨aboutZ, 1⟩, ⟨aboutX, 3⟩] := by
    simp only [queries, samples, List.filterMap_cons, List.filterMap_nil, nearest?,
      List.foldl_cons, List.foldl_nil, Candidates.weigh, Scalar.zero_real, Scalar.abs_real]
    norm_num
  obtain ⟨haligner, hpipeline⟩ := deltas_telescope (P := Unit)
  obtain ⟨start, hstart, halignments, htelescopes⟩ := haligner (.empty 2) t queries ht hqueries
  have hwaits : ((create s).run earlier).initialized = false := rfl
  have hruns : o.initialized = true := rfl
  have hreset : .reset ∉ later := by simp [later]
  obtain ⟨first, hfirst, hprevious, -, hlater⟩ :=
    hpipeline s earlier later call rfl hsamples hwaits hruns hreset
  obtain rfl : first = ⟨aboutZ, 0⟩ := (Option.some.inj hfirst).symm
  exact ⟨ht, hqueries, ⟨start, hstart, halignments.trans hchosen, htelescopes⟩, hsamples, rfl,
    hwaits, hruns, hreset, hprevious, hlater⟩

end Odometry

end InertialOdometry
