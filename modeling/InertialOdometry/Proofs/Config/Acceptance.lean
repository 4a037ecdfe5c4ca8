import InertialOdometry.Proofs.Config.Calibration

/-!
Which documents are configurations. `Acceptable` says it by the values at the paths of a
document and by how these are converted, without the order in which they are looked up.
-/

namespace InertialOdometry

theorem Method.exists_name_iff {shown : Except Failure String} :
    (∃ m : Method, shown = .ok m.name) ↔ shown = .ok "gicp" ∨ shown = .ok "point_to_point" := by
  constructor
  · rintro ⟨m, hm⟩
    cases m with
    | generalized => exact Or.inl hm
    | pointToPoint => exact Or.inr hm
  · rintro (h | h)
    · exact ⟨generalized, h⟩
    · exact ⟨pointToPoint, h⟩

variable {α : Type}

namespace Value

/-- A document has a value at a path, and it is not null. -/
def Has (d : Value α) (path : List String) : Prop := ∃ v, d.at? path = some v ∧ v ≠ .null

/-- What can be read of a document, in such a way that null is refused, is there and can be
converted. -/
theorem exists_reads_iff {β : Type} {d : Value α} {path : List String}
    {read : Value α → Except Failure β} {p : β → Prop} (hnull : ∀ b, read .null ≠ .ok b) :
    (∃ b, d.Reads path read b ∧ p b) ↔
      d.Has path ∧ ∀ v, d.at? path = some v → ∃ b, read v = .ok b ∧ p b := by
  constructor
  · rintro ⟨b, ⟨v, hv, hread⟩, hp⟩
    refine ⟨⟨v, hv, ?_⟩, fun w hw => ?_⟩
    · rintro rfl
      exact hnull b hread
    · cases hv.symm.trans hw
      exact ⟨b, hread, hp⟩
  · rintro ⟨⟨v, hv, -⟩, hall⟩
    obtain ⟨b, hread, hp⟩ := hall v hv
    exact ⟨b, ⟨v, hv, hread⟩, hp⟩

private theorem has_cons_of_at? {d v : Value α} {name : String} (h : d.at? [name] = some v)
    (path : List String) : d.Has (name :: path) ↔ v.Has path := by
  rw [Has, Has, at?_cons_of_at? h]

/-- Nothing can be looked up in a value that is null or not there. -/
theorem at?_getD_null (d : Value α) (name : String) {path : List String} (hpath : path ≠ []) :
    ((d.at? [name]).getD .null).at? path = d.at? (name :: path) := by
  rw [at?_cons d name path]
  cases d.at? [name] with
  | some v => rfl
  | none =>
      obtain ⟨key, rest, rfl⟩ := List.exists_cons_of_ne_nil hpath
      rfl

/-- What holds of the value that stands in for a name holds of the one that is taken for it,
provided that it holds of any value that is given to the name. -/
theorem argument_iff {entries : List (Value α × Value α)} {name : String}
    {default : Value α} {p : Value α → Prop} (hdefault : p default) :
    p (argument entries name default) ↔ ∀ v, (map entries).at? [name] = some v → p v := by
  rw [argument_eq_at?]
  cases (map entries).at? [name] with
  | none => simp [hdefault]
  | some v => simp

/-- What is found in a row of entries that can be written out can be written out itself. -/
theorem isWritable_of_lookup? {entries : List (Value α × Value α)} {name : String}
    {v : Value α} (h : entriesWritable entries = true) (hv : lookup? entries name = some v) :
    v.isWritable = true := by
  induction entries with
  | nil => cases hv
  | cons entry rest ih =>
      obtain ⟨key, value⟩ := entry
      simp only [entriesWritable, Bool.and_eq_true] at h
      obtain ⟨⟨-, hvalue⟩, hrest⟩ := h
      rw [lookup?, List.find?_cons] at hv
      split at hv
      · cases hv
        exact hvalue
      · exact ih hrest hv

private theorem isWritable_of_at? {d v : Value α} {path : List String} (h : d.isWritable = true)
    (hv : d.at? path = some v) : v.isWritable = true := by
  induction path generalizing d with
  | nil =>
      rw [at?_nil] at hv
      cases hv
      exact h
  | cons name path ih =>
      cases d with
      | map entries =>
          rw [isWritable] at h
          obtain ⟨w, hw, hv⟩ := Option.bind_eq_some_iff.mp hv
          exact ih (isWritable_of_lookup? h hw) hv
      | _ => cases hv

end Value

variable [Scalar α]

namespace Config

private theorem exists_toScalar_iff {d : Value α} {path : List String} :
    (∃ x, d.Reads path Value.toScalar x) ↔
      d.Has path ∧ ∀ v, d.at? path = some v → ∃ x, v.toScalar = .ok x := by
  have hreads : (∃ x, d.Reads path Value.toScalar x ∧ True) ↔
      d.Has path ∧ ∀ v, d.at? path = some v → ∃ x, v.toScalar = .ok x ∧ True :=
    Value.exists_reads_iff toScalar_null_ne
  simpa using hreads

/-- The documents that are configurations. -/
structure Acceptable (d : Value α) : Prop where
  mapping : ∃ entries, d = .map entries
  sections : ∀ name ∈ ["frame_id", "icp", "imu"], ∃ rows, d.at? [name] = some (.map rows)
  output : ∀ v, d.at? ["output"] = some v → v = .null ∨ ∃ rows, v = .map rows ∧
    ∀ entry ∈ rows, ∃ name ∈ ["output_dir", "save_results", "export_tum", "log_level"],
      entry.1 = .text name
  present : ∀ path ∈ [["frame_id", "fixed"], ["frame_id", "odometry"], ["icp", "tf_epsilon"],
      ["icp", "corr_dist"], ["icp", "iterations"], ["icp", "transform_thresholding"],
      ["icp", "max_translation"], ["icp", "max_rotation"], ["imu", "use_imu_data"],
      ["imu", "check_imu_data"]], d.Has path
  scalars : ∀ path ∈ [["icp", "tf_epsilon"], ["icp", "max_translation"],
      ["icp", "max_rotation"], ["imu", "max_timestamp_gap"]],
    ∀ v, d.at? path = some v → ∃ x, v.toScalar = .ok x
  correspondence : ∀ v, d.at? ["icp", "corr_dist"] = some v →
    ∃ x, v.toScalar = .ok x ∧ ¬x ≤ Scalar.zero
  counts : ∀ path ∈ [["icp", "iterations"], ["imu", "buffer_capacity"]],
    ∀ v, d.at? path = some v → ∃ n, v.toInteger = .ok n ∧ 0 < n
  method : ∀ v, d.at? ["icp", "method"] = some v →
    v.written = .ok "gicp" ∨ v.written = .ok "point_to_point"
  pose : ∃ pose, Poses ((d.at? ["fiducial_calibration"]).getD .null) pose

/-- The names of the frames can be written out, which fails only for whole numbers with more
digits than are ever converted. -/
def FramesWritable (d : Value α) : Prop :=
  ∀ path ∈ [["frame_id", "fixed"], ["frame_id", "odometry"]],
    ∀ v, d.at? path = some v → v.isWritable = true

omit [Scalar α] in
theorem framesWritable_of_isWritable {d : Value α} (h : d.isWritable = true) :
    FramesWritable d := fun _ _ _ hv => Value.isWritable_of_at? h hv

section

variable {rows : List (Value α × Value α)}

/-- The names of the frames are read if they are there and can be written out. -/
theorem frameIdsOf_accepts_iff :
    (∃ f, frameIdsOf rows = .ok f) ↔
      ((Value.map rows).Has ["fixed"] ∧ (Value.map rows).Has ["odometry"]) ∧
        (∀ v, (Value.map rows).at? ["fixed"] = some v → v.isWritable = true) ∧
        ∀ v, (Value.map rows).at? ["odometry"] = some v → v.isWritable = true := by
  simp only [frameIdsOf_eq_ok_iff, Value.written_eq_ok_iff]
  constructor
  · rintro ⟨f, ⟨v, hv, hfixed, -⟩, ⟨w, hw, hodometry, -⟩⟩
    refine ⟨⟨⟨v, hv⟩, ⟨w, hw⟩⟩, fun u hu => ?_, fun u hu => ?_⟩
    · cases hv.1.symm.trans hu
      exact hfixed
    · cases hw.1.symm.trans hu
      exact hodometry
  · rintro ⟨⟨⟨v, hv⟩, ⟨w, hw⟩⟩, hfixed, hodometry⟩
    exact ⟨⟨v.plain, w.plain⟩, ⟨v, hv, hfixed v hv.1, rfl⟩, ⟨w, hw, hodometry w hw.1, rfl⟩⟩

/-- A registration section is read if its numbers are there, two of them positive, and its method
is known. -/
theorem registrationOf_accepts_iff :
    (∃ r, registrationOf rows = .ok r) ↔
      (∃ x, (Value.map rows).Reads ["tf_epsilon"] Value.toScalar x) ∧
        (∃ x, (Value.map rows).Reads ["corr_dist"] Value.toScalar x ∧ ¬x ≤ Scalar.zero) ∧
        (∃ n, (Value.map rows).Reads ["iterations"] Value.toInteger n ∧ 0 < n) ∧
        ∀ v, (Value.map rows).at? ["method"] = some v →
          v.written = .ok "gicp" ∨ v.written = .ok "point_to_point" := by
  have hdefault : (Value.text "gicp" : Value α).written = .ok "gicp" ∨
      (Value.text "gicp" : Value α).written = .ok "point_to_point" := Or.inl rfl
  rw [← Value.argument_iff hdefault, ← Method.exists_name_iff]
  simp only [registrationOf_eq_ok_iff]
  constructor
  · rintro ⟨r, hepsilon, hcorrespondence, hiterations, hmethod⟩
    exact ⟨⟨r.epsilon, hepsilon⟩, ⟨r.correspondence, hcorrespondence, r.correspondence_pos⟩,
      ⟨r.iterations, hiterations, r.iterations_pos⟩, ⟨r.method, hmethod⟩⟩
  · rintro ⟨⟨epsilon, hepsilon⟩, ⟨correspondence, hcorrespondence, hcpos⟩,
      ⟨iterations, hiterations, hipos⟩, ⟨method, hmethod⟩⟩
    exact ⟨⟨epsilon, correspondence, iterations, method, hcpos, hipos⟩, hepsilon,
      hcorrespondence, hiterations, hmethod⟩

theorem thresholdingOf_accepts_iff :
    (∃ t, thresholdingOf rows = .ok t) ↔
      (Value.map rows).Has ["transform_thresholding"] ∧
        (∃ x, (Value.map rows).Reads ["max_translation"] Value.toScalar x) ∧
        ∃ x, (Value.map rows).Reads ["max_rotation"] Value.toScalar x := by
  simp only [thresholdingOf_eq_ok_iff]
  constructor
  · rintro ⟨t, ⟨v, hv, -⟩, htranslation, hrotation⟩
    exact ⟨⟨v, hv⟩, ⟨_, htranslation⟩, ⟨_, hrotation⟩⟩
  · rintro ⟨⟨v, hv⟩, ⟨maxTranslation, htranslation⟩, ⟨maxRotation, hrotation⟩⟩
    exact ⟨⟨v.truth, maxTranslation, maxRotation⟩, ⟨v, hv, rfl⟩, htranslation, hrotation⟩

/-- An inertial section is read if it has its switches; its numbers are asked for only where they
are given. -/
theorem inertialOf_accepts_iff :
    (∃ i, inertialOf rows = .ok i) ↔
      (Value.map rows).Has ["use_imu_data"] ∧ (Value.map rows).Has ["check_imu_data"] ∧
        (∀ v, (Value.map rows).at? ["max_timestamp_gap"] = some v → ∃ x, v.toScalar = .ok x) ∧
        ∀ v, (Value.map rows).at? ["buffer_capacity"] = some v →
          ∃ n, v.toInteger = .ok n ∧ 0 < n := by
  have hgap : ∃ x, (Value.number (Scalar.decimal 5 (-2)) : Value α).toScalar = .ok x :=
    ⟨_, rfl⟩
  have hcapacity : ∃ n, (Value.int 100 : Value α).toInteger = .ok n ∧ 0 < n :=
    ⟨100, rfl, by decide⟩
  rw [← Value.argument_iff hgap, ← Value.argument_iff hcapacity]
  simp only [inertialOf_eq_ok_iff]
  constructor
  · rintro ⟨i, ⟨use, huse, -⟩, ⟨check, hcheck, -⟩, hmaxGap, hcount⟩
    exact ⟨⟨use, huse⟩, ⟨check, hcheck⟩, ⟨_, hmaxGap⟩, ⟨_, hcount, i.capacity_pos⟩⟩
  · rintro ⟨⟨use, huse⟩, ⟨check, hcheck⟩, ⟨maxGap, hmaxGap⟩, ⟨capacity, hcount, hpos⟩⟩
    exact ⟨⟨use.truth, check.truth, maxGap, capacity, hpos⟩, ⟨use, huse, rfl⟩,
      ⟨check, hcheck, rfl⟩, hmaxGap, hcount⟩

/-- The output section may be left out. -/
theorem outputOf_accepts_iff :
    (∃ found o, Config.section? rows "output" = .ok found ∧ outputOf (found.getD []) = .ok o) ↔
      ∀ v, (Value.map rows).at? ["output"] = some v → v = .null ∨ ∃ entries, v = .map entries ∧
        ∀ entry ∈ entries,
          ∃ name ∈ ["output_dir", "save_results", "export_tum", "log_level"],
            entry.1 = .text name := by
  simp only [section?_eq_ok_iff, outputOf_eq_ok_iff]
  constructor
  · rintro ⟨found, o, ⟨rfl, hnull⟩ | ⟨entries, rfl, hat⟩, hnames, -⟩ v hv
    · exact Or.inl (hnull v hv)
    · cases hat.symm.trans hv
      exact Or.inr ⟨entries, rfl, hnames⟩
  · intro h
    cases hat : (Value.map rows).at? ["output"] with
    | none =>
        refine ⟨none, _, Or.inl ⟨rfl, ?_⟩, ?_, rfl⟩
        · intro v hv
          cases hv
        · intro entry hentry
          cases hentry
    | some v =>
        rcases h v hat with rfl | ⟨entries, rfl, hnames⟩
        · refine ⟨none, _, Or.inl ⟨rfl, ?_⟩, ?_, rfl⟩
          · intro v hv
            exact (Option.some.inj hv).symm
          · intro entry hentry
            cases hentry
        · exact ⟨some entries, _, Or.inr ⟨entries, rfl, rfl⟩, hnames, rfl⟩

theorem initialPoseOf_accepts_iff {v : Value α} :
    (∃ pose journal, initialPoseOf v = .ok (pose, journal)) ↔ ∃ pose, Poses v pose := by
  simp only [initialPoseOf_eq_ok_iff]
  constructor
  · rintro ⟨pose, journal, hpose, -⟩
    exact ⟨pose, hpose⟩
  · rintro ⟨pose, hpose⟩
    exact ⟨pose, _, hpose, rfl⟩

end

/-- A document is read section by section. -/
theorem ofValue_eq_ok_iff {entries : List (Value α × Value α)} {c : Config α}
    {journal : Journal α} :
    ofValue (.map entries) = .ok (c, journal) ↔ ∃ frames icp imu output,
      (requiredSection entries "frame_id" = .ok frames ∧
        requiredSection entries "icp" = .ok icp ∧ requiredSection entries "imu" = .ok imu ∧
        Config.section? entries "output" = .ok output) ∧
      frameIdsOf frames = .ok c.frameIds ∧ registrationOf icp = .ok c.registration ∧
      thresholdingOf icp = .ok c.thresholding ∧ inertialOf imu = .ok c.inertial ∧
      outputOf (output.getD []) = .ok c.output ∧
      initialPoseOf (Value.argument entries "fiducial_calibration" .null) =
        .ok (c.initialPose, journal) := by
  simp only [ofValue, Failure.bind_eq_ok_iff]
  constructor
  · rintro ⟨frames, hframes, icp, hicp, imu, himu, output, houtput, frameIds, hframeIds,
      registration, hregistration, thresholding, hthresholding, inertial, hinertial, out, hout,
      ⟨pose, said⟩, hpose, h⟩
    cases h
    exact ⟨frames, icp, imu, output, ⟨hframes, hicp, himu, houtput⟩, hframeIds, hregistration,
      hthresholding, hinertial, hout, hpose⟩
  · rintro ⟨frames, icp, imu, output, ⟨hframes, hicp, himu, houtput⟩, hframeIds, hregistration,
      hthresholding, hinertial, hout, hpose⟩
    exact ⟨frames, hframes, icp, hicp, imu, himu, output, houtput, c.frameIds, hframeIds,
      c.registration, hregistration, c.thresholding, hthresholding, c.inertial, hinertial,
      c.output, hout, (c.initialPose, journal), hpose, rfl⟩

/-- Whether a document is accepted is told by its sections, each for itself. -/
theorem ofValue_accepts_sections_iff {entries : List (Value α × Value α)} :
    (∃ c journal, ofValue (.map entries) = .ok (c, journal)) ↔ ∃ frames icp imu,
      ((Value.map entries).at? ["frame_id"] = some (.map frames) ∧
        (Value.map entries).at? ["icp"] = some (.map icp) ∧
        (Value.map entries).at? ["imu"] = some (.map imu)) ∧
      (∃ f, frameIdsOf frames = .ok f) ∧ (∃ r, registrationOf icp = .ok r) ∧
      (∃ t, thresholdingOf icp = .ok t) ∧ (∃ i, inertialOf imu = .ok i) ∧
      (∃ found o, Config.section? entries "output" = .ok found ∧
        outputOf (found.getD []) = .ok o) ∧
      ∃ pose journal, initialPoseOf (Value.argument entries "fiducial_calibration" .null) =
        .ok (pose, journal) := by
  simp only [ofValue_eq_ok_iff, requiredSection_eq_ok_iff]
  constructor
  · rintro ⟨c, journal, frames, icp, imu, output, ⟨hframes, hicp, himu, houtput⟩, hframeIds,
      hregistration, hthresholding, hinertial, hout, hpose⟩
    exact ⟨frames, icp, imu, ⟨hframes, hicp, himu⟩, ⟨_, hframeIds⟩, ⟨_, hregistration⟩,
      ⟨_, hthresholding⟩, ⟨_, hinertial⟩, ⟨output, _, houtput, hout⟩, ⟨_, journal, hpose⟩⟩
  · rintro ⟨frames, icp, imu, ⟨hframes, hicp, himu⟩, ⟨f, hf⟩, ⟨r, hr⟩, ⟨t, ht⟩, ⟨i, hi⟩,
      ⟨output, o, houtput, ho⟩, ⟨pose, journal, hpose⟩⟩
    exact ⟨⟨f, r, t, i, pose, o⟩, journal, frames, icp, imu, output,
      ⟨hframes, hicp, himu, houtput⟩, hf, hr, ht, hi, ho, hpose⟩

/-- The conditions of all sections together are those of the document. -/
theorem ofValue_map_accepts_iff {entries : List (Value α × Value α)} :
    (∃ c journal, ofValue (.map entries) = .ok (c, journal)) ↔
      Acceptable (.map entries) ∧ FramesWritable (.map entries) := by
  rw [ofValue_accepts_sections_iff]
  simp only [frameIdsOf_accepts_iff, registrationOf_accepts_iff, thresholdingOf_accepts_iff,
    inertialOf_accepts_iff, outputOf_accepts_iff, initialPoseOf_accepts_iff,
    exists_toScalar_iff, Value.exists_reads_iff toScalar_null_ne,
    Value.exists_reads_iff toInteger_null_ne,
    Value.argument_eq_at? entries "fiducial_calibration"]
  constructor
  · rintro ⟨frames, icp, imu, ⟨hframes, hicp, himu⟩,
      ⟨⟨hfixed, hodometry⟩, hfixed', hodometry'⟩,
      ⟨⟨hepsilon, hepsilon'⟩, ⟨hcorrespondence, hcorrespondence'⟩,
        ⟨hiterations, hiterations'⟩, hmethod⟩,
      ⟨henabled, ⟨htranslation, htranslation'⟩, ⟨hrotation, hrotation'⟩⟩,
      ⟨huse, hcheck, hgap, hcapacity⟩, hout, hpose⟩
    have hinFrames := Value.has_cons_of_at? hframes
    have hinIcp := Value.has_cons_of_at? hicp
    have hinImu := Value.has_cons_of_at? himu
    have hatFrames := Value.at?_cons_of_at? hframes
    have hatIcp := Value.at?_cons_of_at? hicp
    have hatImu := Value.at?_cons_of_at? himu
    refine ⟨?_, ?_⟩
    · exact {
        mapping := ⟨entries, rfl⟩
        sections := by
          simp only [List.forall_mem_cons, List.not_mem_nil]
          exact ⟨⟨frames, hframes⟩, ⟨icp, hicp⟩, ⟨imu, himu⟩, by simp⟩
        output := hout
        present := by
          simp only [List.forall_mem_cons, hinFrames, hinIcp, hinImu]
          exact ⟨hfixed, hodometry, hepsilon, hcorrespondence, hiterations, henabled,
            htranslation, hrotation, huse, hcheck, by simp⟩
        scalars := by
          simp only [List.forall_mem_cons, hatIcp, hatImu]
          exact ⟨hepsilon', htranslation', hrotation', hgap, by simp⟩
        correspondence := by
          rw [hatIcp]
          exact hcorrespondence'
        counts := by
          simp only [List.forall_mem_cons, hatIcp, hatImu]
          exact ⟨hiterations', hcapacity, by simp⟩
        method := by
          rw [hatIcp]
          exact hmethod
        pose := hpose }
    · simp only [FramesWritable, List.forall_mem_cons, hatFrames]
      exact ⟨hfixed', hodometry', by simp⟩
  · rintro ⟨h, hwritable⟩
    obtain ⟨-, hsections, hout, hpresent, hscalars, hcorrespondence, hcounts, hmethod, hpose⟩ := h
    obtain ⟨frames, hframes⟩ := hsections "frame_id" (by simp)
    obtain ⟨icp, hicp⟩ := hsections "icp" (by simp)
    obtain ⟨imu, himu⟩ := hsections "imu" (by simp)
    have hinFrames := Value.has_cons_of_at? hframes
    have hinIcp := Value.has_cons_of_at? hicp
    have hinImu := Value.has_cons_of_at? himu
    have hatFrames := Value.at?_cons_of_at? hframes
    have hatIcp := Value.at?_cons_of_at? hicp
    have hatImu := Value.at?_cons_of_at? himu
    simp only [List.forall_mem_cons, hinFrames, hinIcp, hinImu] at hpresent
    simp only [List.forall_mem_cons, hatIcp, hatImu] at hscalars hcounts
    simp only [FramesWritable, List.forall_mem_cons, hatFrames] at hwritable
    rw [hatIcp] at hcorrespondence hmethod
    obtain ⟨hfixed, hodometry, hepsilon, hcorr, hiterations, henabled, htranslation, hrotation,
      huse, hcheck, -⟩ := hpresent
    obtain ⟨hepsilon', htranslation', hrotation', hgap, -⟩ := hscalars
    obtain ⟨hiterations', hcapacity, -⟩ := hcounts
    obtain ⟨hfixed', hodometry', -⟩ := hwritable
    exact ⟨frames, icp, imu, ⟨hframes, hicp, himu⟩, ⟨⟨hfixed, hodometry⟩, hfixed', hodometry'⟩,
      ⟨⟨hepsilon, hepsilon'⟩, ⟨hcorr, hcorrespondence⟩, ⟨hiterations, hiterations'⟩, hmethod⟩,
      ⟨henabled, ⟨htranslation, htranslation'⟩, ⟨hrotation, hrotation'⟩⟩,
      ⟨huse, hcheck, hgap, hcapacity⟩, hout, hpose⟩

/-- A calibration asks for one pose at most. -/
theorem Poses.unique {v : Value α} {pose other : InitialPose α} (h : Poses v pose)
    (hother : Poses v other) : pose = other := by
  have hpose := initialPoseOf_eq_ok_iff.mpr ⟨h, rfl⟩
  have hsame := initialPoseOf_eq_ok_iff.mpr ⟨hother, rfl⟩
  cases hpose.symm.trans hsame
  rfl

/-- A document is accepted if and only if it is acceptable and the names of its frames can be
written out, as they always can be where no whole number of the document is too long for that.
Its pose is the one that its calibration asks for: the origin wherever one of the seven values
cannot be looked up. -/
theorem ofValue_accepts_iff (d : Value α) :
    ((∃ c journal, ofValue d = .ok (c, journal)) ↔ Acceptable d ∧ FramesWritable d) ∧
      (d.isWritable = true → FramesWritable d) ∧
      ∀ c journal, ofValue d = .ok (c, journal) →
        Poses ((d.at? ["fiducial_calibration"]).getD .null) c.initialPose ∧
        ((∃ path ∈ calibrationPaths, d.at? ("fiducial_calibration" :: path) = none) →
          c.initialPose = .origin) := by
  cases d with
  | map entries =>
      refine ⟨ofValue_map_accepts_iff, framesWritable_of_isWritable, fun c journal h => ?_⟩
      obtain ⟨_, _, _, _, -, -, -, -, -, -, hpose⟩ := ofValue_eq_ok_iff.mp h
      have hposes : Poses (((Value.map entries).at? ["fiducial_calibration"]).getD .null)
          c.initialPose := by
        rw [Value.at?_map_singleton]
        exact (initialPoseOf_eq_ok_iff.mp hpose).1
      refine ⟨hposes, ?_⟩
      rintro ⟨path, hpath, hmissing⟩
      have hsome : path ≠ [] := by
        rintro rfl
        simp [calibrationPaths] at hpath
      rw [← Value.at?_getD_null _ _ hsome] at hmissing
      exact hposes.unique (.origin hpath hmissing)
  | _ =>
      refine ⟨⟨?_, ?_⟩, framesWritable_of_isWritable, ?_⟩
      · rintro ⟨c, journal, h⟩
        cases h
      · rintro ⟨h, -⟩
        obtain ⟨entries, hentries⟩ := h.mapping
        cases hentries
      · intro c journal h
        cases h

/-- A document without a calibration and without optional names. -/
theorem ofValue_accepts_iff_of_uncalibrated :
    let d : Value Float := .ofFields [
      ("frame_id", .ofFields [("fixed", .text "map"), ("odometry", .int 7)]),
      ("icp", .ofFields [("tf_epsilon", .int 0), ("corr_dist", .number 0.5),
        ("iterations", .number 30.5), ("transform_thresholding", .text "no"),
        ("max_translation", .bool true), ("max_rotation", .number 0.25)]),
      ("imu", .ofFields [("use_imu_data", .int 0), ("check_imu_data", .bool false)])]
    ∃ c journal, ofValue d = .ok (c, journal) ∧ Acceptable d ∧
      (∃ path ∈ calibrationPaths, d.at? ("fiducial_calibration" :: path) = none) ∧
      c.initialPose = .origin := by
  intro d
  have hread : (ofValue d).toOption.isSome = true := by decide +kernel
  obtain ⟨⟨c, journal⟩, hc⟩ := Option.isSome_iff_exists.mp hread
  have hok : ofValue d = .ok (c, journal) := Failure.of_toOption hc
  have hmissing : ∃ path ∈ calibrationPaths, d.at? ("fiducial_calibration" :: path) = none :=
    ⟨["position", "x"], by decide, rfl⟩
  obtain ⟨haccepts, -, hpose⟩ := ofValue_accepts_iff d
  exact ⟨c, journal, hok, (haccepts.mp ⟨c, journal, hok⟩).1, hmissing,
    (hpose c journal hok).2 hmissing⟩

end Config

end InertialOdometry
