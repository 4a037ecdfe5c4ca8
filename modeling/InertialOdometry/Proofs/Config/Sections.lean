import InertialOdometry.Config.Basic

/-!
What the sections of a configuration have to hold. A document is looked into by paths of
names. For each section there is one equation of the readings that it accepts: which
values it looks for, which of them may be missing, and how each of them is converted.
-/

namespace InertialOdometry

variable {α : Type}

namespace Value

/-- The value at a path: the one that is found by one name after another. -/
def at? : Value α → List String → Option (Value α)
  | v, [] => some v
  | .map entries, name :: path => (lookup? entries name).bind fun v => v.at? path
  | _, _ :: _ => none

@[simp]
theorem at?_nil (v : Value α) : v.at? [] = some v := by
  cases v <;> rfl

@[simp]
theorem at?_map_cons (entries : List (Value α × Value α)) (name : String)
    (path : List String) :
    (map entries).at? (name :: path) = (lookup? entries name).bind fun v => v.at? path := rfl

theorem at?_map_singleton (entries : List (Value α × Value α)) (name : String) :
    (map entries).at? [name] = lookup? entries name := by
  simp

theorem argument_eq_at? (entries : List (Value α × Value α)) (name : String)
    (default : Value α) :
    argument entries name default = ((map entries).at? [name]).getD default := by
  rw [at?_map_singleton, argument]

/-- A path can be followed from any place on it. -/
theorem at?_append (v : Value α) (front back : List String) :
    v.at? (front ++ back) = (v.at? front).bind fun w => w.at? back := by
  induction front generalizing v with
  | nil => simp
  | cons name front ih =>
      cases v with
      | map entries =>
          simp only [List.cons_append, at?_map_cons, Option.bind_assoc]
          exact congrArg _ (funext fun w => ih w)
      | _ => rfl

theorem at?_cons (d : Value α) (name : String) (path : List String) :
    d.at? (name :: path) = (d.at? [name]).bind fun v => v.at? path :=
  d.at?_append [name] path

/-- A path through a section is a path within it. -/
theorem at?_cons_of_at? {d v : Value α} {name : String} (h : d.at? [name] = some v)
    (path : List String) : d.at? (name :: path) = v.at? path := by
  rw [at?_cons d name path, h, Option.bind_some]

def Reads {β : Type} (d : Value α) (path : List String) (read : Value α → Except Failure β)
    (b : β) : Prop :=
  ∃ v, d.at? path = some v ∧ read v = .ok b

theorem textKey?_eq_some_iff {v : Value α} {name : String} :
    v.textKey? = some name ↔ v = .text name := by
  cases v <;> simp [textKey?]

theorem unknownName?_eq_none_iff {known : List String} {entries : List (Value α × Value α)} :
    unknownName? known entries = none ↔
      ∀ entry ∈ entries, ∀ name, entry.1 = .text name → name ∈ known := by
  rw [unknownName?, List.find?_eq_none]
  constructor
  · intro h entry hentry name hname
    have hkey : entry.1.textKey? = some name := textKey?_eq_some_iff.mpr hname
    simpa using h name (List.mem_filterMap.mpr ⟨entry, hentry, hkey⟩)
  · intro h name hname
    obtain ⟨entry, hentry, hkey⟩ := List.mem_filterMap.mp hname
    simpa using h entry hentry name (textKey?_eq_some_iff.mp hkey)

end Value

theorem Method.ofName?_eq_some_iff {shown : String} {m : Method} :
    ofName? shown = some m ↔ shown = m.name := by
  constructor
  · intro hm
    have hname : m.name = shown := by simpa using List.find?_some hm
    exact hname.symm
  · rintro rfl
    exact ofName?_name m

variable [Scalar α]

theorem Value.written_eq_ok_iff {v : Value α} {s : String} :
    v.written = .ok s ↔ v.isWritable = true ∧ v.plain = s := by
  rw [written]
  split <;> simp [*]

/-- What is refused is not accepted, whether or not it can be written out. -/
theorem Section.refuse_ne_ok {β : Type} {cause : String → Failure} {v : Value α} {b : β} :
    refuse cause v ≠ .ok b := by
  unfold refuse
  cases v.written <;> exact nofun

namespace Config

variable {entries : List (Value α × Value α)} {name group key : String}

omit [Scalar α] in
theorem section?_eq_ok_iff {found : Option (List (Value α × Value α))} :
    Config.section? entries name = .ok found ↔
      (found = none ∧ ∀ v, (Value.map entries).at? [name] = some v → v = .null) ∨
        ∃ rows, found = some rows ∧ (Value.map entries).at? [name] = some (.map rows) := by
  rw [Value.at?_map_singleton, section?]
  cases Value.lookup? entries name with
  | none => simp [eq_comm]
  | some v => cases v <;> simp [eq_comm]

omit [Scalar α] in
/-- A section that has to be there is a mapping at its name. -/
theorem requiredSection_eq_ok_iff {rows : List (Value α × Value α)} :
    requiredSection entries name = .ok rows ↔
      (Value.map entries).at? [name] = some (.map rows) := by
  rw [requiredSection, Failure.bind_eq_ok_iff]
  constructor
  · rintro ⟨found, hfound, hrows⟩
    rcases section?_eq_ok_iff.mp hfound with ⟨rfl, -⟩ | ⟨rows', rfl, hat⟩
    · cases hrows
    · cases hrows
      exact hat
  · intro hat
    exact ⟨some rows, section?_eq_ok_iff.mpr (.inr ⟨rows, rfl, hat⟩), rfl⟩

omit [Scalar α] in
/-- A parameter that is null counts as missing. -/
theorem parameter_eq_ok_iff {v : Value α} :
    parameter group entries key = .ok v ↔
      (Value.map entries).at? [key] = some v ∧ v ≠ .null := by
  rw [Value.at?_map_singleton, parameter]
  cases Value.lookup? entries key with
  | none => simp
  | some w =>
      cases w <;> simp <;> rintro rfl <;> simp

omit [Scalar α] in
/-- A parameter that is read in such a way that null is refused. -/
theorem parameter_reads_iff {β : Type} {read : Value α → Except Failure β} {b : β}
    (hnull : read .null ≠ .ok b) :
    (∃ v, parameter group entries key = .ok v ∧ read v = .ok b) ↔
      (Value.map entries).Reads [key] read b := by
  constructor
  · rintro ⟨v, hv, hread⟩
    exact ⟨v, (parameter_eq_ok_iff.mp hv).1, hread⟩
  · rintro ⟨v, hv, hread⟩
    refine ⟨v, parameter_eq_ok_iff.mpr ⟨hv, ?_⟩, hread⟩
    rintro rfl
    exact hnull hread

theorem toScalar_null_ne (x : α) : (Value.null : Value α).toScalar ≠ .ok x := by
  intro h
  cases h

theorem toInteger_null_ne (n : Int) : (Value.null : Value α).toInteger ≠ .ok n := by
  intro h
  cases h

/-- Any value is taken for the name of a frame, as it is written out. -/
theorem frameIdsOf_eq_ok_iff {f : FrameIds} :
    frameIdsOf entries = .ok f ↔
      (∃ v, ((Value.map entries).at? ["fixed"] = some v ∧ v ≠ .null) ∧ v.written = .ok f.fixed) ∧
        ∃ v, ((Value.map entries).at? ["odometry"] = some v ∧ v ≠ .null) ∧
          v.written = .ok f.odometry := by
  simp only [frameIdsOf, Failure.bind_eq_ok_iff, parameter_eq_ok_iff]
  constructor
  · rintro ⟨v, hv, fixed, hfixed, w, hw, odometry, hodometry, hf⟩
    cases hf
    exact ⟨⟨v, hv, hfixed⟩, ⟨w, hw, hodometry⟩⟩
  · rintro ⟨⟨v, hv, hfixed⟩, ⟨w, hw, hodometry⟩⟩
    exact ⟨v, hv, f.fixed, hfixed, w, hw, f.odometry, hodometry, rfl⟩

/-- What is read of a registration section. That two of its numbers are positive is part of what
is read. -/
theorem registrationOf_eq_ok_iff {r : RegistrationConfig α} :
    registrationOf entries = .ok r ↔
      (Value.map entries).Reads ["tf_epsilon"] Value.toScalar r.epsilon ∧
        (Value.map entries).Reads ["corr_dist"] Value.toScalar r.correspondence ∧
        (Value.map entries).Reads ["iterations"] Value.toInteger r.iterations ∧
        (Value.argument entries "method" (.text "gicp")).written = .ok r.method.name := by
  simp only [registrationOf, Failure.bind_eq_ok_iff]
  constructor
  · rintro ⟨ve, hve, epsilon, hepsilon, vc, hvc, correspondence, hcorrespondence, vi, hvi,
      iterations, hiterations, shown, hshown, h⟩
    split at h
    · cases h
    · rename_i method hmethod
      split at h
      · exact absurd h Section.refuse_ne_ok
      · split at h
        · cases h
          rw [Method.ofName?_eq_some_iff.mp hmethod] at hshown
          exact ⟨(parameter_reads_iff (toScalar_null_ne _)).mp ⟨ve, hve, hepsilon⟩,
            (parameter_reads_iff (toScalar_null_ne _)).mp ⟨vc, hvc, hcorrespondence⟩,
            (parameter_reads_iff (toInteger_null_ne _)).mp ⟨vi, hvi, hiterations⟩, hshown⟩
        · exact absurd h Section.refuse_ne_ok
  · rintro ⟨hepsilon, hcorrespondence, hiterations, hmethod⟩
    obtain ⟨ve, hve, hepsilon⟩ := (parameter_reads_iff (toScalar_null_ne _)).mpr hepsilon
    obtain ⟨vc, hvc, hcorrespondence⟩ :=
      (parameter_reads_iff (toScalar_null_ne _)).mpr hcorrespondence
    obtain ⟨vi, hvi, hiterations⟩ :=
      (parameter_reads_iff (toInteger_null_ne _)).mpr hiterations
    refine ⟨ve, hve, r.epsilon, hepsilon, vc, hvc, r.correspondence, hcorrespondence, vi, hvi,
      r.iterations, hiterations, r.method.name, hmethod, ?_⟩
    rw [Method.ofName?_name]
    simp only [r.correspondence_pos, r.iterations_pos, dite_true, dite_false]
    rfl

/-- The limits are converted, the switch is any value that counts as a yes or a no. -/
theorem thresholdingOf_eq_ok_iff {t : ThresholdConfig α} :
    thresholdingOf entries = .ok t ↔
      (∃ v, ((Value.map entries).at? ["transform_thresholding"] = some v ∧ v ≠ .null) ∧
          t.enabled = v.truth) ∧
        (Value.map entries).Reads ["max_translation"] Value.toScalar t.maxTranslation ∧
        (Value.map entries).Reads ["max_rotation"] Value.toScalar t.maxRotation := by
  simp only [thresholdingOf, Failure.bind_eq_ok_iff]
  constructor
  · rintro ⟨enabled, henabled, vt, hvt, maxTranslation, htranslation, vr, hvr, maxRotation,
      hrotation, ht⟩
    cases ht
    exact ⟨⟨enabled, parameter_eq_ok_iff.mp henabled, rfl⟩,
      (parameter_reads_iff (toScalar_null_ne _)).mp ⟨vt, hvt, htranslation⟩,
      (parameter_reads_iff (toScalar_null_ne _)).mp ⟨vr, hvr, hrotation⟩⟩
  · rintro ⟨⟨enabled, henabled, htruth⟩, htranslation, hrotation⟩
    obtain ⟨vt, hvt, htranslation⟩ :=
      (parameter_reads_iff (toScalar_null_ne _)).mpr htranslation
    obtain ⟨vr, hvr, hrotation⟩ := (parameter_reads_iff (toScalar_null_ne _)).mpr hrotation
    refine ⟨enabled, parameter_eq_ok_iff.mpr henabled, vt, hvt, t.maxTranslation, htranslation,
      vr, hvr, t.maxRotation, hrotation, ?_⟩
    rw [← htruth]
    rfl

/-- The numbers of an inertial section have values that stand in for them, its switches have none.
-/
theorem inertialOf_eq_ok_iff {i : InertialConfig α} :
    inertialOf entries = .ok i ↔
      (∃ v, ((Value.map entries).at? ["use_imu_data"] = some v ∧ v ≠ .null) ∧
          i.useInertial = v.truth) ∧
        (∃ v, ((Value.map entries).at? ["check_imu_data"] = some v ∧ v ≠ .null) ∧
          i.checkInertial = v.truth) ∧
        (Value.argument entries "max_timestamp_gap"
          (.number (Scalar.decimal 5 (-2)))).toScalar = .ok i.maxGap ∧
        (Value.argument entries "buffer_capacity" (.int 100)).toInteger = .ok i.capacity := by
  simp only [inertialOf, Failure.bind_eq_ok_iff]
  constructor
  · rintro ⟨use, huse, check, hcheck, maxGap, hgap, capacity, hcapacity, h⟩
    split at h
    · cases h
      exact ⟨⟨use, parameter_eq_ok_iff.mp huse, rfl⟩,
        ⟨check, parameter_eq_ok_iff.mp hcheck, rfl⟩, hgap, hcapacity⟩
    · exact absurd h Section.refuse_ne_ok
  · rintro ⟨⟨use, huse, husetruth⟩, ⟨check, hcheck, hchecktruth⟩, hgap, hcapacity⟩
    refine ⟨use, parameter_eq_ok_iff.mpr huse, check, parameter_eq_ok_iff.mpr hcheck, i.maxGap,
      hgap, i.capacity, hcapacity, ?_⟩
    rw [dif_pos i.capacity_pos, ← husetruth, ← hchecktruth]
    rfl

theorem outputFault?_eq_none_iff :
    outputFault? entries = none ↔ ∀ entry ∈ entries,
      ∃ name ∈ ["output_dir", "save_results", "export_tum", "log_level"],
        entry.1 = .text name := by
  have hknown : (Section.output.optional : List (String × Value α)).map (·.1) =
      ["output_dir", "save_results", "export_tum", "log_level"] := rfl
  unfold outputFault?
  simp only [hknown]
  constructor
  · intro h entry hentry
    split at h
    · cases h
    · rename_i htext
      cases hunknown : Value.unknownName?
          ["output_dir", "save_results", "export_tum", "log_level"] entries with
      | some name =>
          rw [hunknown] at h
          split at h
          · rename_i hnone
            cases hnone
          · cases h
          · cases h
      | none =>
          cases hkey : entry.1.textKey? with
          | none =>
              refine absurd (List.any_eq_true.mpr ⟨entry, hentry, ?_⟩) htext
              rw [hkey]
              rfl
          | some name =>
              have hname := Value.textKey?_eq_some_iff.mp hkey
              have hmem := Value.unknownName?_eq_none_iff.mp hunknown entry hentry name hname
              exact ⟨name, hmem, hname⟩
  · intro h
    have htext : ¬(entries.any fun entry => entry.1.textKey?.isNone) = true := by
      intro hany
      obtain ⟨entry, hentry, hnone⟩ := List.any_eq_true.mp hany
      obtain ⟨name, -, hname⟩ := h entry hentry
      rw [Value.textKey?_eq_some_iff.mpr hname] at hnone
      cases hnone
    have hunknown : Value.unknownName?
        ["output_dir", "save_results", "export_tum", "log_level"] entries = none := by
      refine Value.unknownName?_eq_none_iff.mpr fun entry hentry name hname => ?_
      obtain ⟨other, hother, hentry'⟩ := h entry hentry
      cases hname.symm.trans hentry'
      exact hother
    rw [if_neg htext, hunknown]

/-- The output section is kept as it was given, if all its names are known. -/
theorem outputOf_eq_ok_iff {o : OutputConfig α} :
    outputOf entries = .ok o ↔
      (∀ entry ∈ entries, ∃ name ∈ ["output_dir", "save_results", "export_tum", "log_level"],
          entry.1 = .text name) ∧
        o = {
          directory := Value.argument entries "output_dir" (.text "output")
          saveResults := Value.argument entries "save_results" (.bool true)
          exportTrajectory := Value.argument entries "export_tum" (.bool true)
          logLevel := Value.argument entries "log_level" (.text "INFO") } := by
  rw [← outputFault?_eq_none_iff, outputOf]
  cases outputFault? entries with
  | none => simp [eq_comm]
  | some reason => simp

end Config

end InertialOdometry
