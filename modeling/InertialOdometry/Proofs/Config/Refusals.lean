import InertialOdometry.Proofs.Config.Acceptance

/-!
What a document is refused with. Whatever is missing, of the wrong kind or out of range is
told as a failure of the configuration, with two exceptions. A number that cannot be read is
told as the conversion tells it; in a calibration this is so only of whole numbers that are
out of the range of scalars. And a whole number that is too long to be written out is told as
such, where a name or the refusal itself would have to show it.
-/

namespace InertialOdometry

namespace Failure

variable {β γ : Type}

/-- A computation fails in certain ways only. -/
def Only (x : Except Failure β) (p : Failure → Prop) : Prop := ∀ f, x = .error f → p f

variable {x : Except Failure β} {p q : Failure → Prop}

private theorem only_ok (b : β) : Only (.ok b) p := by
  intro f h
  cases h

private theorem only_error {f : Failure} (hf : p f) : Only (.error f : Except Failure β) p := by
  intro g h
  cases h
  exact hf

theorem Only.mono (h : Only x p) (himp : ∀ f, p f → q f) : Only x q := fun f hf =>
  himp f (h f hf)

/-- The failures of a computation in two stages are those of its stages. -/
theorem Only.bind {next : β → Except Failure γ} (hx : Only x p)
    (hnext : ∀ b, x = .ok b → Only (next b) p) : Only (x >>= next) p := by
  intro f h
  rcases of_bind_error h with h | ⟨b, hb, h⟩
  · exact hx f h
  · exact hnext b hb f h

/-- The conversion of a row fails only as that of one of its values does. -/
theorem only_mapM (read : β → Except Failure γ) {xs : List β}
    (h : ∀ b ∈ xs, Only (read b) p) : Only (xs.mapM read) p := by
  induction xs with
  | nil => exact only_ok []
  | cons b xs ih =>
      rw [List.forall_mem_cons] at h
      rw [List.mapM_cons]
      exact h.1.bind fun c _ => (ih h.2).bind fun cs _ => only_ok (c :: cs)

def TellsConfig (f : Failure) : Prop := f.category = .configuration

end Failure

open Failure

variable {α : Type}

namespace Value

def Refuses {β : Type} (d : Value α) (path : List String) (read : Value α → Except Failure β)
    (f : Failure) : Prop :=
  ∃ v, d.at? path = some v ∧ read v = .error f

variable {β : Type} {read : Value α → Except Failure β} {f : Failure}

private theorem refuses_cons_of_at? {d v : Value α} {name : String} (h : d.at? [name] = some v)
    (path : List String) : d.Refuses (name :: path) read f ↔ v.Refuses path read f := by
  rw [Refuses, Refuses, at?_cons_of_at? h]

/-- What stands in for a name can be read, so that a value that cannot be read was given. -/
theorem only_refuses_of_argument (read : Value α → Except Failure β)
    {entries : List (Value α × Value α)} {name : String} {default : Value α} {b : β}
    (hdefault : read default = .ok b) :
    Only (read (argument entries name default)) ((map entries).Refuses [name] read) := by
  intro f h
  rw [argument_eq_at?] at h
  cases hv : (map entries).at? [name] with
  | none =>
      rw [hv, Option.getD_none, hdefault] at h
      cases h
  | some v =>
      rw [hv, Option.getD_some] at h
      exact ⟨v, hv, h⟩

variable [Scalar α]

private theorem only_scalarOfText (s quoted : String) :
    Only (scalarOfText s quoted : Except Failure α) fun f => ∃ shown, f = .notNumeric shown := by
  unfold scalarOfText
  split
  · exact only_ok _
  · exact only_error ⟨quoted, rfl⟩

/-- A scalar cannot be read for being out of range, or else for a reason that has a wording. -/
theorem only_toScalar (v : Value α) : Only v.toScalar fun f =>
    f = .beyondScalars ∨ (∃ shown, f = .notNumeric shown) ∨ ∃ kind, f = .notReal kind := by
  cases v with
  | bool b => exact only_ok _
  | int n =>
      simp only [toScalar, scalarOfInt]
      split
      · exact only_ok _
      · exact only_error (.inl rfl)
  | number x => exact only_ok x
  | text s => exact (only_scalarOfText _ _).mono fun _ hf => .inr (.inl hf)
  | bytes bs => exact (only_scalarOfText _ _).mono fun _ hf => .inr (.inl hf)
  | _ => exact only_error (.inr (.inr ⟨_, rfl⟩))

private theorem toScalar_error_category (v : Value α) :
    Only v.toScalar fun f => f.category ≠ .configuration := by
  refine v.only_toScalar.mono ?_
  rintro f (rfl | ⟨quoted, rfl⟩ | ⟨kind, rfl⟩) <;> simp [category]

private theorem integerOfText_error_category (s quoted : String) :
    Only (integerOfText s quoted) fun f => f.category ≠ .configuration := by
  unfold integerOfText
  split
  · exact only_ok _
  · exact only_error (by simp [category])
  · exact only_error (by simp [category])

private theorem toInteger_error_category (v : Value α) :
    Only v.toInteger fun f => f.category ≠ .configuration := by
  cases v with
  | bool b => exact only_ok _
  | int n => exact only_ok n
  | number x =>
      simp only [toInteger]
      split
      · exact only_error (by simp [category])
      · split
        · exact only_error (by simp [category])
        · exact only_ok _
  | text s => exact integerOfText_error_category _ _
  | bytes bs => exact integerOfText_error_category _ _
  | _ => exact only_error (by simp [category])

end Value

/-- A value that cannot be written out is told as such. -/
theorem Value.only_written [Scalar α] (v : Value α) :
    Only v.written fun f => f = .tooLongToWrite := by
  unfold written
  split
  · exact only_ok _
  · exact only_error rfl

/-- What is refused is told by the cause, unless it cannot be written out. -/
theorem Section.only_refuse [Scalar α] {β : Type} (cause : String → Failure) (v : Value α) :
    Only (refuse cause v : Except Failure β) fun f =>
      (∃ shown, f = cause shown) ∨ v.written = .error f := by
  unfold refuse
  cases hv : v.written with
  | ok shown => exact only_error (.inl ⟨shown, rfl⟩)
  | error f => exact only_error (.inr rfl)

namespace Config

variable {entries rows : List (Value α × Value α)} {name group key : String}

theorem only_section? : Only (Config.section? entries name) TellsConfig := by
  unfold Config.section?
  split
  · exact only_ok none
  · exact only_ok none
  · exact only_ok _
  · exact only_error rfl

theorem only_requiredSection : Only (requiredSection entries name) TellsConfig := by
  refine only_section?.bind fun found _ => ?_
  cases found with
  | none => exact only_error rfl
  | some rows => exact only_ok rows

theorem only_parameter : Only (parameter group entries key) TellsConfig := by
  unfold parameter
  split
  · exact only_error rfl
  · exact only_error rfl
  · exact only_ok _

/-- What is there and cannot be read is told by what reads it. -/
theorem only_refuses_of_parameter {β : Type} {read : Value α → Except Failure β} {v : Value α}
    (h : parameter group entries key = .ok v) :
    Only (read v) ((Value.map entries).Refuses [key] read) := fun _ hf =>
  ⟨v, (parameter_eq_ok_iff.mp h).1, hf⟩

variable [Scalar α]

def scalarPaths : List (List String) :=
  [["icp", "tf_epsilon"], ["icp", "corr_dist"], ["icp", "max_translation"],
    ["icp", "max_rotation"], ["imu", "max_timestamp_gap"]]

def countPaths : List (List String) := [["icp", "iterations"], ["imu", "buffer_capacity"]]

/-- Where a configuration has a text, for which any value is written out. -/
def textPaths : List (List String) :=
  [["frame_id", "fixed"], ["frame_id", "odometry"], ["icp", "method"]]

/-- A failure to read one of the numbers of a document, or to write one of its values out: as
a text, or for the refusal of a whole number that is not above zero. -/
inductive Unconverted (d : Value α) (f : Failure) : Prop where
  | scalar {path : List String} (hpath : path ∈ scalarPaths)
      (hrefuses : d.Refuses path Value.toScalar f)
  | count {path : List String} (hpath : path ∈ countPaths)
      (hrefuses : d.Refuses path Value.toInteger f)
  | calibration {path : List String} (hpath : path ∈ calibrationPaths)
      (hrefuses : d.Refuses ("fiducial_calibration" :: path) Value.toScalar f)
      (hbeyond : f = .beyondScalars)
  | text {path : List String} (hpath : path ∈ textPaths)
      (hrefuses : d.Refuses path Value.written f)
  | refusal {path : List String} (hpath : path ∈ countPaths) {n : Int}
      (hreads : d.Reads path Value.toInteger n) (hsmall : ¬0 < n)
      (hwritten : (Value.int n : Value α).written = .error f)

theorem Unconverted.category_ne {d : Value α} {f : Failure} (h : Unconverted d f) :
    f.category ≠ .configuration := by
  cases h with
  | scalar _ hrefuses =>
      obtain ⟨v, -, hf⟩ := hrefuses
      exact v.toScalar_error_category f hf
  | count _ hrefuses =>
      obtain ⟨v, -, hf⟩ := hrefuses
      exact v.toInteger_error_category f hf
  | calibration _ hrefuses _ =>
      obtain ⟨v, -, hf⟩ := hrefuses
      exact v.toScalar_error_category f hf
  | text _ hrefuses =>
      obtain ⟨v, -, hf⟩ := hrefuses
      cases v.only_written f hf
      decide
  | refusal _ _ _ hwritten =>
      cases Value.only_written _ f hwritten
      decide

def Told (d : Value α) (f : Failure) : Prop := TellsConfig f ∨ Unconverted d f

private theorem only_told {β : Type} {x : Except Failure β} (d : Value α) (h : Only x TellsConfig) :
    Only x (Told d) := h.mono fun _ => Or.inl

section

variable {d v : Value α}

private theorem only_scalar (hrows : d.at? [name] = some (.map rows))
    (hpath : [name, key] ∈ scalarPaths) (hv : parameter group rows key = .ok v) :
    Only v.toScalar (Told d) :=
  (only_refuses_of_parameter hv).mono fun _ hf =>
    .inr (.scalar hpath ((Value.refuses_cons_of_at? hrows [key]).mpr hf))

private theorem only_count (hrows : d.at? [name] = some (.map rows))
    (hpath : [name, key] ∈ countPaths) (hv : parameter group rows key = .ok v) :
    Only v.toInteger (Told d) :=
  (only_refuses_of_parameter hv).mono fun _ hf =>
    .inr (.count hpath ((Value.refuses_cons_of_at? hrows [key]).mpr hf))

private theorem only_text (hrows : d.at? [name] = some (.map rows))
    (hpath : [name, key] ∈ textPaths)
    (hv : (Value.map rows).at? [key] = some v) : Only v.written (Told d) := fun _ hf =>
  .inr (.text hpath ⟨v, (Value.at?_cons_of_at? hrows [key]).trans hv, hf⟩)

/-- The refusal of a whole number that was read tells of the configuration, unless the number
is too long to be written out. -/
theorem only_refuse {β : Type} {n : Int} {setting : String} (hpath : [name, key] ∈ countPaths)
    (hrows : d.at? [name] = some (.map rows))
    (hread : (Value.map rows).Reads [key] Value.toInteger n) (hsmall : ¬0 < n) :
    Only (Section.refuse (.notPositive setting) (.int n : Value α) : Except Failure β)
      (Told d) := by
  obtain ⟨v, hv, hn⟩ := hread
  refine (Section.only_refuse _ _).mono ?_
  rintro f (⟨shown, rfl⟩ | hwritten)
  · exact .inl rfl
  · exact .inr (.refusal hpath ⟨v, (Value.at?_cons_of_at? hrows [key]).trans hv, hn⟩ hsmall
      hwritten)

theorem only_frameIdsOf (hframes : d.at? ["frame_id"] = some (.map rows)) :
    Only (frameIdsOf rows) (Told d) := by
  refine (only_told d only_parameter).bind fun v hv =>
    (only_text hframes (by decide) (parameter_eq_ok_iff.mp hv).1).bind fun fixed _ => ?_
  refine (only_told d only_parameter).bind fun w hw =>
    (only_text hframes (by decide) (parameter_eq_ok_iff.mp hw).1).bind fun odometry _ => ?_
  exact only_ok _

theorem only_registrationOf (hicp : d.at? ["icp"] = some (.map rows)) :
    Only (registrationOf rows) (Told d) := by
  refine (only_told d only_parameter).bind fun ve hve =>
    (only_scalar hicp (by decide) hve).bind fun epsilon _ => ?_
  refine (only_told d only_parameter).bind fun vc hvc =>
    (only_scalar hicp (by decide) hvc).bind fun correspondence _ => ?_
  refine (only_told d only_parameter).bind fun vi hvi =>
    (only_count hicp (by decide) hvi).bind fun iterations hiterations => ?_
  have hmethod : Only (Value.argument rows "method" (.text "gicp")).written (Told d) :=
    (Value.only_refuses_of_argument Value.written rfl).mono fun _ hf =>
      .inr (.text (by decide) ((Value.refuses_cons_of_at? hicp ["method"]).mpr hf))
  refine hmethod.bind fun shown _ => ?_
  split
  · exact only_told d (only_error rfl)
  · split
    · refine (Section.only_refuse _ _).mono ?_
      rintro f (⟨shown, rfl⟩ | hwritten)
      · exact .inl rfl
      · cases hwritten
    · split
      · exact only_ok _
      · rename_i hsmall
        exact only_refuse (by decide) hicp ⟨vi, (parameter_eq_ok_iff.mp hvi).1, hiterations⟩
          hsmall

theorem only_thresholdingOf (hicp : d.at? ["icp"] = some (.map rows)) :
    Only (thresholdingOf rows) (Told d) := by
  refine (only_told d only_parameter).bind fun enabled _ => ?_
  refine (only_told d only_parameter).bind fun vt hvt =>
    (only_scalar hicp (by decide) hvt).bind fun maxTranslation _ => ?_
  refine (only_told d only_parameter).bind fun vr hvr =>
    (only_scalar hicp (by decide) hvr).bind fun maxRotation _ => ?_
  exact only_ok _

theorem only_inertialOf (himu : d.at? ["imu"] = some (.map rows)) :
    Only (inertialOf rows) (Told d) := by
  have hgap : Only (Value.argument rows "max_timestamp_gap"
      (.number (Scalar.decimal 5 (-2)))).toScalar (Told d) :=
    (Value.only_refuses_of_argument Value.toScalar rfl).mono fun _ hf =>
      .inr (.scalar (by decide) ((Value.refuses_cons_of_at? himu ["max_timestamp_gap"]).mpr hf))
  have hcapacity : Only (Value.argument rows "buffer_capacity" (.int 100)).toInteger (Told d) :=
    (Value.only_refuses_of_argument Value.toInteger rfl).mono fun _ hf =>
      .inr (.count (by decide) ((Value.refuses_cons_of_at? himu ["buffer_capacity"]).mpr hf))
  refine (only_told d only_parameter).bind fun useInertial _ =>
    (only_told d only_parameter).bind fun checkInertial _ =>
    hgap.bind fun maxGap _ => hcapacity.bind fun capacity hread => ?_
  split
  · exact only_ok _
  · rename_i hsmall
    refine only_refuse (show ["imu", "buffer_capacity"] ∈ countPaths by decide) himu ?_ hsmall
    -- The number that stands in for a capacity is above zero, so that this one was given.
    rw [Value.argument_eq_at?] at hread
    cases hv : (Value.map rows).at? ["buffer_capacity"] with
    | none =>
        rw [hv] at hread
        cases hread
        exact absurd (by decide) hsmall
    | some v =>
        rw [hv] at hread
        exact ⟨v, hv, hread⟩

end

theorem only_outputOf : Only (outputOf rows) TellsConfig := by
  unfold outputOf
  split
  · exact only_error rfl
  · exact only_ok _

/-- A part of a calibration is converted, or else it is told why not, unless a whole number is
out of range. -/
theorem only_calibrated (values : List (Value α)) :
    Only (calibrated name values) fun f => TellsConfig f ∨
      f = .beyondScalars ∧ ∃ v ∈ values, v.toScalar = .error f := by
  unfold calibrated
  have hrow := only_mapM Value.toScalar fun v (hv : v ∈ values) f hf =>
    (⟨Value.only_toScalar v f hf, v, hv, hf⟩ : _ ∧ ∃ v ∈ values, v.toScalar = .error f)
  cases h : values.mapM Value.toScalar with
  | ok xs => exact only_ok xs
  | error e =>
      obtain ⟨rfl | ⟨quoted, rfl⟩ | ⟨kind, rfl⟩, hvalue⟩ := hrow e h
      · exact only_error (.inr ⟨rfl, hvalue⟩)
      · exact only_error (.inl rfl)
      · exact only_error (.inl rfl)

omit [Scalar α] in
/-- The values that are found under a row of keys are found under these. -/
theorem exists_key_of_mem {v value : Value α} {part : String} {keys : List String}
    {values : List (Value α)}
    (h : List.Forall₂ (fun key value => v.at? [part, key] = some value) keys values)
    (hvalue : value ∈ values) : ∃ key ∈ keys, v.at? [part, key] = some value := by
  induction h with
  | nil => cases hvalue
  | @cons key w keys values hw hrest ih =>
      rcases List.mem_cons.mp hvalue with rfl | hvalue
      · exact ⟨key, List.mem_cons_self, hw⟩
      · obtain ⟨other, hother, hat⟩ := ih hvalue
        exact ⟨other, List.mem_cons_of_mem key hother, hat⟩

theorem only_initialPoseOf (v : Value α) : Only (initialPoseOf v) fun f => TellsConfig f ∨
    f = .beyondScalars ∧ ∃ path ∈ calibrationPaths, v.Refuses path Value.toScalar f := by
  unfold initialPoseOf
  split
  · exact only_ok _
  · rename_i position orientation hsome
    obtain ⟨hposition, horientation⟩ := calibration?_eq_some_iff.mp hsome
    have hp : ∀ w ∈ position, ∃ path ∈ calibrationPaths, v.at? path = some w := by
      intro w hw
      obtain ⟨key, hkey, hat⟩ := exists_key_of_mem hposition hw
      exact ⟨["position", key], List.mem_append_left _ (List.mem_map.mpr ⟨key, hkey, rfl⟩), hat⟩
    have ho : ∀ w ∈ orientation, ∃ path ∈ calibrationPaths, v.at? path = some w := by
      intro w hw
      obtain ⟨key, hkey, hat⟩ := exists_key_of_mem horientation hw
      exact ⟨["orientation", key], List.mem_append_right _ (List.mem_map.mpr ⟨key, hkey, rfl⟩),
        hat⟩
    have hpart {name : String} {values : List (Value α)}
        (hvalues : ∀ w ∈ values, ∃ path ∈ calibrationPaths, v.at? path = some w) :
        Only (calibrated name values) fun f => TellsConfig f ∨
          f = .beyondScalars ∧ ∃ path ∈ calibrationPaths, v.Refuses path Value.toScalar f := by
      refine (only_calibrated values).mono ?_
      rintro f (htells | ⟨hbeyond, w, hw, hf⟩)
      · exact .inl htells
      · obtain ⟨path, hpath, hat⟩ := hvalues w hw
        exact .inr ⟨hbeyond, path, hpath, w, hat, hf⟩
    refine (hpart hp).bind fun xs _ => (hpart ho).bind fun ys _ => ?_
    split
    · split
      · exact only_error (.inl rfl)
      · exact only_ok _
    · exact only_ok _

/-- The failures of all sections together, in the order in which they are read. -/
theorem only_ofValue (d : Value α) : Only (ofValue d) (Told d) := by
  cases d with
  | map entries =>
      let d : Value α := .map entries
      have hpose : Only (initialPoseOf (Value.argument entries "fiducial_calibration" .null))
          (Told d) := by
        refine (only_initialPoseOf _).mono ?_
        rintro f (htells | ⟨hbeyond, path, hpath, v, hat, hf⟩)
        · exact .inl htells
        · have hsome : path ≠ [] := by
            rintro rfl
            simp [calibrationPaths] at hpath
          rw [Value.argument_eq_at?, Value.at?_getD_null _ _ hsome] at hat
          exact .inr (.calibration hpath ⟨v, hat, hf⟩ hbeyond)
      refine (only_told d only_requiredSection).bind fun frames hframes =>
        (only_told d only_requiredSection).bind fun icp hicp =>
        (only_told d only_requiredSection).bind fun imu himu =>
        (only_told d only_section?).bind fun output _ => ?_
      have hframes : d.at? ["frame_id"] = some (.map frames) :=
        requiredSection_eq_ok_iff.mp hframes
      have hicp : d.at? ["icp"] = some (.map icp) := requiredSection_eq_ok_iff.mp hicp
      have himu : d.at? ["imu"] = some (.map imu) := requiredSection_eq_ok_iff.mp himu
      exact (only_frameIdsOf hframes).bind fun _ _ =>
        (only_registrationOf hicp).bind fun _ _ =>
        (only_thresholdingOf hicp).bind fun _ _ =>
        (only_inertialOf himu).bind fun _ _ =>
        (only_told d only_outputOf).bind fun _ _ => hpose.bind fun _ _ => only_ok _
  | _ => exact only_told _ (only_error rfl)

/-- A document is refused with a failure that tells of the configuration, unless one of its
numbers cannot be read, or a whole number of it is too long to be written out where that is
asked for: then the failure is that of the conversion, which does not. In a calibration this
is so only of a whole number out of the range of scalars. -/
theorem ofValue_error_tells_iff {d : Value α} {f : Failure} (h : ofValue d = .error f) :
    f.category = .configuration ↔ ¬Unconverted d f := by
  constructor
  · exact fun htells hunconverted => hunconverted.category_ne htells
  · exact (only_ofValue d f h).resolve_right

/-- A word for a position in a calibration tells of the configuration. -/
theorem ofValue_error_tells_iff_of_worded_position :
    let d : Value Float := .ofFields [
      ("frame_id", .ofFields [("fixed", .text "map"), ("odometry", .text "odom")]),
      ("icp", .ofFields [("tf_epsilon", .int 0), ("corr_dist", .int 1), ("iterations", .int 30),
        ("transform_thresholding", .bool false), ("max_translation", .int 1),
        ("max_rotation", .int 1)]),
      ("imu", .ofFields [("use_imu_data", .bool true), ("check_imu_data", .bool true)]),
      ("fiducial_calibration", .ofFields [
        ("position", .ofFields [("x", .text "left"), ("y", .int 0), ("z", .int 0)]),
        ("orientation", .ofFields [("x", .int 0), ("y", .int 0), ("z", .int 0), ("w", .int 1)])])]
    let f : Failure := .fiducialPart "position" "could not convert string to float: 'left'"
    ofValue d = .error f ∧ f.category = .configuration ∧ ¬Unconverted d f := by
  intro d f
  have hd : ofValue d = .error f := by rfl
  exact ⟨hd, rfl, (ofValue_error_tells_iff hd).mp rfl⟩

/-- The same word for a scalar of the registration does not. -/
theorem worded_epsilon_untold :
    let d : Value Float := .ofFields [
      ("frame_id", .ofFields [("fixed", .text "map"), ("odometry", .text "odom")]),
      ("icp", .ofFields [("tf_epsilon", .text "left"), ("corr_dist", .int 1),
        ("iterations", .int 30), ("transform_thresholding", .bool false),
        ("max_translation", .int 1), ("max_rotation", .int 1)]),
      ("imu", .ofFields [("use_imu_data", .bool true), ("check_imu_data", .bool true)])]
    ofValue d = .error (.notNumeric "'left'") ∧
      (Failure.notNumeric "'left'").category ≠ .configuration := by
  intro d
  exact ⟨by rfl, by decide⟩

end Config

end InertialOdometry
