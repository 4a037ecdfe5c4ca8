import InertialOdometry.Config.Storage
import InertialOdometry.Proofs.Config.Acceptance
import InertialOdometry.Proofs.Value.Fields

/-!
Configurations that are written and read again. What a document says of a configuration is
told section by section, as rows of fields in whatever order. The document that a
configuration is written to says all of it, and so does every document that is the same up
to the order of its entries, which is all that a file may change.
-/

namespace InertialOdometry

variable {α : Type} [Scalar α]

/-! ### What a document says of a configuration -/

def FrameIds.fields (f : FrameIds) : List (String × Value α) :=
  [("fixed", .text f.fixed), ("odometry", .text f.odometry)]

def RegistrationConfig.fields (r : RegistrationConfig α) : List (String × Value α) :=
  [("tf_epsilon", .number r.epsilon), ("corr_dist", .number r.correspondence),
    ("iterations", .int r.iterations), ("method", .text r.method.name)]

omit [Scalar α] in
def ThresholdConfig.fields (t : ThresholdConfig α) : List (String × Value α) :=
  [("transform_thresholding", .bool t.enabled), ("max_translation", .number t.maxTranslation),
    ("max_rotation", .number t.maxRotation)]

def InertialConfig.fields (i : InertialConfig α) : List (String × Value α) :=
  [("use_imu_data", .bool i.useInertial), ("check_imu_data", .bool i.checkInertial),
    ("max_timestamp_gap", .number i.maxGap), ("buffer_capacity", .int i.capacity)]

def OutputConfig.fields (o : OutputConfig α) : List (String × Value α) :=
  [("output_dir", o.directory), ("save_results", o.saveResults),
    ("export_tum", o.exportTrajectory), ("log_level", o.logLevel)]

namespace Config

private theorem toValue_eq (c : Config α) :
    c.toValue = .ofFields ([("frame_id", .ofFields c.frameIds.fields),
      ("icp", .ofFields (c.registration.fields ++ c.thresholding.fields)),
      ("imu", .ofFields c.inertial.fields), ("output", .ofFields c.output.fields)] ++
      calibrationEntries c.initialPose) := rfl

section

variable {rows : List (Value α × Value α)}

private theorem frameIdsOf_fields {f : FrameIds} (h : (Value.map rows).HasFields f.fields) :
    frameIdsOf rows = .ok f := by
  have hat := h.at? (show ["fixed", "odometry"].Nodup by decide)
  exact frameIdsOf_eq_ok_iff.mpr ⟨⟨.text f.fixed, ⟨hat "fixed", by simp⟩, rfl⟩,
    ⟨.text f.odometry, ⟨hat "odometry", by simp⟩, rfl⟩⟩

/-- The section of the registration has the limits of the guard as well. -/
theorem at?_registration_fields {r : RegistrationConfig α} {t : ThresholdConfig α}
    (h : (Value.map rows).HasFields (r.fields ++ t.fields)) (name : String) :
    (Value.map rows).at? [name] = (r.fields ++ t.fields).lookup name := by
  apply h.at?
  change ["tf_epsilon", "corr_dist", "iterations", "method", "transform_thresholding",
    "max_translation", "max_rotation"].Nodup
  decide

private theorem registrationOf_fields {r : RegistrationConfig α} {t : ThresholdConfig α}
    (h : (Value.map rows).HasFields (r.fields ++ t.fields)) : registrationOf rows = .ok r := by
  have hat := at?_registration_fields h
  have hmethod : Value.argument rows "method" (.text "gicp") = .text r.method.name := by
    rw [Value.argument_eq_at?, hat "method"]
    rfl
  refine registrationOf_eq_ok_iff.mpr ⟨⟨_, hat "tf_epsilon", rfl⟩, ⟨_, hat "corr_dist", rfl⟩,
    ⟨_, hat "iterations", rfl⟩, ?_⟩
  rw [hmethod]
  rfl

private theorem thresholdingOf_fields {r : RegistrationConfig α} {t : ThresholdConfig α}
    (h : (Value.map rows).HasFields (r.fields ++ t.fields)) : thresholdingOf rows = .ok t := by
  have hat := at?_registration_fields h
  exact thresholdingOf_eq_ok_iff.mpr
    ⟨⟨_, ⟨hat "transform_thresholding", by simp⟩, rfl⟩, ⟨_, hat "max_translation", rfl⟩,
      ⟨_, hat "max_rotation", rfl⟩⟩

private theorem inertialOf_fields {i : InertialConfig α} (h : (Value.map rows).HasFields i.fields) :
    inertialOf rows = .ok i := by
  have hat := h.at? (show ["use_imu_data", "check_imu_data", "max_timestamp_gap",
    "buffer_capacity"].Nodup by decide)
  refine inertialOf_eq_ok_iff.mpr ⟨⟨_, ⟨hat "use_imu_data", by simp⟩, rfl⟩,
    ⟨_, ⟨hat "check_imu_data", by simp⟩, rfl⟩, ?_, ?_⟩
  · rw [Value.argument_eq_at?, hat "max_timestamp_gap"]
    rfl
  · rw [Value.argument_eq_at?, hat "buffer_capacity"]
    rfl

private theorem outputOf_fields {o : OutputConfig α} (h : (Value.map rows).HasFields o.fields) :
    outputOf rows = .ok o := by
  have hat := h.at? (show ["output_dir", "save_results", "export_tum", "log_level"].Nodup by decide)
  have hargument (name : String) (default : Value α) :
      Value.argument rows name default = (o.fields.lookup name).getD default := by
    rw [Value.argument_eq_at?, hat name]
  refine outputOf_eq_ok_iff.mpr ⟨?_, ?_⟩
  · obtain ⟨_, hrows, hperm⟩ := h
    cases hrows
    intro entry hentry
    obtain ⟨field, hfield, rfl⟩ := List.mem_map.mp (hperm.mem_iff.mp hentry)
    exact ⟨field.1, List.mem_map.mpr ⟨field, hfield, rfl⟩, rfl⟩
  · rw [hargument, hargument, hargument, hargument]
    rfl

end

/-- A document says of a configuration all that there is to be said. -/
structure Spells (d : Value α) (c : Config α) : Prop where
  frames : ∃ v, d.at? ["frame_id"] = some v ∧ v.HasFields c.frameIds.fields
  registration : ∃ v, d.at? ["icp"] = some v ∧
    v.HasFields (c.registration.fields ++ c.thresholding.fields)
  inertial : ∃ v, d.at? ["imu"] = some v ∧ v.HasFields c.inertial.fields
  output : ∃ v, d.at? ["output"] = some v ∧ v.HasFields c.output.fields
  pose : Poses ((d.at? ["fiducial_calibration"]).getD .null) c.initialPose

def poseJournal (c : Config α) : Journal α :=
  if c.initialPose.calibrated then [] else [.noFiducials]

/-- A configuration is read from every document that spells it. -/
theorem Spells.ofValue_eq {d : Value α} {c : Config α} (h : Spells d c) :
    ofValue d = .ok (c, c.poseJournal) := by
  obtain ⟨⟨_, hatFrames, frames, rfl, hframes⟩, ⟨_, hatIcp, icp, rfl, hicp⟩,
    ⟨_, hatImu, imu, rfl, himu⟩, ⟨_, hatOutput, output, rfl, houtput⟩, hpose⟩ := h
  cases d with
  | map entries =>
      rw [← Value.argument_eq_at?] at hpose
      exact ofValue_eq_ok_iff.mpr ⟨frames, icp, imu, some output,
        ⟨requiredSection_eq_ok_iff.mpr hatFrames, requiredSection_eq_ok_iff.mpr hatIcp,
          requiredSection_eq_ok_iff.mpr hatImu,
          Config.section?_eq_ok_iff.mpr (.inr ⟨output, rfl, hatOutput⟩)⟩,
        frameIdsOf_fields ⟨frames, rfl, hframes⟩, registrationOf_fields ⟨icp, rfl, hicp⟩,
        thresholdingOf_fields ⟨icp, rfl, hicp⟩, inertialOf_fields ⟨imu, rfl, himu⟩,
        outputOf_fields ⟨output, rfl, houtput⟩, initialPoseOf_eq_ok_iff.mpr ⟨hpose, rfl⟩⟩
  | _ => cases hatFrames

/-- The pose of a configuration is the one that its document asked for. -/
theorem poses_of_ofValue {d : Value α} {c : Config α} {journal : Journal α}
    (h : ofValue d = .ok (c, journal)) :
    Poses ((d.at? ["fiducial_calibration"]).getD .null) c.initialPose ∧
      journal = c.poseJournal := by
  cases d with
  | map entries =>
      obtain ⟨_, _, _, _, -, -, -, -, -, -, hpose⟩ := ofValue_eq_ok_iff.mp h
      rw [Value.argument_eq_at?] at hpose
      exact initialPoseOf_eq_ok_iff.mp hpose
  | _ => cases h

omit [Scalar α] in
def positionFields (p : Vec3 α) : List (String × Value α) :=
  [("x", .number p.x), ("y", .number p.y), ("z", .number p.z)]

omit [Scalar α] in
def orientationFields (q : Quaternion α) : List (String × Value α) :=
  [("x", .number q.x), ("y", .number q.y), ("z", .number q.z), ("w", .number q.w)]

/-- What a calibration says of a pose, also where its entries are in another order. -/
theorem at?_calibration {v : Value α} {p : Vec3 α} {q : Quaternion α}
    (h : v.inOrder = (Value.ofFields [("position", .ofFields (positionFields p)),
      ("orientation", .ofFields (orientationFields q))]).inOrder) (key : String) :
    v.at? ["position", key] = (positionFields p).lookup key ∧
      v.at? ["orientation", key] = (orientationFields q).lookup key := by
  obtain ⟨parts, hparts, hsame⟩ := Value.exists_hasFields h
  simp only [Value.sameFields_cons_iff, List.forall₂_nil_right_iff] at hsame
  obtain ⟨position, _, rfl, hposition, orientation, _, rfl, horientation, rfl⟩ := hsame
  have hat := hparts.at? (show ["position", "orientation"].Nodup by decide)
  have hposition := Value.hasFields_of_inOrder_eq (by simp [positionFields, Value.isLeaf]) hposition
  have horientation :=
    Value.hasFields_of_inOrder_eq (by simp [orientationFields, Value.isLeaf]) horientation
  constructor
  · rw [Value.at?_cons_of_at? (hat "position"),
      hposition.at? (show ["x", "y", "z"].Nodup by decide)]
  · rw [Value.at?_cons_of_at? (hat "orientation"),
      horientation.at? (show ["x", "y", "z", "w"].Nodup by decide)]

/-- The calibration that a pose is written to asks for the same pose, and so does the lack of
one for the pose at the origin. -/
theorem Poses.rewritten {v : Value α} {pose : InitialPose α} (h : Poses v pose)
    {found : List (String × Value α)}
    (hfound : List.Forall₂ Value.SameField found (calibrationEntries pose)) :
    Poses ((found.lookup "fiducial_calibration").getD .null) pose := by
  cases h with
  | origin hpath hmissing =>
      cases hfound
      exact .origin (show ["position", "x"] ∈ calibrationPaths by decide) rfl
  | calibrated hpx hpy hpz hx hy hz hw hnorm =>
      obtain ⟨u, _, rfl, hu, -⟩ := Value.sameFields_cons_iff.mp hfound
      have hat := at?_calibration hu
      exact .calibrated ⟨_, (hat "x").1, rfl⟩ ⟨_, (hat "y").1, rfl⟩ ⟨_, (hat "z").1, rfl⟩
        ⟨_, (hat "x").2, rfl⟩ ⟨_, (hat "y").2, rfl⟩ ⟨_, (hat "z").2, rfl⟩ ⟨_, (hat "w").2, rfl⟩
        hnorm

def inOrder (c : Config α) : Config α :=
  { c with
    output := ⟨c.output.directory.inOrder, c.output.saveResults.inOrder,
      c.output.exportTrajectory.inOrder, c.output.logLevel.inOrder⟩ }

/-- Configurations that are the same up to the order of entries are written to documents that
are. -/
theorem inOrder_toValue {c other : Config α} (h : c.inOrder = other.inOrder) :
    c.toValue.inOrder = other.toValue.inOrder := by
  obtain ⟨frameIds, registration, thresholding, inertial, initialPose, output⟩ := c
  simp only [inOrder, Config.mk.injEq, OutputConfig.mk.injEq] at h
  obtain ⟨rfl, rfl, rfl, rfl, rfl, hdirectory, hsave, htrajectory, hlevel⟩ := h
  have houtput : (Value.ofFields output.fields).inOrder =
      (Value.ofFields other.output.fields).inOrder :=
    Value.inOrder_ofFields_congr (.cons ⟨rfl, hdirectory⟩ (.cons ⟨rfl, hsave⟩
      (.cons ⟨rfl, htrajectory⟩ (.cons ⟨rfl, hlevel⟩ .nil))))
  rw [toValue_eq, toValue_eq]
  exact Value.inOrder_ofFields_congr (.cons ⟨rfl, rfl⟩ (.cons ⟨rfl, rfl⟩ (.cons ⟨rfl, rfl⟩
    (.cons ⟨rfl, houtput⟩ (Value.sameFields_refl _)))))

private theorem nodup_names {pose : InitialPose α} {f r i o : Value α}
    {found : List (String × Value α)}
    (hfound : List.Forall₂ Value.SameField found (calibrationEntries pose)) :
    ((("frame_id", f) :: ("icp", r) :: ("imu", i) :: ("output", o) :: found).map
      (·.1)).Nodup := by
  unfold calibrationEntries at hfound
  split at hfound
  · obtain ⟨u, _, rfl, -, hnil⟩ := Value.sameFields_cons_iff.mp hfound
    cases hnil
    simp
  · cases hfound
    simp

/-- A document spells a configuration where its sections have the fields of it. -/
theorem spells_of_fields {d v f r i o : Value α} {found : List (String × Value α)}
    {c : Config α}
    (hd : d.HasFields (("frame_id", f) :: ("icp", r) :: ("imu", i) :: ("output", o) :: found))
    (hframes : f.HasFields c.frameIds.fields)
    (hregistration : r.HasFields (c.registration.fields ++ c.thresholding.fields))
    (hinertial : i.HasFields c.inertial.fields) (houtput : o.HasFields c.output.fields)
    (hfound : List.Forall₂ Value.SameField found (calibrationEntries c.initialPose))
    (hpose : Poses v c.initialPose) : Spells d c := by
  have hat := hd.at? (nodup_names hfound)
  refine ⟨⟨f, hat "frame_id", hframes⟩, ⟨r, hat "icp", hregistration⟩, ⟨i, hat "imu", hinertial⟩,
    ⟨o, hat "output", houtput⟩, ?_⟩
  rw [hat "fiducial_calibration"]
  change Poses ((found.lookup "fiducial_calibration").getD .null) c.initialPose
  exact hpose.rewritten hfound

/-- The document that a configuration is written to spells it. -/
theorem spells_toValue {v : Value α} {c : Config α} (hpose : Poses v c.initialPose) :
    Spells c.toValue c := by
  rw [toValue_eq]
  exact spells_of_fields (Value.hasFields_ofFields _) (Value.hasFields_ofFields _)
    (Value.hasFields_ofFields _) (Value.hasFields_ofFields _) (Value.hasFields_ofFields _)
    (Value.sameFields_refl _) hpose

/-- The order of the entries of a document plays no part but in the values of the output. -/
theorem ofValue_of_inOrder_eq {d v : Value α} {c : Config α} {journal : Journal α}
    (h : ofValue d = .ok (c, journal)) (hv : v.inOrder = c.toValue.inOrder) :
    ∃ loaded, ofValue v = .ok (loaded, journal) ∧ loaded.inOrder = c.inOrder := by
  obtain ⟨hpose, rfl⟩ := poses_of_ofValue h
  rw [toValue_eq] at hv
  obtain ⟨fields, hfields, hsame⟩ := Value.exists_hasFields hv
  simp only [List.cons_append, List.nil_append, Value.sameFields_cons_iff] at hsame
  obtain ⟨f, _, rfl, hf, r, _, rfl, hr, i, _, rfl, hi, o, found, rfl, ho, hfound⟩ := hsame
  have hframes := Value.hasFields_of_inOrder_eq (by simp [FrameIds.fields, Value.isLeaf]) hf
  have hregistration := Value.hasFields_of_inOrder_eq
    (by simp [RegistrationConfig.fields, ThresholdConfig.fields, Value.isLeaf]) hr
  have hinertial := Value.hasFields_of_inOrder_eq
    (by simp [InertialConfig.fields, Value.isLeaf]) hi
  obtain ⟨outputs, houtput, hsame⟩ := Value.exists_hasFields ho
  simp only [OutputConfig.fields, Value.sameFields_cons_iff, List.forall₂_nil_right_iff] at hsame
  obtain ⟨directory, _, rfl, hdirectory, save, _, rfl, hsave, trajectory, _, rfl, htrajectory,
    level, _, rfl, hlevel, rfl⟩ := hsame
  let loaded : Config α := { c with output := ⟨directory, save, trajectory, level⟩ }
  have hspells : Spells v loaded :=
    spells_of_fields hfields hframes hregistration hinertial houtput hfound hpose
  refine ⟨loaded, hspells.ofValue_eq, ?_⟩
  simp only [inOrder, loaded, hdirectory, hsave, htrajectory, hlevel]

/-- A configuration is read again from the document it is written to. So is one that is saved
to a file, provided that reading the file gives the document back up to the order of entries. -/
theorem round_trip {d : Value α} {c : Config α} {journal : Journal α}
    (h : ofValue d = .ok (c, journal)) :
    ofValue c.toValue = .ok (c, journal) ∧
      ∀ (path : String) (v : Value α), Document.read c.text = .ok v →
        v.inOrder = c.toValue.inOrder →
        ∃ loaded, load path (some c.text) = .ok (loaded, journal ++ [.configLoaded path]) ∧
          loaded.inOrder = c.inOrder ∧ loaded.toValue.inOrder = c.toValue.inOrder := by
  obtain ⟨hpose, rfl⟩ := poses_of_ofValue h
  refine ⟨(spells_toValue hpose).ofValue_eq, ?_⟩
  intro path v hread hv
  obtain ⟨loaded, hloaded, hsame⟩ := ofValue_of_inOrder_eq h hv
  refine ⟨loaded, ?_, hsame, inOrder_toValue hsame⟩
  cases v with
  | map entries => simp only [load, hread, hloaded, bind, Except.bind, pure, Except.pure]
  | _ => cases hloaded

/-- A document with a name that no configuration has, and without a calibration. What is written
has the names of each section in another order. -/
theorem round_trip_of_unknown_name :
    let c : Config Float := {
      frameIds := ⟨"map", "7"⟩
      registration := ⟨0, 0.5, 30, .generalized, by decide +kernel, by decide⟩
      thresholding := ⟨true, 1, 0.25⟩
      inertial := ⟨false, false, 0.05, 100, by decide⟩
      initialPose := .origin
      output := ⟨.text "output", .bool true, .bool true, .text "INFO"⟩ }
    let d : Value Float := .ofFields [("comment", .null), ("frame_id", .ofFields c.frameIds.fields),
      ("icp", .ofFields (c.registration.fields ++ c.thresholding.fields)),
      ("imu", .ofFields c.inertial.fields), ("output", .ofFields c.output.fields)]
    ofValue d = .ok (c, [.noFiducials]) ∧ ofValue c.toValue = .ok (c, [.noFiducials]) ∧
      Document.read c.text = .ok c.toValue.inOrder ∧
      ∃ loaded, load "odometry.yaml" (some c.text) =
          .ok (loaded, [.noFiducials, .configLoaded "odometry.yaml"]) ∧
        loaded.inOrder = c.inOrder ∧ loaded.toValue.inOrder = c.toValue.inOrder := by
  intro c d
  have hspells : Spells d c :=
    { frames := ⟨_, rfl, Value.hasFields_ofFields _⟩
      registration := ⟨_, rfl, Value.hasFields_ofFields _⟩
      inertial := ⟨_, rfl, Value.hasFields_ofFields _⟩
      output := ⟨_, rfl, Value.hasFields_ofFields _⟩
      pose := .origin (show ["position", "x"] ∈ calibrationPaths by decide) rfl }
  have hsorted : c.toValue.inOrder = .ofFields [
      ("frame_id", .ofFields [("fixed", .text "map"), ("odometry", .text "7")]),
      ("icp", .ofFields [("corr_dist", .number 0.5), ("iterations", .int 30),
        ("max_rotation", .number 0.25), ("max_translation", .number 1),
        ("method", .text "gicp"), ("tf_epsilon", .number 0),
        ("transform_thresholding", .bool true)]),
      ("imu", .ofFields [("buffer_capacity", .int 100), ("check_imu_data", .bool false),
        ("max_timestamp_gap", .number 0.05), ("use_imu_data", .bool false)]),
      ("output", .ofFields [("export_tum", .bool true), ("log_level", .text "INFO"),
        ("output_dir", .text "output"), ("save_results", .bool true)])] := by
    simp [c, toValue, calibrationEntries, InitialPose.origin, Method.name, Value.ofFields,
      Value.inOrder, Value.inOrderEntries, Value.sortEntries, List.mergeSort, Value.keyLE?]
  have hread : Document.read c.text = .ok c.toValue.inOrder := by
    apply Failure.of_toOption
    -- The characters that are written are read; no text is made of them in between.
    rw [text, Document.write, hsorted, Document.read, Document.Page.text, String.toList_ofList]
    decide +kernel
  obtain ⟨hagain, hsaved⟩ := round_trip hspells.ofValue_eq
  have hidempotent : c.toValue.inOrder.inOrder = c.toValue.inOrder := by
    rw [hsorted]
    simp [Value.ofFields, Value.inOrder, Value.inOrderEntries, Value.sortEntries, List.mergeSort,
      Value.keyLE?]
  exact ⟨hspells.ofValue_eq, hagain, hread, hsaved "odometry.yaml" _ hread hidempotent⟩

end Config

end InertialOdometry
