import InertialOdometry.Proofs.Config.Sections
import InertialOdometry.Proofs.Reading

/-!
The initial pose that a calibration asks for. A calibration in which one of its seven values
cannot be looked up counts as none, and the pose is the origin; in any other one all seven
have to be numbers, and the orientation must not be too short.
-/

namespace InertialOdometry

variable {α : Type}

namespace Config

def calibrationPaths : List (List String) :=
  (["x", "y", "z"].map fun key => ["position", key]) ++
    ["x", "y", "z", "w"].map fun key => ["orientation", key]

theorem components?_eq_some_iff {v : Value α} {keys : List String} {values : List (Value α)}
    (hkeys : keys ≠ []) :
    components? v keys = some values ↔
      List.Forall₂ (fun key value => v.at? [key] = some value) keys values := by
  cases v with
  | map entries => simp only [components?, mapM_eq_some_iff, Value.at?_map_singleton]
  | _ =>
      obtain ⟨key, rest, rfl⟩ := List.exists_cons_of_ne_nil hkeys
      simp [components?, Value.at?, List.forall₂_cons_left_iff]

/-- Values are looked up under a name where there is something under it to look into. -/
theorem forall₂_at?_iff {d : Value α} {name : String} {keys : List String}
    {values : List (Value α)} (hkeys : keys ≠ []) :
    List.Forall₂ (fun key value => d.at? [name, key] = some value) keys values ↔
      ∃ v, d.at? [name] = some v ∧
        List.Forall₂ (fun key value => v.at? [key] = some value) keys values := by
  have hsplit : ∀ key, d.at? [name, key] = (d.at? [name]).bind fun v => v.at? [key] :=
    fun key => d.at?_cons name [key]
  simp only [hsplit]
  cases d.at? [name] with
  | some v => simp
  | none =>
      obtain ⟨key, rest, rfl⟩ := List.exists_cons_of_ne_nil hkeys
      simp [List.forall₂_cons_left_iff]

/-- The values of a calibration are those at its seven paths. -/
theorem calibration?_eq_some_iff {v : Value α} {position orientation : List (Value α)} :
    calibration? v = some (position, orientation) ↔
      List.Forall₂ (fun key value => v.at? ["position", key] = some value) ["x", "y", "z"]
          position ∧
        List.Forall₂ (fun key value => v.at? ["orientation", key] = some value)
          ["x", "y", "z", "w"] orientation := by
  rw [forall₂_at?_iff (List.cons_ne_nil _ _), forall₂_at?_iff (List.cons_ne_nil _ _)]
  cases v with
  | map entries =>
      simp only [calibration?, Option.bind_eq_bind, Option.bind_eq_some_iff,
        components?_eq_some_iff (List.cons_ne_nil _ _), Value.at?_map_singleton]
      constructor
      · rintro ⟨p, hp, ps, hps, o, ho, os, hos, h⟩
        cases h
        exact ⟨⟨p, hp, hps⟩, ⟨o, ho, hos⟩⟩
      · rintro ⟨⟨p, hp, hps⟩, ⟨o, ho, hos⟩⟩
        exact ⟨p, hp, position, hps, o, ho, orientation, hos, rfl⟩
  | _ => simp [calibration?, Value.at?]

/-- A calibration has values unless one of the seven paths leads nowhere. -/
theorem calibration?_eq_none_iff {v : Value α} :
    calibration? v = none ↔ ∃ path ∈ calibrationPaths, v.at? path = none := by
  have hsome : (∃ found, calibration? v = some found) ↔
      ∀ path ∈ calibrationPaths, ∃ value, v.at? path = some value := by
    simp only [Prod.exists, calibration?_eq_some_iff, exists_and_left, exists_and_right,
      exists_forall₂_iff, calibrationPaths, List.forall_mem_append, List.forall_mem_map]
  constructor
  · intro hnone
    by_contra hall
    obtain ⟨found, hfound⟩ := hsome.mpr fun path hpath =>
      Option.ne_none_iff_exists'.mp fun hmissing => hall ⟨path, hpath, hmissing⟩
    cases hnone.symm.trans hfound
  · rintro ⟨path, hpath, hmissing⟩
    by_contra hfound
    obtain ⟨value, hvalue⟩ := hsome.mp (Option.ne_none_iff_exists'.mp hfound) path hpath
    cases hmissing.symm.trans hvalue

variable [Scalar α]

/-- The wording of a failure in a calibration makes no difference to what is read. -/
theorem calibrated_eq_ok_iff {name : String} {values : List (Value α)} {xs : List α} :
    calibrated name values = .ok xs ↔
      List.Forall₂ (fun value x => value.toScalar = .ok x) values xs := by
  rw [← Failure.mapM_eq_ok_iff, calibrated]
  cases values.mapM Value.toScalar with
  | ok found => rfl
  | error e =>
      simp only [reduceCtorEq, iff_false]
      split <;> simp

/-- The pose that a calibration asks for: the origin where one of the seven values cannot be
looked up, and otherwise what they are converted to, with an orientation that is not too
short. -/
inductive Poses (v : Value α) : InitialPose α → Prop where
  | origin {path : List String} (hpath : path ∈ calibrationPaths)
      (hmissing : v.at? path = none) : Poses v .origin
  | calibrated {px py pz x y z w : α}
      (hpx : v.Reads ["position", "x"] Value.toScalar px)
      (hpy : v.Reads ["position", "y"] Value.toScalar py)
      (hpz : v.Reads ["position", "z"] Value.toScalar pz)
      (hx : v.Reads ["orientation", "x"] Value.toScalar x)
      (hy : v.Reads ["orientation", "y"] Value.toScalar y)
      (hz : v.Reads ["orientation", "z"] Value.toScalar z)
      (hw : v.Reads ["orientation", "w"] Value.toScalar w)
      (hnorm : ¬Scalar.zero + x * x + y * y + z * z + w * w < leastSquaredNorm) :
      Poses v ⟨⟨px, py, pz⟩, ⟨x, y, z, w⟩, true⟩

/-- A row of values that is read and converted, key by key. -/
theorem reads_of_forall₂ {v : Value α} {part : String} {keys : List String}
    {values : List (Value α)} {xs : List α}
    (hvalues : List.Forall₂ (fun key value => v.at? [part, key] = some value) keys values)
    (hxs : List.Forall₂ (fun value x => value.toScalar = .ok x) values xs) :
    List.Forall₂ (fun key x => v.Reads [part, key] Value.toScalar x) keys xs := by
  induction hvalues generalizing xs with
  | nil =>
      cases hxs
      exact .nil
  | cons hvalue hrest ih =>
      cases hxs with
      | cons hx hxs => exact .cons ⟨_, hvalue, hx⟩ (ih hxs)

/-- The reading of a calibration gives the pose that it asks for, and a warning where it asks for
none. -/
theorem initialPoseOf_eq_ok_iff {v : Value α} {pose : InitialPose α} {journal : Journal α} :
    initialPoseOf v = .ok (pose, journal) ↔
      Poses v pose ∧ journal = if pose.calibrated then [] else [.noFiducials] := by
  unfold initialPoseOf
  constructor
  · intro h
    split at h
    · rename_i hnone
      obtain ⟨path, hpath, hmissing⟩ := calibration?_eq_none_iff.mp hnone
      cases h
      exact ⟨.origin hpath hmissing, rfl⟩
    · rename_i position orientation hsome
      obtain ⟨hposition, horientation⟩ := calibration?_eq_some_iff.mp hsome
      obtain ⟨xs, hxs, h⟩ := Failure.of_bind_ok h
      obtain ⟨ys, hys, h⟩ := Failure.of_bind_ok h
      have hp := reads_of_forall₂ hposition (calibrated_eq_ok_iff.mp hxs)
      have ho := reads_of_forall₂ horientation (calibrated_eq_ok_iff.mp hys)
      simp only [List.forall₂_cons_left_iff, List.forall₂_nil_left_iff] at hp ho
      obtain ⟨px, _, hpx, ⟨py, _, hpy, ⟨pz, _, hpz, rfl, rfl⟩, rfl⟩, rfl⟩ := hp
      obtain ⟨x, _, hx, ⟨y, _, hy, ⟨z, _, hz, ⟨w, _, hw, rfl, rfl⟩, rfl⟩, rfl⟩, rfl⟩ := ho
      simp only at h
      split at h
      · cases h
      · rename_i hnorm
        cases h
        exact ⟨.calibrated hpx hpy hpz hx hy hz hw hnorm, rfl⟩
  · rintro ⟨hpose, rfl⟩
    cases hpose with
    | origin hpath hmissing =>
        rw [calibration?_eq_none_iff.mpr ⟨_, hpath, hmissing⟩]
        rfl
    | @calibrated px py pz x y z w hpx hpy hpz hx hy hz hw hnorm =>
        obtain ⟨vpx, hvpx, hpx⟩ := hpx
        obtain ⟨vpy, hvpy, hpy⟩ := hpy
        obtain ⟨vpz, hvpz, hpz⟩ := hpz
        obtain ⟨vx, hvx, hx⟩ := hx
        obtain ⟨vy, hvy, hy⟩ := hy
        obtain ⟨vz, hvz, hz⟩ := hz
        obtain ⟨vw, hvw, hw⟩ := hw
        have hvalues : calibration? v = some ([vpx, vpy, vpz], [vx, vy, vz, vw]) :=
          calibration?_eq_some_iff.mpr ⟨.cons hvpx (.cons hvpy (.cons hvpz .nil)),
            .cons hvx (.cons hvy (.cons hvz (.cons hvw .nil)))⟩
        have hposition : calibrated "position" [vpx, vpy, vpz] = .ok [px, py, pz] :=
          calibrated_eq_ok_iff.mpr (.cons hpx (.cons hpy (.cons hpz .nil)))
        have horientation : calibrated "orientation" [vx, vy, vz, vw] = .ok [x, y, z, w] :=
          calibrated_eq_ok_iff.mpr (.cons hx (.cons hy (.cons hz (.cons hw .nil))))
        simp only [hvalues, hposition, horientation]
        refine Failure.bind_eq_ok_iff.mpr ⟨_, rfl, Failure.bind_eq_ok_iff.mpr ⟨_, rfl, ?_⟩⟩
        simp only [hnorm, if_false]
        rfl

end Config

end InertialOdometry
