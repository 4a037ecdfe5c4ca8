import InertialOdometry.Proofs.Config.Sections
import InertialOdometry.Registration.Basic

/-!
A configuration is read from a document by converting its values, or its sections are put together
from values as they are. Both ways keep to one set of rules: what `Section.check` says about the
converted values of a section is what its reading says, refusals included. The values of a section
that was read can be put together again, and an engine that is made of them has the settings that
the configuration asks for.
-/

namespace InertialOdometry

variable {α : Type} [Scalar α]

namespace Section

variable {get : String → Value α}

/-- Nothing is done after a refusal. -/
private theorem refuse_bind {β γ : Type} {cause : String → Failure} {v : Value α}
    (next : β → Except Failure γ) : (refuse cause v >>= next) = refuse cause v := by
  unfold refuse
  cases v.written <;> rfl

private theorem requireMethod_text (shown : String) :
    requireMethod (.text shown : Value α) =
      (Method.ofName? shown).elim (.error (.configuredMethod shown)) fun _ => .ok () := by
  have hkey : (Value.text shown : Value α).textKey?.bind Method.ofName? = Method.ofName? shown :=
    rfl
  rw [requireMethod, hkey]
  cases Method.ofName? shown <;> rfl

/-- A value that can be compared is positive or is refused. -/
private theorem requirePositive_eq {name : String} {v : Value α} {b : Bool}
    (h : v.aboveZero = .ok b) :
    requirePositive name v = if b then .ok () else refuse (.notPositive name) v := by
  rw [requirePositive, h]
  rfl

private theorem map_refuse {β γ : Type} {cause : String → Failure} {v : Value α} (g : β → γ) :
    (refuse cause v).map g = refuse cause v := by
  unfold refuse
  cases v.written <;> rfl

/-- The rules of a registration section of which a text and numbers are given. -/
theorem check_registration (shown : String) (correspondence : α) (iterations : Int)
    (hmethod : get "method" = .text shown)
    (hcorrespondence : get "corr_dist" = .number correspondence)
    (hiterations : get "iterations" = .int iterations) :
    registration.check get =
      (Method.ofName? shown).elim (.error (.configuredMethod shown)) fun _ =>
        if correspondence ≤ Scalar.zero then
          refuse (.notPositive "icp/corr_dist") (.number correspondence)
        else if 0 < iterations then .ok ()
        else refuse (.notPositive "icp/iterations") (.int iterations : Value α) := by
  rw [check, hmethod, hcorrespondence, hiterations, requireMethod_text, requirePositive_eq rfl,
    requirePositive_eq rfl]
  cases Method.ofName? shown with
  | none => rfl
  | some m =>
      by_cases hc : correspondence ≤ Scalar.zero
      · simp only [hc, decide_true, Bool.not_true, Bool.false_eq_true, if_true, if_false,
          refuse_bind]
        rfl
      · simp only [hc, decide_false, Bool.not_false, if_true, if_false, decide_eq_true_eq]
        rfl

/-- The rules of an inertial section of which a number is given. -/
theorem check_inertial (capacity : Int) (h : get "buffer_capacity" = .int capacity) :
    inertial.check get = if 0 < capacity then .ok ()
      else refuse (.notPositive "imu/buffer_capacity") (.int capacity : Value α) := by
  rw [check, h, requirePositive_eq rfl]
  simp

end Section

namespace Config

open Section

private theorem map_bind {β γ δ : Type} {x : Except Failure β} {next : β → Except Failure γ}
    (g : γ → δ) : (x >>= next).map g = x >>= fun b => (next b).map g := by
  cases x <;> rfl

variable {entries : List (Value α × Value α)}

/-- A registration section is read if its values can be converted and keep the rules of the
section, and otherwise it is refused with the failure of the first conversion or of the rules. -/
theorem registrationOf_eq_check :
    (registrationOf entries).map (fun _ => ()) = (do
      let _ ← (← parameter "icp" entries "tf_epsilon").toScalar
      let correspondence ← (← parameter "icp" entries "corr_dist").toScalar
      let iterations ← (← parameter "icp" entries "iterations").toInteger
      let shown ← (Value.argument entries "method" (.text "gicp")).written
      Section.registration.check fun name => Value.argument
        [(.text "method", .text shown), (.text "corr_dist", .number correspondence),
          (.text "iterations", .int iterations)] name .null) := by
  simp only [registrationOf, map_bind]
  refine bind_congr fun _ => bind_congr fun _ => bind_congr fun _ => bind_congr
    fun correspondence => bind_congr fun _ => bind_congr fun iterations => bind_congr
    fun shown => ?_
  rw [check_registration shown correspondence iterations rfl rfl rfl]
  cases Method.ofName? shown with
  | none => rfl
  | some m =>
      by_cases hc : correspondence ≤ Scalar.zero
      · simp only [hc, dite_true, if_true, Option.elim_some]
        exact map_refuse _
      · by_cases hi : 0 < iterations
        · simp only [hc, hi, dite_true, dite_false, if_true, if_false, Option.elim_some]
          rfl
        · simp only [hc, hi, dite_false, if_false, Option.elim_some]
          exact map_refuse _

/-- An inertial section is read if it has its switches, and its numbers can be converted and keep
the rules of the section. -/
theorem inertialOf_eq_check :
    (inertialOf entries).map (fun _ => ()) = (do
      let _ ← parameter "imu" entries "use_imu_data"
      let _ ← parameter "imu" entries "check_imu_data"
      let _ ← (Value.argument entries "max_timestamp_gap" (.number (Scalar.decimal 5 (-2)))).toScalar
      let capacity ← (Value.argument entries "buffer_capacity" (.int 100)).toInteger
      Section.inertial.check fun name => Value.argument
        [(.text "buffer_capacity", (.int capacity : Value α))] name .null) := by
  simp only [inertialOf, map_bind]
  refine bind_congr fun _ => bind_congr fun _ => bind_congr fun _ => bind_congr fun capacity => ?_
  rw [check_inertial capacity rfl]
  by_cases h : 0 < capacity
  · simp only [h, dite_true, if_true]
    rfl
  · simp only [h, dite_false, if_false]
    exact map_refuse _

end Config

namespace Section

variable {s : Section} {given : List (Value α × Value α)} {fields : List (String × Value α)}

/-- Named values that fill a section and keep its rules are put together. -/
theorem build_eq_ok
    (hnames : Value.checkNames s.required ((s.optional : List (String × Value α)).map (·.1)) given =
      .ok ())
    (hfields : (s.required.map fun name => (name, Value.argument given name .null)) ++
      s.optional.map (fun (name, default) => (name, Value.argument given name default)) = fields)
    (hrules : (s.check fun name => (fields.find? (·.1 == name)).elim .null (·.2)) = .ok ()) :
    s.build given = .ok fields := by
  subst hfields
  rw [build, hnames]
  show (s.check _ >>= fun _ => .ok _) = _
  rw [hrules]
  rfl

/-- The values of a registration configuration keep the rules of their section. -/
theorem build_registration (c : RegistrationConfig α) :
    registration.build [(.text "tf_epsilon", .number c.epsilon),
        (.text "corr_dist", .number c.correspondence), (.text "iterations", .int c.iterations),
        (.text "method", .text c.method.name)] =
      .ok [("tf_epsilon", .number c.epsilon), ("corr_dist", .number c.correspondence),
        ("iterations", .int c.iterations), ("method", .text c.method.name)] := by
  refine build_eq_ok rfl rfl ?_
  rw [check_registration c.method.name c.correspondence c.iterations rfl rfl rfl,
    Method.ofName?_name]
  simp only [c.correspondence_pos, c.iterations_pos, if_true, if_false, Option.elim_some]

/-- The values of an inertial configuration keep the rules of their section. -/
theorem build_inertial (c : InertialConfig α) :
    inertial.build [(.text "use_imu_data", .bool c.useInertial),
        (.text "check_imu_data", .bool c.checkInertial),
        (.text "max_timestamp_gap", .number c.maxGap), (.text "buffer_capacity", .int c.capacity)] =
      .ok [("use_imu_data", .bool c.useInertial), ("check_imu_data", .bool c.checkInertial),
        ("max_timestamp_gap", .number c.maxGap), ("buffer_capacity", .int c.capacity)] := by
  refine build_eq_ok rfl rfl ?_
  rw [check_inertial c.capacity rfl, if_pos c.capacity_pos]

end Section

/-- An engine that is made of a section has the settings of the configuration that was read from
it. -/
theorem EngineSettings.ofSection_eq_ofConfig (c : RegistrationConfig α) :
    ofSection [(.text "tf_epsilon", .number c.epsilon),
      (.text "corr_dist", .number c.correspondence), (.text "iterations", .int c.iterations),
      (.text "method", .text c.method.name)] = ofConfig c := by
  rw [ofSection, Section.build_registration]
  rfl

end InertialOdometry
