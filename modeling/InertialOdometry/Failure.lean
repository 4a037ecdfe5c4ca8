import InertialOdometry.Value.Printing

/-!
What can go wrong, by cause. `Failure.category` sorts the causes by kind and `Failure.message` words
them; causes that arise inside numerical or file format machinery have no message of their own.
-/

namespace InertialOdometry

/-- The kinds of failure that a caller can tell apart. -/
inductive Category where
  | value
  | type
  | index
  | runtime
  | overflow
  | attribute
  | key
  | missingFile
  | system
  | configuration
  | algebra
  | noData
  | table
  | document
  | usage
deriving DecidableEq

inductive Shape where
  | matrix3
  | matrix4
  | rotation3
  | attitude
  | points

def Shape.text : Shape → String
  | .matrix3 => "3x3 matrix"
  | .matrix4 => "4x4 matrix"
  | .rotation3 => "3x3 rotation"
  | .attitude => "3x3 or 4x4 attitude"
  | .points => "(N, 3) points"

/-- The extents of an array between parentheses; a single one keeps its comma. -/
def shapeText (dims : List Nat) : String :=
  match dims with
  | [n] => s!"({n},)"
  | _ => "(" ++ ", ".intercalate (dims.map toString) ++ ")"

inductive Failure where
  /-- A text that is no number. -/
  | notNumeric (quoted : String)
  /-- A value of a kind that is never a number. -/
  | notReal (kind : String)
  /-- A text that is no whole number. -/
  | notWhole (quoted : String)
  /-- A value of a kind that is never a whole number. -/
  | notInteger (kind : String)
  /-- A row of digits too long to be converted. -/
  | tooManyDigits (count : Nat)
  /-- A whole number with too many digits to be written out. -/
  | tooLongToWrite
  /-- A whole number beyond the range of scalars. -/
  | beyondScalars
  | noNumberToInteger
  | infinityToInteger
  /-- A value without an order relation to whole numbers. -/
  | unordered (kind : String)
  /-- A limit that no scalar can be held against. -/
  | noLimit (kind : String)
  /-- A value that no scalar has a distance from. -/
  | noDistance (kind : String)
  /-- A value without a magnitude. -/
  | noMagnitude (kind : String)
  /-- Nested lists whose lengths differ. -/
  | ragged
  | badShape (expected : Shape) (dims : List Nat)
  | badTranslation (size : Nat)
  | zeroQuaternion
  /-- A quaternion with a component that is no number. -/
  | unusableQuaternion
  /-- Angles that are no row of three scalars. -/
  | unusableAngles
  /-- A row of values that ends before the place that is asked for. -/
  | rowTooShort
  /-- A matrix without three rows of three, where a rotation is decomposed. -/
  | notSquare
  /-- A matrix that reverses orientation or flattens space. -/
  | notARotation
  /-- A matrix whose singular values cannot be computed. -/
  | noSingularValues
  | capacityNotPositive (shown : String)
  | capacityNotInteger
  | capacityNegative
  | capacityTooLarge
  | emptySnapshot
  | alignerNotInitialized
  | noQueryScan
  | unknownMethod (shown : String)
  /-- A call with missing, unknown or too many arguments. -/
  | badArguments
  | notAMapping
  | missingSection (name : String)
  | sectionNotAMapping (name kind : String)
  | missingParameter (name key : String)
  | configuredMethod (shown : String)
  | notPositive (name shown : String)
  | outputSection (reason : String)
  | fiducialPart (name reason : String)
  | fiducialZero
  | configMissing (path : String)
  | configEmpty (path : String)
  /-- A document that does not follow the rules of its format. -/
  | malformedDocument
  /-- A scalar of a document that its tag does not fit. -/
  | unreadableScalar
  /-- A scalar without a character where its tag asks for a number. -/
  | emptyScalar
  /-- A scalar whose tag asks for a date and which has not the form of one. -/
  | notAStamp
  | dataMissing (path : String)
  | scansMissing (path : String)
  | noScans (path : String)
  | stampsMissing (shown : String)
  | stemNotNumeric (reason : String)
  | columnsMissing (shown : String)
  /-- A name that nothing was stored under. -/
  | unknownName
  /-- A table without any text. -/
  | emptyTable
  /-- A table whose rows do not fit its header. -/
  | malformedTable
  /-- A cell that cannot be converted to the type its column is read as. -/
  | badCell
  /-- A limit of the number of scans that is no whole number. -/
  | limitNotWhole
  | scanIndex (index : Int)
  | unreadableScan (path : String)
  | unknownLevel
  | badLevel
  | notALevel (kind : String)
  | notAPath
  /-- A command line that does not follow the usage; the number is the exit code. -/
  | exit (code : Nat)

namespace Failure

def category : Failure → Category
  | notNumeric _ | notWhole _ | tooManyDigits _ | tooLongToWrite | noNumberToInteger | ragged
  | badShape _ _ | badTranslation _ | zeroQuaternion | unusableQuaternion | unusableAngles | notSquare
  | notARotation | capacityNotPositive _ | capacityNegative | emptySnapshot | unknownMethod _
  | noScans _ | stampsMissing _ | stemNotNumeric _ | columnsMissing _ | badCell | unknownLevel
  | unreadableScalar => .value
  | notReal _ | notInteger _ | unordered _ | noLimit _ | noDistance _ | noMagnitude _
  | capacityNotInteger | badArguments | badLevel | notAPath | limitNotWhole => .type
  | beyondScalars | infinityToInteger | capacityTooLarge => .overflow
  | noSingularValues => .algebra
  | alignerNotInitialized | noQueryScan => .runtime
  | notAMapping | missingSection _ | sectionNotAMapping _ _ | missingParameter _ _
  | configuredMethod _ | notPositive _ _ | outputSection _ | fiducialPart _ _ | fiducialZero
  | configMissing _ | configEmpty _ => .configuration
  | malformedDocument => .document
  | dataMissing _ | scansMissing _ => .missingFile
  | unknownName => .key
  | emptyTable => .noData
  | malformedTable => .table
  | scanIndex _ | rowTooShort | emptyScalar => .index
  | unreadableScan _ => .system
  | notALevel _ | notAStamp => .attribute
  | exit _ => .usage

def message : Failure → Option String
  | notNumeric quoted => s!"could not convert string to float: {quoted}"
  | notReal kind => s!"float() argument must be a string or a real number, not '{kind}'"
  | notWhole quoted => s!"invalid literal for int() with base 10: {quoted}"
  | notInteger kind =>
    s!"int() argument must be a string, a bytes-like object or a real number, not '{kind}'"
  | tooManyDigits count =>
    s!"Exceeds the limit (4300 digits) for integer string conversion: value has {count} digits; use sys.set_int_max_str_digits() to increase the limit"
  | tooLongToWrite =>
    "Exceeds the limit (4300 digits) for integer string conversion; use sys.set_int_max_str_digits() to increase the limit"
  | beyondScalars => "int too large to convert to float"
  | noNumberToInteger => "cannot convert float NaN to integer"
  | infinityToInteger => "cannot convert float infinity to integer"
  | unordered kind => s!"'<=' not supported between instances of '{kind}' and 'int'"
  | noLimit kind => s!"'<=' not supported between instances of 'float' and '{kind}'"
  | noDistance kind => s!"unsupported operand type(s) for -: 'float' and '{kind}'"
  | noMagnitude kind => s!"bad operand type for abs(): '{kind}'"
  | badShape expected dims => s!"Expected {expected.text}, got {shapeText dims}"
  | badTranslation size => s!"cannot reshape array of size {size} into shape (3,)"
  | zeroQuaternion => "Zero-norm quaternion"
  | rowTooShort => "list index out of range"
  | capacityNotPositive shown => s!"capacity must be positive, got {shown}"
  | capacityNotInteger => "an integer is required"
  | capacityNegative => "maxlen must be non-negative"
  | capacityTooLarge => "Python int too large to convert to C ssize_t"
  | emptySnapshot => "Cannot align attitude: inertial snapshot is empty"
  | alignerNotInitialized => "AttitudeAligner not initialized. Call initialize() first."
  | noQueryScan => "No query scan stored. Call set_query() first."
  | unknownMethod shown | configuredMethod shown => s!"Unknown registration method: {shown}"
  | notAMapping => "Configuration must be a mapping"
  | missingSection name => s!"Missing required section: {name}"
  | sectionNotAMapping name kind => s!"Section '{name}' must be a mapping, got {kind}"
  | missingParameter name key => s!"Missing required parameter: {name}/{key}"
  | notPositive name shown => s!"{name} must be positive, got {shown}"
  | outputSection reason => s!"Invalid output section: {reason}"
  | fiducialPart name reason => s!"Invalid fiducial_calibration/{name}: {reason}"
  | fiducialZero => "Invalid fiducial_calibration/orientation: zero-norm quaternion"
  | configMissing path => s!"Config file not found: {path}"
  | configEmpty path => s!"Config file is empty: {path}"
  | dataMissing path => s!"Data directory not found: {path}"
  | scansMissing path => s!"Scan directory not found: {path}"
  | noScans path => s!"No scans found in {path}"
  | stampsMissing shown => s!"Missing timestamps for scans: {shown}"
  | stemNotNumeric reason =>
    s!"Scan file names must be numeric timestamps when timestamps.csv is absent: {reason}"
  | columnsMissing shown => s!"imu_data.csv is missing columns: {shown}"
  | limitNotWhole => "slice indices must be integers or None or have an __index__ method"
  | scanIndex index => s!"Scan index {index} out of range"
  | unreadableScan path => s!"Failed to load scan (no points): {path}"
  | notALevel kind => s!"'{kind}' object has no attribute 'upper'"
  | exit code => toString code
  | ragged | unusableQuaternion | unusableAngles | notSquare | notARotation | noSingularValues
  | badArguments | malformedDocument | unreadableScalar | emptyScalar
  | notAStamp | unknownName | emptyTable | malformedTable | badCell
  | unknownLevel | badLevel | notAPath => none

/-- A computation in two stages succeeds only where both of its stages do. -/
theorem of_bind_ok {β γ : Type} {x : Except Failure β} {next : β → Except Failure γ} {r : γ}
    (h : (x >>= next) = .ok r) : ∃ b, x = .ok b ∧ next b = .ok r := by
  cases x with
  | error f => cases h
  | ok b => exact ⟨b, rfl, h⟩

/-- A computation in two stages succeeds exactly where the second does on what the first gives. -/
theorem bind_eq_ok_iff {β γ : Type} {x : Except Failure β} {next : β → Except Failure γ} {r : γ} :
    (x >>= next) = .ok r ↔ ∃ b, x = .ok b ∧ next b = .ok r := by
  constructor
  · exact of_bind_ok
  · rintro ⟨b, rfl, h⟩
    exact h

/-- A computation in two stages fails with the failure of one of its stages. -/
theorem of_bind_error {β γ : Type} {x : Except Failure β} {next : β → Except Failure γ} {f : Failure}
    (h : (x >>= next) = .error f) : x = .error f ∨ ∃ b, x = .ok b ∧ next b = .error f := by
  cases x with
  | error g =>
      have hfg : Except.error g = Except.error f := h
      cases hfg
      exact Or.inl rfl
  | ok b => exact Or.inr ⟨b, rfl, h⟩

theorem of_map_error {β γ : Type} {x : Except Failure β} {g : β → γ} {f : Failure}
    (h : x.map g = .error f) : x = .error f := by
  cases x with
  | error f' =>
      simp only [Except.map, Except.error.injEq] at h
      rw [h]
  | ok b => cases h

/-- Where every value of a row can be converted, the row can be. -/
theorem mapM_eq_filterMap {β γ : Type} {read : β → Except Failure γ} {xs : List β}
    (h : ∀ x ∈ xs, ∃ y, read x = .ok y) :
    xs.mapM read = .ok (xs.filterMap fun x => (read x).toOption) := by
  induction xs with
  | nil => rfl
  | cons x xs ih =>
      obtain ⟨y, hy⟩ := h x List.mem_cons_self
      have hrest := ih fun z hz => h z (List.mem_cons_of_mem x hz)
      have hread : (read x).toOption = some y := congrArg Except.toOption hy
      rw [List.mapM_cons, hrest, hy, List.filterMap_cons, hread]
      rfl

/-- A row is read if each of its members is. -/
theorem exists_mapM_ok {β γ : Type} {read : β → Except Failure γ} {xs : List β}
    (h : ∀ x ∈ xs, ∃ y, read x = .ok y) : ∃ ys, xs.mapM read = .ok ys :=
  ⟨_, mapM_eq_filterMap h⟩

theorem of_toOption {β : Type} {x : Except Failure β} {r : β} (h : x.toOption = some r) :
    x = .ok r := by
  cases x with
  | error f => cases h
  | ok value => exact congrArg Except.ok (Option.some.inj h)

end Failure

end InertialOdometry
