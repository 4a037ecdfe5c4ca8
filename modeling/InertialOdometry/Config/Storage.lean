import InertialOdometry.Config.Basic
import InertialOdometry.Document.Reading
import InertialOdometry.Document.Writing

/-!
Configurations as files. A file is given by its path and its text, or nothing where there is no such
file.
-/

namespace InertialOdometry.Config

variable {α : Type} [Scalar α]

def load (path : String) (content : Option String) : Except Failure (Config α × Journal α) :=
  match content with
  | none => .error (.configMissing path)
  | some text => do
    match ← Document.read text with
    | .null => throw (.configEmpty path)
    | document =>
      let (config, journal) ← ofValue document
      return (config, journal ++ [.configLoaded path])

def text (c : Config α) : String := Document.write c.toValue

mutual

/-- Whether a value holds a text that reads as no number. -/
def spellsNaN : Value α → Bool
  | .text s => (Value.text s : Value α).toScalar.toOption.any Scalar.isNaN
  | .map entries => entriesSpellNaN entries
  | _ => false

def entriesSpellNaN : List (Value α × Value α) → Bool
  | [] => false
  | (_, v) :: rest => spellsNaN v || entriesSpellNaN rest

end

/-- Whether the configuration that was read from `source` equals another one. What is no number equals
itself where the source writes it as a number, but not where it is the reading of a text. -/
def agrees (source : String) (c other : Config α) : Bool :=
  let spelled (name : String) : Bool :=
    match (Document.read source : Except Failure (Value α)) with
    | .ok (.map entries) => (Value.lookup? entries name).any spellsNaN
    | _ => false
  c.toValue.same other.toValue && !(["icp", "imu", "fiducial_calibration"].any spelled)

end InertialOdometry.Config
