import InertialOdometry.Failure

/-!
Values as numbers and as texts. As a number, a truth value counts as one or zero, a text is read, and
everything else that is no number is refused with its kind. As a text, a value has its plain form,
unless it holds a whole number that is too long to be written out.
-/

namespace InertialOdometry

namespace Value

variable {α : Type} [Scalar α]

/-- The text that a row of bytes spells in the seven bit range. Other bytes become a character that
no number holds. -/
def bytesText (bs : List Nat) : String :=
  .ofList (bs.map fun n => if n < 128 then Char.ofNat n else '?')

def scalarOfInt (n : Int) : Except Failure α :=
  let x : α := Scalar.int n
  if Scalar.isFinite x then .ok x else .error .beyondScalars

def scalarOfText (s quoted : String) : Except Failure α :=
  match Decimal.readNumber? s with
  | some l => .ok (Scalar.ofLiteral l)
  | none => .error (.notNumeric quoted)

def toScalar : Value α → Except Failure α
  | bool b => .ok (if b then Scalar.one else Scalar.zero)
  | int n => scalarOfInt n
  | number x => .ok x
  | text s => scalarOfText s (Text.quoted s)
  | bytes bs => scalarOfText (bytesText bs) (Text.quotedBytes bs)
  | v => .error (.notReal (v.kindName true))

/-- The scalar that a value is, where texts are not read; none for values that are no numbers. -/
def number? : Value α → Option α
  | bool b => some (if b then Scalar.one else Scalar.zero)
  | int n => some (Scalar.int n)
  | number x => some x
  | _ => none

def integerOfText (s quoted : String) : Except Failure Int :=
  match Decimal.readInteger s with
  | .value n => .ok n
  | .tooLong count => .error (.tooManyDigits count)
  | .malformed => .error (.notWhole quoted)

/-- The whole number that a value stands for; fractions are cut off. -/
def toInteger : Value α → Except Failure Int
  | bool b => .ok (if b then 1 else 0)
  | int n => .ok n
  | number x =>
    if Scalar.isNaN x then .error .noNumberToInteger
    else if !Scalar.isFinite x then .error .infinityToInteger
    else .ok (Scalar.truncate x)
  | text s => integerOfText s (Text.quoted s)
  | bytes bs => integerOfText (bytesText bs) (Text.quotedBytes bs)
  | v => .error (.notInteger (v.kindName true))

/-- Whether a value lies above zero, for the values that can be compared. What is no number is not
at most zero, so it passes. -/
def aboveZero : Value α → Except Failure Bool
  | bool b => .ok b
  | int n => .ok (0 < n)
  | number x => .ok (!decide (x ≤ Scalar.zero))
  | v => .error (.unordered (v.kindName true))

def written (v : Value α) : Except Failure String :=
  if v.isWritable then .ok v.plain else .error .tooLongToWrite

end Value

end InertialOdometry
