import InertialOdometry.Text.Blank
import InertialOdometry.Text.DecimalDigit

/-!
Reading numbers from text. A number may be surrounded by blanks, may use the decimal digits of any
script, and may have single underscores between its digits. `readNumber?` takes decimal fractions
with an optional exponent and the words for infinity and for no number, `readInteger` whole numbers.
-/

namespace InertialOdometry.Decimal

/-- What the text of a number says, before it is rounded to a scalar: `digits · 10 ^ scale` with a
sign, an infinity, or no number. -/
inductive Literal where
  | finite (negative : Bool) (digits : Nat) (scale : Int)
  | infinite (negative : Bool)
  | notANumber
deriving DecidableEq

/-- The seven bit form of a character: digits of other scripts become plain digits and wide blanks
become spaces. Nothing else beyond the seven bit range occurs in a number. -/
def plainForm (c : Char) : Option Char :=
  if c.toNat < 128 then some c
  else if Text.isWideBlank c then some ' '
  else (Text.digitValue? c).map fun n => Char.ofNat ('0'.toNat + n)

/-- Leaves out single underscores between two digits and refuses all others. -/
def dropUnderscores (afterDigit : Bool) : List Char → Option (List Char)
  | [] => some []
  | ['_'] => none
  | '_' :: c :: rest => if afterDigit && c.isDigit then dropUnderscores false (c :: rest) else none
  | c :: rest => (dropUnderscores c.isDigit rest).map (c :: ·)

def plainText (s : String) : Option (List Char) := do
  let cs ← s.toList.mapM plainForm
  dropUnderscores false (Text.trimBoth Text.isPlainBlank cs)

def ofDigits (cs : List Char) : Nat :=
  cs.foldl (fun n c => 10 * n + (c.toNat - '0'.toNat)) 0

/-- Splits off a sign; the flag tells a minus. -/
def splitSign : List Char → Bool × List Char
  | '-' :: rest => (true, rest)
  | '+' :: rest => (false, rest)
  | cs => (false, cs)

/-- An exponent part: nothing, or a mark, an optional sign and at least one digit. -/
def exponent? : List Char → Option Int
  | [] => some 0
  | c :: rest =>
    if c == 'e' || c == 'E' then
      let (negative, ds) := splitSign rest
      if ds.isEmpty || !ds.all Char.isDigit then none
      else some (if negative then -(ofDigits ds : Int) else ofDigits ds)
    else none

/-- An unsigned decimal fraction with an optional exponent. A digit must stand before or after the
point. -/
def magnitude? (negative : Bool) (cs : List Char) : Option Literal :=
  let whole := cs.takeWhile Char.isDigit
  let rest := cs.dropWhile Char.isDigit
  let (places, rest) :=
    match rest with
    | '.' :: behind => (behind.takeWhile Char.isDigit, behind.dropWhile Char.isDigit)
    | _ => ([], rest)
  if whole.isEmpty && places.isEmpty then none
  else (exponent? rest).map fun e =>
    .finite negative (ofDigits (whole ++ places)) (e - places.length)

def readNumber? (s : String) : Option Literal := do
  let (negative, cs) := splitSign (← plainText s)
  match String.ofList (cs.map Char.toLower) with
  | "inf" | "infinity" => some (.infinite negative)
  | "nan" => some .notANumber
  | _ => magnitude? negative cs

/-- The outcome of reading a whole number: too long a row of digits is told apart from text that
is no whole number. -/
inductive IntegerReading where
  | value (n : Int)
  | tooLong (count : Nat)
  | malformed
deriving DecidableEq

/-- The longest row of digits that is converted. -/
def digitLimit : Nat := 4300

def readInteger (s : String) : IntegerReading :=
  match plainText s with
  | none => .malformed
  | some cs =>
    let (negative, ds) := splitSign cs
    if ds.isEmpty || !ds.all Char.isDigit then .malformed
    else if digitLimit < ds.length then .tooLong ds.length
    else .value (if negative then -(ofDigits ds : Int) else ofDigits ds)

end InertialOdometry.Decimal
