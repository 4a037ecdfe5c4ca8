import InertialOdometry.Text.Quoted
import InertialOdometry.Value.Basic

/-!
The text of a value. `Value.quoted` is the form that shows what kind of value it is, `Value.plain`
the form in which a text stands for itself and a date is written in the international way.
-/

namespace InertialOdometry

def Date.text (d : Date) : String :=
  .ofList (Decimal.padZeros 4 (Decimal.digits d.year) ++ '-' ::
    Decimal.padZeros 2 (Decimal.digits d.month) ++ '-' ::
    Decimal.padZeros 2 (Decimal.digits d.day))

namespace Moment

private def two (n : Nat) : String := .ofList (Decimal.padZeros 2 (Decimal.digits n))

/-- The distance from universal time, with seconds only where there are any. -/
def offsetText (seconds : Int) : String :=
  let n := seconds.natAbs
  (if seconds < 0 then "-" else "+") ++ two (n / 3600) ++ ":" ++ two (n / 60 % 60) ++
    (if n % 60 = 0 then "" else ":" ++ two (n % 60))

def text (m : Moment) : String :=
  m.date.text ++ " " ++ two m.hour ++ ":" ++ two m.minute ++ ":" ++ two m.second ++
    (if m.microsecond = 0 then ""
      else "." ++ .ofList (Decimal.padZeros 6 (Decimal.digits m.microsecond))) ++
    (m.offset.elim "" offsetText)

/-- A span of time by its days and the seconds left over, which are never negative. -/
private def spanText (seconds : Int) : String :=
  let days := seconds.fdiv 86400
  let rest := seconds.fmod 86400
  let parts := (if days = 0 then [] else [s!"days={days}"]) ++
    (if rest = 0 then [] else [s!"seconds={rest}"])
  "datetime.timedelta(" ++ (if parts.isEmpty then "0" else ", ".intercalate parts) ++ ")"

/-- The parts of a moment as a call; seconds and microseconds are left out where they are zero at
the end. -/
def quoted (m : Moment) : String :=
  let tail :=
    if m.microsecond ≠ 0 then [m.second, m.microsecond]
    else if m.second ≠ 0 then [m.second] else []
  let parts := ([m.date.year, m.date.month, m.date.day, m.hour, m.minute] ++ tail).map toString
  let zone :=
    match m.offset with
    | none => []
    | some 0 => ["tzinfo=datetime.timezone.utc"]
    | some seconds => ["tzinfo=datetime.timezone(" ++ spanText seconds ++ ")"]
  "datetime.datetime(" ++ ", ".intercalate (parts ++ zone) ++ ")"

end Moment

namespace Value

variable {α : Type} [Scalar α]

private def boolText (b : Bool) : String := if b then "True" else "False"

mutual

def quoted : Value α → String
  | null => "None"
  | bool b => boolText b
  | int n => toString n
  | number x => Scalar.text x
  | text s => Text.quoted s
  | bytes bs => Text.quotedBytes bs
  | date d => s!"datetime.date({d.year}, {d.month}, {d.day})"
  | moment m => m.quoted
  | list xs => "[" ++ ", ".intercalate (quotedAll xs) ++ "]"
  | tuple [x] => "(" ++ x.quoted ++ ",)"
  | tuple xs => "(" ++ ", ".intercalate (quotedAll xs) ++ ")"
  | set [] => "set()"
  | set xs => "\x7b" ++ ", ".intercalate (quotedAll xs) ++ "\x7d"
  | map entries => "\x7b" ++ ", ".intercalate (quotedEntries entries) ++ "\x7d"

def quotedAll : List (Value α) → List String
  | [] => []
  | x :: xs => x.quoted :: quotedAll xs

def quotedEntries : List (Value α × Value α) → List String
  | [] => []
  | (key, value) :: rest => (key.quoted ++ ": " ++ value.quoted) :: quotedEntries rest

end

def plain : Value α → String
  | text s => s
  | date d => d.text
  | moment m => m.text
  | v => v.quoted

mutual

/-- Whether a value can be written out: none of its whole numbers has more digits than are ever
converted. -/
def isWritable : Value α → Bool
  | int n => decide (n.natAbs < Nat.pow 10 Decimal.digitLimit)
  | list xs | tuple xs | set xs => areWritable xs
  | map entries => entriesWritable entries
  | _ => true

def areWritable : List (Value α) → Bool
  | [] => true
  | x :: xs => x.isWritable && areWritable xs

def entriesWritable : List (Value α × Value α) → Bool
  | [] => true
  | (key, value) :: rest => key.isWritable && value.isWritable && entriesWritable rest

end

end Value

end InertialOdometry
