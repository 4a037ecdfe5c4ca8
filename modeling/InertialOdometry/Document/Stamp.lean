import InertialOdometry.Decimal.Reading
import InertialOdometry.Failure

/-!
Dates and times in documents: `2020-01-31`, or with a time of day `2020-1-31 9:05:00.25 +01:00`.
-/

namespace InertialOdometry.Document

/-- The numbers of a date, and of the time of day behind it if there is one. -/
structure Stamp where
  year : Nat
  month : Nat
  day : Nat
  time : Option (Nat × Nat × Nat)
  microsecond : Nat
  offset : Option Int

namespace Stamp

def digits (least most : Nat) (cs : List Char) : Option (Nat × List Char) :=
  let ds := (cs.takeWhile Char.isDigit).take most
  if ds.length < least then none else some (Decimal.ofDigits ds, cs.drop ds.length)

def mark (c : Char) (cs : List Char) : Option (List Char) :=
  match cs with
  | d :: rest => if d == c then some rest else none
  | [] => none

/-- A time zone to the end of the text: nothing, the letter for universal time, or a distance from it in
hours and possibly minutes. The distance is given in seconds. -/
def zone (cs : List Char) : Option (Option Int) :=
  match cs.dropWhile fun c => c == ' ' || c == '\t' with
  | [] => if cs.isEmpty then some none else none
  | ['Z'] => some (some 0)
  | sign :: rest => do
    if sign != '+' && sign != '-' then none
    else
      let (hours, rest) ← digits 1 2 rest
      let minutes ←
        if rest.isEmpty then pure 0
        else do
          let (m, rest) ← digits 2 2 (← mark ':' rest)
          if rest.isEmpty then pure m else none
      let seconds : Int := 60 * (60 * hours + minutes)
      return some (if sign == '-' then -seconds else seconds)

/-- A fraction of a second in millionths; further digits are cut off. -/
def millionths (ds : List Char) : Nat :=
  let ds := ds.take 6
  Decimal.ofDigits (ds ++ List.replicate (6 - ds.length) '0')

def ofText? (s : String) : Option Stamp := do
  let (year, cs) ← digits 4 4 s.toList
  let (month, cs) ← digits 1 2 (← mark '-' cs)
  let (day, cs) ← digits 1 2 (← mark '-' cs)
  if cs.isEmpty then return ⟨year, month, day, none, 0, none⟩
  else
    let cs ←
      match cs with
      | 'T' :: rest | 't' :: rest => pure rest
      | c :: rest =>
        if c == ' ' || c == '\t' then pure (rest.dropWhile fun c => c == ' ' || c == '\t') else none
      | [] => none
    let (hour, cs) ← digits 1 2 cs
    let (minute, cs) ← digits 2 2 (← mark ':' cs)
    let (second, cs) ← digits 2 2 (← mark ':' cs)
    let (fraction, cs) :=
      match cs with
      | '.' :: rest => (rest.takeWhile Char.isDigit, rest.dropWhile Char.isDigit)
      | cs => ([], cs)
    let offset ← zone cs
    return ⟨year, month, day, some (hour, minute, second), millionths fraction, offset⟩

def daysIn (year month : Nat) : Nat :=
  let leap := year % 4 == 0 && (year % 100 != 0 || year % 400 == 0)
  if month == 2 then (if leap then 29 else 28)
  else if [4, 6, 9, 11].contains month then 30 else 31

/-- The date or moment that a stamp stands for, if the calendar has it. -/
def toValue? {α : Type} (s : Stamp) : Option (Value α) :=
  let date : Date := ⟨s.year, s.month, s.day⟩
  let inCalendar := 1 ≤ s.year && 1 ≤ s.month && s.month ≤ 12 && 1 ≤ s.day &&
    s.day ≤ daysIn s.year s.month
  if !inCalendar then none
  else
    match s.time with
    | none => some (.date date)
    | some (hour, minute, second) =>
      if hour < 24 && minute < 60 && second < 60 && s.offset.all fun o => o.natAbs < 86400 then
        some (.moment ⟨date, hour, minute, second, s.microsecond, s.offset⟩)
      else none

end Stamp

/-- The spellings of dates and moments that need no tag: a date alone has two digits for month and
day. -/
def isStampWord (s : String) : Bool :=
  match Stamp.ofText? s with
  | none => false
  | some t => t.time.isSome || s.length == 10

end InertialOdometry.Document
