import InertialOdometry.Scalar

/-!
Values of a configuration document: what its text, or a caller, may put in the place of a setting.
The type says nothing about which of them a setting accepts.
-/

namespace InertialOdometry

structure Date where
  year : Nat
  month : Nat
  day : Nat
deriving DecidableEq

/-- A point in time: a day, a time of day down to microseconds, and possibly the distance of its
time zone from universal time in seconds. -/
structure Moment where
  date : Date
  hour : Nat
  minute : Nat
  second : Nat
  microsecond : Nat
  offset : Option Int
deriving DecidableEq

/-- A value of a configuration document. Mappings keep the order in which their keys were first
written. -/
inductive Value (α : Type) where
  | null
  | bool (b : Bool)
  | int (n : Int)
  | number (x : α)
  | text (s : String)
  | bytes (bs : List Nat)
  | date (d : Date)
  | moment (m : Moment)
  | list (xs : List (Value α))
  | tuple (xs : List (Value α))
  | set (xs : List (Value α))
  | map (entries : List (Value α × Value α))
deriving Inhabited

namespace Value

variable {α : Type}

/-- The name of a value's kind; dates carry their module's name where it is asked for. -/
def kindName (qualified : Bool) : Value α → String
  | null => "NoneType"
  | bool _ => "bool"
  | int _ => "int"
  | number _ => "float"
  | text _ => "str"
  | bytes _ => "bytes"
  | date _ => if qualified then "datetime.date" else "date"
  | moment _ => if qualified then "datetime.datetime" else "datetime"
  | list _ => "list"
  | tuple _ => "tuple"
  | set _ => "set"
  | map _ => "dict"

/-- Whether a value counts as a yes: everything does except the null value, false, zeros and what
is empty. -/
def truth [Scalar α] : Value α → Bool
  | null => false
  | bool b => b
  | int n => n != 0
  | number x => !Scalar.same x Scalar.zero
  | text s => !s.isEmpty
  | bytes bs => !bs.isEmpty
  | date _ => true
  | moment _ => true
  | list xs => !xs.isEmpty
  | tuple xs => !xs.isEmpty
  | set xs => !xs.isEmpty
  | map entries => !entries.isEmpty

def isText (s : String) : Value α → Bool
  | text t => t == s
  | _ => false

def lookup? (entries : List (Value α × Value α)) (name : String) : Option (Value α) :=
  (entries.find? fun entry => entry.1.isText name).map (·.2)

/-- The whole number that a value equals, if any: truth values count as one and zero, and a scalar
without fraction as the whole number next to it. -/
def whole? [Scalar α] : Value α → Option Int
  | bool b => some (if b then 1 else 0)
  | int n => some n
  | number x =>
    if Scalar.isFinite x && Scalar.same (Scalar.int (Scalar.truncate x)) x then
      some (Scalar.truncate x)
    else none
  | _ => none

/-- Whether two values are the same key of a mapping. Numbers are compared by size, whatever their
kind. -/
def sameKey [Scalar α] (a b : Value α) : Bool :=
  match a, b with
  | null, null => true
  | text s, text t => s == t
  | bytes s, bytes t => s == t
  | date d, date e => d == e
  | moment d, moment e => d == e
  | number x, number y => Scalar.same x y
  | _, _ =>
    match a.whole?, b.whole? with
    | some m, some n => m == n
    | _, _ => false

/-- Gives a key a value: an old key keeps its place, a new one goes to the end. -/
def assign [Scalar α] (entries : List (Value α × Value α)) (key value : Value α) :
    List (Value α × Value α) :=
  if entries.any fun entry => entry.1.sameKey key then
    entries.map fun entry => if entry.1.sameKey key then (entry.1, value) else entry
  else entries ++ [(key, value)]

def ofEntries [Scalar α] (entries : List (Value α × Value α)) : Value α :=
  map (entries.foldl (fun done entry => assign done entry.1 entry.2) [])

def ofFields (fields : List (String × Value α)) : Value α :=
  map (fields.map fun (name, value) => (text name, value))

end Value

end InertialOdometry
