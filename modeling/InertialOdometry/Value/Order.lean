import InertialOdometry.Value.Basic

/-!
Order and equality of values. Keys are ordered within their class: numbers by size, texts by their
characters, dates and moments by time. `Value.inOrder` puts the entries of all mappings into this order
where there is one, and `Value.same` compares values without regard to the order of entries.
-/

namespace InertialOdometry

namespace Date

def daysBefore (month : Nat) : Nat :=
  [0, 31, 59, 90, 120, 151, 181, 212, 243, 273, 304, 334].getD (month - 1) 0

def dayNumber (d : Date) : Nat :=
  let years := d.year - 1
  let leap := d.year % 4 == 0 && (d.year % 100 != 0 || d.year % 400 == 0)
  365 * years + years / 4 - years / 100 + years / 400 + daysBefore d.month + d.day +
    (if leap && 2 < d.month then 1 else 0)

end Date

/-- The distance of a moment from the beginning of the calendar in millionths of a second. -/
def Moment.instant (m : Moment) : Int :=
  let seconds : Int := ((m.date.dayNumber * 24 + m.hour) * 60 + m.minute) * 60 + m.second
  (seconds - m.offset.getD 0) * 1000000 + m.microsecond

namespace Value

variable {α : Type} [Scalar α]

def numberLE? (a b : Value α) : Option Bool :=
  match a, b with
  | number x, number y => some (decide (x ≤ y))
  | number x, _ => b.whole?.map fun n => decide (x ≤ Scalar.int n)
  | _, number y => a.whole?.map fun n => decide (Scalar.int n ≤ y)
  | _, _ => do return decide ((← a.whole?) ≤ (← b.whole?))

/-- Whether a key does not come after another one. There is no answer for keys of two classes, nor for
a moment with time zone and one without. -/
def keyLE? (a b : Value α) : Option Bool :=
  match a, b with
  | text s, text t => some (decide (s ≤ t))
  | bytes s, bytes t => some !(t.lex s)
  | date d, date e => some (decide (d.dayNumber ≤ e.dayNumber))
  | moment m, moment n =>
    if m.offset.isSome == n.offset.isSome then some (decide (m.instant ≤ n.instant)) else none
  | _, _ => numberLE? a b

def sortEntries (entries : List (Value α × Value α)) : List (Value α × Value α) :=
  if entries.all fun a => entries.all fun b => (keyLE? a.1 b.1).isSome then
    entries.mergeSort fun a b => (keyLE? a.1 b.1).getD true
  else entries

mutual

/-- The value with the entries of all its mappings, and the items of its sets, in order. -/
def inOrder : Value α → Value α
  | list xs => list (inOrderAll xs)
  | tuple xs => tuple (inOrderAll xs)
  | set xs => set ((sortEntries ((inOrderAll xs).map fun x => (x, null))).map (·.1))
  | map entries => map (sortEntries (inOrderEntries entries))
  | v => v

def inOrderAll : List (Value α) → List (Value α)
  | [] => []
  | x :: xs => x.inOrder :: inOrderAll xs

def inOrderEntries : List (Value α × Value α) → List (Value α × Value α)
  | [] => []
  | (key, value) :: rest => (key, value.inOrder) :: inOrderEntries rest

end

/-- Whether two values without parts are equal. Numbers are compared by size, and what is no number
equals itself. -/
def sameLeaf (a b : Value α) : Bool :=
  match a, b with
  | number x, number y => Scalar.same x y || (Scalar.isNaN x && Scalar.isNaN y)
  | a, b => a.sameKey b

mutual

/-- Whether two values are equal. The order of the entries of a mapping and of the items of a set plays
no part. -/
def same (a b : Value α) : Bool :=
  match a, b with
  | list xs, list ys => sameAll xs ys
  | tuple xs, tuple ys => sameAll xs ys
  | set xs, set ys => xs.length == ys.length && xs.all fun x => ys.any x.sameLeaf
  | map xs, map ys => xs.length == ys.length && sameEntries xs ys
  | a, b => a.sameLeaf b

def sameAll : List (Value α) → List (Value α) → Bool
  | [], [] => true
  | x :: xs, y :: ys => x.same y && sameAll xs ys
  | _, _ => false

def sameEntries : List (Value α × Value α) → List (Value α × Value α) → Bool
  | [], _ => true
  | (key, value) :: rest, ys =>
    (ys.any fun entry => key.sameLeaf entry.1 && value.same entry.2) && sameEntries rest ys

end

end Value

end InertialOdometry
