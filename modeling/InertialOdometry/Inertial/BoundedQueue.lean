import InertialOdometry.Value.Conversion

/-!
First-in first-out queues of bounded length. A full queue makes room by giving up its oldest item, so
a queue always holds the last items that were pushed and not yet taken. Main statements:
`items_push_eq_kept` for what is pushed, `pop?_eq_some` for what is taken.
-/

namespace InertialOdometry

/-- A queue by its items, oldest first, and the number of items it holds at most. -/
structure BoundedQueue (β : Type) where
  capacity : Nat
  items : List β

namespace BoundedQueue

variable {β : Type}

def empty (capacity : Nat) : BoundedQueue β := ⟨capacity, []⟩

def size (q : BoundedQueue β) : Nat := q.items.length

def isFull (q : BoundedQueue β) : Bool := q.size == q.capacity

def lastItems (n : Nat) (xs : List β) : List β := xs.drop (xs.length - n)

/-- Appends an item and gives up as many of the oldest as the capacity asks for. -/
def push (q : BoundedQueue β) (x : β) : BoundedQueue β :=
  { q with items := lastItems q.capacity (q.items ++ [x]) }

def kept (q : BoundedQueue β) : List β := if q.size = q.capacity then q.items.tail else q.items

def pop? (q : BoundedQueue β) : Option (β × BoundedQueue β) :=
  match q.items with
  | [] => none
  | x :: rest => some (x, { q with items := rest })

def clear (q : BoundedQueue β) : BoundedQueue β := { q with items := [] }

theorem items_push (q : BoundedQueue β) (x : β) :
    (q.push x).items = lastItems q.capacity (q.items ++ [x]) := rfl

@[simp]
theorem capacity_push (q : BoundedQueue β) (x : β) : (q.push x).capacity = q.capacity := rfl

/-- Taking the oldest item cuts it off the front and changes nothing else. -/
theorem pop?_eq_some {q rest : BoundedQueue β} {x : β} (h : q.pop? = some (x, rest)) :
    q.items = x :: rest.items ∧ rest.capacity = q.capacity := by
  unfold pop? at h
  cases hitems : q.items with
  | nil => simp [hitems] at h
  | cons y ys =>
      simp only [hitems, Option.some.injEq, Prod.mk.injEq] at h
      obtain ⟨rfl, rfl⟩ := h
      exact ⟨rfl, rfl⟩

theorem pop?_eq_none {q : BoundedQueue β} (h : q.pop? = none) : q.items = [] := by
  unfold pop? at h
  cases hitems : q.items with
  | nil => rfl
  | cons y ys => simp [hitems] at h

theorem length_lastItems (n : Nat) (xs : List β) : (lastItems n xs).length = min n xs.length := by
  simp [lastItems]
  omega

/-- A queue grows up to its capacity. -/
theorem size_push (q : BoundedQueue β) (x : β) : (q.push x).size = min q.capacity (q.size + 1) := by
  simp [size, items_push, length_lastItems]

/-- A queue that may hold an item at all is not empty after one was pushed. -/
theorem items_push_ne_nil {q : BoundedQueue β} (x : β) (h : 0 < q.capacity) :
    (q.push x).items ≠ [] := by
  intro hempty
  have hsize := q.size_push x
  rw [size, hempty, List.length_nil] at hsize
  omega

/-- What is appended stands behind what is kept. -/
theorem items_push_eq_kept (q : BoundedQueue β) (x : β) (hcapacity : 0 < q.capacity)
    (hsize : q.size ≤ q.capacity) :
    (q.push x).items = q.kept ++ [x] := by
  rw [items_push, lastItems, kept, List.length_append, List.length_singleton]
  have hlength : q.items.length = q.size := rfl
  by_cases hfull : q.size = q.capacity
  · have hsurplus : q.items.length + 1 - q.capacity = 1 := by omega
    have hone : 1 ≤ q.items.length := by omega
    rw [if_pos hfull, hsurplus, List.drop_append_of_le_length hone, List.drop_one]
  · have hsurplus : q.items.length + 1 - q.capacity = 0 := by omega
    rw [if_neg hfull, hsurplus, List.drop_zero]

theorem lastItems_of_length_le {n : Nat} {xs : List β} (h : xs.length ≤ n) :
    lastItems n xs = xs := by
  rw [lastItems, Nat.sub_eq_zero_of_le h, List.drop_zero]

/-- The last items of a list can be found after cutting off anything that is not among them. -/
theorem lastItems_append_lastItems (n : Nat) (xs ys : List β) :
    lastItems n (lastItems n xs ++ ys) = lastItems n (xs ++ ys) := by
  unfold lastItems
  rw [List.drop_append, List.drop_append, List.drop_drop, List.length_append, List.length_append,
    List.length_drop]
  congr 2 <;> omega

/-- The capacity that a value asks for. The null value asks for as many items as can be counted. -/
def capacityOf {α : Type} : Value α → Except Failure Nat
  | .null => .ok (Nat.pow 2 63 - 1)
  | .bool b => .ok (if b then 1 else 0)
  | .int n =>
    if Nat.pow 2 63 ≤ n.natAbs then .error .capacityTooLarge
    else if n < 0 then .error .capacityNegative
    else .ok n.toNat
  | _ => .error .capacityNotInteger

end BoundedQueue

end InertialOdometry
