import Mathlib.Data.List.Perm.Basic
import InertialOdometry.Proofs.Config.Sections
import InertialOdometry.Value.Order

/-!
Mappings by their fields. A mapping whose keys are distinct texts is told by what each name
is given, in whatever order. Values that differ only in the order of their entries have the
same fields, and where a field has no parts of its own it has the very same value. Equality
of values, which does look at the order, is decidable.
-/

namespace InertialOdometry

variable {α : Type}

namespace Value

/-! ### Mappings by their fields -/

def rowsOf (fields : List (String × Value α)) : List (Value α × Value α) :=
  fields.map fun field => (text field.1, field.2)

private theorem ofFields_eq (fields : List (String × Value α)) :
    ofFields fields = map (rowsOf fields) :=
  rfl

theorem isText_eq_true_iff {v : Value α} {name : String} :
    v.isText name = true ↔ v = text name := by
  cases v <;> simp [isText]

private theorem lookup?_cons (entry : Value α × Value α) (rows : List (Value α × Value α))
    (name : String) : lookup? (entry :: rows) name =
      if entry.1.isText name then some entry.2 else lookup? rows name := by
  rw [lookup?, List.find?_cons]
  cases entry.1.isText name <;> rfl

/-- Where no key stands twice, a name is looked up as the entry that has it. -/
theorem lookup?_eq_some_iff {rows : List (Value α × Value α)} (hrows : (rows.map (·.1)).Nodup)
    {name : String} {v : Value α} : lookup? rows name = some v ↔ (text name, v) ∈ rows := by
  induction rows with
  | nil => simp [lookup?]
  | cons entry rows ih =>
      obtain ⟨key, w⟩ := entry
      rw [List.map_cons, List.nodup_cons] at hrows
      obtain ⟨hfresh, hrows⟩ := hrows
      rw [lookup?_cons, List.mem_cons]
      by_cases hkey : key = text name
      · subst hkey
        have hnot : (text name, v) ∉ rows := fun hmem =>
          hfresh (List.mem_map.mpr ⟨_, hmem, rfl⟩)
        simp [isText, hnot, eq_comm]
      · have hother : ¬key.isText name = true := fun h => hkey (isText_eq_true_iff.mp h)
        simp [hother, ih hrows, eq_comm, hkey]

/-- The order of entries plays no part where no key stands twice. -/
theorem lookup?_perm {rows others : List (Value α × Value α)} (h : rows.Perm others)
    (hothers : (others.map (·.1)).Nodup) (name : String) :
    lookup? rows name = lookup? others name := by
  have hrows : (rows.map (·.1)).Nodup := (h.map _).nodup_iff.mpr hothers
  ext v
  rw [lookup?_eq_some_iff hrows, lookup?_eq_some_iff hothers, h.mem_iff]

private theorem lookup?_rowsOf (fields : List (String × Value α)) (name : String) :
    lookup? (rowsOf fields) name = fields.lookup name := by
  induction fields with
  | nil => rfl
  | cons field fields ih =>
      have hrest : rowsOf (field :: fields) = (text field.1, field.2) :: rowsOf fields := rfl
      rw [hrest, lookup?_cons, List.lookup_cons, ← ih]
      by_cases hname : name = field.1
      · simp [isText, hname]
      · have hother : ¬field.1 = name := fun h => hname h.symm
        have hmiss : (name == field.1) = false := beq_eq_false_iff_ne.mpr hname
        simp [isText, hother, hmiss]

/-- A value is a mapping of the given fields, in whatever order, and of no others. -/
def HasFields (v : Value α) (fields : List (String × Value α)) : Prop :=
  ∃ rows, v = map rows ∧ rows.Perm (rowsOf fields)

theorem hasFields_ofFields (fields : List (String × Value α)) :
    (ofFields fields).HasFields fields := ⟨_, rfl, .refl _⟩

/-- What stands at a name in a mapping of fields does not depend on their order. -/
theorem HasFields.at? {v : Value α} {fields : List (String × Value α)} (h : v.HasFields fields)
    (hnames : (fields.map (·.1)).Nodup) (name : String) :
    v.at? [name] = fields.lookup name := by
  obtain ⟨rows, rfl, hrows⟩ := h
  have hkeys : ((rowsOf fields).map (·.1)).Nodup := by
    rw [rowsOf, List.map_map]
    have htexts : ((fields.map (·.1)).map (text : String → Value α)).Nodup :=
      List.Pairwise.map text (fun _ _ hne htext => hne (text.inj htext)) hnames
    rwa [List.map_map] at htexts
  rw [at?_map_singleton, lookup?_perm hrows hkeys, lookup?_rowsOf]

/-! ### The order of entries -/

section

variable [Scalar α]

theorem inOrderEntries_eq_map (rows : List (Value α × Value α)) :
    inOrderEntries rows = rows.map fun entry => (entry.1, entry.2.inOrder) := by
  induction rows with
  | nil => rfl
  | cons entry rows ih => rw [inOrderEntries, ih, List.map_cons]

theorem sortEntries_perm (rows : List (Value α × Value α)) : (sortEntries rows).Perm rows := by
  unfold sortEntries
  split
  · exact List.mergeSort_perm _ _
  · exact .refl _

/-- Two fields have the same name, and the same value up to the order of entries. -/
def SameField (f g : String × Value α) : Prop := f.1 = g.1 ∧ f.2.inOrder = g.2.inOrder

theorem sameFields_refl (fields : List (String × Value α)) :
    List.Forall₂ SameField fields fields := List.forall₂_same.mpr fun _ _ => ⟨rfl, rfl⟩

theorem sameFields_cons_iff {found fields : List (String × Value α)} {name : String}
    {v : Value α} :
    List.Forall₂ SameField found ((name, v) :: fields) ↔ ∃ u rest, found = (name, u) :: rest ∧
      u.inOrder = v.inOrder ∧ List.Forall₂ SameField rest fields := by
  rw [List.forall₂_cons_right_iff]
  constructor
  · rintro ⟨⟨_, u⟩, rest, ⟨rfl, hu⟩, hrest, rfl⟩
    exact ⟨u, rest, rfl, hu, hrest⟩
  · rintro ⟨u, rest, rfl, hu, hrest⟩
    exact ⟨(name, u), rest, ⟨rfl, hu⟩, hrest, rfl⟩

private theorem exists_rowsOf {fields : List (String × Value α)} {rows : List (Value α × Value α)}
    (h : List.Forall₂
      (fun field entry => (text field.1, field.2.inOrder) = (entry.1, entry.2.inOrder))
      fields rows) : ∃ found, rows = rowsOf found ∧ List.Forall₂ SameField found fields := by
  induction h with
  | nil => exact ⟨[], rfl, .nil⟩
  | @cons field entry fields rows hentry hrows ih =>
      obtain ⟨found, rfl, hfound⟩ := ih
      obtain ⟨key, w⟩ := entry
      simp only [Prod.mk.injEq] at hentry
      obtain ⟨rfl, hvalue⟩ := hentry
      exact ⟨(field.1, w) :: found, rfl, .cons ⟨rfl, hvalue.symm⟩ hfound⟩

/-- What is a mapping of some fields up to the order of entries is a mapping. -/
theorem exists_hasFields {v : Value α} {fields : List (String × Value α)}
    (h : v.inOrder = (ofFields fields).inOrder) :
    ∃ found, v.HasFields found ∧ List.Forall₂ SameField found fields := by
  cases v with
  | map rows =>
      simp only [ofFields_eq, inOrder, inOrderEntries_eq_map, map.injEq] at h
      have hperm : ((rowsOf fields).map fun entry => (entry.1, entry.2.inOrder)).Perm
          (rows.map fun entry => (entry.1, entry.2.inOrder)) :=
        (sortEntries_perm _).symm.trans (h ▸ sortEntries_perm _)
      have hordered : List.Forall₂ (fun ordered entry => ordered = (entry.1, entry.2.inOrder))
          (rows.map fun entry => (entry.1, entry.2.inOrder)) rows :=
        List.forall₂_map_left_iff.mpr (List.forall₂_same.mpr fun _ _ => rfl)
      -- The entries are taken in the order of the fields.
      obtain ⟨taken, htaken, hrows⟩ := List.perm_comp_forall₂ hperm hordered
      rw [List.forall₂_map_left_iff, rowsOf, List.forall₂_map_left_iff] at htaken
      obtain ⟨found, rfl, hfound⟩ := exists_rowsOf htaken
      exact ⟨found, ⟨rows, rfl, hrows.symm⟩, hfound⟩
  | _ =>
      simp only [ofFields_eq, inOrder, reduceCtorEq] at h

theorem inOrder_ofFields_congr {found fields : List (String × Value α)}
    (h : List.Forall₂ SameField found fields) :
    (ofFields found).inOrder = (ofFields fields).inOrder := by
  have hrows : inOrderEntries (rowsOf found) = inOrderEntries (rowsOf fields) := by
    induction h with
    | nil => rfl
    | @cons f g found fields hfield hrest ih =>
        simp only [rowsOf, List.map_cons, inOrderEntries] at ih ⊢
        rw [ih, hfield.1, hfield.2]
  rw [ofFields_eq, ofFields_eq, inOrder, inOrder, hrows]

/-- Whether a value has no parts that could be put in order. -/
def isLeaf : Value α → Bool
  | list _ | tuple _ | set _ | map _ => false
  | _ => true

private theorem eq_of_inOrder_eq {v w : Value α} (hw : w.isLeaf = true)
    (h : v.inOrder = w.inOrder) :
    v = w := by
  cases w <;> simp only [isLeaf, Bool.false_eq_true] at hw <;>
    cases v <;> simp_all [inOrder]

private theorem eq_of_sameField {found fields : List (String × Value α)}
    (h : List.Forall₂ SameField found fields) (hleaf : ∀ field ∈ fields, field.2.isLeaf = true) :
    found = fields := by
  induction h with
  | nil => rfl
  | @cons f field found fields hfield hrest ih =>
      obtain ⟨hname, hvalue⟩ := hfield
      rw [List.forall_mem_cons] at hleaf
      rw [ih hleaf.2, Prod.ext hname (eq_of_inOrder_eq hleaf.1 hvalue)]

/-- Where no value has parts, nothing can change but the order of the fields. -/
theorem hasFields_of_inOrder_eq {v : Value α} {fields : List (String × Value α)}
    (hleaf : ∀ field ∈ fields, field.2.isLeaf = true) (h : v.inOrder = (ofFields fields).inOrder) :
    v.HasFields fields := by
  obtain ⟨found, hfound, hsame⟩ := exists_hasFields h
  rwa [eq_of_sameField hsame hleaf] at hfound

end

end Value

/-! ### Equality of values -/

namespace Value

variable [DecidableEq α]

mutual

/-- Whether two values are the very same, with their entries in the same order. -/
def identical : Value α → Value α → Bool
  | null, null => true
  | bool a, bool b => a == b
  | int m, int n => m == n
  | number x, number y => x == y
  | text s, text t => s == t
  | bytes s, bytes t => s == t
  | date d, date e => d == e
  | moment m, moment n => m == n
  | list xs, list ys | tuple xs, tuple ys | set xs, set ys => allIdentical xs ys
  | map xs, map ys => entriesIdentical xs ys
  | _, _ => false

def allIdentical : List (Value α) → List (Value α) → Bool
  | [], [] => true
  | x :: xs, y :: ys => x.identical y && allIdentical xs ys
  | _, _ => false

def entriesIdentical : List (Value α × Value α) → List (Value α × Value α) → Bool
  | [], [] => true
  | (key, x) :: xs, (other, y) :: ys =>
    key.identical other && x.identical y && entriesIdentical xs ys
  | _, _ => false

end

mutual

/-- Being the very same value can be decided. -/
theorem identical_iff : ∀ v w : Value α, v.identical w = true ↔ v = w
  | list xs, w | tuple xs, w | set xs, w => by cases w <;> simp [identical, allIdentical_iff xs]
  | map xs, w => by cases w <;> simp [identical, entriesIdentical_iff xs]
  | null, w | bool _, w | int _, w | number _, w | text _, w | bytes _, w | date _, w
  | moment _, w => by cases w <;> simp [identical]

theorem allIdentical_iff : ∀ xs ys : List (Value α), allIdentical xs ys = true ↔ xs = ys
  | [], ys => by cases ys <;> simp [allIdentical]
  | x :: xs, ys => by cases ys <;> simp [allIdentical, identical_iff x, allIdentical_iff xs]

theorem entriesIdentical_iff :
    ∀ xs ys : List (Value α × Value α), entriesIdentical xs ys = true ↔ xs = ys
  | [], ys => by cases ys <;> simp [entriesIdentical]
  | (key, x) :: xs, ys => by
      cases ys <;> simp [entriesIdentical, identical_iff key, identical_iff x,
        entriesIdentical_iff xs, Prod.ext_iff]

end

instance : DecidableEq (Value α) := fun v w => decidable_of_iff _ (identical_iff v w)

end Value

end InertialOdometry
