import InertialOdometry.Proofs.Inertial.Nearest
import InertialOdometry.Proofs.Odometry.Failures
import InertialOdometry.Recording.Basic

/-!
The scans of a recording in order. Whatever the order of the files in a folder, a
recording that was opened presents its scans in the order of their stamps, where these are
compared exactly.
-/

namespace InertialOdometry

variable {α β P : Type} [Scalar α]

namespace Table

omit [Scalar α] in
/-- Sorted items are in order, and those that may stand either way stand as they did. -/
theorem pairwise_mergeSort_stable {le : β → β → Bool} {R : β → β → Prop}
    (htrans : ∀ a b c, le a b = true → le b c = true → le a c = true)
    (htotal : ∀ a b, (le a b || le b a) = true) {xs : List β} (h : xs.Pairwise R) :
    (xs.mergeSort le).Pairwise fun a b => le a b = true ∧ (le b a = true → R a b) := by
  induction xs with
  | nil => simp
  | cons x xs ih =>
      obtain ⟨hx, hxs⟩ := List.pairwise_cons.mp h
      -- The first item is put in front of all that it may stand before.
      obtain ⟨before, after, hsort, hrest, hbefore⟩ := List.mergeSort_cons htrans htotal x xs
      have hsorted := List.pairwise_mergeSort htrans htotal (x :: xs)
      have hstable := ih hxs
      rw [hsort] at hsorted ⊢
      rw [hrest] at hstable
      obtain ⟨-, hsorted, hacross⟩ := List.pairwise_append.mp hsorted
      obtain ⟨hfront, hback, hstable⟩ := List.pairwise_append.mp hstable
      have hafter (b) (hb : b ∈ after) : le x b = true ∧ (le b x = true → R x b) := by
        have hmem : b ∈ xs.mergeSort le := hrest ▸ List.mem_append_right before hb
        exact ⟨(List.pairwise_cons.mp hsorted).1 b hb, fun _ => hx b (List.mem_mergeSort.mp hmem)⟩
      refine List.pairwise_append.mpr
        ⟨hfront, List.pairwise_cons.mpr ⟨hafter, hback⟩, fun a ha b hb => ?_⟩
      rcases List.mem_cons.mp hb with rfl | hb
      · have hlater : le b a ≠ true := by simpa using hbefore a ha
        exact ⟨hacross a ha b List.mem_cons_self, fun hba => absurd hba hlater⟩
      · exact hstable a ha b hb

variable {key : β → Value α} {rows : List β}

/-- Rows without missing values are sorted as a whole. -/
theorem sortBy_eq_mergeSort (h : ∀ row ∈ rows, isMissingValue (key row) = false) :
    sortBy key rows =
      rows.mergeSort fun a b => (Value.keyLE? (key a) (key b)).getD true := by
  rw [sortBy, List.partition_eq_filter_filter]
  simp only [Function.comp_def]
  rw [List.filter_eq_self.mpr fun row hrow => by simp [h row hrow],
    List.filter_eq_nil_iff.mpr fun row hrow => by simp [h row hrow], List.append_nil]

/-- Rows that are in order stay as they are. -/
theorem sortBy_eq_self (h : ∀ row ∈ rows, isMissingValue (key row) = false)
    (hsorted : rows.Pairwise fun a b =>
      (Value.keyLE? (key a) (key b)).getD true = true) : sortBy key rows = rows := by
  rw [sortBy_eq_mergeSort h]
  exact List.mergeSort_of_pairwise hsorted

end Table

namespace ScanFile

theorem inOrder_eq_mergeSort {files : List (ScanFile α)}
    (h : ∀ file ∈ files, file.stamp ≤ file.stamp) :
    inOrder files = files.mergeSort fun a b => decide (a.stamp ≤ b.stamp) := by
  have hpresent : ∀ file ∈ files,
      Table.isMissingValue (.number file.stamp) = false := fun file hfile => by
    simp [Table.isMissingValue, Scalar.isNaN, h file hfile]
  rw [inOrder, Table.sortBy_eq_mergeSort hpresent]
  rfl

/-- Sorted files are in the order of their stamps, and those of the same stamp stand as they
did. -/
theorem pairwise_inOrder_stable {files : List (ScanFile α)}
    (htotal : ∀ a ∈ files, ∀ b ∈ files, a.stamp ≤ b.stamp ∨ b.stamp ≤ a.stamp)
    (htrans : ∀ a ∈ files, ∀ b ∈ files, ∀ c ∈ files, a.stamp ≤ b.stamp →
      b.stamp ≤ c.stamp → a.stamp ≤ c.stamp)
    {R : ScanFile α → ScanFile α → Prop} (h : files.Pairwise R) :
    (inOrder files).Pairwise fun a b => a.stamp ≤ b.stamp ∧ (b.stamp ≤ a.stamp → R a b) := by
  -- The stamps can be chained as long as they are those of the files.
  let le (a b : { file // file ∈ files }) : Bool := decide (a.1.stamp ≤ b.1.stamp)
  have hattached : files.attach.Pairwise fun a b => R a.1 b.1 := by
    rw [← List.pairwise_map (f := Subtype.val), List.attach_map_subtype_val]
    exact h
  have hsorted : (files.attach.mergeSort le).Pairwise fun a b =>
      le a b = true ∧ (le b a = true → R a.1 b.1) := by
    refine Table.pairwise_mergeSort_stable (fun a b c hab hbc => ?_) (fun a b => ?_) hattached
    · exact decide_eq_true (htrans _ a.2 _ b.2 _ c.2 (of_decide_eq_true hab)
        (of_decide_eq_true hbc))
    · simpa [le] using htotal _ a.2 _ b.2
  have hattach : (files.attach.mergeSort le).map Subtype.val = inOrder files := by
    rw [inOrder_eq_mergeSort fun file hfile => (htotal file hfile file hfile).elim id id,
      List.map_mergeSort (s := fun a b : ScanFile α => decide (a.stamp ≤ b.stamp))
        fun a _ b _ => rfl, List.attach_map_subtype_val]
  rw [← hattach, List.pairwise_map]
  exact hsorted.imp fun hab =>
    ⟨of_decide_eq_true hab.1, fun hba => hab.2 (decide_eq_true hba)⟩

/-- Sorted files are in the order of their stamps. -/
theorem pairwise_inOrder {files : List (ScanFile α)}
    (hexact : ExactTimes (files.map (·.stamp))) :
    ((inOrder files).map (·.stamp)).Pairwise (· ≤ ·) := by
  have hmem (file) (hfile : file ∈ files) : file.stamp ∈ files.map (·.stamp) :=
    List.mem_map_of_mem hfile
  have hsorted := pairwise_inOrder_stable (R := fun _ _ => True)
    (fun a ha b hb => hexact.total _ (hmem a ha) _ (hmem b hb))
    (fun a ha b hb c hc => hexact.trans _ (hmem a ha) _ (hmem b hb) _ (hmem c hc))
    (List.pairwise_of_forall_mem_list fun _ _ _ _ => trivial)
  exact List.pairwise_map.mpr (hsorted.imp And.left)

omit [Scalar α] in
private theorem limited_sublist {β : Type} (limit : Option Int) (xs : List β) :
    (limited limit xs).Sublist xs := by
  unfold limited
  cases limit with
  | none => exact List.Sublist.refl xs
  | some k =>
      by_cases hk : 0 ≤ k
      · simpa [hk] using List.take_sublist _ _
      · simpa [hk] using List.take_sublist _ _

private theorem inOrder_subset (files : List (ScanFile α)) : inOrder files ⊆ files := by
  intro file hfile
  rw [inOrder, Table.sortBy, List.partition_eq_filter_filter] at hfile
  simp only [List.mem_append, List.mem_mergeSort, List.mem_filter] at hfile
  exact hfile.elim And.left And.left

end ScanFile

/-- The files of points in a folder with their stamps, in the order of their names. -/
def Folder.scanFiles (folder : Folder P) : Except Failure (List (ScanFile α)) :=
  ScanFile.stamped folder.stampTable
    (ScanFile.namesOf ((folder.scans.getD []).map (·.1)))

namespace Recording

/-- An opened recording has the first of the folder's scans in the order of their stamps,
as many as the limit says. -/
theorem scans_of_openAt {location : String} {folder : Folder P} {limit : Option Int}
    {r : Recording α P} {journal : Journal α}
    (h : openAt location (some folder) limit = .ok (r, journal)) :
    ∃ files, folder.scanFiles = .ok files ∧
      r.scans = ScanFile.limited limit (ScanFile.inOrder files) := by
  unfold openAt at h
  cases hlisting : folder.scans with
  | none => simp [hlisting] at h
  | some listing =>
      simp only [hlisting] at h
      obtain ⟨scans, hdirectory, h⟩ := Failure.of_bind_ok h
      obtain ⟨attitudes, -, h⟩ := Failure.of_bind_ok h
      cases h
      unfold ScanFile.ofDirectory at hdirectory
      simp only at hdirectory
      split at hdirectory
      · cases hdirectory
      · obtain ⟨files, hfiles, hlimited⟩ := Failure.of_bind_ok hdirectory
        cases hlimited
        exact ⟨files, by simpa [Folder.scanFiles, hlisting] using hfiles, rfl⟩

/-- The scans of an opened recording come in the order of their stamps. -/
theorem pairwise_scans_of_openAt {location : String} {folder : Folder P}
    {limit : Option Int} {r : Recording α P} {journal : Journal α}
    (h : openAt location (some folder) limit = .ok (r, journal))
    {files : List (ScanFile α)} (hfiles : folder.scanFiles = .ok files)
    (hexact : ExactTimes (files.map (·.stamp))) :
    r.scans ⊆ files ∧ (r.scans.map (·.stamp)).Pairwise (· ≤ ·) := by
  obtain ⟨files', hfiles', hscans⟩ := scans_of_openAt h
  cases hfiles.symm.trans hfiles'
  have hsub := ScanFile.limited_sublist limit (ScanFile.inOrder files)
  rw [hscans]
  exact ⟨fun file hfile => ScanFile.inOrder_subset files (hsub.subset hfile),
    (ScanFile.pairwise_inOrder hexact).sublist (hsub.map _)⟩

omit [Scalar α] in
theorem file_eq_ok_iff {r : Recording α P} {index : Int} {file : ScanFile α} :
    r.file index = .ok file ↔ 0 ≤ index ∧ r.scans[index.toNat]? = some file := by
  unfold Recording.file
  by_cases hindex : index < 0
  · simp [hindex]
  · rw [if_neg hindex]
    cases r.scans[index.toNat]? <;> simp [not_lt.mp hindex]

omit [Scalar α] in
/-- A scan is presented with its place and with the stamp of its file. -/
theorem file_of_scan {r : Recording α P} {index : Nat} {scan : Scan α P}
    (h : r.scan index = .ok scan) :
    ∃ file, r.scans[index]? = some file ∧ scan.stamp = .real file.stamp ∧
      scan.index = index := by
  obtain ⟨file, hfile, hscan⟩ := Failure.of_bind_ok h
  refine ⟨file, (file_eq_ok_iff.mp hfile).2, ?_⟩
  split at hscan
  · cases hscan
    exact ⟨rfl, rfl⟩
  · cases hscan

omit [Scalar α] in
theorem mem_stamps_iff {r : Recording α P} {index : Nat} {t : α} :
    (index, t) ∈ r.stamps ↔ ∃ file, r.scans[index]? = some file ∧ file.stamp = t := by
  constructor
  · intro hstamp
    obtain ⟨place, hplace⟩ := List.mem_iff_getElem?.mp hstamp
    obtain ⟨hindex, ht⟩ := List.getElem?_zip_eq_some.mp hplace
    obtain ⟨_, hrange⟩ := List.getElem?_eq_some_iff.mp hindex
    obtain rfl : place = index := by simpa using hrange
    rwa [List.getElem?_map, Option.map_eq_some_iff] at ht
  · rintro ⟨file, hfile, rfl⟩
    obtain ⟨hindex, -⟩ := List.getElem?_eq_some_iff.mp hfile
    refine List.mem_of_getElem? (i := index) (List.getElem?_zip_eq_some.mpr ⟨?_, ?_⟩)
    · rw [List.getElem?_range hindex]
    · rw [List.getElem?_map, hfile]
      rfl

/-- The stamp of a scan by its place is the one that it is presented with. -/
theorem time_of_mem_stamps {r : Recording α P} {index : Nat} {t : α} {scan : Scan α P}
    (hstamp : (index, t) ∈ r.stamps) (hscan : r.scan index = .ok scan) : scan.time = t := by
  obtain ⟨file, hfile, rfl⟩ := mem_stamps_iff.mp hstamp
  obtain ⟨found, hfound, hreal, -⟩ := file_of_scan hscan
  cases hfile.symm.trans hfound
  exact congrArg Numeral.value hreal

omit [Scalar α] in
theorem map_snd_stamps (r : Recording α P) :
    r.stamps.map Prod.snd = r.scans.map (·.stamp) := by
  unfold stamps
  rw [List.map_snd_zip]
  simp

omit [Scalar α] in
theorem map_fst_stamps (r : Recording α P) :
    r.stamps.map Prod.fst = List.range r.scans.length := by
  unfold stamps
  rw [List.map_fst_zip]
  simp

end Recording

end InertialOdometry
