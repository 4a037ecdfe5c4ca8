import InertialOdometry.Proofs.Decimal.Fixed
import InertialOdometry.Proofs.Decimal.Shortest
import InertialOdometry.Proofs.Report.Coordinates
import InertialOdometry.Proofs.Table.Rows

/-!
Tables and trajectories by their texts. The table of results is read back row by row, and the cells of
a pose are read as its very coordinates, since each is the shortest text of a double.
A trajectory is read back line by line, and the words of a line say the coordinates with
six places.
-/

namespace InertialOdometry

/-! ### Tables -/

namespace Artifact

section

variable {α : Type} [Scalar α]

/-- The number of a cell. An empty one stands for a value that is no number. -/
def cellNumber? (cell : String) : Option α :=
  if cell = "" then some Scalar.notANumber
  else (Decimal.readNumber? cell).map Scalar.ofLiteral

def rowNumbers? (row : List String) : Option (List α) :=
  ["x", "y", "z", "qx", "qy", "qz", "qw"].mapM fun name =>
    ((header.zip row).lookup name).bind cellNumber?

end

variable {P : Type}

private theorem isBare_of_numeral {cell : String} (h : ∀ c ∈ cell.toList, Decimal.IsNumeral c) :
    Table.IsBare cell := by
  intro c hc
  rcases h c hc with hdigit | hother
  · have hrange := Decimal.toNat_of_isDigit hdigit
    refine ⟨by omega, by omega, ?_, ?_⟩ <;>
      · rintro rfl
        exact absurd hdigit (by decide)
  · have hall : ∀ d ∈ ['.', 'e', '+', '-', 'i', 'n', 'f', 'a'], Table.IsBareChar d := by
      simp [Table.IsBareChar]
    exact hall c hother

private theorem cellNumber?_scalarCell (x : Float) : cellNumber? (scalarCell x) = some x := by
  unfold scalarCell
  split_ifs with hnan
  · rw [cellNumber?, if_pos rfl, Decimal.eq_of_isNaN hnan]
    rfl
  · obtain ⟨l, hreads, hl⟩ := Decimal.exists_readsAs_shortestText x
    have hne : Scalar.text x ≠ "" := hreads.ne_empty
    have hread : Decimal.readNumber? (Scalar.text x) = some l := hreads.read
    rw [cellNumber?, if_neg hne, hread, Option.map_some, hl]

private theorem isBare_scalarCell (x : Float) : Table.IsBare (scalarCell x) := by
  unfold scalarCell
  split_ifs
  · exact isBare_of_numeral (by simp)
  · obtain ⟨l, hreads, -⟩ := Decimal.exists_readsAs_shortestText x
    exact isBare_of_numeral hreads.numeral

private theorem isNumeral_of_mem_toString {n : ℕ} {c : Char} (h : c ∈ (toString n).toList) :
    Decimal.IsNumeral c := by
  rw [Nat.toString_eq_repr, Nat.toList_repr] at h
  exact Or.inl (Nat.isDigit_of_mem_toDigits (by decide) (by decide) h)

private theorem isBare_toString (n : ℤ) : Table.IsBare (toString n) := by
  cases n with
  | ofNat n => exact isBare_of_numeral fun _ hc => isNumeral_of_mem_toString hc
  | negSucc n =>
    refine isBare_of_numeral fun c hc => ?_
    change c ∈ ("-" ++ toString (n + 1)).toList at hc
    rw [String.toList_append, List.mem_append] at hc
    rcases hc with hsign | hc
    · obtain rfl : c = '-' := by simpa using hsign
      exact Or.inr (by decide)
    · exact isNumeral_of_mem_toString hc

private theorem isBare_truthCell (b : Bool) : Table.IsBare (truthCell (α := Float) b) := by
  cases b
  · change Table.IsBare "False"
    simp [Table.IsBare, Table.IsBareChar]
  · change Table.IsBare "True"
    simp [Table.IsBare, Table.IsBareChar]

private theorem isBare_numeralCell (allWhole : Bool) (n : Option (Numeral Float)) :
    Table.IsBare (numeralCell allWhole n) := by
  unfold numeralCell
  split
  · exact isBare_of_numeral (by simp)
  · split_ifs
    · exact isBare_toString _
    · exact isBare_scalarCell _
  · exact isBare_scalarCell _

private theorem isBare_of_mem_row (all : List (CycleResult Float P)) (r : CycleResult Float P) :
    ∀ cell ∈ row all r, Table.IsBare cell := by
  have hcell (column : List (Option (Numeral Float))) (n : Option (Numeral Float)) :
      Table.IsBare (numeralCell (isWholeColumn column) n) := isBare_numeralCell _ n
  have hscalars (xs : List Float) : ∀ cell ∈ xs.map scalarCell, Table.IsBare cell :=
    List.forall_mem_map.mpr fun x _ => isBare_scalarCell x
  rw [row]
  refine List.forall_mem_append.mpr ⟨List.forall_mem_append.mpr ⟨?_, hscalars _⟩, ?_⟩
  · simp only [List.forall_mem_cons]
    exact ⟨hcell _ _, isBare_toString _, isBare_truthCell _, isBare_truthCell _, hcell _ _,
      List.forall_mem_nil _⟩
  · simp only [List.forall_mem_cons]
    exact ⟨hcell _ _, hcell _ _, hcell _ _, List.forall_mem_nil _⟩

/-- The rows of a table of results are read back from its text. -/
theorem rowsOf_text_tableOf {results : List (CycleResult Float P)} (hne : results ≠ [])
    (started finished : String) :
    Table.rowsOf ((tableOf results).text started finished) =
      .ok (header :: results.map (row results)) := by
  rw [tableOf, if_neg (by simpa using hne), text]
  refine Table.rowsOf_join fun cells hcells => ?_
  rcases List.mem_cons.mp hcells with rfl | hcells
  · refine ⟨by decide, ?_⟩
    simp [header, Table.IsBare, Table.IsBareChar]
  · obtain ⟨r, -, rfl⟩ := List.mem_map.mp hcells
    refine ⟨?_, isBare_of_mem_row results r⟩
    simp [row]

/-- The cells of the integrated pose are read as its coordinates. -/
theorem rowNumbers?_row (all : List (CycleResult Float P)) (r : CycleResult Float P) :
    rowNumbers? (row all r) = some (r.integrated.translation.toList ++
      [r.integrated.quaternion.x, r.integrated.quaternion.y, r.integrated.quaternion.z,
        r.integrated.quaternion.w]) := by
  rw [rowNumbers?, mapM_eq_some_iff]
  have hx := cellNumber?_scalarCell
  exact .cons (hx _) (.cons (hx _) (.cons (hx _) (.cons (hx _) (.cons (hx _) (.cons (hx _)
    (.cons (hx _) .nil))))))

/-! ### Trajectories -/

def wordsOf (text : String) : List (List String) :=
  (((text.split '\n').toList.map (·.copy)).filter (· ≠ "")).map fun line =>
    (line.split ' ').toList.map (·.copy)

private theorem join_lines (lines : List String) :
    String.join (lines.map (· ++ "\n")) = "\n".intercalate (lines ++ [""]) := by
  induction lines with
  | nil => rfl
  | cons line lines ih =>
    rw [List.map_cons, String.join_cons, ih, List.cons_append,
      String.intercalate_cons_of_ne_nil (by simp)]

private theorem not_mem_intercalate {words : List String} {c : Char} (hc : c ≠ ' ')
    (hwords : ∀ word ∈ words, c ∉ word.toList) : c ∉ (" ".intercalate words).toList := by
  induction words with
  | nil => simp
  | cons word words ih =>
    obtain ⟨hword, hwords⟩ := List.forall_mem_cons.mp hwords
    cases words with
    | nil => simpa using hword
    | cons next words =>
      rw [String.intercalate_cons_cons]
      simp [hword, hc]
      simpa using ih hwords

/-- The words of lines are found again. -/
theorem wordsOf_join {lines : List (List String)}
    (hlines : ∀ words ∈ lines, words ≠ [] ∧ ∀ word ∈ words, word ≠ "" ∧ Table.IsBare word) :
    wordsOf (.join ((lines.map " ".intercalate).map (· ++ "\n"))) = lines := by
  have hbare {words : List String} (hwords : words ∈ lines) {word : String} (hword : word ∈ words)
      {c : Char} (hc : ¬Table.IsBareChar c) : c ∉ word.toList := fun hmem =>
    hc (((hlines words hwords).2 word hword).2 c hmem)
  have hend : ∀ line ∈ lines.map " ".intercalate ++ [""], '\n' ∉ line.toList := by
    refine List.forall_mem_append.mpr ⟨List.forall_mem_map.mpr fun words hwords => ?_, by simp⟩
    exact not_mem_intercalate (by decide) fun word hword => hbare hwords hword (by decide)
  have hsplit := String.toList_split_intercalate hend
  have hfull : ∀ line ∈ lines.map " ".intercalate, line ≠ "" := by
    refine List.forall_mem_map.mpr fun words hwords => ?_
    obtain ⟨hne, hwords⟩ := hlines words hwords
    obtain ⟨word, rest, rfl⟩ := List.exists_cons_of_ne_nil hne
    have hword := (hwords word List.mem_cons_self).1
    cases rest <;> simp [hword]
  have hwords {words : List String} (hwords : words ∈ lines) :
      ((" ".intercalate words).split ' ').toList.map (·.copy) = words := by
    have hblank : ∀ word ∈ words, ' ' ∉ word.toList := fun word hword =>
      hbare hwords hword (by decide)
    have h := String.toList_split_intercalate hblank
    rwa [if_neg (hlines words hwords).1] at h
  rw [if_neg (by simp)] at hsplit
  rw [wordsOf, join_lines, show "\n" = String.singleton '\n' from rfl, hsplit, List.filter_append,
    List.filter_eq_self.mpr (by simpa using hfull)]
  simp only [ne_eq, decide_not, List.filter_cons, decide_true, Bool.not_true, Bool.false_eq_true,
    if_false, List.filter_nil, List.append_nil, List.map_map]
  exact (List.map_congr_left fun words hwords' => hwords hwords').trans (List.map_id lines)

/-- The words of a line are read as the numbers of a pose, up to half a unit of the sixth place. -/
def Words (words : List String) (numbers : List Float) : Prop :=
  List.Forall₂ (fun word x => ∃ l, Decimal.readNumber? word = some l ∧ l.Shows 6 x) words numbers

private theorem words_fixedText (numbers : List Float) :
    Words (numbers.map (Decimal.fixedText 6)) numbers := by
  rw [Words, List.forall₂_map_left_iff, List.forall₂_same]
  intro x _
  obtain ⟨l, hreads, hshows⟩ := Decimal.exists_readsAs_fixedText 6 x
  exact ⟨l, hreads.read, hshows⟩

theorem wordsOf_text_trajectory {poses : List (List Float)} (hposes : ∀ pose ∈ poses, pose ≠ [])
    (started finished : String) :
    wordsOf ((trajectory poses : Artifact Float P).text started finished) =
      poses.map (·.map (Decimal.fixedText 6)) := by
  have hlines : ∀ words ∈ poses.map (·.map (Decimal.fixedText 6)),
      words ≠ [] ∧ ∀ word ∈ words, word ≠ "" ∧ Table.IsBare word := by
    refine List.forall_mem_map.mpr fun pose hpose => ⟨by simpa using hposes pose hpose, ?_⟩
    refine List.forall_mem_map.mpr fun x _ => ?_
    obtain ⟨l, hreads, -⟩ := Decimal.exists_readsAs_fixedText 6 x
    exact ⟨hreads.ne_empty, isBare_of_numeral hreads.numeral⟩
  rw [← wordsOf_join hlines, List.map_map, List.map_map]
  rfl

end Artifact

/-! ### Reports -/

namespace Exporter

variable {P : Type} [HasSingularValues Float] {x : Exporter Float P}

/-- The rows of a table are found in its text again, and each has the coordinates of its pose. -/
theorem table_read_back (hne : x.estimates ≠ []) {name : Option String}
    {file : Exported Float P} (h : x.table name = .ok file) (started finished : String) :
    ∃ rows, Table.rowsOf (file.artifact.text started finished) = .ok (Artifact.header :: rows) ∧
      List.Forall₂ (fun e row => ∃ ns, e.integrated.coordinates = .ok ns ∧
        Artifact.rowNumbers? row = some ns) x.estimates rows := by
  obtain ⟨results, hresults, h⟩ := Failure.of_bind_ok h
  cases h
  have hforall := Failure.mapM_eq_ok_iff.mp hresults
  have hresultsne : results ≠ [] := by
    rintro rfl
    exact hne (List.forall₂_nil_right_iff.mp hforall)
  refine ⟨_, Artifact.rowsOf_text_tableOf hresultsne started finished, ?_⟩
  rw [List.forall₂_map_right_iff]
  exact hforall.imp fun e r hr => ⟨_, CycleResult.coordinates_of_ofEstimate hr,
    Artifact.rowNumbers?_row results r⟩

omit [HasSingularValues Float] in
/-- The numbers of a line are the stamp and the coordinates of the pose. -/
theorem exists_of_poseRow {α : Type} [Scalar α] [HasSingularValues α] {e : Estimate α P}
    {numbers : List α} (h : Artifact.poseRow e = .ok numbers) :
    ∃ ns, e.integrated.coordinates = .ok ns ∧ numbers = e.stamp.value :: ns := by
  obtain ⟨q, hq, h⟩ := Failure.of_bind_ok h
  cases h
  exact ⟨_, RigidTransform.coordinates_eq hq, rfl⟩

omit [HasSingularValues Float] in
private theorem ne_nil_of_mem_poses {α : Type} [Scalar α] [HasSingularValues α]
    {estimates : List (Estimate α P)} {poses : List (List α)}
    (h : List.Forall₂ (fun e pose => Artifact.poseRow e = .ok pose) estimates poses) :
    ∀ pose ∈ poses, pose ≠ [] := by
  induction h with
  | nil => simp
  | cons he _ ih =>
    obtain ⟨ns, -, rfl⟩ := exists_of_poseRow he
    exact List.forall_mem_cons.mpr ⟨List.cons_ne_nil _ _, ih⟩

/-- The lines of a trajectory are found in its text again, and each has the coordinates of its
pose up to its six places. -/
theorem trajectory_read_back {name : Option String} {file : Exported Float P}
    (h : x.trajectory name = .ok file) (started finished : String) :
    List.Forall₂ (fun e words => ∃ ns, e.integrated.coordinates = .ok ns ∧
        Artifact.Words words (e.stamp.value :: ns)) x.estimates
      (Artifact.wordsOf (file.artifact.text started finished)) := by
  obtain ⟨poses, hposes, h⟩ := Failure.of_bind_ok h
  cases h
  have hforall := Failure.mapM_eq_ok_iff.mp hposes
  rw [Artifact.wordsOf_text_trajectory (ne_nil_of_mem_poses hforall), List.forall₂_map_right_iff]
  refine hforall.imp fun e numbers he => ?_
  obtain ⟨ns, hns, rfl⟩ := exists_of_poseRow he
  exact ⟨ns, hns, Artifact.words_fixedText _⟩

end Exporter

end InertialOdometry
