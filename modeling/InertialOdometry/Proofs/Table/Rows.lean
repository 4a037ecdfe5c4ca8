import InertialOdometry.Proofs.Value.Fields
import InertialOdometry.Table.Rows

/-!
Tables that are written are read back. Rows of two or more cells, none of which has a blank, a
quote, a comma or a line end, are found again when they are written with commas between the cells
and a line end behind each row.
-/

namespace InertialOdometry.Table

/-- The visible characters of the seven bit range, but for commas and quotes. -/
def IsBareChar (c : Char) : Prop := 32 < c.toNat ∧ c.toNat < 127 ∧ c ≠ ',' ∧ c ≠ '"'

instance : DecidablePred IsBareChar := fun _ => inferInstanceAs (Decidable (_ ∧ _))

/-- A cell that needs no quotes, and that nothing is left out of. -/
def IsBare (cell : String) : Prop := ∀ c ∈ cell.toList, IsBareChar c

private theorem IsBareChar.ne {c d : Char} (h : IsBareChar c) (hd : ¬IsBareChar d) : c ≠ d := by
  rintro rfl
  exact hd h

private theorem exists_eq_cons_cons {cells : List String} (h : 2 ≤ cells.length) :
    ∃ first next rest, cells = first :: next :: rest := by
  match cells, h with
  | first :: next :: rest, _ => exact ⟨first, next, rest, rfl⟩

private theorem toList_row_cons (first next : String) (cells : List String) :
    (",".intercalate (first :: next :: cells) ++ "\n").toList =
      (first.toList ++ [',']) ++ (",".intercalate (next :: cells) ++ "\n").toList := by
  rw [String.intercalate_cons_cons, String.append_assoc, String.toList_append, String.toList_append]
  rfl

namespace Reader

variable {cell : String} {phase : Phase} {row : List String} {rows : List (List String)}

private theorem step_bare {c : Char} (hc : IsBareChar c) {field : List Char}
    (hphase : phase = .line ∨ phase = .field ∨ phase = .plain) :
    step ⟨phase, field, row, rows⟩ c = ⟨.plain, c :: field, row, rows⟩ := by
  have hend : c ≠ '\n' := hc.ne (by decide)
  have hreturn : c ≠ '\r' := hc.ne (by decide)
  have hcomma : c ≠ ',' := hc.ne (by decide)
  have hquote : c ≠ '"' := hc.ne (by decide)
  have hspace : c ≠ ' ' := hc.ne (by decide)
  have htab : c ≠ '\t' := hc.ne (by decide)
  rcases hphase with rfl | rfl | rfl <;>
    simp [step, inLine, inField, separated, push, *]

private theorem foldl_bare {cs : List Char}
    (hcs : ∀ c ∈ cs, IsBareChar c) {field : List Char}
    (hphase : phase = .line ∨ phase = .field ∨ phase = .plain) :
    cs.foldl step ⟨phase, field, row, rows⟩ =
      ⟨if cs = [] then phase else .plain, cs.reverse ++ field, row, rows⟩ := by
  induction cs generalizing phase field with
  | nil => rfl
  | cons c cs ih =>
    obtain ⟨hc, hcs⟩ := List.forall_mem_cons.mp hcs
    rw [List.foldl_cons, step_bare hc hphase, ih hcs (.inr (.inr rfl))]
    simp

private theorem foldl_cell (hcell : IsBare cell) (hphase : phase = .line ∨ phase = .field) :
    (cell.toList ++ [',']).foldl step ⟨phase, [], row, rows⟩ =
      ⟨.field, [], cell :: row, rows⟩ := by
  rw [List.foldl_append, foldl_bare hcell (hphase.imp_right .inl)]
  split_ifs with hnil
  · rcases hphase with rfl | rfl <;>
      simp [step, inLine, inField, separated, endField]
  · simp [step, separated, endField]

private theorem foldl_last (hcell : IsBare cell) :
    (cell.toList ++ ['\n']).foldl step ⟨.field, [], row, rows⟩ =
      ⟨.line, [], [], (cell :: row).reverse :: rows⟩ := by
  rw [List.foldl_append, foldl_bare hcell (.inr (.inl rfl))]
  split_ifs with hnil <;>
    simp [step, inField, separated, endField, endRow]

/-- The cells behind the first one, up to the end of the row. -/
private theorem foldl_cells {cells : List String} (hcells : ∀ cell ∈ cells, IsBare cell)
    (hcell : IsBare cell) :
    (",".intercalate (cell :: cells) ++ "\n").toList.foldl step ⟨.field, [], row, rows⟩ =
      ⟨.line, [], [], (row.reverse ++ cell :: cells) :: rows⟩ := by
  induction cells generalizing cell row with
  | nil =>
    rw [String.intercalate_singleton, String.toList_append]
    refine (foldl_last hcell).trans ?_
    simp
  | cons next cells ih =>
    obtain ⟨hnext, hcells⟩ := List.forall_mem_cons.mp hcells
    rw [toList_row_cons, List.foldl_append, foldl_cell hcell (.inr rfl), ih hcells hnext]
    simp

private theorem foldl_row {cells : List String} (hcells : ∀ cell ∈ cells, IsBare cell)
    (hlength : 2 ≤ cells.length) :
    (",".intercalate cells ++ "\n").toList.foldl step ⟨.line, [], [], rows⟩ =
      ⟨.line, [], [], cells :: rows⟩ := by
  obtain ⟨first, next, cells, rfl⟩ := exists_eq_cons_cons hlength
  obtain ⟨hfirst, hcells⟩ := List.forall_mem_cons.mp hcells
  obtain ⟨hnext, hcells⟩ := List.forall_mem_cons.mp hcells
  rw [toList_row_cons, List.foldl_append, foldl_cell hfirst (.inl rfl), foldl_cells hcells hnext]
  rfl

private theorem foldl_rows {table : List (List String)}
    (htable : ∀ cells ∈ table, 2 ≤ cells.length ∧ ∀ cell ∈ cells, IsBare cell) :
    (String.join (table.map fun cells => ",".intercalate cells ++ "\n")).toList.foldl step
      ⟨.line, [], [], rows⟩ = ⟨.line, [], [], table.reverse ++ rows⟩ := by
  induction table generalizing rows with
  | nil => rfl
  | cons cells table ih =>
    obtain ⟨⟨hlength, hcells⟩, htable⟩ := List.forall_mem_cons.mp htable
    rw [List.map_cons, String.join_cons, String.toList_append, List.foldl_append,
      foldl_row hcells hlength, ih htable]
    simp

end Reader

/-- The rows of a table are read back from its text. -/
theorem rowsOf_join {table : List (List String)}
    (htable : ∀ cells ∈ table, 2 ≤ cells.length ∧ ∀ cell ∈ cells, IsBare cell) :
    rowsOf (.join (table.map fun cells => ",".intercalate cells ++ "\n")) = .ok table := by
  have hmark : (String.join (table.map fun cells => ",".intercalate cells ++ "\n")).toList.head? ≠
      some '\ufeff' := by
    cases table with
    | nil => simp
    | cons cells table =>
      obtain ⟨⟨hlength, hcells⟩, -⟩ := List.forall_mem_cons.mp htable
      obtain ⟨first, next, cells, rfl⟩ := exists_eq_cons_cons hlength
      rw [List.map_cons, String.join_cons, String.toList_append, toList_row_cons]
      cases hfirst : first.toList with
      | nil => simp
      | cons c cs =>
        have hc := hcells first List.mem_cons_self c (by simp [hfirst])
        simpa using hc.ne (d := '\ufeff') (by decide)
  rw [rowsOf]
  simp only [beq_eq_false_iff_ne.mpr hmark, Bool.false_eq_true, if_false, Reader.start,
    Reader.foldl_rows htable]
  simp [Reader.finish]

end InertialOdometry.Table
