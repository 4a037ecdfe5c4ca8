import InertialOdometry.Proofs.Reading
import InertialOdometry.Proofs.Recording.ScanNames
import InertialOdometry.Proofs.Recording.ScanOrder
import InertialOdometry.Proofs.Scalar.Order
import InertialOdometry.Proofs.Value.Fields

/-!
The list of scans that is loaded from a directory. Names and stamps are brought together and
sorted twice, by names and then by stamps, before the list is cut off. What comes out does
not tell of this: it begins the one list in which every file stands once, with its own stamp
and in order.
-/

namespace InertialOdometry

variable {α P : Type}

/-- What tells the stamps of files: the rows of a table, each with a file and a stamp, or else
the names of the files. -/
inductive StampSource (α : Type) where
  | ofTable (rows : List (Value α × α))
  | ofNames

namespace StampSource

def Lacks (names : List String) : StampSource α → Prop
  | .ofTable rows => ∃ name ∈ names, ∀ row ∈ rows, row.1 ≠ .text name
  | .ofNames => False

variable [Scalar α]

/-- A table has the columns that are needed and a number for each stamp. Without a table,
every name spells a number. -/
inductive Provided (names : List String) : Option String → StampSource α → Prop where
  | ofTable {text : String} {table : Table α} {files cells : List (Value α)} {stamps : List α}
      (hread : Table.read text = .ok table) (hfiles : table.column? "file" = some files)
      (hcells : table.column? "timestamp" = some cells)
      (hstamps : List.Forall₂ (fun cell stamp => cell.toScalar = .ok stamp) cells stamps)
      (hnumbers : ∀ stamp ∈ stamps, stamp ≤ stamp) :
      Provided names (some text) (.ofTable (files.zip stamps))
  | ofNames (hstems : ∀ name ∈ names, ∃ stamp : α,
      (Value.text (Path.splitEnding name).1 : Value α).toScalar = .ok stamp ∧ stamp ≤ stamp) :
      Provided names none .ofNames

/-- The stamp that is told for a file. Of several rows with the file the last one counts. -/
def Tells (name : String) (stamp : α) : StampSource α → Prop
  | .ofTable rows => ∃ before after, rows = before ++ (.text name, stamp) :: after ∧
      ∀ row ∈ after, row.1 ≠ .text name
  | .ofNames => (Value.text (Path.splitEnding name).1 : Value α).toScalar = .ok stamp

end StampSource

namespace ScanFile

/-- The stamp of a file is that of the last row with its name. -/
theorem stampIn_eq_some_iff {rows : List (Value α × α)} {name : String} {stamp : α} :
    stampIn rows name = some stamp ↔ ∃ before after,
      rows = before ++ (.text name, stamp) :: after ∧
        ∀ row ∈ after, row.1 ≠ .text name := by
  rw [stampIn, Option.map_eq_some_iff]
  constructor
  · rintro ⟨⟨file, _⟩, hfind, rfl⟩
    obtain ⟨hfile, later, earlier, hrows, hlater⟩ := List.find?_eq_some_iff_append.mp hfind
    obtain rfl := Value.isText_eq_true_iff.mp hfile
    refine ⟨earlier.reverse, later.reverse, by simpa using congrArg List.reverse hrows, ?_⟩
    intro row hrow htext
    have hno := hlater row (List.mem_reverse.mp hrow)
    simp [Value.isText_eq_true_iff.mpr htext] at hno
  · rintro ⟨before, after, rfl, hafter⟩
    refine ⟨(.text name, stamp), List.find?_eq_some_iff_append.mpr
      ⟨Value.isText_eq_true_iff.mpr rfl, after.reverse, before.reverse, by simp, ?_⟩, rfl⟩
    intro row hrow
    simpa [← Bool.not_eq_true, Value.isText_eq_true_iff] using
      hafter row (List.mem_reverse.mp hrow)

theorem stampIn_eq_none_iff {rows : List (Value α × α)} {name : String} :
    stampIn rows name = none ↔ ∀ row ∈ rows, row.1 ≠ .text name := by
  simp [stampIn, Value.isText_eq_true_iff]

variable [Scalar α]

theorem stampOfCell_eq_ok_iff {cell : Value α} {stamp : α} :
    stampOfCell cell = .ok stamp ↔ cell.toScalar = .ok stamp := by
  rw [stampOfCell]
  cases cell.toScalar with
  | ok _ => rfl
  | error _ => exact ⟨nofun, nofun⟩

private theorem stampRows_eq {table : Table α} {files cells : List (Value α)} {stamps : List α}
    (hfiles : table.column? "file" = some files)
    (hcells : table.column? "timestamp" = some cells)
    (hstamps : List.Forall₂ (fun cell stamp => cell.toScalar = .ok stamp) cells stamps) :
    stampRows table = .ok (files.zip stamps) := by
  have hread : cells.mapM stampOfCell = .ok stamps :=
    Failure.mapM_eq_ok_iff.mpr (hstamps.imp fun _ _ => stampOfCell_eq_ok_iff.mpr)
  simp only [stampRows, column, hfiles, hcells, Option.elim, bind, Except.bind, hread]
  rfl

/-- A table that lacks some of the files is refused. -/
theorem stampedBy_of_lacks {rows : List (Value α × α)} {names : List String}
    (h : (StampSource.ofTable rows).Lacks names) :
    ∃ quoted, stampedBy rows names = .error (.stampsMissing quoted) := by
  obtain ⟨name, hname, hrows⟩ := h
  have hlacking : name ∈ names.filter fun name => (stampIn rows name).isNone := by
    simp [hname, stampIn_eq_none_iff.mpr hrows]
  rw [stampedBy]
  split
  · next hnone => simp [hnone] at hlacking
  · exact ⟨_, rfl⟩

/-- Any other table gives every file its stamp. -/
theorem exists_stampedBy {rows : List (Value α × α)} {names : List String}
    (h : ¬(StampSource.ofTable rows).Lacks names) :
    ∃ files, stampedBy rows names = .ok files ∧
      List.Forall₂ (fun name file => file.name = name ∧ stampIn rows name = some file.stamp)
        names files := by
  have hstamps (name) (hname : name ∈ names) : ∃ stamp, stampIn rows name = some stamp :=
    Option.ne_none_iff_exists'.mp fun hnone =>
      h ⟨name, hname, stampIn_eq_none_iff.mp hnone⟩
  have hfilter : (names.filter fun name => (stampIn rows name).isNone) = [] := by
    refine List.filter_eq_nil_iff.mpr fun name hname => ?_
    obtain ⟨stamp, hstamp⟩ := hstamps name hname
    simp [hstamp]
  refine ⟨_, by rw [stampedBy, hfilter], (forall₂_filterMap fun name hname => ?_).imp ?_⟩
  · obtain ⟨stamp, hstamp⟩ := hstamps name hname
    exact ⟨⟨name, stamp⟩, by rw [hstamp]; rfl⟩
  · intro name file hfile
    obtain ⟨stamp, hstamp, rfl⟩ := Option.map_eq_some_iff.mp hfile
    exact ⟨rfl, hstamp⟩

variable {names : List String} {table : Option String} {source : StampSource α}

theorem stamped_of_lacks (h : source.Provided names table) (hlacks : source.Lacks names) :
    ∃ quoted, stamped (α := α) table names = .error (.stampsMissing quoted) := by
  cases h with
  | ofTable hread hfiles hcells hstamps hnumbers =>
      simp only [stamped, hread, bind, Except.bind, stampRows_eq hfiles hcells hstamps]
      exact stampedBy_of_lacks hlacks
  | ofNames hstems => exact hlacks.elim

theorem ofName_eq_ok_iff {name : String} {file : ScanFile α} :
    ofName name = .ok file ↔ file.name = name ∧ StampSource.ofNames.Tells name file.stamp := by
  -- The equation of `ofName` takes long to derive, so its body is put in place.
  delta ofName StampSource.Tells
  obtain ⟨name', stamp⟩ := file
  cases (Value.text (Path.splitEnding name).1 : Value α).toScalar with
  | ok _ => simp [eq_comm]
  | error _ => simp

/-- Where no file is lacking, each gets the stamp that is told for it. -/
theorem exists_stamped (h : source.Provided names table) (hlacks : ¬source.Lacks names) :
    ∃ files, stamped table names = .ok files ∧
      List.Forall₂ (fun name file => file.name = name ∧ source.Tells name file.stamp ∧
        file.stamp ≤ file.stamp) names files := by
  cases h with
  | ofTable hread hfiles hcells hstamps hnumbers =>
      obtain ⟨files, hstamped, hfiles'⟩ := exists_stampedBy hlacks
      refine ⟨files, ?_, hfiles'.imp fun name file ⟨hname, hstamp⟩ => ?_⟩
      · simp only [stamped, hread, bind, Except.bind, stampRows_eq hfiles hcells hstamps]
        exact hstamped
      · obtain ⟨before, after, hrows, -⟩ := stampIn_eq_some_iff.mp hstamp
        have hmem := hrows ▸ List.mem_append_right before List.mem_cons_self
        exact ⟨hname, stampIn_eq_some_iff.mp hstamp, hnumbers _ (List.of_mem_zip hmem).2⟩
  | ofNames hstems =>
      have hread (name) (hname : name ∈ names) :
          ∃ file : ScanFile α, ofName name = .ok file := by
        obtain ⟨stamp, hstamp, -⟩ := hstems name hname
        exact ⟨⟨name, stamp⟩, ofName_eq_ok_iff.mpr ⟨rfl, hstamp⟩⟩
      obtain ⟨files, hfiles⟩ := Failure.exists_mapM_ok hread
      refine ⟨files, hfiles, ?_⟩
      have hfiles' := (List.forall₂_and_left _ _).mpr
        ⟨hstems, Failure.mapM_eq_ok_iff.mp hfiles⟩
      refine hfiles'.imp fun name file ⟨⟨stamp, hstamp, hnumber⟩, hfile⟩ => ?_
      obtain ⟨hname, htells⟩ := ofName_eq_ok_iff.mp hfile
      obtain rfl : file.stamp = stamp := Except.ok.inj (htells.symm.trans hstamp)
      exact ⟨hname, htells, hnumber⟩

end ScanFile

namespace StampSource

variable [Scalar α] {names : List String} {source : StampSource α}

/-- A file is told no two stamps. -/
theorem Tells.unique {name : String} {s t : α} (hs : source.Tells name s)
    (ht : source.Tells name t) : s = t := by
  cases source with
  | ofTable rows =>
      exact Option.some.inj ((ScanFile.stampIn_eq_some_iff.mpr hs).symm.trans
        (ScanFile.stampIn_eq_some_iff.mpr ht))
  | ofNames => exact Except.ok.inj (hs.symm.trans ht)

/-- The files in their order: each file once, with the stamp that is told for it, by stamps
and, where these are equal, by names. -/
structure Arranges (source : StampSource α) (names : List String) (files : List (ScanFile α)) :
    Prop where
  perm : (files.map (·.name)).Perm names
  tells : ∀ file ∈ files, source.Tells file.name file.stamp
  ordered : files.Pairwise fun a b =>
    a.stamp ≤ b.stamp ∧ (b.stamp ≤ a.stamp → a.name < b.name)

theorem Arranges.subset {files others : List (ScanFile α)} (h : source.Arranges names files)
    (h' : source.Arranges names others) : files ⊆ others := by
  intro file hfile
  have hname := (h.perm.trans h'.perm.symm).mem_iff.mp (List.mem_map_of_mem hfile)
  obtain ⟨other, hother, heq⟩ := List.mem_map.mp hname
  have hstamp : other.stamp = file.stamp := by
    have htells := h'.tells other hother
    rw [heq] at htells
    exact htells.unique (h.tells file hfile)
  obtain rfl : other = file := by
    cases other
    cases file
    cases heq
    cases hstamp
    rfl
  exact hother

/-- The files can be put in order in one way only. -/
theorem Arranges.unique {files others : List (ScanFile α)} (hnames : names.Nodup)
    (h : source.Arranges names files) (h' : source.Arranges names others) : files = others := by
  have hperm : files.Perm others := by
    refine (List.perm_ext_iff_of_nodup ?_ ?_).mpr fun file =>
      ⟨fun hfile => h.subset h' hfile, fun hfile => h'.subset h hfile⟩
    · exact .of_map _ (h.perm.nodup_iff.mpr hnames)
    · exact .of_map _ (h'.perm.nodup_iff.mpr hnames)
  refine hperm.eq_of_pairwise (fun a b _ _ hab hba => ?_) h.ordered h'.ordered
  exact absurd (hab.2 hba.1) (String.lt_asymm (hba.2 hab.1))

/-- Files that come in the order of their names are put in order by sorting their stamps. -/
theorem arranges_inOrder [OrderedScalar α] (hsorted : names.Pairwise (· < ·))
    {files : List (ScanFile α)}
    (h : List.Forall₂ (fun name file => file.name = name ∧ source.Tells name file.stamp ∧
      file.stamp ≤ file.stamp) names files) :
    source.Arranges names (ScanFile.inOrder files) := by
  obtain rfl : names = files.map (·.name) := by
    rw [← List.forall₂_eq_eq_eq, List.forall₂_map_right_iff]
    exact h.imp fun _ _ hfile => hfile.1.symm
  have hfiles := List.forall₂_same.mp (List.forall₂_map_left_iff.mp h)
  have hperm : (ScanFile.inOrder files).Perm files := by
    rw [ScanFile.inOrder_eq_mergeSort fun file hfile => (hfiles file hfile).2.2]
    exact List.mergeSort_perm _ _
  refine ⟨hperm.map _, fun file hfile => (hfiles file (hperm.mem_iff.mp hfile)).2.1, ?_⟩
  exact ScanFile.pairwise_inOrder_stable
    (fun a ha b hb => OrderedScalar.le_total (hfiles a ha).2.2 (hfiles b hb).2.2)
    (fun a _ b _ c _ => Scalar.le_trans) (List.pairwise_map.mp hsorted)

theorem Provided.mono {table : Option String} {names' : List String} (hsub : names' ⊆ names)
    (h : source.Provided names table) : source.Provided names' table := by
  cases h with
  | ofTable hread hfiles hcells hstamps hnumbers =>
      exact .ofTable hread hfiles hcells hstamps hnumbers
  | ofNames hstems => exact .ofNames fun name hname => hstems name (hsub hname)

omit [Scalar α] in
theorem Lacks.mono {names' : List String} (hsub : names' ⊆ names)
    (h : source.Lacks names') : source.Lacks names := by
  cases source with
  | ofTable rows =>
      obtain ⟨name, hname, hrows⟩ := h
      exact ⟨name, hsub hname, hrows⟩
  | ofNames => exact h

end StampSource

namespace ScanFile

theorem limited_prefix {β : Type} {limit : Option Int} (hlimit : ∀ k ∈ limit, 0 ≤ k)
    (xs : List β) : limited limit xs <+: xs ∧
      (limited limit xs).length = limit.elim xs.length fun k => min xs.length k.toNat := by
  cases limit with
  | none => exact ⟨List.prefix_rfl, rfl⟩
  | some k =>
      rw [limited, if_pos (hlimit k rfl)]
      exact ⟨List.take_prefix _ _, by simp [Nat.min_comm]⟩

variable [Scalar α]

/-- Loading fails where the table lacks a file, and otherwise takes the files in order. -/
theorem ofDirectory_eq [OrderedScalar α] {listing : List String} {table : Option String}
    {source : StampSource α} (hlisting : listing.Nodup)
    (hscans : ∃ name ∈ listing, isScanName name = true)
    (hsource : source.Provided (listing.filter isScanName) table) (limit : Option Int) :
    (source.Lacks (listing.filter isScanName) ∧ ∃ quoted, ∀ directory,
      ofDirectory (α := α) directory listing table limit = .error (.stampsMissing quoted)) ∨
    (¬source.Lacks (listing.filter isScanName) ∧ ∃ full,
      source.Arranges (listing.filter isScanName) full ∧ ∀ directory,
        ofDirectory directory listing table limit = .ok (limited limit full)) := by
  have hperm := namesOf_perm listing
  have hnonempty : (namesOf listing).isEmpty = false := by
    obtain ⟨name, hname, hscan⟩ := hscans
    have hmem := hperm.mem_iff.mpr (List.mem_filter.mpr ⟨hname, hscan⟩)
    exact List.isEmpty_eq_false_iff.mpr (List.ne_nil_of_mem hmem)
  have hprovided := hsource.mono hperm.subset
  by_cases hlacks : source.Lacks (listing.filter isScanName)
  · obtain ⟨quoted, hrefused⟩ := stamped_of_lacks hprovided (hlacks.mono hperm.symm.subset)
    refine .inl ⟨hlacks, quoted, fun directory => ?_⟩
    simp [ofDirectory, hnonempty, hrefused, bind, Except.bind]
  · obtain ⟨files, hstamped, hfiles⟩ := exists_stamped hprovided fun hlacking =>
      hlacks (hlacking.mono hperm.subset)
    have harranged := StampSource.arranges_inOrder (pairwise_namesOf hlisting) hfiles
    refine .inr ⟨hlacks, inOrder files, ⟨harranged.perm.trans hperm, harranged.tells,
      harranged.ordered⟩, fun directory => ?_⟩
    simp [ofDirectory, hnonempty, hstamped, bind, Except.bind, pure, Except.pure]

end ScanFile

namespace Recording

/-- A place is looked up where there is a scan. -/
theorem exists_file_iff {r : Recording α P} {index : Int} :
    (∃ file, r.file index = .ok file) ↔ 0 ≤ index ∧ index < r.scans.length := by
  constructor
  · rintro ⟨file, hfile⟩
    obtain ⟨hindex, hscan⟩ := file_eq_ok_iff.mp hfile
    obtain ⟨hlength, -⟩ := List.getElem?_eq_some_iff.mp hscan
    omega
  · rintro ⟨hindex, hlength⟩
    have hplace : index.toNat < r.scans.length := by omega
    exact ⟨_, file_eq_ok_iff.mpr ⟨hindex, List.getElem?_eq_getElem hplace⟩⟩

/-- Every other place is refused, and no place that is looked up is refused as a place. -/
theorem scan_eq_scanIndex_iff {r : Recording α P} {index : Int} :
    r.scan index = .error (.scanIndex index) ↔ ¬(0 ≤ index ∧ index < r.scans.length) := by
  rw [← exists_file_iff]
  cases hfile : r.file index with
  | ok file =>
      refine iff_of_false (fun hscan => ?_) (not_not_intro ⟨file, rfl⟩)
      rw [scan, hfile] at hscan
      simp only [bind, Except.bind] at hscan
      split at hscan <;> cases hscan
  | error f =>
      obtain rfl : f = .scanIndex index := by
        unfold Recording.file at hfile
        split at hfile <;> cases hfile
        rfl
      exact iff_of_true (by rw [scan, hfile]; rfl) nofun

variable [Scalar α]

/-- Opening a folder whose scan list and samples can be loaded reports how many there are. -/
theorem openAt_eq_ok {location : String} {folder : Folder P} {limit : Option Int}
    {files : List (String × Option P)} {scans : List (ScanFile α)}
    {attitudes : Option (List (AttitudeRow α))} (hfiles : folder.scans = some files)
    (hscans : ScanFile.ofDirectory (scanDirectory (.ofText location)) (files.map (·.1))
      folder.stampTable limit = .ok scans)
    (hattitudes : folder.sampleTable.mapM AttitudeRow.ofText = .ok attitudes) :
    openAt location (some folder) limit = .ok (⟨.ofText location, scans, attitudes, files⟩,
      [.datasetOpened scans.length ((attitudes.map List.length).getD 0)]) := by
  simp only [openAt, hfiles, hscans, hattitudes, bind, Except.bind]
  rfl

end Recording

/-- The list of scans. It is refused only if there is a table that lacks some of them.
Otherwise there is one way to put them in order, each scan once with its stamp, by stamps and
then by names; and what is loaded are the first of them, as many as the limit says. A scan is
looked up by its place if the place is in the list. -/
theorem scan_list_arranged [Scalar α] [OrderedScalar α] {listing : List String}
    {table : Option String} {source : StampSource α} {limit : Option Int}
    (hlisting : listing.Nodup) (hscans : ∃ name ∈ listing, ScanFile.isScanName name = true)
    (hsource : source.Provided (listing.filter ScanFile.isScanName) table)
    (hlimit : ∀ k ∈ limit, 0 ≤ k) :
    let names := listing.filter ScanFile.isScanName
    (∀ directory, (∃ f, ScanFile.ofDirectory (α := α) directory listing table limit =
      .error f ∧ f.category = .value) ↔ source.Lacks names) ∧
    (¬source.Lacks names → ∃ full scans, source.Arranges names full ∧
      (∀ others, source.Arranges names others → others = full) ∧ scans <+: full ∧
      scans.length = (limit.elim names.length fun k => min names.length k.toNat) ∧
      (∀ directory, ScanFile.ofDirectory directory listing table limit = .ok scans) ∧
      ∀ location (folder : Folder P) files (attitudes : Option (List (AttitudeRow α))),
        folder.scans = some files → files.map (·.1) = listing → folder.stampTable = table →
        folder.sampleTable.mapM AttitudeRow.ofText = .ok attitudes →
        ∃ r samples, Recording.openAt location (some folder) limit =
            .ok (r, [.datasetOpened scans.length samples]) ∧
          r.scans = scans ∧ ∀ index,
            ((∃ file, r.file index = .ok file) ↔ 0 ≤ index ∧ index < scans.length) ∧
            (r.scan index = .error (.scanIndex index) ↔
              ¬(0 ≤ index ∧ index < scans.length))) := by
  intro names
  rcases ScanFile.ofDirectory_eq hlisting hscans hsource limit with
    ⟨hlacks, quoted, hrefused⟩ | ⟨hlacks, full, hfull, hloaded⟩
  · refine ⟨fun directory => ?_, fun hnone => absurd hlacks hnone⟩
    exact iff_of_true ⟨_, hrefused directory, rfl⟩ hlacks
  · obtain ⟨hbegins, hlength⟩ := ScanFile.limited_prefix hlimit full
    have hcount : full.length = names.length := by simpa using hfull.perm.length_eq
    rw [hcount] at hlength
    refine ⟨fun directory => iff_of_false ?_ hlacks, fun _ => ⟨full, _, hfull,
      fun others hothers => hothers.unique (hlisting.filter _) hfull, hbegins, hlength, hloaded,
      ?_⟩⟩
    · rintro ⟨f, hfails, -⟩
      cases hfails.symm.trans (hloaded directory)
    · rintro location folder files attitudes hfiles rfl rfl hattitudes
      exact ⟨_, _, Recording.openAt_eq_ok hfiles (hloaded _) hattitudes, rfl, fun index =>
        ⟨Recording.exists_file_iff, Recording.scan_eq_scanIndex_iff⟩⟩

/-- A table in which one file stands twice and one that is not there stands as well. -/
def Table.untidy : String :=
  "timestamp,file\n5,b.pcd\n2,a.PLY\n1,c.ply\n1,b.pcd\n0,d.pcd\n"

def Table.untidyFiles : List String := ["b.pcd", "a.PLY", "c.ply", "b.pcd", "d.pcd"]

def Table.untidyRows : List (Value Float × Float) :=
  (untidyFiles.map .text).zip [5, 2, 1, 1, 0]

private theorem Table.columnOf_untidyFiles :
    columnOf untidyFiles = untidyFiles.map (.text : String → Value Float) := by
  have hwhole : wholeColumn untidyFiles untidyFiles = .fractions := rfl
  have hnumbers : convert? (fun cell => (number? cell).map (.number : Float → Value Float))
      untidyFiles = none := Option.isNone_iff_eq_none.mp (by decide +kernel)
  have htruths : convert? (fun cell => (truth? cell).map (.bool : Bool → Value Float))
      untidyFiles = none := Option.isNone_iff_eq_none.mp (by decide +kernel)
  simp only [columnOf, hwhole, hnumbers, htruths]
  rfl

private theorem Table.read_untidy : read (α := Float) untidy =
    .ok ⟨[("timestamp", [.int 5, .int 2, .int 1, .int 1, .int 0]),
      ("file", untidyFiles.map .text)]⟩ := by
  have hrows : rowsOf untidy = .ok [["timestamp", "file"], ["5", "b.pcd"], ["2", "a.PLY"],
      ["1", "c.ply"], ["1", "b.pcd"], ["0", "d.pcd"]] :=
    Failure.of_toOption (by decide +kernel)
  have hstamps : columnOf (α := Float) ["5", "2", "1", "1", "0"] =
      [.int 5, .int 2, .int 1, .int 1, .int 0] := rfl
  have hfiles : columnOf (α := Float) ["b.pcd", "a.PLY", "c.ply", "b.pcd", "d.pcd"] =
      untidyFiles.map .text := columnOf_untidyFiles
  simp only [read, hrows, bind, Except.bind]
  simp [cellsAt, hstamps, hfiles, List.range_succ, pure, Except.pure]

private theorem StampSource.provided_untidy (names : List String) :
    (ofTable Table.untidyRows).Provided names (some Table.untidy) :=
  .ofTable Table.read_untidy rfl rfl (.cons rfl (.cons rfl (.cons rfl (.cons rfl
    (.cons rfl .nil))))) (by decide +kernel)

/-- Of three scans the two with the smallest stamp are loaded by their names, although one of
them had a larger stamp in an earlier row. A fourth scan is refused as the table lacks it. -/
theorem scan_list_arranged_of_untidy_table :
    let source := StampSource.ofTable Table.untidyRows
    let listing := ["c.ply", "notes.txt", "a.PLY", "b.pcd"]
    let scans : List (ScanFile Float) := [⟨"b.pcd", 1⟩, ⟨"c.ply", 1⟩]
    let directory := Path.ofText "scans"
    listing.Nodup ∧ (∃ name ∈ listing, ScanFile.isScanName name = true) ∧
      source.Provided (listing.filter ScanFile.isScanName) (some Table.untidy) ∧
      (∀ k ∈ some (2 : Int), 0 ≤ k) ∧
      ScanFile.ofDirectory directory listing (some Table.untidy) (some 2) = .ok scans ∧
      ∃ f, ScanFile.ofDirectory (α := Float) directory ("e.pcd" :: listing)
        (some Table.untidy) (some 2) = .error f ∧ f.category = .value := by
  intro source listing scans directory
  have hlisting : listing.Nodup := by decide +kernel
  have hscans : ∃ name ∈ listing, ScanFile.isScanName name = true := by decide +kernel
  have hlimit : ∀ k ∈ some (2 : Int), 0 ≤ k := by decide
  have hprovided := StampSource.provided_untidy (listing.filter ScanFile.isScanName)
  refine ⟨hlisting, hscans, hprovided, hlimit, ?_, ?_⟩
  · have hlacks : ¬source.Lacks (listing.filter ScanFile.isScanName) := by
      have hstamps : ∀ name ∈ listing.filter ScanFile.isScanName,
          (ScanFile.stampIn Table.untidyRows name).isSome = true := by decide +kernel
      rintro ⟨name, hname, hrows⟩
      simpa [ScanFile.stampIn_eq_none_iff.mpr hrows] using hstamps name hname
    have hstamps : ∀ file ∈ scans ++ [⟨"a.PLY", 2⟩],
        ScanFile.stampIn Table.untidyRows file.name = some file.stamp := by decide +kernel
    have hfull : source.Arranges (listing.filter ScanFile.isScanName)
        (scans ++ [⟨"a.PLY", 2⟩]) :=
      ⟨by decide +kernel, fun file hfile => ScanFile.stampIn_eq_some_iff.mp (hstamps file hfile),
        by decide +kernel⟩
    obtain ⟨full, loaded, -, hunique, hbegins, hlength, hloaded, -⟩ :=
      (scan_list_arranged (P := Unit) hlisting hscans hprovided hlimit).2 hlacks
    obtain rfl := hunique _ hfull
    have hcount : (listing.filter ScanFile.isScanName).length = 3 := by decide +kernel
    rw [hcount] at hlength
    have htake := List.prefix_iff_eq_take.mp hbegins
    rw [hlength] at htake
    exact (hloaded directory).trans (congrArg Except.ok htake)
  · have hlisting' : ("e.pcd" :: listing).Nodup := by decide +kernel
    have hscans' : ∃ name ∈ "e.pcd" :: listing, ScanFile.isScanName name = true := by
      decide +kernel
    obtain ⟨hrefused, -⟩ := scan_list_arranged (P := Unit) hlisting' hscans'
      (StampSource.provided_untidy _) hlimit
    refine (hrefused directory).mpr ⟨"e.pcd", by decide +kernel, ?_⟩
    exact ScanFile.stampIn_eq_none_iff.mp (by decide +kernel)

end InertialOdometry
