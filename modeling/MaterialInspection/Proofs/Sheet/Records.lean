import Mathlib.Data.List.Induction
import Mathlib.Data.List.Nodup
import MaterialInspection.Sheet.File

/-!
# The records of a sheet

A file of either format holds a sheet: a header and the records under it.  A row is made of a record by
putting each cell under the name of its column, so of two columns with one name only the later has a
say, and a record is passed over when nothing is left of it.

* `Row.mem_ofCells` — the fields of a row, read off the record: under each name stands its last cell.
* `Row.isEmpty_ofCells` — a record makes no row exactly when the last cell under every name is blank.
* `Sheet.Grid.rows_eq` — the rows of a sheet are those of the records that count, each with the place
  of its record.
* `CatalogFile.rows_of_holds`, `CatalogFile.holds_of_rows` — a file is read exactly when it holds a
  sheet, and gives its rows.
-/

set_option autoImplicit false

namespace MaterialInspection

/-! ## What a record says under each name -/

namespace Sheet

/-- The last cell of a record under a column with this name. -/
def lastCell? (columns cells : List String) (name : String) : Option String :=
  ((columns.zip cells).reverse.find? fun c => c.1 == name).map (·.2)

/-- Whether a record has a cell that is not blank under a column with a name. -/
def filled (columns cells : List String) : Bool :=
  (columns.zip cells).any fun c => c.1 != "" && !Text.blank c.2

/-- Whether the last cell of a record under some name is not blank. -/
def counts (columns cells : List String) : Bool :=
  columns.any fun name =>
    name != "" && (lastCell? columns cells name).any fun cell => !Text.blank cell

variable {columns cells : List String}

theorem filled_iff :
    filled columns cells = true ↔
      ∃ c ∈ columns.zip cells, c.1 ≠ "" ∧ Text.blank c.2 = false := by
  simp [filled, List.any_eq_true]

theorem counts_iff :
    counts columns cells = true ↔ ∃ name, name ≠ "" ∧ ∃ cell,
      lastCell? columns cells name = some cell ∧ Text.blank cell = false := by
  unfold counts
  rw [List.any_eq_true]
  constructor
  · rintro ⟨name, _, h⟩
    rw [Bool.and_eq_true, bne_iff_ne, Option.any_eq_true] at h
    obtain ⟨hname, cell, hcell, hblank⟩ := h
    exact ⟨name, hname, cell, hcell, by simpa using hblank⟩
  · rintro ⟨name, hname, cell, hcell, hblank⟩
    obtain ⟨c, hc, rfl⟩ := Option.map_eq_some_iff.1 hcell
    have hcolumn : c.1 ∈ columns :=
      (List.of_mem_zip (List.mem_reverse.1 (List.mem_of_find?_eq_some hc))).1
    have hsame : c.1 = name := by simpa using List.find?_some hc
    refine ⟨name, hsame ▸ hcolumn, ?_⟩
    rw [hcell, Bool.and_eq_true, bne_iff_ne, Option.any_some, hblank]
    exact ⟨hname, rfl⟩

/-- A record that counts has a cell that is not blank. -/
theorem filled_of_counts (h : counts columns cells = true) : filled columns cells = true := by
  obtain ⟨name, hname, cell, hcell, hblank⟩ := counts_iff.1 h
  obtain ⟨c, hc, rfl⟩ := Option.map_eq_some_iff.1 hcell
  have hsame : c.1 = name := by simpa using List.find?_some hc
  exact filled_iff.2 ⟨c, List.mem_reverse.1 (List.mem_of_find?_eq_some hc), hsame ▸ hname, hblank⟩

/-- Where no name stands twice, the last cell under a name is the only one. -/
theorem lastCell?_of_mem (hdistinct : (columns.filter (· != "")).Nodup) {c : String × String}
    (hc : c ∈ columns.zip cells) (hname : c.1 ≠ "") : lastCell? columns cells c.1 = some c.2 := by
  unfold lastCell?
  induction columns generalizing cells with
  | nil => cases hc
  | cons column columns ih =>
    cases cells with
    | nil => cases hc
    | cons cell cells =>
      rw [List.zip_cons_cons] at hc
      rw [List.zip_cons_cons, List.reverse_cons, List.find?_append]
      rcases List.mem_cons.1 hc with rfl | hc
      · -- the name does not stand once more behind this column
        have hnot : (columns.zip cells).reverse.find? (fun d => d.1 == column) = none := by
          rw [List.find?_eq_none]
          intro d hd
          have hmem : d.1 ∈ columns := (List.of_mem_zip (List.mem_reverse.1 hd)).1
          rw [List.filter_cons_of_pos (by simpa using hname), List.nodup_cons] at hdistinct
          rw [beq_iff_eq]
          rintro rfl
          exact hdistinct.1 (List.mem_filter.2 ⟨hmem, by simpa using hname⟩)
        rw [hnot, Option.none_or, List.find?_cons_of_pos (by exact beq_self_eq_true _)]
        rfl
      · have hrest : (columns.filter (· != "")).Nodup :=
          hdistinct.sublist ((List.sublist_cons_self column columns).filter _)
        have hlater := ih hrest hc
        obtain ⟨d, hd, hcell⟩ := Option.map_eq_some_iff.1 hlater
        rw [hd, Option.some_or, Option.map_some, hcell]

/-- Where no name stands twice, every record with a cell that is not blank counts. -/
theorem counts_of_filled (hdistinct : (columns.filter (· != "")).Nodup)
    (h : filled columns cells = true) : counts columns cells = true := by
  obtain ⟨c, hc, hname, hblank⟩ := filled_iff.1 h
  exact counts_iff.2 ⟨c.1, hname, c.2, lastCell?_of_mem hdistinct hc hname, hblank⟩

end Sheet

/-! ## The row of a record -/

namespace Row

/-- Some cells under their names, entered one after another. -/
def enter (cells : List (String × String)) (fields : List (String × String)) :
    List (String × String) :=
  cells.foldl (fun fields c => put fields c.1 (Text.trim c.2)) fields

theorem collect_eq (fields : List (String × String)) (columns cells : List String) :
    collect fields columns cells = enter ((columns.zip cells).filter fun c => c.1 != "") fields := by
  induction columns generalizing fields cells with
  | nil => rfl
  | cons column columns ih =>
    cases cells with
    | nil => rfl
    | cons cell cells =>
      rw [collect, List.zip_cons_cons, List.filter_cons]
      by_cases hname : column = ""
      · rw [if_pos (by simp [hname]), if_neg (by simp [hname]), ih]
      · rw [if_neg (by simpa using hname), if_pos (by simpa using hname), ih]
        rfl

/-- A field that is put stands in place of the one with its name, the others stay. -/
theorem mem_put {fields : List (String × String)} (h : (fields.map (·.1)).Nodup)
    {column cell : String} {f : String × String} :
    f ∈ put fields column cell ↔ f = (column, cell) ∨ f ∈ fields ∧ f.1 ≠ column := by
  induction fields with
  | nil => simp [put]
  | cons g rest ih =>
    rw [List.map_cons, List.nodup_cons] at h
    have habsent : ∀ f ∈ rest, f.1 ≠ g.1 := fun f hf heq =>
      h.1 (List.mem_map.2 ⟨f, hf, heq⟩)
    unfold put
    by_cases hg : g.1 = column
    · rw [if_pos (by simpa using hg), List.mem_cons, List.mem_cons]
      constructor
      · rintro (hf | hf)
        · exact .inl hf
        · exact .inr ⟨.inr hf, hg ▸ habsent f hf⟩
      · rintro (hf | ⟨rfl | hf, hne⟩)
        · exact .inl hf
        · exact absurd hg hne
        · exact .inr hf
    · rw [if_neg (by simpa using hg), List.mem_cons, List.mem_cons, ih h.2]
      constructor
      · rintro (rfl | hf | ⟨hf, hne⟩)
        · exact .inr ⟨.inl rfl, hg⟩
        · exact .inl hf
        · exact .inr ⟨.inr hf, hne⟩
      · rintro (hf | ⟨rfl | hf, hne⟩)
        · exact .inr (.inl hf)
        · exact .inl rfl
        · exact .inr (.inr ⟨hf, hne⟩)

theorem put_names {fields : List (String × String)} (h : (fields.map (·.1)).Nodup)
    (column cell : String) : ((put fields column cell).map (·.1)).Nodup := by
  induction fields with
  | nil => exact List.nodup_singleton column
  | cons g rest ih =>
    have hrest := List.nodup_cons.1 (List.map_cons ▸ h)
    unfold put
    by_cases hg : g.1 = column
    · rw [if_pos (by simpa using hg), List.map_cons]
      exact hg ▸ h
    · rw [if_neg (by simpa using hg), List.map_cons, List.nodup_cons]
      refine ⟨?_, ih hrest.2⟩
      intro hmem
      obtain ⟨f, hf, hname⟩ := List.mem_map.1 hmem
      rcases (mem_put hrest.2).1 hf with rfl | ⟨hf, _⟩
      · exact hg hname.symm
      · exact hrest.1 (List.mem_map.2 ⟨f, hf, hname⟩)

/-- Under each name stands the last cell that was entered there, and no name stands twice. -/
theorem enter_spec (cells : List (String × String)) :
    ((enter cells []).map (·.1)).Nodup ∧ ∀ f, f ∈ enter cells [] ↔
      ∃ c, cells.reverse.find? (fun c => c.1 == f.1) = some c ∧ f.2 = Text.trim c.2 := by
  -- the last cell decides, so the cells are taken from the end
  induction cells using List.reverseRecOn with
  | nil => exact ⟨List.nodup_nil, by simp [enter]⟩
  | append_singleton cells last ih =>
    have hstep : enter (cells ++ [last]) [] =
        put (enter cells []) last.1 (Text.trim last.2) := by
      unfold enter
      rw [List.foldl_append]
      rfl
    refine ⟨by rw [hstep]; exact put_names ih.1 _ _, ?_⟩
    intro f
    rw [hstep, mem_put ih.1, ih.2, List.reverse_concat, List.find?_cons]
    by_cases hname : last.1 = f.1
    · have hsame : (last.1 == f.1) = true := by simpa using hname
      rw [hsame]
      constructor
      · rintro (rfl | ⟨_, hne⟩)
        · exact ⟨last, rfl, rfl⟩
        · exact absurd hname.symm hne
      · rintro ⟨_, ⟨⟩, hcell⟩
        exact .inl (Prod.ext hname.symm hcell)
    · have hother : (last.1 == f.1) = false := by simpa using hname
      rw [hother]
      constructor
      · rintro (rfl | ⟨hf, _⟩)
        · exact absurd rfl hname
        · exact hf
      · exact fun hf => .inr ⟨hf, fun heq => hname heq.symm⟩

/-- The fields of a record's row: under each name its last cell, without the blanks at its ends. -/
theorem mem_ofCells {columns cells : List String} {number : Nat} {f : String × String} :
    f ∈ (ofCells columns number cells).fields ↔ f.1 ≠ "" ∧ ∃ cell,
      Sheet.lastCell? columns cells f.1 = some cell ∧ f.2 = Text.trim cell := by
  unfold ofCells Sheet.lastCell?
  dsimp only
  rw [collect_eq, (enter_spec _).2, ← List.filter_reverse, List.find?_filter]
  by_cases hname : f.1 = ""
  · have hnone : (columns.zip cells).reverse.find?
        (fun c => decide ((c.1 != "") = true ∧ (c.1 == f.1) = true)) = none := by
      rw [List.find?_eq_none]
      simp +contextual [hname]
    rw [hnone]
    simp [hname]
  · have hsame : (fun c : String × String => decide ((c.1 != "") = true ∧ (c.1 == f.1) = true)) =
        fun c => c.1 == f.1 := by
      funext c
      by_cases hc : c.1 = f.1
      · simp [hc, hname]
      · simp [hc]
    rw [hsame]
    constructor
    · rintro ⟨c, hc, hcell⟩
      exact ⟨hname, c.2, by rw [hc, Option.map_some], hcell⟩
    · rintro ⟨_, cell, hlast, hcell⟩
      obtain ⟨c, hc, rfl⟩ := Option.map_eq_some_iff.1 hlast
      exact ⟨c, hc, hcell⟩

/-- A record makes a row exactly when it counts. -/
theorem isEmpty_ofCells (columns cells : List String) (number : Nat) :
    (ofCells columns number cells).isEmpty = !Sheet.counts columns cells := by
  rw [Bool.eq_iff_iff, Bool.not_eq_true', ← Bool.not_eq_true, Sheet.counts_iff]
  unfold isEmpty
  rw [List.all_eq_true]
  constructor
  · rintro h ⟨name, hname, cell, hcell, hblank⟩
    have hfield := h (name, Text.trim cell) (mem_ofCells.2 ⟨hname, cell, hcell, rfl⟩)
    rw [Text.isEmpty_trim, hblank] at hfield
    cases hfield
  · intro h f hf
    obtain ⟨hname, cell, hcell, hfield⟩ := mem_ofCells.1 hf
    rw [hfield, Text.isEmpty_trim]
    by_contra hblank
    exact h ⟨f.1, hname, cell, hcell, Bool.eq_false_iff.2 hblank⟩

end Row

/-! ## The rows of a sheet -/

namespace Sheet

/-- A sheet of texts: its header and the records under it. -/
structure Grid where
  header : List String
  records : List (List String)
  deriving DecidableEq, Repr

namespace Grid

variable {g : Grid}

/-- The sheet of some records, the first of which is the header; without any there are no columns. -/
def ofRecords (records : List (List String)) : Grid := ⟨records.headD [], records.tail⟩

/-- The names of the columns. -/
def columns (g : Grid) : List String := g.header.map columnName

def rows (g : Grid) : List Row := Sheet.rows g.header g.records

/-- The records with a property, each with its place; the first record under the header has place 2. -/
def placed (g : Grid) (p : List String → Bool) : List (List String × Nat) :=
  (g.records.zipIdx 2).filter fun r => p r.1

/-- The places of the records with a property. -/
def places (g : Grid) (p : List String → Bool) : List Nat := (g.placed p).map (·.2)

theorem length_places (g : Grid) (p : List String → Bool) :
    (g.places p).length = g.records.countP p := by
  unfold places placed
  rw [List.length_map, ← List.countP_eq_length_filter]
  conv => rhs; rw [← List.zipIdx_map_fst 2 g.records, List.countP_map]
  rfl

/-- Places go up from record to record. -/
theorem pairwise_places (g : Grid) (p : List String → Bool) : (g.places p).Pairwise (· < ·) := by
  have hall : ((g.records.zipIdx 2).map (·.2)).Pairwise (· < ·) := by
    rw [List.zipIdx_map_snd]
    exact List.pairwise_lt_range' 1
  exact hall.sublist ((List.filter_sublist).map _)

/-- The places with one property are those with another exactly when the records are. -/
theorem places_eq_iff {p q : List String → Bool} (hpq : ∀ cells, p cells = true → q cells = true) :
    g.places p = g.places q ↔ ∀ cells ∈ g.records, q cells = true → p cells = true := by
  constructor
  · intro h
    have hcount : g.records.countP p = g.records.countP q := by
      rw [← length_places, ← length_places, h]
    intro cells hcells hq
    by_contra hp
    have hlt : g.records.countP p < g.records.countP q := by
      rw [List.countP_eq_length_filter, List.countP_eq_length_filter]
      have hsub := List.monotone_filter_right g.records hpq
      refine Nat.lt_of_le_of_ne hsub.length_le fun hlength => hp ?_
      have hmem : cells ∈ g.records.filter p := by
        rw [hsub.eq_of_length hlength]
        exact List.mem_filter.2 ⟨hcells, hq⟩
      exact (List.mem_filter.1 hmem).2
    omega
  · intro h
    unfold places placed
    congr 1
    refine List.filter_congr fun r hr => ?_
    rw [Bool.eq_iff_iff]
    exact ⟨hpq r.1, h r.1 (List.fst_mem_of_mem_zipIdx hr)⟩

end Grid

theorem numbered_eq (columns : List String) (number : Nat) (records : List (List String)) :
    numbered columns number records =
      (records.zipIdx number).map fun r => Row.ofCells columns r.2 r.1 := by
  induction records generalizing number with
  | nil => rfl
  | cons cells rest ih => rw [numbered, ih, List.zipIdx_cons, List.map_cons]

/-- The rows of a sheet are those of the records that count, in order. -/
theorem Grid.rows_eq (g : Grid) :
    g.rows = (g.placed (counts g.columns)).map fun r => Row.ofCells g.columns r.2 r.1 := by
  unfold Grid.rows Sheet.rows Grid.placed
  rw [numbered_eq, List.filter_map]
  congr 1
  refine List.filter_congr fun r _ => ?_
  rw [Function.comp_apply, Row.isEmpty_ofCells, Bool.not_not]
  rfl

/-- Each row has the place of its record. -/
theorem Grid.numbers_rows (g : Grid) :
    g.rows.map (·.number) = g.places (counts g.columns) := by
  rw [Grid.rows_eq, List.map_map]
  rfl

end Sheet

/-! ## What a file holds -/

/-- The records of a file of comma-separated texts; none if a cell is not UTF-8. -/
def Sheet.Separated.texts? (bytes : List UInt8) : Option (List (List String)) :=
  (records bytes).mapM fun record => record.mapM text?

namespace CatalogFile

open Sheet (Grid)

/-- A file holds a sheet, under the ending of its name. -/
inductive Holds (file : CatalogFile) : Grid → Prop
  | separated {bytes : List UInt8} {records : List (List String)} (hname : file.extension = "csv")
      (hfile : file.contents = some (.bytes bytes))
      (hrecords : Sheet.Separated.texts? bytes = some records) : Holds file (.ofRecords records)
  | workbook {sheet : WorkbookSheet} {others : List WorkbookSheet}
      (hname : file.extension = "xlsx" ∨ file.extension = "xls")
      (hfile : file.contents.bind (FileContents.sheetsUnder? file.ending) = some (sheet :: others))
      (hsound : (sheet.any fun row => row.any WorkbookCell.isDamaged) = false)
      (hbox : sheet.box ≠ []) : Holds file (.ofRecords sheet.box)

variable {file : CatalogFile} {g : Grid} {rows : List Row} {contents : FileContents}

theorem ofSeparated?_eq (bytes : List UInt8) :
    Sheet.ofSeparated? bytes =
      (Sheet.Separated.texts? bytes).map fun records => (Grid.ofRecords records).rows := by
  unfold Sheet.ofSeparated? Sheet.Separated.texts?
  cases (Sheet.Separated.records bytes).mapM
      fun record : List (List UInt8) => record.mapM Sheet.Separated.text? with
  | none => rfl
  | some records => cases records <;> rfl

theorem ofWorkbook_of_sound {sheet : WorkbookSheet} (others : List WorkbookSheet)
    (hsound : (sheet.any fun row => row.any WorkbookCell.isDamaged) = false) (hbox : sheet.box ≠ []) :
    Sheet.ofWorkbook (sheet :: others) = .ok (Grid.ofRecords sheet.box).rows := by
  unfold Sheet.ofWorkbook
  dsimp only
  rw [hsound, if_neg Bool.false_ne_true]
  cases hcells : sheet.box with
  | nil => exact absurd hcells hbox
  | cons header records => rfl

theorem separatedRows_of_texts {bytes : List UInt8} {records : List (List String)}
    (h : Sheet.Separated.texts? bytes = some records) :
    separatedRows (.bytes bytes) = .ok (Grid.ofRecords records).rows := by
  unfold separatedRows
  dsimp only
  rw [ofSeparated?_eq, h, Option.map_some]

theorem workbookRows_of_sound {ending : String} {sheet : WorkbookSheet}
    {others : List WorkbookSheet} (hsheets : contents.sheetsUnder? ending = some (sheet :: others))
    (hsound : (sheet.any fun row => row.any WorkbookCell.isDamaged) = false) (hbox : sheet.box ≠ []) :
    workbookRows ending contents = .ok (Grid.ofRecords sheet.box).rows := by
  unfold workbookRows
  rw [hsheets]
  dsimp only
  rw [ofWorkbook_of_sound others hsound hbox]

theorem texts_of_separatedRows (h : separatedRows contents = .ok rows) :
    ∃ bytes records, contents = .bytes bytes ∧ Sheet.Separated.texts? bytes = some records ∧
      (Grid.ofRecords records).rows = rows := by
  cases contents with
  | workbook sheets => cases h
  | olderWorkbook sheets => cases h
  | bytes bytes =>
    cases hrecords : Sheet.Separated.texts? bytes with
    | none =>
      unfold separatedRows at h
      dsimp only at h
      rw [ofSeparated?_eq, hrecords] at h
      cases h
    | some records =>
      rw [separatedRows_of_texts hrecords] at h
      exact ⟨bytes, records, rfl, hrecords, Except.ok.inj h⟩

theorem sound_of_workbookRows {ending : String} (h : workbookRows ending contents = .ok rows) :
    ∃ sheet others, contents.sheetsUnder? ending = some (sheet :: others) ∧
      (sheet.any fun row => row.any WorkbookCell.isDamaged) = false ∧ sheet.box ≠ [] ∧
        (Grid.ofRecords sheet.box).rows = rows := by
  cases hsheets : contents.sheetsUnder? ending with
  | none =>
    simp only [workbookRows, hsheets, reduceCtorEq] at h
  | some sheets =>
    cases sheets with
    | nil => simp only [workbookRows, hsheets, Sheet.ofWorkbook, reduceCtorEq] at h
    | cons sheet others =>
      cases hsound : sheet.any fun row => row.any WorkbookCell.isDamaged with
      | true =>
        simp only [workbookRows, hsheets, Sheet.ofWorkbook, hsound, if_true, reduceCtorEq] at h
      | false =>
        by_cases hbox : sheet.box = []
        · simp only [workbookRows, hsheets, Sheet.ofWorkbook, hsound, hbox, Bool.false_eq_true,
            if_false, reduceCtorEq] at h
        · rw [workbookRows_of_sound hsheets hsound hbox] at h
          exact ⟨sheet, others, rfl, hsound, hbox, Except.ok.inj h⟩

/-- A file that holds a sheet gives its rows. -/
theorem rows_of_holds (h : file.Holds g) : file.rows .byExtension = .ok g.rows := by
  cases h with
  | separated hname hfile hrecords =>
    unfold CatalogFile.rows
    simp only [hname, hfile, beq_self_eq_true, if_true]
    exact separatedRows_of_texts hrecords
  | workbook hname hfile hsound hbox =>
    obtain ⟨contents, hcontents, hsheets⟩ := Option.bind_eq_some_iff.1 hfile
    have hcsv : (file.extension == "csv") = false := by
      rcases hname with hname | hname <;> rw [hname] <;> rfl
    have hbook : (file.extension == "xlsx" || file.extension == "xls") = true := by
      rcases hname with hname | hname <;> rw [hname] <;> rfl
    unfold CatalogFile.rows
    simp only [hcsv, hbook, hcontents, Bool.false_eq_true, if_true, if_false]
    exact workbookRows_of_sound hsheets hsound hbox

/-- A file that is read holds a sheet. -/
theorem holds_of_rows (h : file.rows .byExtension = .ok rows) :
    ∃ g, file.Holds g ∧ g.rows = rows := by
  unfold CatalogFile.rows at h
  dsimp only at h
  split at h
  · rename_i hname
    split at h
    · cases h
    · rename_i hfile
      obtain ⟨bytes, records, rfl, hrecords, hrows⟩ := texts_of_separatedRows h
      exact ⟨_, .separated (by simpa using hname) hfile hrecords, hrows⟩
  · split at h
    · rename_i hname
      split at h
      · cases h
      · rename_i hfile
        obtain ⟨sheet, others, hsheets, hsound, hbox, hrows⟩ := sound_of_workbookRows h
        exact ⟨_, .workbook (by simpa using hname) (Option.bind_eq_some_iff.2 ⟨_, hfile, hsheets⟩)
          hsound hbox, hrows⟩
    · cases h

/-- A file holds one sheet at most. -/
theorem Holds.unique {g' : Grid} (h : file.Holds g) (h' : file.Holds g') : g = g' := by
  cases h with
  | separated hname hfile hrecords =>
    cases h' with
    | separated _ hfile' hrecords' =>
      rw [hfile] at hfile'
      cases hfile'
      rw [hrecords] at hrecords'
      cases hrecords'
      rfl
    | workbook _ hfile' =>
      rw [hfile] at hfile'
      cases hfile'
  | workbook hname hfile hsound hbox =>
    cases h' with
    | separated _ hfile' =>
      rw [hfile'] at hfile
      cases hfile
    | workbook _ hfile' =>
      rw [hfile] at hfile'
      cases hfile'
      rfl

end CatalogFile

end MaterialInspection
