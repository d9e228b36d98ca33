import Mathlib.Data.List.TakeWhile
import MaterialInspection.Proofs.Desk.Import
import MaterialInspection.Proofs.Sheet.Quoted

/-!
# One sheet in two formats

The same cells can be handed in as comma-separated texts or as a workbook.  The two are read by
readers of their own, and give the same rows.

* `WorkbookSheet.box_ofTexts` — a full rectangle of texts is its own smallest rectangle.
* `Desk.formats_agree` — written with all cells between quotation marks, a rectangle of texts gives the
  rows that a workbook with the same cells gives, and so the same import.
-/

set_option autoImplicit false

namespace MaterialInspection

/-! ## Workbooks of texts -/

namespace WorkbookSheet

/-- The sheet of a workbook whose cells are these texts. -/
def ofTexts (records : List (List String)) : WorkbookSheet :=
  records.map fun cells => cells.map .text

/-- Texts in a rectangle of a width that is not zero. -/
structure Rectangular (width : Nat) (records : List (List String)) : Prop where
  width_pos : 0 < width
  records_ne : records ≠ []
  length_eq : ∀ cells ∈ records, cells.length = width

/-- Nothing is dropped where no element has the property. -/
theorem dropWhile_of_none {α : Type} {p : α → Bool} {l : List α} (h : ∀ a ∈ l, p a = false) :
    l.dropWhile p = l :=
  List.dropWhile_eq_self_iff.2 fun hl => Bool.eq_false_iff.1 (h _ (List.get_mem l ⟨0, hl⟩))

variable {width : Nat} {records : List (List String)}

theorem not_damaged_ofTexts (records : List (List String)) :
    ((ofTexts records).any fun row => row.any WorkbookCell.isDamaged) = false := by
  unfold ofTexts
  simp [WorkbookCell.isDamaged]

theorem Rectangular.ne_nil (h : Rectangular width records) {cells : List String}
    (hcells : cells ∈ records) : cells ≠ [] := by
  rintro rfl
  have hlength : 0 = width := h.length_eq [] hcells
  exact absurd hlength (Nat.ne_of_lt h.width_pos)

/-- No row is without a cell. -/
theorem trimRows_ofTexts (h : Rectangular width records) :
    trimRows (ofTexts records) = ofTexts records := by
  have hfull : ∀ row ∈ ofTexts records, row.all WorkbookCell.isMissing = false := by
    intro row hrow
    obtain ⟨cells, hcells, rfl⟩ := List.mem_map.1 hrow
    obtain ⟨s, rest, rfl⟩ := List.exists_cons_of_ne_nil (h.ne_nil hcells)
    rfl
  unfold trimRows
  dsimp only
  rw [dropWhile_of_none hfull, dropWhile_of_none fun row hrow => hfull row (List.mem_reverse.1 hrow),
    List.reverse_reverse]

/-- The first column has a cell in every row. -/
theorem leftMargin_ofTexts (h : Rectangular width records) : leftMargin (ofTexts records) = 0 := by
  have hmargins : ((ofTexts records).filterMap fun row => row.findIdx? fun cell => !cell.isMissing) =
      List.replicate records.length 0 := by
    unfold ofTexts
    rw [List.filterMap_map]
    rw [← List.map_const']
    refine (List.filterMap_congr fun cells hcells => ?_).trans
      (congrFun List.filterMap_eq_map records)
    obtain ⟨s, rest, rfl⟩ := List.exists_cons_of_ne_nil (h.ne_nil hcells)
    rfl
  have hzero : ∀ n : Nat, (List.replicate n 0).foldl min 0 = 0 := by
    intro n
    induction n with
    | zero => rfl
    | succ n ih => rw [List.replicate_succ, List.foldl_cons, Nat.min_self, ih]
  have hhead : (List.replicate records.length 0).headD 0 = 0 := by
    cases records.length <;> rfl
  unfold leftMargin
  dsimp only
  rw [hmargins, hhead, hzero]

/-- All rows end in the last column. -/
theorem width_ofTexts (h : Rectangular width records) : WorkbookSheet.width (ofTexts records) = width := by
  have hwidths : ((ofTexts records).map fun row =>
      (row.reverse.dropWhile WorkbookCell.isMissing).length) = List.replicate records.length width := by
    unfold ofTexts
    rw [List.map_map, ← List.map_const']
    refine List.map_congr_left fun cells hcells => ?_
    have hthere : ∀ cell ∈ (cells.map WorkbookCell.text).reverse, cell.isMissing = false := by
      intro cell hcell
      obtain ⟨s, _, rfl⟩ := List.mem_map.1 (List.mem_reverse.1 hcell)
      rfl
    rw [Function.comp_apply, dropWhile_of_none hthere, List.length_reverse, List.length_map,
      h.length_eq cells hcells]
  have hmax : ∀ n start : Nat, start ≤ width → 0 < n →
      (List.replicate n width).foldl max start = width := by
    intro n
    induction n with
    | zero => exact fun _ _ hn => absurd hn (Nat.lt_irrefl 0)
    | succ n ih =>
      intro start hstart _
      rw [List.replicate_succ, List.foldl_cons, Nat.max_eq_right hstart]
      cases n with
      | zero => rfl
      | succ n => exact ih width (Nat.le_refl width) (Nat.succ_pos n)
  unfold WorkbookSheet.width
  rw [hwidths]
  exact hmax _ 0 (Nat.zero_le width) (List.length_pos_iff.2 h.records_ne)

/-- **A full rectangle of texts is its own smallest rectangle.** -/
theorem box_ofTexts (h : Rectangular width records) : box (ofTexts records) = records := by
  unfold box
  dsimp only
  rw [trimRows_ofTexts h, leftMargin_ofTexts h, width_ofTexts h]
  unfold ofTexts
  rw [List.map_map]
  refine (List.map_congr_left fun cells hcells => ?_).trans (List.map_id' records)
  have hlength : (cells.map WorkbookCell.text).length = width := by
    rw [List.length_map, h.length_eq cells hcells]
  rw [Function.comp_apply, hlength, Nat.sub_self, List.replicate_zero, List.append_nil,
    List.take_of_length_le (Nat.le_of_eq hlength), List.drop_zero, List.map_map]
  exact List.map_id' cells

end WorkbookSheet

namespace Desk

open Sheet Sheet.Separated

/-- **The formats agree.**  A rectangle of texts is written as comma-separated texts, with all cells
between quotation marks, the marks in them doubled, and lines that end in either way; and it is put into
the first sheet of a workbook, of the format that the ending of its name says, or of either if that is
not in small letters.  Both files are read, and give the rows of the rectangle; so importing either gives
the same answer and leaves the same store. -/
theorem formats_agree {width : Nat} {lines : List (List String × LineEnd)}
    (h : WorkbookSheet.Rectangular width (lines.map (·.1))) (others : List WorkbookSheet)
    {table book : CatalogFile} (htable : table.extension = "csv")
    (htexts : table.contents = some (.bytes (bytes (written lines))))
    (hbook : book.extension = "xlsx" ∨ book.extension = "xls")
    (hsheets : book.contents.bind (FileContents.sheetsUnder? book.ending) =
      some (WorkbookSheet.ofTexts (lines.map (·.1)) :: others)) :
    table.rows .separated = .ok (Grid.ofRecords (lines.map (·.1))).rows ∧
      book.rows .workbook = .ok (Grid.ofRecords (lines.map (·.1))).rows ∧
      ∀ s, ∃ result after, importFile table s = (.ok result, after) ∧
        importFile book s = (.ok result, after) := by
  have hlines : ∀ line ∈ lines, line.1 ≠ [] := fun line hline =>
    h.ne_nil (List.mem_map_of_mem hline)
  have hrecords := texts?_written hlines
  have hsound := WorkbookSheet.not_damaged_ofTexts (lines.map (·.1))
  have hbox := WorkbookSheet.box_ofTexts h
  have hne : (WorkbookSheet.ofTexts (lines.map (·.1))).box ≠ [] := by
    rw [hbox]
    exact h.records_ne
  refine ⟨?_, ?_, ?_⟩
  · unfold CatalogFile.rows
    simp only [htable, htexts, beq_self_eq_true, if_true]
    exact CatalogFile.separatedRows_of_texts hrecords
  · have hformat : (book.extension == "xlsx" || book.extension == "xls") = true := by
      rcases hbook with hbook | hbook <;> rw [hbook] <;> rfl
    obtain ⟨contents, hcontents, hshown⟩ := Option.bind_eq_some_iff.1 hsheets
    unfold CatalogFile.rows
    simp only [hformat, hcontents, if_true]
    rw [CatalogFile.workbookRows_of_sound hshown hsound hne, hbox]
  · intro s
    have htableRows := CatalogFile.rows_of_holds (.separated htable htexts hrecords)
    have hbookRows := CatalogFile.rows_of_holds (.workbook hbook hsheets hsound hne)
    rw [hbox] at hbookRows
    rw [importFile_of_rows htableRows, importFile_of_rows hbookRows]
    exact ⟨_, _, rfl, rfl⟩

/-- A catalog with a comma, a quotation mark, a line end and a byte order mark in its cells, with both
kinds of line ends, and in a workbook of the older format. -/
theorem formats_agree_marks :
    ∃ (lines : List (List String × LineEnd)) (table book : CatalogFile) (rows : List Row),
      WorkbookSheet.Rectangular 2 (lines.map (·.1)) ∧
      table.contents = some (.bytes (bytes (written lines))) ∧
      book.contents = some (.olderWorkbook [WorkbookSheet.ofTexts (lines.map (·.1))]) ∧
      table.rows .separated = .ok rows ∧ book.rows .workbook = .ok rows ∧
      rows = [⟨2, [("检验项目", "外观,\"A\""), ("单位", "")]⟩, ⟨4, [("检验项目", "厚\n度"), ("单位", "mm")]⟩] ∧
      importFile table Store.blank.prepare = importFile book Store.blank.prepare := by
  let lines : List (List String × LineEnd) :=
    [(["\ufeff检验项目", "单位"], .returnAndFeed), (["外观,\"A\"", ""], .lineFeed),
      (["", " "], .lineFeed), (["厚\n度", "mm"], .returnAndFeed)]
  let table : CatalogFile := ⟨"items.csv", some (.bytes (bytes (written lines)))⟩
  let book : CatalogFile :=
    ⟨"items.xls", some (.olderWorkbook [WorkbookSheet.ofTexts (lines.map (·.1))])⟩
  have hrect : WorkbookSheet.Rectangular 2 (lines.map (·.1)) :=
    ⟨by decide, by decide, by decide⟩
  have hcsv : table.extension = "csv" := by decide
  have hxls : book.extension = "xls" := by decide
  have htexts : table.contents = some (.bytes (bytes (written lines))) := rfl
  have hsheets : book.contents =
    some (.olderWorkbook [WorkbookSheet.ofTexts (lines.map (·.1))]) := rfl
  have hshown : book.contents.bind (FileContents.sheetsUnder? book.ending) =
      some [WorkbookSheet.ofTexts (lines.map (·.1))] := by
    rw [hsheets, show book.ending = "xls" by decide]
    rfl
  obtain ⟨htable, hbook, himport⟩ := formats_agree hrect [] hcsv htexts (.inr hxls) hshown
  obtain ⟨result, after, htableImport, hbookImport⟩ := himport Store.blank.prepare
  refine ⟨lines, table, book, _, hrect, htexts, hsheets, htable, hbook, ?_, ?_⟩
  · decide +kernel
  · rw [htableImport, hbookImport]

end Desk

end MaterialInspection
