import MaterialInspection.Number.Shortest
import MaterialInspection.Sheet

/-!
# Workbooks

A workbook is a list of sheets, each a grid of cells some of which do not exist.  The first sheet is
read: the smallest rectangle around its existing cells, with the header in its first row.  A failed
formula shows one of seven texts; with any other in the first sheet, the workbook is damaged.
-/

set_option autoImplicit false

namespace MaterialInspection

/-- A cell of a workbook. -/
inductive WorkbookCell
  | missing
  | text (s : String)
  | number (x : Binary64)
  | bool (value : Bool)
  /-- A formula that failed, with the text that stands for the failure. -/
  | failed (s : String)
  deriving DecidableEq

namespace WorkbookCell

/-- The text of a cell. -/
def content : WorkbookCell → String
  | .missing => ""
  | .text s => s
  | .number x => x.plainText
  | .bool true => "true"
  | .bool false => "false"
  | .failed s => s

def isMissing : WorkbookCell → Bool
  | .missing => true
  | _ => false

/-- The texts that stand for the failure of a formula. -/
def failures : List String :=
  ["#DIV/0!", "#N/A", "#NAME?", "#NULL!", "#NUM!", "#REF!", "#VALUE!"]

/-- A cell that no workbook holds: a failure that has none of the texts for it. -/
def isDamaged : WorkbookCell → Bool
  | .failed s => !failures.contains s
  | _ => false

end WorkbookCell

/-- The rows of cells of one sheet, from the first row and column. -/
abbrev WorkbookSheet : Type := List (List WorkbookCell)

/-- Why a workbook gives no rows. -/
inductive WorkbookIssue
  | noSheet
  | noRow
  | badCell
  deriving DecidableEq, Repr

namespace WorkbookSheet

/-- The rows from the first to the last that have a cell. -/
def trimRows (sheet : WorkbookSheet) : WorkbookSheet :=
  let vacant (row : List WorkbookCell) : Bool := row.all WorkbookCell.isMissing
  ((sheet.dropWhile vacant).reverse.dropWhile vacant).reverse

/-- The number of columns before the first that has a cell. -/
def leftMargin (sheet : WorkbookSheet) : Nat :=
  let margins := sheet.filterMap fun row => row.findIdx? fun cell => !cell.isMissing
  margins.foldl min (margins.headD 0)

/-- The number of columns up to the last that has a cell. -/
def width (sheet : WorkbookSheet) : Nat :=
  (sheet.map fun row => (row.reverse.dropWhile WorkbookCell.isMissing).length).foldl max 0

/-- The texts of the smallest rectangle around the existing cells. -/
def box (sheet : WorkbookSheet) : List (List String) :=
  let rows := trimRows sheet
  let left := leftMargin rows
  let right := width rows
  rows.map fun row =>
    ((row ++ List.replicate (right - row.length) .missing).take right).drop left |>.map
      WorkbookCell.content

end WorkbookSheet

/-- The rows of a workbook's first sheet. -/
def Sheet.ofWorkbook (sheets : List WorkbookSheet) : Except WorkbookIssue (List Row) :=
  match sheets with
  | [] => .error .noSheet
  | sheet :: _ =>
    if sheet.any fun row => row.any WorkbookCell.isDamaged then .error .badCell
    else
      match sheet.box with
      | [] => .error .noRow
      | header :: records => .ok (rows header records)

end MaterialInspection
