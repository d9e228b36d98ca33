import MaterialInspection.Sheet.Separated
import MaterialInspection.Sheet.Workbook
import MaterialInspection.Text.Lowercase

/-!
# Files with a catalog

A catalog comes as a file of comma-separated texts or as a workbook, told apart by the extension of
the file's name, whatever the case of its letters.  Workbooks come in two formats, an older and a newer
one.  An extension in small letters says which of them to expect, and under another either is found.  A
file may also be missing, or hold something else than its extension says.
-/

set_option autoImplicit false

namespace MaterialInspection

/-- What a file holds. -/
inductive FileContents
  | bytes (bytes : List UInt8)
  | workbook (sheets : List WorkbookSheet)
  /-- A workbook of the older format. -/
  | olderWorkbook (sheets : List WorkbookSheet)

/-- The sheets of a workbook that is looked for under an ending of its name. -/
def FileContents.sheetsUnder? (ending : String) : FileContents → Option (List WorkbookSheet)
  | .bytes _ => none
  | .workbook sheets => if ending = "xls" then none else some sheets
  | .olderWorkbook sheets => if ending = "xlsx" then none else some sheets

/-- A file by its name; one without contents does not exist. -/
structure CatalogFile where
  name : String
  contents : Option FileContents

/-- How a file is to be read. -/
inductive FileReader
  | separated
  | workbook
  | byExtension
  deriving DecidableEq, Repr

/-- Why a file gives no rows. -/
inductive FileError
  | missing (name : String)
  | unsupported (extension : String)
  | badText
  | notWorkbook
  | workbook (issue : WorkbookIssue)
  deriving DecidableEq, Repr

namespace FileError

/-- The text of a file error. -/
def message : FileError → String
  | .missing name => "文件不存在: " ++ name
  | .unsupported extension => "文件格式不支持: " ++ extension ++ "（仅支持 .xlsx/.xls/.csv）"
  | .badText => "CSV 解析失败: "
  | .notWorkbook => "Excel 解析失败: "
  | .workbook .noSheet => "Excel 解析失败: Excel 文件无工作表"
  | .workbook .noRow => "Excel 解析失败: Excel 文件无数据行"
  | .workbook .badCell => "Excel 解析失败: "

end FileError

namespace CatalogFile

/-- The part of a name after its last point; a point at the start of a name begins no ending. -/
def ending (file : CatalogFile) : String :=
  let reversed := file.name.toList.reverse
  let last := reversed.takeWhile (· != '.')
  match reversed.drop last.length with
  | '.' :: _ :: _ => String.ofList last.reverse
  | _ => ""

/-- The ending of a name in lower case. -/
def extension (file : CatalogFile) : String := Text.lower file.ending

/-- The rows of an existing file with comma-separated texts. -/
def separatedRows : FileContents → Except FileError (List Row)
  | .bytes bytes =>
    match Sheet.ofSeparated? bytes with
    | some rows => .ok rows
    | none => .error .badText
  | _ => .error .badText

/-- The rows of an existing workbook under the ending of its name. -/
def workbookRows (ending : String) (contents : FileContents) : Except FileError (List Row) :=
  match contents.sheetsUnder? ending with
  | none => .error .notWorkbook
  | some sheets =>
    match Sheet.ofWorkbook sheets with
    | .ok rows => .ok rows
    | .error issue => .error (.workbook issue)

/-- The rows of a file.  A reader for one format looks for the file before its extension, the one
that goes by the extension after it. -/
def rows (file : CatalogFile) (reader : FileReader) : Except FileError (List Row) :=
  let extension := file.extension
  let separated := extension == "csv"
  let workbook := extension == "xlsx" || extension == "xls"
  match reader with
  | .separated =>
    match file.contents with
    | none => .error (.missing file.name)
    | some contents => if separated then separatedRows contents else .error (.unsupported extension)
  | .workbook =>
    match file.contents with
    | none => .error (.missing file.name)
    | some contents =>
      if workbook then workbookRows file.ending contents else .error (.unsupported extension)
  | .byExtension =>
    if separated then
      match file.contents with
      | none => .error (.missing file.name)
      | some contents => separatedRows contents
    else if workbook then
      match file.contents with
      | none => .error (.missing file.name)
      | some contents => workbookRows file.ending contents
    else .error (.unsupported extension)

end CatalogFile

end MaterialInspection
