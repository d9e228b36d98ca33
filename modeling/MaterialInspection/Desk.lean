import MaterialInspection.Sheet.File
import MaterialInspection.Sheet.ItemRow
import MaterialInspection.Store

/-!
# The inspection desk

The desk is where inspectors work: it holds the store and the settings that it was opened with.  They
make samples for a category, have measured values judged, write reports on deliveries one by one or
in batches, look reports up, and import catalogs.

A report needs an inspector and a product.  Its number is tried again when it turns out to be taken,
three times in all.  A batch reads the catalog once and goes on after a failed delivery.

Every operation answers with a result or a `DeskError` and with the store after it; those that draw
samples also hand back the rest of the word stream.
-/

set_option autoImplicit false

namespace MaterialInspection

/-- Why a request at the desk is refused. -/
inductive DeskError
  | blankInspector
  | blankProduct
  | nothingSelected
  | unknownItem (id : Int)
  | unknownReport (number : String)
  | store (e : StoreError)
  | file (e : FileError)
  deriving DecidableEq, Repr

namespace DeskError

/-- The text of a store error as the desk reports it. -/
def storeMessage : StoreError → String
  | .unknownItem id => "资源未找到: InspectionItem(id=" ++ toString id ++ ")不存在"
  | .missingTable _ => "数据库错误: "
  | .unknownColumn _ => "数据库错误: "
  | .badCell _ => "数据库错误: "
  | .duplicate .reports "report_no" =>
    "报告编号冲突: " ++ StoreError.duplicateText .reports "report_no"
  | .duplicate table column =>
    "业务规则违反: 唯一约束违反: " ++ StoreError.duplicateText table column
  | .danglingReference => "业务规则违反: 外键约束违反: FOREIGN KEY constraint failed"
  | .refusedNumber number stem => "业务规则违反: " ++ StoreError.refusalText number stem
  | .badDate column => "无效输入: 字段" ++ column ++ "错误: "
  | .idsUsedUp _ => "数据库错误: "
  | .longPattern => "数据库错误: "

/-- The text of an error. -/
def message : DeskError → String
  | .blankInspector => "无效输入: 检验员不能为空"
  | .blankProduct => "无效输入: 品名不能为空"
  | .nothingSelected => "无效输入: 请选择至少一条记录"
  | .unknownItem id => "资源未找到: 检验项目(id=" ++ toString id ++ ")不存在"
  | .unknownReport number => "资源未找到: 报告" ++ number ++ "不存在"
  | .store e => storeMessage e
  | .file (.missing name) => "资源未找到: 文件" ++ name ++ "不存在"
  | .file e => "文件导入失败: " ++ e.message

end DeskError

/-- The result of a store operation, with its error as the desk's. -/
def liftStore {α : Type} : Except StoreError α → Except DeskError α
  | .ok a => .ok a
  | .error e => .error (.store e)

/-- The store and the settings that the desk works with. -/
structure Desk where
  store : Store
  settings : Settings
  deriving DecidableEq

namespace Desk

/-- The desk with given settings; the number of samples is at least one. -/
def withSettings (store : Store) (settings : Settings) : Desk :=
  ⟨store, { settings with sampleCount := max settings.sampleCount 1 }⟩

/-- The desk over a store whose missing tables are made, with the settings kept there. -/
def openOn (store : Store) : Desk :=
  let store := store.prepare
  match store.loadSettings with
  | .ok settings => withSettings store settings
  | .error _ => withSettings store {}

/-! ## Samples and verdicts -/

/-- How many samples of each item there are; without a size, or with size zero, the settings say. -/
def samplesFor (d : Desk) (size : Option Nat) : Nat :=
  let asked := size.getD 0
  if asked = 0 then d.settings.sampleCount else asked

/-- Findings on the items for a category, general ones included. -/
def generate (d : Desk) (category : String) (size : Option Nat) (words : WordStream) :
    Except DeskError (List Finding) × WordStream :=
  match d.store.itemsFor (Text.trim category) false with
  | .error e => (.error (.store e), words)
  | .ok items =>
    let (findings, rest) := d.settings.inspectAll items (d.samplesFor size) words
    (.ok findings, rest)

/-- The verdict on measured values of an item. -/
def judge (d : Desk) (id : Int) (values : List String) : Except DeskError Verdict :=
  match d.store.findItem id with
  | .error e => .error (.store e)
  | .ok none => .error (.unknownItem id)
  | .ok (some item) => .ok (d.settings.judging.judge item values)

/-! ## Reports -/

/-- The number that the next report of a category and month would get. -/
def preview (d : Desk) (category : String) (date : Date) : Except DeskError String :=
  match d.store.greatestNumber (ReportNumber.stem category date) with
  | .error e => .error (.store e)
  | .ok greatest => .ok (ReportNumber.next category date greatest)

/-- How often a report is tried to be written when its number turns out to be taken. -/
def maxAttempts : Nat := 3

/-- A report written under the next number, tried again while the number is taken. -/
def write (r : Report) : Nat → Store → Except StoreError String × Store
  | 0, s => (.error (.duplicate .reports "report_no"), s)
  | attempts + 1, s =>
    let allocate := ReportNumber.next r.category r.inspected
    match Store.insertReport (ReportNumber.stem r.category r.inspected) r allocate s with
    | (.error (.duplicate table column), after) =>
      if attempts = 0 then (.error (.duplicate table column), after) else write r attempts after
    | outcome => outcome

/-- The report on a delivery, drawn and written. -/
def save (settings : Settings) (catalog : List Item) (delivery : Delivery) (inspector : String)
    (date : Date) (s : Store) (words : WordStream) : Except DeskError Report × Store × WordStream :=
  if Text.blank delivery.product then (.error .blankProduct, s, words)
  else
    let (report, rest) := Report.draft settings delivery catalog inspector date words
    match write report maxAttempts s with
    | (.ok number, after) => (.ok { report with number }, after, rest)
    | (.error e, after) => (.error (.store e), after, rest)

/-- The report on one delivery. -/
def create (d : Desk) (delivery : Delivery) (inspector : String) (date : Date) (words : WordStream) :
    Except DeskError Report × Store × WordStream :=
  if Text.blank inspector then (.error .blankInspector, d.store, words)
  else
    match d.store.activeItems with
    | .error e => (.error (.store e), d.store, words)
    | .ok catalog => save d.settings catalog delivery inspector date d.store words

/-- A delivery of a batch without a report, by its place in the batch. -/
structure BatchFailure where
  index : Nat
  product : String
  error : DeskError
  deriving DecidableEq, Repr

/-- What became of a batch: the numbers of its reports and the deliveries without one, in order, and
how many there were of either. -/
structure BatchResult where
  successes : Nat := 0
  failed : Nat := 0
  numbers : List String := []
  failures : List BatchFailure := []
  deriving DecidableEq, Repr

namespace BatchResult

/-- With one more report, before the others. -/
def withReport (number : String) (r : BatchResult) : BatchResult :=
  { r with successes := r.successes + 1, numbers := number :: r.numbers }

/-- With one more delivery without a report, before the others. -/
def withFailure (failure : BatchFailure) (r : BatchResult) : BatchResult :=
  { r with failed := r.failed + 1, failures := failure :: r.failures }

/-- A line about a batch. -/
def message (r : BatchResult) : String :=
  "批量生成完成: 成功 " ++ toString r.successes ++ " 条, 失败 " ++ toString r.failed ++ " 条"

end BatchResult

/-- The reports on the deliveries of a batch from a place on. -/
def saveAll (settings : Settings) (catalog : List Item) (inspector : String) (date : Date) :
    Nat → List Delivery → Store → WordStream → BatchResult × Store × WordStream
  | _, [], s, words => ({}, s, words)
  | index, delivery :: rest, s, words =>
    let (outcome, s, words) := save settings catalog delivery inspector date s words
    let (others, s, words) := saveAll settings catalog inspector date (index + 1) rest s words
    match outcome with
    | .ok report => (others.withReport report.number, s, words)
    | .error e => (others.withFailure ⟨index, delivery.product, e⟩, s, words)

/-- The reports on a batch of deliveries. -/
def batch (d : Desk) (deliveries : List Delivery) (inspector : String) (date : Date)
    (words : WordStream) : Except DeskError BatchResult × Store × WordStream :=
  if deliveries.isEmpty then (.error .nothingSelected, d.store, words)
  else if Text.blank inspector then (.error .blankInspector, d.store, words)
  else
    match d.store.activeItems with
    | .error e => (.error (.store e), d.store, words)
    | .ok catalog =>
      let (result, s, words) := saveAll d.settings catalog inspector date 0 deliveries d.store words
      (.ok result, s, words)

/-- The report with a number. -/
def find (d : Desk) (number : String) : Except DeskError Report :=
  match d.store.findReport number with
  | .error e => .error (.store e)
  | .ok none => .error (.unknownReport number)
  | .ok (some report) => .ok report

/-! ## Importing a catalog -/

/-- Why a row of a file was not imported. -/
inductive ImportFailure
  | row (e : RowError)
  | store (e : StoreError)
  deriving DecidableEq, Repr

/-- The text of an import failure. -/
def ImportFailure.message : ImportFailure → String
  | .row e => e.message
  | .store e => "项目写入失败: " ++ e.message

/-- What became of the rows of a file. -/
structure ImportResult where
  total : Nat
  imported : Nat
  failures : List (Nat × ImportFailure)
  deriving DecidableEq, Repr

/-- One row imported. -/
def importRow (row : Row) (s : Store) : Except ImportFailure Int × Store :=
  match Item.ofRow row with
  | .error e => (.error (.row e), s)
  | .ok item =>
    match s.putItem item with
    | (.ok id, after) => (.ok id, after)
    | (.error e, after) => (.error (.store e), after)

/-- Rows imported one after another; a failed one is passed over. -/
def importRows : List Row → Store → ImportResult × Store
  | [], s => (⟨0, 0, []⟩, s)
  | row :: rest, s =>
    let (outcome, s) := importRow row s
    let (others, s) := importRows rest s
    match outcome with
    | .ok _ => (⟨others.total + 1, others.imported + 1, others.failures⟩, s)
    | .error e => (⟨others.total + 1, others.imported, (row.number, e) :: others.failures⟩, s)

/-- The catalog of a file imported. -/
def importFile (file : CatalogFile) (s : Store) : Except DeskError ImportResult × Store :=
  match file.rows .byExtension with
  | .error e => (.error (.file e), s)
  | .ok rows =>
    let (result, after) := importRows rows s
    (.ok result, after)

end Desk

end MaterialInspection
