import MaterialInspection.Json.Record
import MaterialInspection.Report
import MaterialInspection.Report.Numbering
import MaterialInspection.Store.Cell
import MaterialInspection.Store.Error
import MaterialInspection.Store.Numbered
import MaterialInspection.Store.Pattern

/-!
# Stored reports

A report is kept as one row of texts and numbers and one row for each of its findings, with the
samples of a finding as one JSON text.  Reading it back undoes each of these: a date that cannot be
read is an error for the day of inspection and no date for the day of arrival, unreadable samples are
no samples, and a label that is not the one for passing reads as failing.

`ReportRow.ofReport` and `FindingRow.ofFinding` write, `ReportRow.report?` and `FindingRow.finding?`
read.
-/

set_option autoImplicit false

namespace MaterialInspection

/-- A report as it is kept. -/
structure ReportRow where
  id : Int
  number : String
  supplier : String
  product : String
  specification : Option String
  category : String
  quantity : NumberCell
  packages : NumberCell
  received : Option String
  sampleSize : NumberCell
  purchaseOrder : Option String
  result : String
  inspector : String
  inspected : String
  deriving DecidableEq

/-- A finding as it is kept, with the id of its report. -/
structure FindingRow where
  id : Int
  reportId : Int
  itemId : NumberCell
  itemName : String
  values : String
  verdict : String
  unit : String
  deriving DecidableEq

namespace ReportRow

/-- The row of a report under an id and a number. -/
def ofReport (id : Int) (number : String) (r : Report) : ReportRow where
  id
  number
  supplier := r.supplier
  product := r.product
  specification := r.specification
  category := r.category
  quantity := .real (NumberCell.unsignedZero r.quantity)
  packages := .whole r.packages
  received := r.received.map Date.text
  sampleSize := .whole (wrapSize r.sampleSize)
  purchaseOrder := r.purchaseOrder
  result := r.result.label
  inspector := r.inspector
  inspected := r.inspected.text

/-- The numbers of a row: quantity, packages and sample size. -/
def numbers? (row : ReportRow) : Except StoreError (Binary64 × Int × Int) :=
  match row.quantity.double? with
  | none => .error (.badCell "quantity")
  | some quantity =>
    match row.packages.int? minInt32 maxInt32 with
    | none => .error (.badCell "package_count")
    | some packages =>
      match row.sampleSize.int? minInt64 maxInt64 with
      | none => .error (.badCell "sampling_quantity")
      | some sampleSize => .ok (quantity, packages, sampleSize)

/-- The report of a row with its numbers and findings. -/
def report? (row : ReportRow) (numbers : Binary64 × Int × Int) (findings : List Finding) :
    Except StoreError Report :=
  match Date.read? .strict row.inspected with
  | none => .error (.badDate "inspection_date")
  | some inspected =>
    .ok {
      number := row.number
      supplier := row.supplier
      product := row.product
      specification := row.specification
      category := row.category
      quantity := numbers.1
      packages := numbers.2.1
      received := row.received.bind (Date.read? .strict)
      sampleSize := numbers.2.2.toNat
      purchaseOrder := row.purchaseOrder
      result := Verdict.ofLabel row.result
      inspector := row.inspector
      inspected
      findings }

end ReportRow

namespace FindingRow

/-- The row of a finding of a report. -/
def ofFinding (id reportId : Int) (f : Finding) : FindingRow where
  id
  reportId
  itemId := .whole f.itemId
  itemName := f.itemName
  values := (Json.Value.array (f.values.map .text)).render
  verdict := f.verdict.label
  unit := f.unit

/-- The samples that a JSON text lists. -/
def readValues (s : String) : List String :=
  ((Json.Tree.parse? s.toList).bind (Json.Tree.list? Json.Tree.text?)).getD []

/-- The finding of a row. -/
def finding? (row : FindingRow) : Except StoreError Finding :=
  match row.itemId.int? minInt64 maxInt64 with
  | none => .error (.badCell "item_id")
  | some itemId =>
    .ok {
      itemId
      itemName := row.itemName
      values := readValues row.values
      verdict := Verdict.ofLabel row.verdict
      unit := row.unit }

/-- The findings of some rows. -/
def findings? : List FindingRow → Except StoreError (List Finding)
  | [] => .ok []
  | row :: rest =>
    match row.finding?, findings? rest with
    | .ok f, .ok fs => .ok (f :: fs)
    | .error e, _ => .error e
    | _, .error e => .error e

end FindingRow

/-- The table of reports. -/
abbrev ReportTable : Type := Numbered ReportRow

/-- The table of findings. -/
abbrev FindingTable : Type := Numbered FindingRow

namespace ReportTable

/-- The row with a report number. -/
def find? (t : ReportTable) (number : String) : Option ReportRow :=
  t.rows.find? fun row => row.number == number

/-- The table with a report under a number, and the id of its row. -/
def insert (t : ReportTable) (number : String) (r : Report) : Except StoreError (Int × ReportTable) :=
  match t.freshId? (·.id) with
  | none => .error (.idsUsedUp .reports)
  | some id =>
    if r.quantity.isNaN then .error (.badCell "quantity")
    else if t.rows.any fun row => row.number == number then .error (.duplicate .reports "report_no")
    else .ok (id, t.append id (.ofReport id number r))

/-- Texts from the first to the last in the order of their characters. -/
def sortTexts (texts : List String) : List String := texts.mergeSort fun a b => decide (a ≤ b)

/-- The numbers that start with the form of a pattern, in order.  A pattern that is too long is
refused once there is a number to compare it with. -/
def numbersLike (t : ReportTable) (pattern : String) : Except StoreError (List String) :=
  if t.rows.isEmpty || Pattern.isShort pattern then
    .ok (sortTexts ((t.rows.map (·.number)).filter (Pattern.matchesStart pattern)))
  else .error .longPattern

/-- The last of these numbers that has ten characters. -/
def greatestLike (t : ReportTable) (pattern : String) : Except StoreError (Option String) :=
  (t.numbersLike pattern).map fun numbers =>
    (numbers.filter fun number => Pattern.length number == ReportNumber.length).getLast?

end ReportTable

namespace FindingTable

/-- The table with one more finding of a report. -/
def insert (t : FindingTable) (reportId : Int) (f : Finding) : Except StoreError FindingTable :=
  match t.freshId? (·.id) with
  | none => .error (.idsUsedUp .findings)
  | some id => .ok (t.append id (.ofFinding id reportId f))

/-- The findings of a report entered in order, up to the first that is refused; the table holds those
before it. -/
def insertAll (t : FindingTable) (reportId : Int) : List Finding → Except StoreError Unit × FindingTable
  | [] => (.ok (), t)
  | f :: fs =>
    match t.insert reportId f with
    | .error e => (.error e, t)
    | .ok t => insertAll t reportId fs

/-- The rows of a report's findings, in order of their ids. -/
def rowsOf (t : FindingTable) (reportId : Int) : List FindingRow :=
  (t.rows.filter fun row => row.reportId == reportId).mergeSort fun a b => decide (a.id ≤ b.id)

end FindingTable

end MaterialInspection
