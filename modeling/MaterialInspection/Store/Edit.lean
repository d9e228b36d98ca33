import MaterialInspection.Store.Archive

/-!
# Editing stored reports

One column of a stored report, or of all its findings, can be set to a text.  A column for numbers
takes the text as `NumberCell` says.  The column of ids has three more names that every table gives
it.  An edit is refused when it would give two rows one id or one
report number, give a row an id that is no whole number, or leave a finding without its report.
-/

set_option autoImplicit false

namespace MaterialInspection

/-- The names that the column of ids has in every table besides its own. -/
def idNames : List String := ["rowid", "oid", "_rowid_"]

/-- The columns of the table of reports. -/
inductive ReportColumn
  | id
  | number
  | supplier
  | product
  | specification
  | category
  | quantity
  | packages
  | received
  | sampleSize
  | purchaseOrder
  | result
  | inspector
  | inspected
  /-- The time of entry, which nothing reads. -/
  | created
  deriving DecidableEq, Repr

/-- The columns of the table of findings. -/
inductive FindingColumn
  | id
  | reportId
  | itemId
  | itemName
  | values
  | verdict
  | unit
  deriving DecidableEq, Repr

namespace ReportColumn

/-- The columns with their names. -/
def names : List (String × ReportColumn) :=
  [("id", id), ("report_no", number), ("supplier", supplier), ("product_name", product),
   ("specification", specification), ("material_category", category), ("quantity", quantity),
   ("package_count", packages), ("arrival_date", received), ("sampling_quantity", sampleSize),
   ("po_number", purchaseOrder), ("report_result", result), ("inspector", inspector),
   ("inspection_date", inspected), ("created_at", created)] ++ idNames.map fun name => (name, id)

/-- The column with a name, whatever the case of its ASCII letters. -/
def ofName? (s : String) : Option ReportColumn :=
  (names.find? fun c => c.1.toList == s.toList.map Char.toLower).map (·.2)

/-- A row with a text in a column that no other row depends on. -/
def set (column : ReportColumn) (s : String) (row : ReportRow) : ReportRow :=
  match column with
  | .id => row
  | .number => { row with number := s }
  | .supplier => { row with supplier := s }
  | .product => { row with product := s }
  | .specification => { row with specification := some s }
  | .category => { row with category := s }
  | .quantity => { row with quantity := .ofTextAsReal s }
  | .packages => { row with packages := .ofText s }
  | .received => { row with received := some s }
  | .sampleSize => { row with sampleSize := .ofText s }
  | .purchaseOrder => { row with purchaseOrder := some s }
  | .result => { row with result := s }
  | .inspector => { row with inspector := s }
  | .inspected => { row with inspected := s }
  | .created => row

end ReportColumn

namespace FindingColumn

/-- The columns with their names. -/
def names : List (String × FindingColumn) :=
  [("id", id), ("report_id", reportId), ("item_id", itemId), ("item_name", itemName),
   ("sample_values", values), ("judgment", verdict), ("unit", unit)] ++
    idNames.map fun name => (name, id)

/-- The column with a name, whatever the case of its ASCII letters. -/
def ofName? (s : String) : Option FindingColumn :=
  (names.find? fun c => c.1.toList == s.toList.map Char.toLower).map (·.2)

/-- A row with a text in a column that no other row depends on. -/
def set (column : FindingColumn) (s : String) (row : FindingRow) : FindingRow :=
  match column with
  | .id => row
  | .reportId => row
  | .itemId => { row with itemId := .ofText s }
  | .itemName => { row with itemName := s }
  | .values => { row with values := s }
  | .verdict => { row with verdict := s }
  | .unit => { row with unit := s }

end FindingColumn

namespace ReportTable

/-- The table with every row of a number changed. -/
def update (t : ReportTable) (number : String) (change : ReportRow → ReportRow) : ReportTable :=
  { t with rows := t.rows.map fun row => if row.number == number then change row else row }

/-- The table with a text in a column of the report with a number; `referenced` says which ids have
findings. -/
def edit (t : ReportTable) (referenced : Int → Bool) (number : String) (column : ReportColumn)
    (s : String) : Except StoreError ReportTable :=
  match t.find? number with
  | none => .ok t
  | some target =>
    match column with
    | .number =>
      if s != number && t.rows.any fun row => row.number == s then
        .error (.duplicate .reports "report_no")
      else .ok (t.update number (ReportColumn.number.set s))
    | .id =>
      match NumberCell.ofText s with
      | .whole n =>
        if n = target.id then .ok t
        else if t.rows.any fun row => row.id == n then .error (.duplicate .reports "id")
        else if referenced target.id then .error .danglingReference
        else .ok (t.update number fun row => { row with id := n })
      | _ => .error (.badCell "id")
    | column => .ok (t.update number (column.set s))

end ReportTable

namespace FindingTable

/-- The table with every finding of a report changed. -/
def update (t : FindingTable) (reportId : Int) (change : FindingRow → FindingRow) : FindingTable :=
  { t with rows := t.rows.map fun row => if row.reportId == reportId then change row else row }

/-- The table with a text in a column of a report's findings; `reports` says which ids reports
have. -/
def edit (t : FindingTable) (reports : Int → Bool) (reportId : Int) (column : FindingColumn)
    (s : String) : Except StoreError FindingTable :=
  match t.rowsOf reportId with
  | [] => .ok t
  | first :: others =>
    match column with
    | .id =>
      match NumberCell.ofText s with
      | .whole n =>
        if !others.isEmpty || (n != first.id && t.rows.any fun row => row.id == n) then
          .error (.duplicate .findings "id")
        else .ok (t.update reportId fun row => { row with id := n })
      | _ => .error (.badCell "id")
    | .reportId =>
      match NumberCell.ofText s with
      | .whole n =>
        if reports n then .ok (t.update reportId fun row => { row with reportId := n })
        else .error .danglingReference
      | _ => .error .danglingReference
    | column => .ok (t.update reportId (column.set s))

end FindingTable

end MaterialInspection
