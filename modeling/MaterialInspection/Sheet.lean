import MaterialInspection.Text.Blank

/-!
# Sheets of text cells

A sheet is read as rows under named columns.  Its first record names the columns; a column without a
name is passed over, and of two columns with one name the later counts.  Cells lose the blanks at
their ends, and a row whose cells are all empty is no row.

Rows keep the place of their record, the first one after the header being row 2.
-/

set_option autoImplicit false

namespace MaterialInspection

/-- The cells of a record under the names of their columns. -/
structure Row where
  number : Nat
  fields : List (String × String)
  deriving DecidableEq, Repr

namespace Row

/-- The cell of a column. -/
def field? (row : Row) (column : String) : Option String :=
  (row.fields.find? fun f => f.1 == column).map (·.2)

/-- A field in place of the one with its name, or after the others. -/
def put (fields : List (String × String)) (column cell : String) : List (String × String) :=
  match fields with
  | [] => [(column, cell)]
  | f :: rest => if f.1 == column then (column, cell) :: rest else f :: put rest column cell

/-- The fields of a record's cells, added to those of the cells before. -/
def collect (fields : List (String × String)) : List String → List String → List (String × String)
  | column :: columns, cell :: cells =>
    if column.isEmpty then collect fields columns cells
    else collect (put fields column (Text.trim cell)) columns cells
  | _, _ => fields

/-- The row of a record. -/
def ofCells (columns : List String) (number : Nat) (cells : List String) : Row :=
  ⟨number, collect [] columns cells⟩

/-- Whether all cells are empty. -/
def isEmpty (row : Row) : Bool := row.fields.all fun f => f.2.isEmpty

end Row

namespace Sheet

/-- The name of a column: its cell without byte order marks before it and blanks around it. -/
def columnName (cell : String) : String :=
  String.ofList (Text.trimChars (cell.toList.dropWhile fun c => c == '\ufeff'))

/-- The rows of some records, the first of which has this number. -/
def numbered (columns : List String) (number : Nat) : List (List String) → List Row
  | [] => []
  | cells :: rest => Row.ofCells columns number cells :: numbered columns (number + 1) rest

/-- The rows of a sheet with a header. -/
def rows (header : List String) (records : List (List String)) : List Row :=
  (numbered (header.map columnName) 2 records).filter fun row => !row.isEmpty

end Sheet

end MaterialInspection
