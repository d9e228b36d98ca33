import MaterialInspection.Sheet

/-!
# Comma-separated texts

Records end with a line feed, a carriage return or both; cells are separated by commas, and a cell
that starts with a quotation mark runs to the closing one, two marks inside standing for one.  What
follows a closing mark belongs to the cell as it stands, and so does a mark in a cell that does not
start with one.  Empty lines are no records, and a quoted cell that is never closed ends with the
text.

The reader works on bytes, so that each cell is decoded by itself, and takes one step per byte.
-/

set_option autoImplicit false

namespace MaterialInspection.Sheet

namespace Separated

def quote : UInt8 := 34

def comma : UInt8 := 44

/-- The bytes that end a record. -/
def isLineEnd (b : UInt8) : Bool := b == 10 || b == 13

/-- Where in a record the reader is. -/
inductive Place
  /-- Before a record. -/
  | outside
  /-- Before a cell. -/
  | cellStart
  /-- In a cell without a quotation mark before it, or after a closing one. -/
  | plain
  /-- Between quotation marks. -/
  | quoted
  /-- After a quotation mark between marks. -/
  | closing
  deriving DecidableEq, Repr

/-- The reader's place, the bytes of the cell so far and the cells of the record so far, both with
the last one first. -/
structure State where
  place : Place
  cell : List UInt8
  cells : List (List UInt8)

/-- Before a record. -/
def State.start : State := ⟨.outside, [], []⟩

/-- The state with one more byte in the cell. -/
def State.add (s : State) (place : Place) (b : UInt8) : State := ⟨place, b :: s.cell, s.cells⟩

/-- The state after the cell has ended. -/
def State.endCell (s : State) : State := ⟨.cellStart, [], s.cell.reverse :: s.cells⟩

/-- The record after its last cell has ended. -/
def State.record (s : State) : List (List UInt8) := (s.cell.reverse :: s.cells).reverse

/-- A byte where a cell may end: the next state, and the record if it has ended. -/
def State.atCellEnd (s : State) (b : UInt8) : State × Option (List (List UInt8)) :=
  if b == comma then (s.endCell, none)
  else if isLineEnd b then (.start, some s.record)
  else (s.add .plain b, none)

/-- One byte: the next state, and the record that has ended with it. -/
def State.step (s : State) (b : UInt8) : State × Option (List (List UInt8)) :=
  match s.place with
  | .outside =>
    if isLineEnd b then (.start, none)
    else if b == quote then (⟨.quoted, [], []⟩, none)
    else s.atCellEnd b
  | .cellStart => if b == quote then (⟨.quoted, s.cell, s.cells⟩, none) else s.atCellEnd b
  | .plain => s.atCellEnd b
  | .quoted => if b == quote then (⟨.closing, s.cell, s.cells⟩, none) else (s.add .quoted b, none)
  | .closing => if b == quote then (s.add .quoted b, none) else s.atCellEnd b

/-- The records of the remaining bytes. -/
def recordsFrom (s : State) : List UInt8 → List (List (List UInt8))
  | [] => if s.place = .outside then [] else [s.record]
  | b :: rest =>
    match s.step b with
    | (next, some record) => record :: recordsFrom next rest
    | (next, none) => recordsFrom next rest

/-- The bytes after a byte order mark at the start. -/
def withoutMark : List UInt8 → List UInt8
  | 0xEF :: 0xBB :: 0xBF :: rest => rest
  | bytes => bytes

/-- The records of a file. -/
def records (bytes : List UInt8) : List (List (List UInt8)) :=
  recordsFrom .start (withoutMark bytes)

/-- The text of a cell, if its bytes are one. -/
def text? (cell : List UInt8) : Option String := String.fromUTF8? ⟨cell.toArray⟩

end Separated

/-- The rows of a file of comma-separated texts; none if a cell is not UTF-8. -/
def ofSeparated? (bytes : List UInt8) : Option (List Row) :=
  match (Separated.records bytes).mapM fun record => record.mapM Separated.text? with
  | none => none
  | some [] => some []
  | some (header :: records) => some (rows header records)

end MaterialInspection.Sheet
