import MaterialInspection.Settings.Stored
import MaterialInspection.Store.Catalog
import MaterialInspection.Store.Edit

/-!
# The store

The store holds the item catalog, the reports with their findings, and the settings, each in a table
that may be missing.  `Store.prepare` makes the tables that are.  An operation on a missing table is
refused.

A report is written in one transaction (`Store.insertReport`): the number is worked out from the
greatest one so far, checked, and written with the report and its findings, statement by statement
(`Store.writeReport`); if any statement is refused, those before it are undone.

Principal statements: `transact_error` and `transact_ok`, which say what a transaction leaves behind.
-/

set_option autoImplicit false

namespace MaterialInspection

/-- A setting of a scope. -/
structure SettingRow where
  scope : String
  key : String
  value : String
  deriving DecidableEq, Repr

/-- The scope of the settings that hold everywhere. -/
def globalScope : String := "global"

/-- The tables; one that is none is missing. -/
structure Store where
  version : Option Nat
  items : Option Catalog
  reports : Option ReportTable
  findings : Option FindingTable
  settings : Option (List SettingRow)
  deriving DecidableEq

namespace Store

/-- The store before its tables are made. -/
def blank : Store := ⟨none, none, none, none, none⟩

/-- The version of the tables. -/
def currentVersion : Nat := 1

/-- The store with every missing table made. -/
def prepare (s : Store) : Store where
  version := some (s.version.getD currentVersion)
  items := some (s.items.getD Numbered.empty)
  reports := some (s.reports.getD Numbered.empty)
  findings := some (s.findings.getD Numbered.empty)
  settings := some (s.settings.getD [])

/-- A table, or its absence as an error. -/
def table {α : Type} (content : Option α) (name : Table) : Except StoreError α :=
  match content with
  | some a => .ok a
  | none => .error (.missingTable name)

/-- The store without a table.  Findings do not outlive their reports. -/
def drop (s : Store) (t : Table) : Except StoreError Store :=
  match t with
  | .version => (table s.version t).map fun _ => { s with version := none }
  | .items => (table s.items t).map fun _ => { s with items := none }
  | .reports =>
    (table s.reports t).map fun _ =>
      { s with reports := none, findings := s.findings.map fun f => { f with rows := [] } }
  | .findings => (table s.findings t).map fun _ => { s with findings := none }
  | .settings => (table s.settings t).map fun _ => { s with settings := none }

/-- One statement: it answers with the store after it, or is refused and writes nothing. -/
def statement {α : Type} (body : Store → Except StoreError (α × Store)) (s : Store) :
    Except StoreError α × Store :=
  match body s with
  | .ok (a, after) => (.ok a, after)
  | .error e => (.error e, s)

/-- Statements one after another, of which all count or none: what was written before a refused one
is undone. -/
def transact {α : Type} (body : Store → Except StoreError α × Store) (s : Store) :
    Except StoreError α × Store :=
  match body s with
  | (.ok a, after) => (.ok a, after)
  | (.error e, _) => (.error e, s)

/-- A refused transaction leaves the store as it was. -/
theorem transact_error {α : Type} {body : Store → Except StoreError α × Store} {s : Store}
    {e : StoreError} (h : (transact body s).1 = .error e) : (transact body s).2 = s := by
  unfold transact at h ⊢
  split at h
  · cases h
  · rfl

/-- A transaction that succeeds leaves what its statements wrote. -/
theorem transact_ok {α : Type} {body : Store → Except StoreError α × Store} {s : Store} {a : α}
    (h : (transact body s).1 = .ok a) : body s = (.ok a, (transact body s).2) := by
  unfold transact at h ⊢
  split at h
  · rename_i he
    cases h
    exact he
  · cases h

/-! ## Items -/

/-- An item added or replaced; answers with its id. -/
def putItem (item : Item) : Store → Except StoreError Int × Store :=
  statement fun s =>
    match table s.items .items with
    | .error e => .error e
    | .ok catalog =>
      match catalog.put item with
      | .error e => .error e
      | .ok (id, catalog) => .ok (id, { s with items := some catalog })

/-- The item with an id. -/
def findItem (s : Store) (id : Int) : Except StoreError (Option Item) :=
  (table s.items .items).map fun catalog => catalog.find? id

/-- The active items. -/
def activeItems (s : Store) : Except StoreError (List Item) :=
  (table s.items .items).map Catalog.active

/-- The active items selected for a category. -/
def itemsFor (s : Store) (category : String) (strict : Bool) : Except StoreError (List Item) :=
  (table s.items .items).map fun catalog => catalog.activeFor category strict

/-- An item made inactive. -/
def deactivate (id : Int) : Store → Except StoreError Unit × Store :=
  statement fun s =>
    match table s.items .items with
    | .error e => .error e
    | .ok catalog =>
      match catalog.deactivate? id with
      | none => .error (.unknownItem id)
      | some catalog => .ok ((), { s with items := some catalog })

/-! ## Settings -/

/-- The text of a setting in a scope. -/
def lookupSetting (rows : List SettingRow) (scope key : String) : Option String :=
  (rows.find? fun row => row.scope == scope && row.key == key).map (·.value)

/-- Settings with one of them set. -/
def putSetting (rows : List SettingRow) (row : SettingRow) : List SettingRow :=
  if rows.any fun r => r.scope == row.scope && r.key == row.key then
    rows.map fun r => if r.scope == row.scope && r.key == row.key then row else r
  else rows ++ [row]

/-- The text of a global setting. -/
def getSetting (s : Store) (key : String) : Except StoreError (Option String) :=
  (table s.settings .settings).map fun rows => lookupSetting rows globalScope key

/-- A global setting set. -/
def setSetting (key value : String) : Store → Except StoreError Unit × Store :=
  statement fun s =>
    match table s.settings .settings with
    | .error e => .error e
    | .ok rows => .ok ((), { s with settings := some (putSetting rows ⟨globalScope, key, value⟩) })

/-- The global settings with their texts. -/
def globalSettings (s : Store) : Except StoreError (List (String × String)) :=
  (table s.settings .settings).map fun rows =>
    (rows.filter fun row => row.scope == globalScope).map fun row => (row.key, row.value)

/-- The settings of inspections. -/
def loadSettings (s : Store) : Except StoreError Settings :=
  (table s.settings .settings).map fun rows =>
    Settings.load fun key => lookupSetting rows globalScope key.name

/-! ## Reports -/

/-- The greatest number of ten characters that starts with the form of a pattern. -/
def greatestNumber (s : Store) (pattern : String) : Except StoreError (Option String) :=
  match table s.reports .reports with
  | .error e => .error e
  | .ok reports => reports.greatestLike pattern

/-- The numbers that start with the form of a pattern, in order. -/
def numbersLike (s : Store) (pattern : String) : Except StoreError (List String) :=
  match table s.reports .reports with
  | .error e => .error e
  | .ok reports => reports.numbersLike pattern

/-- Whether a number may be given out under a stem: ten bytes, the stem first. -/
def acceptable (stem number : String) : Bool :=
  number.utf8ByteSize == ReportNumber.length && stem.toList.isPrefixOf number.toList

/-- The statements that write a report, one after another: the greatest number is looked up, and the
report and each of its findings are added.  A refused statement leaves what was written before it. -/
def writeReport (stem : String) (r : Report) (allocate : Option String → String) (s : Store) :
    Except StoreError String × Store :=
  match s.greatestNumber stem with
  | .error e => (.error e, s)
  | .ok greatest =>
    let number := allocate greatest
    if acceptable stem number then
      match table s.reports .reports with
      | .error e => (.error e, s)
      | .ok reports =>
        match reports.insert number r with
        | .error e => (.error e, s)
        | .ok (id, reports) =>
          let s := { s with reports := some reports }
          match table s.findings .findings with
          | .error e => (.error e, s)
          | .ok findings =>
            let (outcome, findings) := findings.insertAll id r.findings
            (outcome.map fun _ => number, { s with findings := some findings })
    else (.error (.refusedNumber number stem), s)

/-- A report written under a number of its own; answers with the number. -/
def insertReport (stem : String) (r : Report) (allocate : Option String → String) :
    Store → Except StoreError String × Store :=
  transact (writeReport stem r allocate)

/-- The report with a number. -/
def findReport (s : Store) (number : String) : Except StoreError (Option Report) :=
  match table s.reports .reports with
  | .error e => .error e
  | .ok reports =>
    match reports.find? number with
    | none => .ok none
    | some row =>
      match row.numbers? with
      | .error e => .error e
      | .ok numbers =>
        match table s.findings .findings with
        | .error e => .error e
        | .ok findings =>
          match FindingRow.findings? (findings.rowsOf row.id) with
          | .error e => .error e
          | .ok findings => (row.report? numbers findings).map some

/-- One column of a report set to a text; answers with the number of rows changed. -/
def editReport (number column text : String) : Store → Except StoreError Nat × Store :=
  statement fun s =>
    match table s.reports .reports with
    | .error e => .error e
    | .ok reports =>
      match ReportColumn.ofName? column with
      | none => .error (.unknownColumn column)
      | some column =>
        let referenced (id : Int) : Bool :=
          s.findings.any fun findings => findings.rows.any fun row => row.reportId == id
        match reports.edit referenced number column text with
        | .error e => .error e
        | .ok edited =>
          .ok ((reports.rows.filter fun row => row.number == number).length,
            { s with reports := some edited })

/-- One column of a report's findings set to a text; answers with the number of rows changed. -/
def editFindings (number column text : String) : Store → Except StoreError Nat × Store :=
  statement fun s =>
    match table s.findings .findings with
    | .error e => .error e
    | .ok findings =>
      match table s.reports .reports with
      | .error e => .error e
      | .ok reports =>
        match FindingColumn.ofName? column with
        | none => .error (.unknownColumn column)
        | some column =>
          match reports.find? number with
          | none => .ok (0, s)
          | some row =>
            let known (id : Int) : Bool := reports.rows.any fun row => row.id == id
            match findings.edit known row.id column text with
            | .error e => .error e
            | .ok edited =>
              .ok ((findings.rowsOf row.id).length, { s with findings := some edited })

end Store

end MaterialInspection
