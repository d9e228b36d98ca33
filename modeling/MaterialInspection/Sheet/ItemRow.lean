import MaterialInspection.Item
import MaterialInspection.Json.Value
import MaterialInspection.Number.Numeral
import MaterialInspection.Sheet
import MaterialInspection.Text.Lowercase

/-!
# Catalog rows

A row of a catalog file gives an inspection item.  Each part of the item has a column, under one of
several names; an empty cell counts as missing, and the next name is tried.  Only the name is
required.  The order has to be a whole number, which spreadsheets may write with a fraction of
zeros; the status has to be one of the known words; and the rule has to be a JSON object.

The first of these demands that a row misses is its error, in the order name, order, status, rule.

Principal statement: `ofRow_eq_ok_iff`, the demands on a row and what its item is made of.
-/

set_option autoImplicit false

namespace MaterialInspection

/-- Why a row gives no item. -/
inductive RowError
  | noName (row : Nat)
  | badOrder (row : Nat) (cell : String)
  | badStatus (row : Nat) (cell : String)
  | badRule (row : Nat)
  | ruleNotObject (row : Nat) (cell : String)
  deriving DecidableEq, Repr

namespace RowError

/-- The text of a row error. -/
def message : RowError → String
  | .noName row => "必填字段缺失 (行 " ++ toString row ++ "): 检验项目"
  | .badOrder row cell =>
    "类型转换失败 (行 " ++ toString row ++ ", 字段 排序): 无法解析为整数: " ++ cell
  | .badStatus row cell =>
    "类型转换失败 (行 " ++ toString row ++ ", 字段 状态): 无法识别的状态: " ++ cell
  | .badRule row => "生成规则无效 (行 " ++ toString row ++ "): "
  | .ruleNotObject row cell =>
    "生成规则无效 (行 " ++ toString row ++ "): 不是 JSON 对象: " ++ cell

end RowError

namespace Item

def nameColumns : List String := ["检验项目", "项目名称", "项目"]

def standardColumns : List String := ["检验标准", "标准"]

def criteriaColumns : List String := ["验收标准", "判定标准", "验收准则"]

def ruleColumns : List String := ["生成规则", "规则"]

def unitColumns : List String := ["单位"]

def categoryColumns : List String := ["物料类别", "适用类别", "类别"]

def orderColumns : List String := ["排序", "排序号", "序号"]

def statusColumns : List String := ["状态", "启用"]

/-- The first cell under one of these names that is not blank. -/
def cell? (row : Row) (columns : List String) : Option String :=
  (columns.filterMap fun column => (row.field? column).map Text.trim).find? fun s => !s.isEmpty

/-- A whole number in the 32-bit range, or a number without a fraction that is no larger than the
largest of them in either direction. -/
def readOrder? (cs : List Char) : Option Int :=
  match readInt32? cs with
  | some n => some n
  | none =>
    match readDouble? cs with
    | some x => if x.isWhole && x.abs.le (.ofInt maxInt32) then x.wholePart? else none
    | none => none

/-- Whether a status is one of the words for active or for inactive items. -/
def readStatus? (s : String) : Option Bool :=
  let word := Text.lower s
  if ["启用", "有效", "是", "1", "true", "y"].contains word then some true
  else if ["停用", "禁用", "无效", "否", "0", "false", "n"].contains word then some false
  else none

/-- The order of a row's item; zero if the row has none. -/
def orderOf (row : Row) : Except RowError Int :=
  match cell? row orderColumns with
  | none => .ok 0
  | some s =>
    match readOrder? s.toList with
    | some n => .ok n
    | none => .error (.badOrder row.number s)

/-- Whether a row's item is active; it is if the row does not say. -/
def statusOf (row : Row) : Except RowError Bool :=
  match cell? row statusColumns with
  | none => .ok true
  | some s =>
    match readStatus? s with
    | some active => .ok active
    | none => .error (.badStatus row.number s)

/-- The rule of a row's item. -/
def ruleOf (row : Row) : Except RowError (Option String) :=
  match cell? row ruleColumns with
  | none => .ok none
  | some s =>
    match Json.Value.parse? s with
    | none => .error (.badRule row.number)
    | some v => if v.isObject then .ok (some s) else .error (.ruleNotObject row.number s)

/-- The item of a row. -/
def ofRow (row : Row) : Except RowError Item :=
  match cell? row nameColumns with
  | none => .error (.noName row.number)
  | some name =>
    match orderOf row with
    | .error e => .error e
    | .ok order =>
      match statusOf row with
      | .error e => .error e
      | .ok active =>
        match ruleOf row with
        | .error e => .error e
        | .ok rule =>
          .ok {
            name, order, active, rule
            standard := (cell? row standardColumns).getD ""
            criteria := (cell? row criteriaColumns).getD ""
            unit := (cell? row unitColumns).getD ""
            category := (cell? row categoryColumns).getD "" }

/-- A row gives an item when it has a name and its order, status and rule can be read, and the item is
made of these and the cells that every row may have. -/
theorem ofRow_eq_ok_iff {row : Row} {item : Item} : ofRow row = .ok item ↔
    ∃ name order active rule, cell? row nameColumns = some name ∧ orderOf row = .ok order ∧
      statusOf row = .ok active ∧ ruleOf row = .ok rule ∧
      item = {
        name, order, active, rule
        standard := (cell? row standardColumns).getD ""
        criteria := (cell? row criteriaColumns).getD ""
        unit := (cell? row unitColumns).getD ""
        category := (cell? row categoryColumns).getD "" } := by
  constructor
  · intro h
    unfold ofRow at h
    split at h
    · cases h
    · split at h
      · cases h
      · split at h
        · cases h
        · split at h
          · cases h
          · cases h
            exact ⟨_, _, _, _, ‹_›, ‹_›, ‹_›, ‹_›, rfl⟩
  · rintro ⟨name, order, active, rule, hname, horder, hstatus, hrule, rfl⟩
    unfold ofRow
    rw [hname, horder, hstatus, hrule]

end Item

end MaterialInspection
