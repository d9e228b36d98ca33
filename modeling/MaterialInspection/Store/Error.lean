/-!
# Errors of the store

Why an operation on the store is refused, by its cause, with the text that reports it.
-/

set_option autoImplicit false

namespace MaterialInspection

/-- The tables of the store. -/
inductive Table
  | version
  | items
  | reports
  | findings
  | settings
  deriving DecidableEq, Repr

namespace Table

/-- The name of a table. -/
def name : Table → String
  | .version => "schema_version"
  | .items => "inspection_item"
  | .reports => "inspection_report"
  | .findings => "inspection_report_detail"
  | .settings => "config_kv"

def all : List Table := [version, items, reports, findings, settings]

/-- The table with a name, whatever the case of its ASCII letters. -/
def ofName? (s : String) : Option Table :=
  all.find? fun t => t.name.toList == s.toList.map Char.toLower

end Table

/-- Why an operation on the store is refused. -/
inductive StoreError
  | unknownItem (id : Int)
  | missingTable (table : Table)
  | unknownColumn (name : String)
  /-- A cell that does not hold what its column is for, or may not be left without a value. -/
  | badCell (column : String)
  | duplicate (table : Table) (column : String)
  | danglingReference
  /-- A report number that does not have ten bytes or does not start with its stem. -/
  | refusedNumber (number stem : String)
  | badDate (column : String)
  /-- A table whose last id is the greatest there is. -/
  | idsUsedUp (table : Table)
  /-- A pattern that is too long to be searched for. -/
  | longPattern
  deriving DecidableEq, Repr

namespace StoreError

/-- The name of the column that a duplicate value stands in. -/
def duplicateText (table : Table) (column : String) : String :=
  "UNIQUE constraint failed: " ++ table.name ++ "." ++ column

/-- What is wrong with a refused report number. -/
def refusalText (number stem : String) : String :=
  "报告编号 " ++ number ++ " 不符合 " ++ stem ++ " 前缀的 10 位格式（当月流水号可能已用尽）"

/-- The text of an error, as the keeper of the store reports it. -/
def message : StoreError → String
  | .unknownItem id => "记录未找到: InspectionItem with id=" ++ toString id
  | .missingTable _ => "数据库查询失败: "
  | .unknownColumn _ => "数据库查询失败: "
  | .badCell _ => "数据库查询失败: "
  | .duplicate table column => "唯一约束违反: " ++ duplicateText table column
  | .danglingReference => "外键约束违反: FOREIGN KEY constraint failed"
  | .refusedNumber number stem => "业务规则违反: " ++ refusalText number stem
  | .badDate column => "字段值错误 (field=" ++ column ++ "): "
  | .idsUsedUp _ => "数据库查询失败: "
  | .longPattern => "数据库查询失败: "

end StoreError

end MaterialInspection
