import RecordQuery.Value.Display
import RecordQuery.Json.Token

/-!
Tables: named columns and rows of values, and their JSON form.
-/

namespace RecordQuery

structure Column where
  name : String
  selector : String
  deriving DecidableEq, Inhabited

abbrev Row := List Value

structure Table where
  columns : List Column
  rows : List Row
  deriving DecidableEq

namespace Table

def columnNames (t : Table) : List String := t.columns.map (·.name)

def columnIndex? (t : Table) (name : String) : Option Nat := t.columns.findIdx? fun c => c.name = name

/-- The values of the first column of a name, top to bottom; a row too short for it has none. -/
def columnValues? (t : Table) (name : String) : Option (List Value) :=
  (t.columnIndex? name).map fun i => t.rows.filterMap (·[i]?)

end Table

/-- Numbers, truth values and texts are their own JSON; a date-time is a string, and what JSON has no number
for is null. -/
def Value.toJson : Value → Json
  | .integer n => .int n.toInt
  | .float x => if x.isFinite then .number (x.numeral .json) else .null
  | .boolean b => .bool b
  | .dateTime t => .text t.text
  | .text s => .text s
  | .null => .null

def Column.toJson (c : Column) : Json := .record [("name", .text c.name), ("selector", .text c.selector)]

def Table.toJson (t : Table) : Json :=
  .record [("columns", .array (t.columns.map (·.toJson))),
    ("rows", .array (t.rows.map fun row => .array (row.map (·.toJson))))]

end RecordQuery
