import RecordQuery.Value.FieldType

/-!
Records: cells in the order of their fields, tagged with the full name of the record's type. A cell holds
a value of a field type, another record or nothing.
-/

namespace RecordQuery

inductive Cell where
  | absent
  | value (type : FieldType) (content : type.Carrier)
  | record (typeName : String) (cells : List Cell)
  deriving Inhabited

structure Record where
  typeName : String
  cells : List Cell
  deriving Inhabited

namespace Record

def value? (index : Nat) (type : FieldType) (r : Record) : Option type.Carrier :=
  match r.cells[index]? with
  | some (.value t content) => if h : t = type then some (h ▸ content) else none
  | _ => none

def child? (index : Nat) (r : Record) : Option Record :=
  match r.cells[index]? with
  | some (.record typeName cells) => some ⟨typeName, cells⟩
  | _ => none

end RecordQuery.Record
