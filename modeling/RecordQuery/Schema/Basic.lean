import RecordQuery.Record
import RecordQuery.Text.Ascii

/-!
Schemas: the field tables of a record type and of the record types nested in it. The tables are numbered,
the record type itself has number 0, and a nested field names the number of its table, so that a type may
lead back to itself.
-/

namespace RecordQuery

inductive FieldShape where
  | value (kind : Kind) (read : Record → Option kind.Carrier)
  | nested (node : Nat) (child : Record → Option Record)

structure SchemaField where
  name : String
  shape : FieldShape

def SchemaField.kind? (f : SchemaField) : Option Kind :=
  match f.shape with
  | .value kind _ => some kind
  | .nested _ _ => none

structure SchemaNode where
  typeName : String
  fields : List SchemaField

/-- The field of a name: the first one spelled exactly so, or else the first that differs only in case. -/
def SchemaNode.field? (n : SchemaNode) (name : String) : Option SchemaField :=
  n.fields.find? (fun f => f.name = name) <|> n.fields.find? (fun f => Text.sameLetters f.name name)

structure Schema where
  name : String
  root : SchemaNode
  others : List SchemaNode

namespace Schema

def nodes (s : Schema) : List SchemaNode := s.root :: s.others

/-- The table of a number; a number without one has no fields. -/
def node (s : Schema) (id : Nat) : SchemaNode := s.nodes.getD id ⟨"", []⟩

theorem node_zero (s : Schema) : s.node 0 = s.root := rfl

end RecordQuery.Schema
