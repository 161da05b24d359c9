import RecordQuery.Schema.Basic

/-!
Building schemas. Every accessor is guarded by the record type it was given for and finds nothing in a
record of another type. The tables of a nested schema are appended and their numbers shifted past those
already there.
-/

namespace RecordQuery

def lastSegmentReversed : List Char → List Char
  | ':' :: ':' :: _ => []
  | c :: cs => c :: lastSegmentReversed cs
  | [] => []

def shortTypeName (full : String) : String :=
  String.ofList (lastSegmentReversed (full.toList.takeWhile (· ≠ '<')).reverse).reverse

/-- An accessor that finds nothing in a record of another type. -/
def guarded {α : Type} (typeName : String) (read : Record → Option α) (r : Record) : Option α :=
  if r.typeName = typeName then read r else none

def FieldShape.shift (offset : Nat) : FieldShape → FieldShape
  | .value kind read => .value kind read
  | .nested node child => .nested (node + offset) child

def SchemaField.shift (offset : Nat) (f : SchemaField) : SchemaField := ⟨f.name, f.shape.shift offset⟩

def SchemaNode.shift (offset : Nat) (n : SchemaNode) : SchemaNode := ⟨n.typeName, n.fields.map (·.shift offset)⟩

def SchemaNode.push (n : SchemaNode) (f : SchemaField) : SchemaNode := ⟨n.typeName, n.fields ++ [f]⟩

structure SchemaBuilder where
  recordType : String
  schema : Schema

namespace SchemaBuilder

def new (recordType : String) : SchemaBuilder :=
  ⟨recordType, shortTypeName recordType, ⟨shortTypeName recordType, []⟩, []⟩

def named (b : SchemaBuilder) (name : String) : SchemaBuilder := { b with schema := { b.schema with name } }

def push (b : SchemaBuilder) (name : String) (shape : FieldShape) : SchemaBuilder :=
  { b with schema := { b.schema with root := b.schema.root.push ⟨name, shape⟩ } }

def fieldOpt (b : SchemaBuilder) (name : String) (type : FieldType) (read : Record → Option type.Carrier) :
    SchemaBuilder :=
  b.push name (.value type.kind (guarded b.recordType fun r => (read r).map type.widen))

def field (b : SchemaBuilder) (name : String) (type : FieldType) (read : Record → type.Carrier) : SchemaBuilder :=
  b.fieldOpt name type fun r => some (read r)

def nestedOpt (b : SchemaBuilder) (name : String) (schema : Schema) (child : Record → Option Record) :
    SchemaBuilder :=
  let offset := b.schema.nodes.length
  let merged := { b.schema with others := b.schema.others ++ schema.nodes.map (·.shift offset) }
  SchemaBuilder.push ⟨b.recordType, merged⟩ name (.nested offset (guarded b.recordType child))

def nested (b : SchemaBuilder) (name : String) (schema : Schema) (child : Record → Record) : SchemaBuilder :=
  b.nestedOpt name schema fun r => some (child r)

def recursive (b : SchemaBuilder) (name : String) (child : Record → Option Record) : SchemaBuilder :=
  b.push name (.nested 0 (guarded b.recordType child))

def build (b : SchemaBuilder) : Schema := b.schema

/-- The builders that a sequence of calls can make, nested schemas being so made themselves. -/
inductive Made : SchemaBuilder → Prop
  | new (recordType : String) : Made (new recordType)
  | named {b : SchemaBuilder} (name : String) : Made b → Made (b.named name)
  | field {b : SchemaBuilder} (name : String) (type : FieldType) (read : Record → type.Carrier) :
      Made b → Made (b.field name type read)
  | fieldOpt {b : SchemaBuilder} (name : String) (type : FieldType) (read : Record → Option type.Carrier) :
      Made b → Made (b.fieldOpt name type read)
  | nested {b c : SchemaBuilder} (name : String) (child : Record → Record) :
      Made b → Made c → Made (b.nested name c.build child)
  | nestedOpt {b c : SchemaBuilder} (name : String) (child : Record → Option Record) :
      Made b → Made c → Made (b.nestedOpt name c.build child)
  | recursive {b : SchemaBuilder} (name : String) (child : Record → Option Record) :
      Made b → Made (b.recursive name child)

end RecordQuery.SchemaBuilder
