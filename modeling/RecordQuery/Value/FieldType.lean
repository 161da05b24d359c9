import RecordQuery.Value.Basic
import RecordQuery.Binary64.Nearest

/-!
Types of record fields. Each widens to one kind of value without loss: small integers to 64 bits, 32-bit
numbers to 64 bits, a date to its midnight.
-/

namespace RecordQuery

inductive FieldType where
  | int8
  | int16
  | int32
  | int64
  | uint8
  | uint16
  | uint32
  | single
  | double
  | text
  | boolean
  | dateTime
  | utcDateTime
  | date
  deriving DecidableEq, Inhabited

namespace FieldType

def kind : FieldType → Kind
  | .int8 | .int16 | .int32 | .int64 | .uint8 | .uint16 | .uint32 => .integer
  | .single | .double => .float
  | .text => .text
  | .boolean => .boolean
  | .dateTime | .utcDateTime | .date => .dateTime

abbrev Carrier : FieldType → Type
  | .int8 => Int8
  | .int16 => Int16
  | .int32 => Int32
  | .int64 => Int64
  | .uint8 => UInt8
  | .uint16 => UInt16
  | .uint32 => UInt32
  | .single => UInt32
  | .double => Binary64
  | .text => String
  | .boolean => Bool
  | .dateTime | .utcDateTime => DateTime
  | .date => Date

def widen : (t : FieldType) → t.Carrier → t.kind.Carrier
  | .int8, n => n.toInt64
  | .int16, n => n.toInt64
  | .int32, n => n.toInt64
  | .int64, n => n
  | .uint8, n => Int64.ofNat n.toNat
  | .uint16, n => Int64.ofNat n.toNat
  | .uint32, n => Int64.ofNat n.toNat
  | .single, bits => Binary64.ofSingle bits
  | .double, x => x
  | .text, s => s
  | .boolean, b => b
  | .dateTime, t => t
  | .utcDateTime, t => t
  | .date, d => DateTime.atMidnight d

def toValue (t : FieldType) (content : t.Carrier) : Value := Value.ofCarrier t.kind (t.widen content)

end RecordQuery.FieldType
