import RecordQuery.Binary64.Basic
import RecordQuery.Calendar.DateTime
import RecordQuery.Json.Fields

/-!
Kinds of values. Every field of a record has one, and only values of the same kind, or both numeric,
can be compared.
-/

namespace RecordQuery

inductive Kind where
  | integer
  | float
  | text
  | dateTime
  | boolean
  deriving DecidableEq, Inhabited

namespace Kind

def all : List Kind := [.integer, .float, .text, .dateTime, .boolean]

def name : Kind → String
  | .integer => "Integer"
  | .float => "Float"
  | .text => "String"
  | .dateTime => "DateTime"
  | .boolean => "Boolean"

def ofName? (s : String) : Option Kind := all.find? fun k => k.name == s

def isNumeric (k : Kind) : Bool := k = .integer || k = .float

def comparableWith (a b : Kind) : Bool := a = b || (a.isNumeric && b.isNumeric)

abbrev Carrier : Kind → Type
  | .integer => Int64
  | .float => Binary64
  | .text => String
  | .dateTime => DateTime
  | .boolean => Bool

def toJson (k : Kind) : Json := .text k.name

/-- A kind may also be written as an object whose only member has the name and no content. -/
def ofJson? : Json → Option Kind
  | .string content => content.bind ofName?
  | .object [(name, .null)] => name.bind ofName?
  | _ => none

end RecordQuery.Kind
