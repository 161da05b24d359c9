import RecordQuery.Value.Kind

/-!
Cell values: a value of some kind, or null for what is absent.
-/

namespace RecordQuery

inductive Value where
  | integer (n : Int64)
  | float (x : Binary64)
  | boolean (b : Bool)
  | dateTime (t : DateTime)
  | text (s : String)
  | null
  deriving DecidableEq

instance : Inhabited Value := ⟨.null⟩

namespace Value

def kind? : Value → Option Kind
  | .integer _ => some .integer
  | .float _ => some .float
  | .boolean _ => some .boolean
  | .dateTime _ => some .dateTime
  | .text _ => some .text
  | .null => none

def isNull (v : Value) : Bool := v.kind?.isNone

def ofCarrier : (k : Kind) → k.Carrier → Value
  | .integer => .integer
  | .float => .float
  | .text => .text
  | .dateTime => .dateTime
  | .boolean => .boolean

def ofOption (k : Kind) (content : Option k.Carrier) : Value := (content.map (ofCarrier k)).getD .null

theorem kind?_ofCarrier (k : Kind) (x : k.Carrier) : (ofCarrier k x).kind? = some k := by cases k <;> rfl

end RecordQuery.Value
