import RecordQuery.Binary64.Literal
import RecordQuery.Calendar.Reading
import RecordQuery.Error

/-!
Literals: request text read as a value of a kind. Blanks around it do not count, except in a text, which is
taken as it stands.
-/

namespace RecordQuery

def int64OfChars? (cs : List Char) : Option Int64 := do
  let n ← Text.readInt? cs
  if Int64.minValue.toInt ≤ n ∧ n ≤ Int64.maxValue.toInt then some (Int64.ofInt n) else none

def finiteOfChars? (cs : List Char) : Option Binary64 := (Binary64.ofLiteral? cs).filter (·.isFinite)

def boolOfChars? (cs : List Char) : Option Bool :=
  let word := cs.map Char.toLower
  if word = "true".toList then some true else if word = "false".toList then some false else none

namespace Kind

def carrierOf? (kind : Kind) (literal : String) : Option kind.Carrier :=
  let cs := Text.trimChars literal.toList
  match kind with
  | .integer => int64OfChars? cs
  | .float => finiteOfChars? cs
  | .text => some literal
  | .dateTime => DateTime.ofChars? cs
  | .boolean => boolOfChars? cs

def coerce (kind : Kind) (literal : String) : Except Error Value :=
  match kind.carrierOf? literal with
  | some content => .ok (Value.ofCarrier kind content)
  | none => .error (.badLiteral literal kind)

theorem kind?_of_coerce {kind : Kind} {literal : String} {v : Value} (h : kind.coerce literal = .ok v) :
    v.kind? = some kind := by
  unfold coerce at h
  split at h
  · injection h with h
    rw [← h, Value.kind?_ofCarrier]
  · simp at h

end RecordQuery.Kind
