import RecordQuery.Schema.Basic
import RecordQuery.Text.Segments
import RecordQuery.Error

/-!
Selectors: dotted paths resolved against a schema. Every segment but the last steps into a nested record,
the last names a value; reading an element takes the steps and then the value, and a missing record on
the way makes it null.
-/

namespace RecordQuery

structure Selector where
  path : String
  steps : List (Record → Option Record)
  kind : Kind
  readLast : Record → Option kind.Carrier

namespace Selector

def depth (s : Selector) : Nat := s.steps.length

def content? (s : Selector) (element : Record) : Option s.kind.Carrier :=
  (s.steps.foldlM (fun (r : Record) (step : Record → Option Record) => step r) element).bind s.readLast

def read (s : Selector) (element : Record) : Value := Value.ofOption s.kind (s.content? element)

def prepend (step : Record → Option Record) (s : Selector) : Selector := { s with steps := step :: s.steps }

end Selector

namespace Schema

def follow (s : Schema) (path : String) (id : Nat) : List String → Except SelectorFault Selector
  | [] => .error .emptySegment
  | segment :: rest =>
    if segment.isEmpty then .error .emptySegment
    else match (s.node id).field? segment with
      | none => .error (.noField segment (s.node id).typeName)
      | some f =>
        match f.shape, rest with
        | .value kind read, [] => .ok ⟨path, [], kind, read⟩
        | .value _ _, _ :: _ => .error (.valueHasNoFields segment)
        | .nested child _, [] => .error (.recordNeedsField segment (s.node child).typeName)
        | .nested child step, _ :: _ => (s.follow path child rest).map (·.prepend step)

def resolve (s : Schema) (path : String) : Except Error Selector :=
  (s.follow path 0 (Text.pieces '.' path)).mapError (.badSelector path)

end Schema

theorem Selector.kind?_read (s : Selector) (element : Record) :
    (s.read element).kind? = none ∨ (s.read element).kind? = some s.kind := by
  unfold Selector.read
  cases s.content? element with
  | none => exact .inl rfl
  | some x => exact .inr (Value.kind?_ofCarrier _ _)

end RecordQuery
