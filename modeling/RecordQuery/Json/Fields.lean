import RecordQuery.Json.Basic

/-!
Field-wise reading of JSON values. A record is written as an object, each field under one of its names and
at most once, or as an array, field by field from the front.
-/

namespace RecordQuery.Json

/-- The member of a field that goes by any of the names: a missing one is allowed, a repeated one is not. -/
def member? (names : List String) (members : List (StringContent × Json)) : Option (Option Json) :=
  match members.filter fun m => m.1.any names.contains with
  | [] => some none
  | [m] => some (some m.2)
  | _ => none

/-- The values of the fields whose names are given, each of which may be missing. Members of other names
do not matter, but every name must be text, and an array must not be longer than the fields. -/
def fields? (names : List (List String)) : Json → Option (List (Option Json))
  | .object members =>
    if members.all (·.1.isSome) then names.mapM fun ns => member? ns members else none
  | .array items =>
    if items.length ≤ names.length then
      some (items.map some ++ List.replicate (names.length - items.length) none)
    else none
  | _ => none

def text? : Json → Option String
  | .string content => content
  | _ => none

def int? : Json → Option Int
  | .number n => n.toInt?
  | _ => none

def int64? (j : Json) : Option Int64 := do
  let n ← j.int?
  if Int64.minValue.toInt ≤ n ∧ n ≤ Int64.maxValue.toInt then some (Int64.ofInt n) else none

def list? {α : Type} (item? : Json → Option α) : Json → Option (List α)
  | .array items => items.mapM item?
  | _ => none

def nullable? {α : Type} (read? : Json → Option α) : Json → Option (Option α)
  | .null => some none
  | j => some <$> read? j

def required? {α : Type} (read? : Json → Option α) (field : Option Json) : Option α := field.bind read?

def defaulted? {α : Type} (default : α) (read? : Json → Option α) : Option Json → Option α
  | none => some default
  | some j => read? j

end RecordQuery.Json
