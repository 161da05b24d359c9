import RecordQuery.Schema.Basic
import RecordQuery.Error

/-!
Registries: named sources in ascending order of their names. What happens when a name is registered again
is the registry's policy.
-/

namespace RecordQuery

structure Source where
  name : String
  schema : Schema
  elements : List Record

inductive DuplicatePolicy where
  | reject
  | replace
  deriving DecidableEq, Inhabited

structure Registry where
  policy : DuplicatePolicy
  sources : List Source

namespace Registry

def empty (policy : DuplicatePolicy) : Registry := ⟨policy, []⟩

def find? (r : Registry) (name : String) : Option Source := r.sources.find? fun s => s.name = name

def contains (r : Registry) (name : String) : Bool := (r.find? name).isSome

def get (r : Registry) (name : String) : Except Error Source :=
  match r.find? name with
  | some s => .ok s
  | none => .error (.unknownSource name)

/-- The sources with one more, which takes the place of the source of its name if there is one. -/
def insertSource (source : Source) : List Source → List Source
  | [] => [source]
  | s :: rest =>
    if source.name < s.name then source :: s :: rest
    else if source.name = s.name then source :: rest
    else s :: insertSource source rest

def register (r : Registry) (source : Source) : Except Error Registry :=
  if source.name.isEmpty then .error .sourceNameEmpty
  else if r.contains source.name && r.policy = .reject then .error (.alreadyRegistered source.name)
  else .ok { r with sources := insertSource source r.sources }

def remove (r : Registry) (name : String) : Registry :=
  { r with sources := r.sources.filter fun s => s.name ≠ name }

def unregister (r : Registry) (name : String) : Bool × Registry := (r.contains name, r.remove name)

def names (r : Registry) : List String := r.sources.map (·.name)

def size (r : Registry) : Nat := r.sources.length

def isEmpty (r : Registry) : Bool := r.sources.isEmpty

end RecordQuery.Registry
