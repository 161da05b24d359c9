import RecordQuery.Schema.Basic
import RecordQuery.Json.Token

/-!
Outlines: the fields of a schema as a finite tree. A nested field whose table is already open on the way
down is listed by its type alone.
-/

namespace RecordQuery

inductive Property where
  | value (name : String) (kind : Kind)
  | record (name : String) (typeName : String) (properties : List Property)

structure Outline where
  name : String
  properties : List Property

namespace Schema

def unvisited (s : Schema) (path : List Nat) : Nat :=
  (List.range s.nodes.length).countP fun id => !path.contains id

theorem countP_lt_countP {α : Type} {p q : α → Bool} {xs : List α} (h : ∀ x ∈ xs, q x = true → p x = true)
    {a : α} (ha : a ∈ xs) (hp : p a = true) (hq : q a = false) : xs.countP q < xs.countP p := by
  induction xs with
  | nil => simp at ha
  | cons x xs ih =>
    have hle : xs.countP q ≤ xs.countP p := List.countP_mono_left fun y hy => h y (List.mem_cons_of_mem _ hy)
    simp only [List.countP_cons]
    rcases List.mem_cons.1 ha with rfl | ha
    · simp only [hp, hq, Bool.false_eq_true, if_true, if_false]
      omega
    · have := ih (fun y hy => h y (List.mem_cons_of_mem _ hy)) ha
      have hx := h x List.mem_cons_self
      grind

theorem unvisited_cons_lt (s : Schema) {path : List Nat} {id : Nat} (hp : id ∉ path) (hn : id < s.nodes.length) :
    s.unvisited (id :: path) < s.unvisited path := by
  refine countP_lt_countP ?_ (List.mem_range.2 hn) (by simpa using hp) (by simp)
  simp only [List.contains_cons, Bool.not_or, Bool.and_eq_true]
  exact fun _ _ h => h.2

/-- The properties of a table; `path` holds the tables open on the way to it, itself included. -/
def propertiesOf (s : Schema) (path : List Nat) (id : Nat) : List Property :=
  (s.node id).fields.map fun f =>
    match f.shape with
    | .value kind _ => .value f.name kind
    | .nested child _ =>
      .record f.name (s.node child).typeName
        (if _h : child ∉ path ∧ child < s.nodes.length then s.propertiesOf (child :: path) child else [])
termination_by s.unvisited path
decreasing_by exact s.unvisited_cons_lt _h.1 _h.2

def outline (s : Schema) : Outline := ⟨s.name, s.propertiesOf [0] 0⟩

end Schema

mutual

/-- A value's property has its kind; a record's has its type and, unless there are none, its properties. -/
def Property.toJson : Property → Json
  | .value name kind => .record [("name", .text name), ("kind", kind.toJson)]
  | .record name typeName [] => .record [("name", .text name), ("type", .text typeName)]
  | .record name typeName (p :: ps) =>
    .record [("name", .text name), ("type", .text typeName), ("properties", .array (p.toJson :: propertiesJson ps))]

def propertiesJson : List Property → List Json
  | [] => []
  | p :: ps => p.toJson :: propertiesJson ps

end

def Outline.toJson (o : Outline) : Json :=
  .record [("name", .text o.name), ("properties", .array (propertiesJson o.properties))]

end RecordQuery
