import RecordQuery.Request.Basic
import RecordQuery.Binary64.Scaled
import RecordQuery.Json.Reader
import RecordQuery.Json.Fields

/-!
The JSON form of requests. Writing leaves out what is absent or an empty list; reading allows the other
spellings of names and directions, and takes what is missing as absent.
-/

namespace RecordQuery

open Json

def optionalMember {α : Type} (name : String) (toJson : α → Json) : Option α → List (String × Json)
  | none => []
  | some a => [(name, toJson a)]

def listMember {α : Type} (name : String) (toJson : α → Json) : List α → List (String × Json)
  | [] => []
  | a :: as => [(name, .array ((a :: as).map toJson))]

def textList (ss : List String) : Json := .array (ss.map .text)

namespace SelectItem

def toJson (item : SelectItem) : Json :=
  .record ([("selector", .text item.selector)] ++ optionalMember "alias" .text item.label)

def ofJson? (j : Json) : Option SelectItem := do
  let [selector, label] ← j.fields? [["selector"], ["alias", "name"]] | none
  return ⟨← required? text? selector, ← defaulted? none (nullable? text?) label⟩

end SelectItem

namespace FilterClause

def toJson (c : FilterClause) : Json :=
  .record ([("selector", .text c.selector), ("operator", .text c.operator)]
    ++ optionalMember "value" .text c.value ++ optionalMember "valueSet" textList c.values)

def ofJson? (j : Json) : Option FilterClause := do
  let [selector, operator, value, values] ←
    j.fields? [["selector"], ["operator"], ["value"], ["valueSet", "values"]] | none
  return ⟨← required? text? selector, ← required? text? operator, ← defaulted? none (nullable? text?) value,
    ← defaulted? none (nullable? (list? text?)) values⟩

end FilterClause

namespace Direction

def toJson : Direction → Json
  | .ascending => .text "Asc"
  | .descending => .text "Desc"

def ofJson? (j : Json) : Option Direction := j.text?.bind ofText?

end Direction

namespace SortKey

def toJson (k : SortKey) : Json := .record [("selector", .text k.selector), ("direction", k.direction.toJson)]

def ofJson? (j : Json) : Option SortKey := do
  let [selector, direction] ← j.fields? [["selector"], ["direction"]] | none
  return ⟨← required? text? selector, ← defaulted? .ascending Direction.ofJson? direction⟩

end SortKey

namespace Limit

def toJson (l : Limit) : Json := .record [("skip", .int l.skip.toInt), ("take", .int l.take.toInt)]

def ofJson? (j : Json) : Option Limit := do
  let [skip, take] ← j.fields? [["skip"], ["take"]] | none
  return ⟨← defaulted? 0 int64? skip, ← defaulted? 0 int64? take⟩

end Limit

namespace Request

def maxSourceDepth : Nat := 126

/-- A source is its name or an object that has the name. The whole value is read before it is looked at, so
its numbers must be finite, its strings text and its depth bounded. -/
def sourceOfJson? : Json → Option String
  | .string content => content
  | .object members =>
    if (Json.object members).depth ≤ maxSourceDepth && (Json.object members).all Numeral.isFinite Option.isSome then
      (member? ["name", "Name"] members).bind (required? text?)
    else none
  | _ => none

def toJson (r : Request) : Json :=
  .record ([("select", .array (r.select.map (·.toJson))), ("from", .text r.source)]
    ++ listMember "where" FilterClause.toJson r.filters ++ listMember "orderBy" SortKey.toJson r.order
    ++ optionalMember "limit" Limit.toJson r.limit)

def ofJson? (j : Json) : Option Request := do
  let [select, source, filters, order, limit] ←
    j.fields? [["select"], ["from"], ["where"], ["orderBy"], ["limit"]] | none
  return ⟨← required? (list? SelectItem.ofJson?) select, ← required? sourceOfJson? source,
    ← defaulted? [] (list? FilterClause.ofJson?) filters, ← defaulted? [] (list? SortKey.ofJson?) order,
    ← defaulted? none (nullable? Limit.ofJson?) limit⟩

def write (r : Request) : String := r.toJson.write

def read? (s : String) : Option Request := (Json.read? s).bind ofJson?

end Request

end RecordQuery
