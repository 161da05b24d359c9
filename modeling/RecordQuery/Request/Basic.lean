import RecordQuery.Text.Ascii
import RecordQuery.Text.Blank
import RecordQuery.Text.Numeral

/-!
Requests as data: which columns to show, from which source, which records to keep, in which order and
which window of them; and the text of a request.
-/

namespace RecordQuery

structure SelectItem where
  selector : String
  label : Option String
  deriving DecidableEq, Inhabited

structure FilterClause where
  selector : String
  operator : String
  value : Option String
  values : Option (List String)
  deriving DecidableEq, Inhabited

inductive Direction where
  | ascending
  | descending
  deriving DecidableEq, Inhabited

structure SortKey where
  selector : String
  direction : Direction
  deriving DecidableEq, Inhabited

/-- How many records to pass over and how many to keep at most; to keep 0 is to keep all. -/
structure Limit where
  skip : Int64
  take : Int64
  deriving DecidableEq, Inhabited

structure Request where
  select : List SelectItem
  source : String
  filters : List FilterClause
  order : List SortKey
  limit : Option Limit
  deriving DecidableEq, Inhabited

def SelectItem.outputName (item : SelectItem) : String := item.label.getD item.selector

namespace Direction

def ofText? (s : String) : Option Direction :=
  let word := Text.lower (Text.trim s)
  if word = "asc" ∨ word = "ascending" then some .ascending
  else if word = "desc" ∨ word = "descending" then some .descending
  else none

def unknownMessage (s : String) : String :=
  "unknown sort direction '" ++ Text.lower (Text.trim s) ++ "'"

def display : Direction → String
  | .ascending => "ASC"
  | .descending => "DESC"

end Direction

namespace Request

def ofSource (source : String) : Request := ⟨[], source, [], [], none⟩

def addColumn (r : Request) (selector : String) : Request :=
  { r with select := r.select ++ [⟨selector, none⟩] }

def addLabelled (r : Request) (selector label : String) : Request :=
  { r with select := r.select ++ [⟨selector, some label⟩] }

def addFilter (r : Request) (selector operator value : String) : Request :=
  { r with filters := r.filters ++ [⟨selector, operator, some value, none⟩] }

def addMembership (r : Request) (selector : String) (values : List String) : Request :=
  { r with filters := r.filters ++ [⟨selector, "IN", none, some values⟩] }

def addSortKey (r : Request) (selector : String) (direction : Direction) : Request :=
  { r with order := r.order ++ [⟨selector, direction⟩] }

def withLimit (r : Request) (skip take : Int64) : Request := { r with limit := some ⟨skip, take⟩ }

end Request

def SelectItem.display (item : SelectItem) : String :=
  match item.label with
  | none => item.selector
  | some label => item.selector ++ " AS " ++ label

def FilterClause.display (c : FilterClause) : String :=
  c.selector ++ " " ++ c.operator
    ++ (match c.value with | none => "" | some v => " " ++ v)
    ++ (match c.values with | none => "" | some vs => " (" ++ ", ".intercalate vs ++ ")")

def SortKey.display (k : SortKey) : String := k.selector ++ " " ++ k.direction.display

def Limit.display (l : Limit) : String :=
  "SKIP " ++ (Numeral.ofInt l.skip.toInt).text ++ " TAKE " ++ (Numeral.ofInt l.take.toInt).text

def clauseText (keyword separator : String) (parts : List String) : String :=
  if parts.isEmpty then "" else " " ++ keyword ++ " " ++ separator.intercalate parts

def Request.display (r : Request) : String :=
  "SELECT " ++ ", ".intercalate (r.select.map (·.display)) ++ " FROM " ++ r.source
    ++ clauseText "WHERE" " AND " (r.filters.map (·.display))
    ++ clauseText "ORDER BY" ", " (r.order.map (·.display))
    ++ (match r.limit with | none => "" | some l => " " ++ l.display)

end RecordQuery
