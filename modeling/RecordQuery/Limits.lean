import RecordQuery.Request.Basic
import RecordQuery.Error
import RecordQuery.Text.Segments

/-!
Limits on requests, checked before a request is compiled, so that an oversized one is refused without
looking at any source.
-/

namespace RecordQuery

structure Limits where
  maxSelect : Nat
  maxFilters : Nat
  maxOrder : Nat
  maxValues : Nat
  maxSelectorDepth : Nat
  maxSelectorLength : Nat
  deriving DecidableEq

namespace Limits

def standard : Limits := ⟨256, 64, 16, 10000, 16, 1024⟩

def unlimited : Limits :=
  let m := 0xFFFFFFFFFFFFFFFF
  ⟨m, m, m, m, m, m⟩

def bounds (l : Limits) : List (LimitKind × Nat) :=
  [(.select, l.maxSelect), (.filters, l.maxFilters), (.order, l.maxOrder), (.values, l.maxValues),
    (.selectorDepth, l.maxSelectorDepth), (.selectorLength, l.maxSelectorLength)]

/-- Limits under which no request can pass are refused; the first bound of zero is named. -/
def check (l : Limits) : Except Error Unit :=
  match l.bounds.find? fun b => b.2 = 0 with
  | some (kind, _) => .error (.zeroLimit kind)
  | none => .ok ()

def maxSourceNameLength : Nat := 256

def checkSourceName (name : String) : Except Error Unit :=
  if (Text.trim name).isEmpty then .error .sourceRequired
  else if maxSourceNameLength < name.utf8ByteSize then
    .error (.sourceNameTooLong name.utf8ByteSize maxSourceNameLength)
  else if name.toList.any Text.isControl then .error (.sourceNameControl name)
  else .ok ()

def checkSelector (l : Limits) (selector : String) : Except Error Unit :=
  let depth := (Text.pieces '.' selector).length
  if l.maxSelectorLength < selector.utf8ByteSize then
    .error (.selectorTooLong selector selector.utf8ByteSize l.maxSelectorLength)
  else if l.maxSelectorDepth < depth then .error (.selectorTooDeep selector depth l.maxSelectorDepth)
  else .ok ()

def checkCount (part : CountedPart) (count max : Nat) : Except Error Unit :=
  if max < count then .error (.tooMany part count max) else .ok ()

/-- A value that does not begin with a quote is a second selector. -/
def otherSelector? (clause : FilterClause) : Option String :=
  clause.value.filter fun text => text.toList.head? ≠ some '\''

def checkClause (l : Limits) (clause : FilterClause) : Except Error Unit := do
  l.checkSelector clause.selector
  (otherSelector? clause).forM l.checkSelector
  clause.values.forM fun vs => checkCount .values vs.length l.maxValues

def checkRequest (l : Limits) (r : Request) : Except Error Unit := do
  checkSourceName r.source
  checkCount .select r.select.length l.maxSelect
  checkCount .filters r.filters.length l.maxFilters
  checkCount .order r.order.length l.maxOrder
  r.select.forM fun item => l.checkSelector item.selector
  r.filters.forM l.checkClause
  r.order.forM fun key => l.checkSelector key.selector

end RecordQuery.Limits
