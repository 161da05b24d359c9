import RecordQuery.Selector
import RecordQuery.Value.Literal
import RecordQuery.Value.Display

/-!
Conditions: clauses compiled against a schema. The right side is a literal of the left side's kind, a
second selector of a comparable kind, or a set of literals.
-/

namespace RecordQuery

inductive Operand where
  | literal (v : Value)
  | field (s : Selector)
  | set (vs : List Value)

structure Condition where
  left : Selector
  operator : Operator
  right : Operand

def unquote? (text : String) : Option String :=
  match text.toList with
  | '\'' :: cs => if cs.getLast? = some '\'' then some (String.ofList cs.dropLast) else none
  | _ => none

def Operator.parse (text : String) : Except Error Operator :=
  match Operator.ofText? text with
  | some op => .ok op
  | none => .error (.unknownOperator text)

namespace Condition

def holds (c : Condition) (element : Record) : Bool :=
  let left := c.left.read element
  match c.right with
  | .literal v => c.operator.holds left v
  | .field s => c.operator.holds left (s.read element)
  | .set vs => vs.any fun v => left.equals v

def quoted (v : Value) : String := "'" ++ v.display ++ "'"

def display (c : Condition) : String :=
  c.left.path ++ " " ++ c.operator.display ++ " " ++
    match c.right with
    | .literal v => quoted v
    | .field s => s.path
    | .set vs => "(" ++ ", ".intercalate (vs.map quoted) ++ ")"

end Condition

namespace Schema

def compileValue (s : Schema) (left : Selector) (text : String) : Except Error Operand :=
  match unquote? text with
  | some literal => (left.kind.coerce literal).map .literal
  | none => do
    let other ← s.resolve text
    if left.kind.comparableWith other.kind then .ok (.field other) else .error (.badLiteral text left.kind)

def compileSet (left : Selector) (values : List String) : Except Error Operand :=
  (values.mapM fun v => left.kind.coerce ((unquote? v).getD v)).map .set

/-- The right side of a clause; an empty value or set counts as none. -/
def compileOperand (s : Schema) (clause : FilterClause) (left : Selector) (op : Operator) : Except Error Operand :=
  match op, clause.value.filter (!·.isEmpty), clause.values.filter (!·.isEmpty) with
  | _, some _, some _ => .error (.valueAndValues clause)
  | _, none, none => .error (.noOperand clause)
  | .among, none, some values => compileSet left values
  | .among, some _, none => .error (.membershipNeedsValues clause)
  | op, none, some _ => .error (.needsSingleValue clause op)
  | _, some text, none => s.compileValue left text

def compileClause (s : Schema) (clause : FilterClause) : Except Error Condition := do
  let left ← s.resolve clause.selector
  let op ← Operator.parse clause.operator
  let right ← s.compileOperand clause left op
  return ⟨left, op, right⟩

end Schema

structure Predicate where
  conditions : List Condition

def Predicate.accepts (p : Predicate) (element : Record) : Bool := p.conditions.all (·.holds element)

def Predicate.display (p : Predicate) : String := " AND ".intercalate (p.conditions.map (·.display))

def Schema.compileFilters (s : Schema) (clauses : List FilterClause) : Except Error Predicate :=
  (clauses.mapM s.compileClause).map Predicate.mk

end RecordQuery
