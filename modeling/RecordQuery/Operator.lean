import RecordQuery.Value.Compare
import RecordQuery.Text.Ascii
import RecordQuery.Text.Blank

/-!
The operators of conditions. Six relate two values; membership in a set relates no two single values.
-/

namespace RecordQuery

inductive Operator where
  | eq
  | ne
  | gt
  | ge
  | lt
  | le
  | among
  deriving DecidableEq, Inhabited

namespace Operator

def display : Operator → String
  | .eq => "="
  | .ne => "!="
  | .gt => ">"
  | .ge => ">="
  | .lt => "<"
  | .le => "<="
  | .among => "IN"

def all : List Operator := [.eq, .ne, .gt, .ge, .lt, .le, .among]

def ofText? (s : String) : Option Operator :=
  all.find? fun op => Text.lower op.display = Text.lower (Text.trim s)

/-- Whether two values stand in the relation. Values without an order are related by `!=` alone, and
two nulls by `=`. -/
def holds (op : Operator) (a b : Value) : Bool :=
  match op with
  | .eq => a.equals b
  | .ne => !a.equals b
  | .gt => a.compare? b == some .gt
  | .ge => a.compare? b == some .gt || a.compare? b == some .eq
  | .lt => a.compare? b == some .lt
  | .le => a.compare? b == some .lt || a.compare? b == some .eq
  | .among => false

end RecordQuery.Operator
