import RecordQuery.Value.Compare

/-!
Comparison for sorting. Any two values have an order: null first, values of unrelated kinds by kind, and
a floating-point number by its place in the total order, where a NaN lies outside all numbers.
-/

namespace RecordQuery.Value

def sortRank : Value → Nat
  | .null => 0
  | .boolean _ => 1
  | .integer _ => 2
  | .float _ => 2
  | .dateTime _ => 3
  | .text _ => 4

/-- An integer against a number in the total order: a negative NaN precedes it, any other follows. -/
def totalCompareInt (n : Int64) (x : Binary64) : Ordering :=
  (x.compareInt? n).getD (if x.isNegative then .gt else .lt)

def sortCompare : Value → Value → Ordering
  | .float x, .float y => x.totalCompare y
  | .integer n, .float x => totalCompareInt n x
  | .float x, .integer n => (totalCompareInt n x).swap
  | a, b => (a.compare? b).getD (compare a.sortRank b.sortRank)

end RecordQuery.Value
