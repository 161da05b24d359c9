import RecordQuery.Value.Basic
import RecordQuery.Binary64.Order

/-!
Comparison for filters. Null has no place in the order and equals only null; integers and floating-point
numbers compare by their exact values; other kinds compare only with themselves.
-/

namespace RecordQuery.Value

def compare? : Value → Value → Option Ordering
  | .integer a, .integer b => some (compare a.toInt b.toInt)
  | .float x, .float y => x.compare? y
  | .integer n, .float x => x.compareInt? n
  | .float x, .integer n => (x.compareInt? n).map Ordering.swap
  | .text a, .text b => some (compare a b)
  | .dateTime s, .dateTime t => some (s.compare t)
  | .boolean a, .boolean b => some (compare a b)
  | _, _ => none

def equals : Value → Value → Bool
  | .null, .null => true
  | .null, _ => false
  | _, .null => false
  | a, b => a.compare? b == some .eq

end RecordQuery.Value
