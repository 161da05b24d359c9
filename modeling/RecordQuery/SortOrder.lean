import RecordQuery.Selector
import RecordQuery.Value.Sort

/-!
Sort orders: sort keys compiled against a schema. The first key decides, a later one only where all before
it are equal; sorting is stable and reads the keys of an element once.
-/

namespace RecordQuery

def Direction.apply : Direction → Ordering → Ordering
  | .ascending, o => o
  | .descending, o => o.swap

structure OrderKey where
  selector : Selector
  direction : Direction

structure SortOrder where
  keys : List OrderKey

namespace SortOrder

def extract (s : SortOrder) (element : Record) : List Value := s.keys.map fun k => k.selector.read element

def compareValues : List Direction → List Value → List Value → Ordering
  | d :: ds, a :: as, b :: bs => (d.apply (a.sortCompare b)).then (compareValues ds as bs)
  | _, _, _ => .eq

def compareKeys (s : SortOrder) (a b : List Value) : Ordering := compareValues (s.keys.map (·.direction)) a b

def compare (s : SortOrder) (a b : Record) : Ordering := s.compareKeys (s.extract a) (s.extract b)

/-- Things sorted by the elements they belong to. -/
def sortOn {α : Type} (s : SortOrder) (element : α → Record) (xs : List α) : List α :=
  ((xs.map fun x => (s.extract (element x), x)).mergeSort fun a b => s.compareKeys a.1 b.1 != .gt).map (·.2)

def sort (s : SortOrder) (elements : List Record) : List Record := s.sortOn id elements

def display (s : SortOrder) : String :=
  ", ".intercalate (s.keys.map fun k => k.selector.path ++ " " ++ k.direction.display)

end SortOrder

def Schema.compileKey (s : Schema) (key : SortKey) : Except Error OrderKey :=
  (s.resolve key.selector).map fun selector => ⟨selector, key.direction⟩

def Schema.compileOrder (s : Schema) (keys : List SortKey) : Except Error SortOrder :=
  (keys.mapM s.compileKey).map SortOrder.mk

end RecordQuery
