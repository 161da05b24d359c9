import RecordQuery.Selector
import RecordQuery.Table

/-!
Projections: the selected columns, compiled against a schema, and the row of an element.
-/

namespace RecordQuery

structure ProjectedColumn where
  column : Column
  selector : Selector

structure Projection where
  entries : List ProjectedColumn

namespace Projection

def columns (p : Projection) : List Column := p.entries.map (·.column)

def row (p : Projection) (element : Record) : Row := p.entries.map fun e => e.selector.read element

def displayColumn (c : Column) : String :=
  if c.name = c.selector then c.selector else c.selector ++ " AS " ++ c.name

def display (p : Projection) : String := ", ".intercalate (p.columns.map displayColumn)

end Projection

def Schema.compileItem (s : Schema) (item : SelectItem) : Except Error ProjectedColumn :=
  (s.resolve item.selector).map (ProjectedColumn.mk ⟨item.outputName, item.selector⟩)

def Schema.compileSelect (s : Schema) (items : List SelectItem) : Except Error Projection :=
  if items.isEmpty then .error .selectEmpty else (items.mapM s.compileItem).map Projection.mk

end RecordQuery
