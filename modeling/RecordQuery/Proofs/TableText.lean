import RecordQuery.Table
import RecordQuery.Proofs.Decimals
import RecordQuery.Proofs.RequestText

/-! Tables as JSON text. The text of a table reads back as columns and rows of cells. A finite float is a
decimal that rounds to it, with a fraction or an exponent, and so is told apart from an integer. -/

namespace RecordQuery

open Json

/-- What a cell is read back as. A number that stands for a float has a fraction or an exponent, is never
read as an integer and rounds to that float. -/
def Value.Renders : Value → Json → Prop
  | .integer n, j => j.int? = some n.toInt
  | .float x, j =>
    if x.isFinite then
      ∃ n : Numeral, j = .number n ∧ (n.fraction ≠ [] ∨ n.exponent ≠ []) ∧ j.int? = none ∧ n.RoundsTo x
    else j = .null
  | .boolean b, j => j = .bool b
  | .dateTime t, j => j = .text (Value.dateTime t).display
  | .text s, j => j = .text s
  | .null, j => j = .null

def Column.Renders (c : Column) (j : Json) : Prop :=
  j = .object [(some "name", .text c.name), (some "selector", .text c.selector)]

def Table.Renders (t : Table) (j : Json) : Prop :=
  ∃ columns rows, j = .object [(some "columns", columns), (some "rows", rows)] ∧
    RendersList Column.Renders t.columns columns ∧ RendersList (RendersList Value.Renders) t.rows rows

theorem Column.renders_toJson (c : Column) : c.Renders c.toJson := rfl

theorem Value.renders_toJson (v : Value) : v.Renders v.toJson := by
  cases v with
  | integer n => exact Numeral.toInt?_ofInt n.toInt
  | float x =>
    by_cases hx : x.isFinite = true
    · have hjson : (float x).toJson = .number (x.numeral .json) := if_pos hx
      have hdecimal := Binary64.isDecimal_numeral hx
      rw [hjson, Renders, if_pos hx]
      exact ⟨_, rfl, hdecimal.marked, hdecimal.toInt?_eq_none, Binary64.roundsTo_numeral hx⟩
    · have hjson : (float x).toJson = .null := if_neg hx
      rw [hjson, Renders, if_neg hx]
  | boolean b => rfl
  | dateTime t => rfl
  | text s => rfl
  | null => rfl

theorem Value.numbersWritten_toJson (v : Value) : v.toJson.NumbersWritten := by
  cases v with
  | integer n => exact numbersWritten_int n.toInt
  | float x =>
    rw [toJson]
    split
    · next hx => exact (Binary64.isDecimal_numeral hx).written
    · rfl
  | boolean b => rfl
  | dateTime t => exact numbersWritten_text t.text
  | text s => exact numbersWritten_text s
  | null => rfl

theorem Column.numbersWritten_toJson (c : Column) : c.toJson.NumbersWritten :=
  numbersWritten_record <|
    List.forall_mem_cons.2 ⟨numbersWritten_text _, List.forall_mem_singleton.2 (numbersWritten_text _)⟩

namespace Table

theorem renders_toJson (t : Table) : t.Renders t.toJson := by
  have hcolumns : RendersList Column.Renders t.columns (.array (t.columns.map (·.toJson))) :=
    rendersList_map Column.renders_toJson t.columns
  have hrow (row : Row) : RendersList Value.Renders row (.array (row.map (·.toJson))) :=
    rendersList_map Value.renders_toJson row
  exact ⟨_, _, rfl, hcolumns, rendersList_map hrow t.rows⟩

theorem numbersWritten_toJson (t : Table) : t.toJson.NumbersWritten := by
  have hcolumns : (Json.array (t.columns.map (·.toJson))).NumbersWritten :=
    numbersWritten_array_map Column.numbersWritten_toJson t.columns
  have hrow (row : Row) : (Json.array (row.map (·.toJson))).NumbersWritten :=
    numbersWritten_array_map Value.numbersWritten_toJson row
  have hrows := numbersWritten_array_map hrow t.rows
  exact numbersWritten_record (List.forall_mem_cons.2 ⟨hcolumns, List.forall_mem_singleton.2 hrows⟩)

/-- The text of a table is JSON that reads back as its columns and its rows, cell by cell. -/
theorem renders_read?_write (t : Table) : ∃ j, Json.read? t.toJson.write = some j ∧ t.Renders j :=
  ⟨t.toJson, read?_write_of_all t.numbersWritten_toJson, t.renders_toJson⟩

end Table

end RecordQuery
