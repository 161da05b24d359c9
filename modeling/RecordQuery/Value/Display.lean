import RecordQuery.Value.Basic
import RecordQuery.Binary64.Layout
import RecordQuery.Calendar.Text

/-!
The text of a value as it is shown to a reader.
-/

namespace RecordQuery.Value

def display : Value → String
  | .integer n => (Numeral.ofInt n.toInt).text
  | .float x => x.text
  | .boolean b => if b then "true" else "false"
  | .dateTime t => t.text
  | .text s => s
  | .null => "NULL"

end RecordQuery.Value
