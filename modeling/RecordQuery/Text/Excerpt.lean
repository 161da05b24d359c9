/-!
Excerpts: request text as it may be shown in a message. Control characters are dropped, and what is
too long is cut and marked.
-/

namespace RecordQuery.Text

def isControl (c : Char) : Bool := c.toNat < 0x20 || (0x7F ≤ c.toNat && c.toNat ≤ 0x9F)

def truncationMark : String := "... (truncated)"

/-- The first `limit` printable characters. The mark follows whenever the text, control characters
counted, has more than `limit` characters. -/
def excerpt (limit : Nat) (s : String) : String :=
  let shown := String.ofList ((s.toList.filter fun c => !isControl c).take limit)
  if limit < s.length then shown ++ truncationMark else shown

end RecordQuery.Text
