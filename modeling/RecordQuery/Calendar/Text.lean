import RecordQuery.Calendar.DateTime
import RecordQuery.Text.Digits

/-!
The text of a date-time: `YYYY-MM-DDThh:mm:ss`, and as many groups of three fraction digits as are exact.
-/

namespace RecordQuery

open Text (padded)

def yearChars (year : Int) : List Char :=
  if 0 ≤ year ∧ year ≤ 9999 then padded 4 year.natAbs
  else (if year < 0 then '-' else '+') :: padded 4 year.natAbs

def Date.chars (d : Date) : List Char :=
  yearChars d.year ++ '-' :: padded 2 d.month ++ '-' :: padded 2 d.day

def fractionChars (nano : Nat) : List Char :=
  if nano = 0 then []
  else if nano % 1000000 = 0 then '.' :: padded 3 (nano / 1000000)
  else if nano % 1000 = 0 then '.' :: padded 6 (nano / 1000)
  else '.' :: padded 9 nano

/-- A leap second shows as the second after its own, 60 at the end of a minute. -/
def TimeOfDay.chars (t : TimeOfDay) : List Char :=
  padded 2 t.hour ++ ':' :: padded 2 t.minute ++ ':' :: padded 2 (t.second + t.nano / 1000000000)
    ++ fractionChars (t.nano % 1000000000)

def DateTime.chars (t : DateTime) : List Char := t.date.chars ++ 'T' :: t.time.chars

def DateTime.text (t : DateTime) : String := String.ofList t.chars

end RecordQuery
