import RecordQuery.Calendar.DateTime
import RecordQuery.Text.Blank
import RecordQuery.Text.Digits

/-!
Reading date-times. A zoned stamp has fixed widths and an offset, which is taken off. The open forms have
no zone; they allow blanks before a number, short numbers and a sign on the year.
-/

namespace RecordQuery

abbrev Scan := StateT (List Char) Option

namespace Scan

def char (allowed : Char → Bool) : Scan Char
  | c :: cs => if allowed c then some (c, cs) else none
  | [] => none

def literal (c : Char) : Scan Unit := do let _ ← char (· = c)

def blanks : Scan Unit := fun cs => some ((), Text.skipBlanks cs)

def digits (least most : Nat) : Scan Nat := fun cs =>
  let ds := (cs.take most).takeWhile Char.isDigit
  if ds.length < least then none else some (Text.natOfDigits ds, cs.drop ds.length)

def nanoOfDigits (ds : List Char) : Nat := Text.natOfDigits ((ds ++ List.replicate 9 '0').take 9)

def fraction : Scan Nat
  | '.' :: cs =>
    let (ds, rest) := Text.takeDigits cs
    if ds.isEmpty then none else some (nanoOfDigits ds, rest)
  | cs => some (0, cs)

def finish : Scan Unit
  | [] => some ((), [])
  | _ :: _ => none

def whole {α : Type} (scan : Scan α) (cs : List Char) : Option α :=
  (do let a ← scan; finish; pure a : Scan α).run' cs

/-- The time of a written clock, in which second 60 is the leap second after second 59. -/
def clock? (hour minute second nano : Nat) : Option TimeOfDay :=
  if second = 60 then TimeOfDay.ofParts? hour minute 59 (nano + 1000000000)
  else TimeOfDay.ofParts? hour minute second nano

end Scan

namespace DateTime

open Scan

def offset : Scan Int := do
  let c ← char fun c => c = 'Z' || c = 'z' || c = '+' || c = '-' || c = '\u2212'
  if c = 'Z' || c = 'z' then pure 0
  else
    let hours ← digits 2 2
    literal ':'
    let minutes ← digits 2 2
    if 24 ≤ hours || 60 ≤ minutes then failure
    pure (if c = '+' then (60 * hours + minutes : Nat) else -((60 * hours + minutes : Nat) : Int))

/-- A date, `T` or a space, a time and an offset, all of fixed width. The result is in universal time. -/
def zoned : Scan DateTime := do
  let year ← digits 4 4
  literal '-'
  let month ← digits 2 2
  literal '-'
  let day ← digits 2 2
  let _ ← char fun c => c = 'T' || c = 't' || c = ' '
  let hour ← digits 2 2
  literal ':'
  let minute ← digits 2 2
  literal ':'
  let second ← digits 2 2
  let nano ← fraction
  let east ← offset
  let date ← (Date.ofParts? year month day : Option Date)
  let time ← (clock? hour minute second nano : Option TimeOfDay)
  (DateTime.shift? ⟨date, time⟩ (-east) : Option DateTime)

/-- A year with a sign may have any number of digits, one without at most four. -/
def openYear : Scan Int := do
  blanks
  match ← get with
  | '-' :: cs => set cs; return -((← digits 1 cs.length) : Int)
  | '+' :: cs => set cs; return (← digits 1 cs.length)
  | _ => return (← digits 1 4)

def openNumber : Scan Nat := do blanks; digits 1 2

def openDate : Scan Date := do
  let year ← openYear
  literal '-'
  let month ← openNumber
  literal '-'
  let day ← openNumber
  (Date.ofParts? year month day : Option Date)

def openTime : Scan TimeOfDay := do
  let hour ← openNumber
  literal ':'
  let minute ← openNumber
  literal ':'
  let second ← openNumber
  let nano ← fraction
  (clock? hour minute second nano : Option TimeOfDay)

def openForm (separator : Scan Unit) : Scan DateTime := do
  let date ← openDate
  separator
  return ⟨date, ← openTime⟩

/-- The first form that reads the whole text: a zoned stamp, date and time with a `T`, date and time with
any blanks, a date at midnight. -/
def ofChars? (cs : List Char) : Option DateTime :=
  whole zoned cs <|> whole (openForm (literal 'T')) cs <|> whole (openForm blanks) cs <|>
    whole (atMidnight <$> openDate) cs

end RecordQuery.DateTime
