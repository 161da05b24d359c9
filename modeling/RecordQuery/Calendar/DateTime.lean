import RecordQuery.Calendar.Date

/-!
Times of day and date-times without a zone. A leap second has the number of the second before it and a
nanosecond count past one second; it may follow any second. Shifting by minutes moves the clock and, across
midnight, the date.
-/

namespace RecordQuery

structure TimeOfDay where
  hour : Nat
  minute : Nat
  second : Nat
  nano : Nat
  hour_lt : hour < 24 := by decide
  minute_lt : minute < 60 := by decide
  second_lt : second < 60 := by decide
  nano_lt : nano < 2000000000 := by decide
  deriving DecidableEq

namespace TimeOfDay

def ofParts? (hour minute second nano : Nat) : Option TimeOfDay :=
  if hh : hour < 24 then
    if hm : minute < 60 then
      if hs : second < 60 then
        if hn : nano < 2000000000 then some ⟨hour, minute, second, nano, hh, hm, hs, hn⟩
        else none
      else none
    else none
  else none

def midnight : TimeOfDay := { hour := 0, minute := 0, second := 0, nano := 0 }

def compare (a b : TimeOfDay) : Ordering :=
  (Ord.compare a.hour b.hour).then
    ((Ord.compare a.minute b.minute).then ((Ord.compare a.second b.second).then (Ord.compare a.nano b.nano)))

def minuteOfDay (t : TimeOfDay) : Nat := 60 * t.hour + t.minute

def atMinute (t : TimeOfDay) (minuteOfDay : Nat) : TimeOfDay where
  hour := minuteOfDay / 60 % 24
  minute := minuteOfDay % 60
  second := t.second
  nano := t.nano
  hour_lt := Nat.mod_lt _ (by decide)
  minute_lt := Nat.mod_lt _ (by decide)
  second_lt := t.second_lt
  nano_lt := t.nano_lt

theorem ofParts?_parts (t : TimeOfDay) : ofParts? t.hour t.minute t.second t.nano = some t := by
  simp only [ofParts?, dif_pos t.hour_lt, dif_pos t.minute_lt, dif_pos t.second_lt, dif_pos t.nano_lt]

end TimeOfDay

structure DateTime where
  date : Date
  time : TimeOfDay
  deriving DecidableEq

namespace DateTime

def atMidnight (d : Date) : DateTime := ⟨d, .midnight⟩

def compare (a b : DateTime) : Ordering := (a.date.compare b.date).then (a.time.compare b.time)

/-- The date-time a number of minutes later, less than a day in either direction. -/
def shift? (t : DateTime) (minutes : Int) : Option DateTime :=
  let total := (t.time.minuteOfDay : Int) + minutes
  let time := t.time.atMinute (total % 1440).toNat
  if total / 1440 = 0 then some ⟨t.date, time⟩
  else if total / 1440 = 1 then t.date.next?.map (⟨·, time⟩)
  else if total / 1440 = -1 then t.date.previous?.map (⟨·, time⟩)
  else none

end RecordQuery.DateTime
