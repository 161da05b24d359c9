import Mathlib.Tactic.Ring
import RecordQuery.Proofs.SortCompare

/-! Date-times on one scale: the number of a day, counted on without a gap, and the seconds up to a time of
that day. The comparison of date-times is the one on this scale, the next day is one further, and shifting
by minutes goes as many minutes on. -/

namespace RecordQuery

open Std (OrientedCmp)

def daysBeforeYear (year : Int) : Int :=
  365 * (year - 1) + (year - 1) / 4 - (year - 1) / 100 + (year - 1) / 400

def daysInMonths (year : Int) : Nat → Nat
  | 0 => 0
  | months + 1 => daysInMonths year months + daysInMonth year (months + 1)

theorem daysInMonths_twelve (year : Int) :
    daysInMonths year 12 = if isLeapYear year then 366 else 365 := by
  simp only [daysInMonths, daysInMonth]
  cases isLeapYear year <;> rfl

theorem daysBeforeYear_succ (year : Int) :
    daysBeforeYear (year + 1) = daysBeforeYear year + daysInMonths year 12 := by
  rw [daysInMonths_twelve]
  unfold daysBeforeYear
  by_cases hleap : isLeapYear year = true
  · rw [if_pos hleap]
    simp only [isLeapYear, Bool.and_eq_true, Bool.or_eq_true, decide_eq_true_eq] at hleap
    omega
  · rw [if_neg hleap]
    simp only [isLeapYear, Bool.and_eq_true, Bool.or_eq_true, decide_eq_true_eq] at hleap
    omega

theorem daysBeforeYear_mono {year later : Int} (h : year ≤ later) :
    daysBeforeYear year ≤ daysBeforeYear later := by
  unfold daysBeforeYear
  omega

theorem daysInMonths_mono (year : Int) {months more : Nat} (h : months ≤ more) :
    daysInMonths year months ≤ daysInMonths year more := by
  induction h with
  | refl => exact Nat.le_refl _
  | step _ ih => exact ih.trans (Nat.le_add_right _ _)

namespace Date

variable {a b d e : Date}

def dayOfYear (d : Date) : Nat := daysInMonths d.year (d.month - 1) + d.day

def dayNumber (d : Date) : Int := daysBeforeYear d.year + d.dayOfYear

theorem dayOfYear_pos (d : Date) : 1 ≤ d.dayOfYear := d.day_mem.1.trans (Nat.le_add_left _ _)

theorem daysInMonths_month (d : Date) :
    daysInMonths d.year d.month = daysInMonths d.year (d.month - 1) + daysInMonth d.year d.month := by
  have hmonth : d.month - 1 + 1 = d.month := Nat.sub_add_cancel d.month_mem.1
  conv_lhs => rw [← hmonth, daysInMonths, hmonth]

theorem dayOfYear_le (d : Date) : d.dayOfYear ≤ daysInMonths d.year d.month := by
  rw [daysInMonths_month]
  exact Nat.add_le_add_left d.day_mem.2 _

theorem dayOfYear_of_lastDay (h : daysInMonth d.year d.month ≤ d.day) :
    d.dayOfYear = daysInMonths d.year d.month := by
  rw [daysInMonths_month, dayOfYear, Nat.le_antisymm d.day_mem.2 h]

theorem dayNumber_le_daysBeforeYear_succ (d : Date) : d.dayNumber ≤ daysBeforeYear (d.year + 1) := by
  have hday := d.dayOfYear_le.trans (daysInMonths_mono d.year d.month_mem.2)
  rw [daysBeforeYear_succ, dayNumber]
  omega

theorem daysBeforeYear_lt_dayNumber (d : Date) : daysBeforeYear d.year < d.dayNumber := by
  have hday := d.dayOfYear_pos
  rw [dayNumber]
  omega

theorem dayNumber_lt_of_year_lt (h : a.year < b.year) : a.dayNumber < b.dayNumber :=
  calc
    a.dayNumber ≤ daysBeforeYear (a.year + 1) := a.dayNumber_le_daysBeforeYear_succ
    _ ≤ daysBeforeYear b.year := daysBeforeYear_mono h
    _ < b.dayNumber := b.daysBeforeYear_lt_dayNumber

theorem dayNumber_lt_of_month_lt (hyear : a.year = b.year) (h : a.month < b.month) :
    a.dayNumber < b.dayNumber := by
  have hday : a.dayOfYear < b.dayOfYear :=
    calc
      a.dayOfYear ≤ daysInMonths a.year a.month := a.dayOfYear_le
      _ ≤ daysInMonths b.year (b.month - 1) := hyear ▸ daysInMonths_mono a.year (Nat.le_pred_of_lt h)
      _ < b.dayOfYear := Nat.lt_add_of_pos_right b.day_mem.1
  rw [dayNumber, dayNumber, hyear]
  omega

theorem dayNumber_lt_of_day_lt (hyear : a.year = b.year) (hmonth : a.month = b.month) (h : a.day < b.day) :
    a.dayNumber < b.dayNumber := by
  rw [dayNumber, dayNumber, dayOfYear, dayOfYear, hyear, hmonth]
  omega

theorem compare_eq_lt_iff : a.compare b = .lt ↔ a.year < b.year ∨ a.year = b.year ∧
    (a.month < b.month ∨ a.month = b.month ∧ a.day < b.day) := by
  simp only [compare, Ordering.then_eq_lt, compare_lt_iff_lt, compare_eq_iff_eq]

theorem compare_eq_eq_iff : a.compare b = .eq ↔ a = b := by
  simp only [compare, Ordering.then_eq_eq, compare_eq_iff_eq]
  constructor
  · rintro ⟨hyear, hmonth, hday⟩
    cases a
    cases b
    cases hyear
    cases hmonth
    cases hday
    rfl
  · rintro rfl
    exact ⟨rfl, rfl, rfl⟩

theorem dayNumber_lt_of_compare (h : a.compare b = .lt) : a.dayNumber < b.dayNumber := by
  rcases compare_eq_lt_iff.1 h with hyear | ⟨hyear, hmonth | ⟨hmonth, hday⟩⟩
  · exact dayNumber_lt_of_year_lt hyear
  · exact dayNumber_lt_of_month_lt hyear hmonth
  · exact dayNumber_lt_of_day_lt hyear hmonth hday

theorem compare_eq_dayNumber (a b : Date) : a.compare b = Ord.compare a.dayNumber b.dayNumber := by
  cases h : a.compare b with
  | lt => exact (compare_lt_iff_lt.2 (dayNumber_lt_of_compare h)).symm
  | eq => rw [compare_eq_eq_iff.1 h, compare_eq_iff_eq.2 rfl]
  | gt => exact (compare_gt_iff_gt.2 (dayNumber_lt_of_compare (OrientedCmp.lt_of_gt h))).symm

theorem dayNumber_inj : a.dayNumber = b.dayNumber ↔ a = b := by
  rw [← compare_eq_eq_iff, compare_eq_dayNumber, compare_eq_iff_eq]

example : dayNumber { year := 1970, month := 1, day := 1 } = 719163 := by decide

theorem ofParts?_eq_some_iff {year : Int} {month day : Nat} :
    ofParts? year month day = some d ↔ d.year = year ∧ d.month = month ∧ d.day = day := by
  constructor
  · intro h
    unfold ofParts? at h
    split_ifs at h
    cases h
    exact ⟨rfl, rfl, rfl⟩
  · rintro ⟨rfl, rfl, rfl⟩
    exact d.ofParts?_parts

theorem exists_ofParts? {year : Int} {month day : Nat} (hyear : -262143 ≤ year ∧ year ≤ 262142)
    (hmonth : 1 ≤ month ∧ month ≤ 12) (hday : 1 ≤ day ∧ day ≤ daysInMonth year month) :
    ∃ d, ofParts? year month day = some d :=
  ⟨⟨year, month, day, hyear, hmonth, hday⟩, ofParts?_eq_some_iff.2 ⟨rfl, rfl, rfl⟩⟩

theorem daysInMonth_pos (year : Int) (month : Nat) : 1 ≤ daysInMonth year month := by
  unfold daysInMonth
  split_ifs <;> decide

theorem dayNumber_of_lastDay (hmonth : 12 ≤ d.month) (hday : daysInMonth d.year d.month ≤ d.day) :
    d.dayNumber = daysBeforeYear (d.year + 1) := by
  rw [dayNumber, dayOfYear_of_lastDay hday, Nat.le_antisymm d.month_mem.2 hmonth, daysBeforeYear_succ]

theorem dayNumber_of_firstDay (hmonth : d.month ≤ 1) (hday : d.day ≤ 1) :
    d.dayNumber = daysBeforeYear d.year + 1 := by
  rw [dayNumber, dayOfYear, Nat.le_antisymm hmonth d.month_mem.1, Nat.le_antisymm hday d.day_mem.1]
  rfl

theorem dayNumber_next? (h : d.next? = some e) : e.dayNumber = d.dayNumber + 1 := by
  unfold next? at h
  split_ifs at h with hday hmonth
  · obtain ⟨hy, hm, hd⟩ := ofParts?_eq_some_iff.1 h
    rw [dayNumber, dayNumber, dayOfYear, dayOfYear, hy, hm, hd]
    omega
  · obtain ⟨hy, hm, hd⟩ := ofParts?_eq_some_iff.1 h
    rw [dayNumber, dayNumber, dayOfYear_of_lastDay (Nat.not_lt.1 hday), dayOfYear, hy, hm, hd,
      Nat.add_sub_cancel]
    omega
  · obtain ⟨hy, hm, hd⟩ := ofParts?_eq_some_iff.1 h
    rw [dayNumber_of_firstDay hm.le hd.le, dayNumber_of_lastDay (Nat.not_lt.1 hmonth) (Nat.not_lt.1 hday), hy]

theorem dayNumber_previous? (h : d.previous? = some e) : d.dayNumber = e.dayNumber + 1 := by
  unfold previous? at h
  split_ifs at h with hday hmonth
  · obtain ⟨hy, hm, hd⟩ := ofParts?_eq_some_iff.1 h
    rw [dayNumber, dayNumber, dayOfYear, dayOfYear, hy, hm, hd]
    omega
  · obtain ⟨hy, hm, hd⟩ := ofParts?_eq_some_iff.1 h
    have hlast : daysInMonth e.year e.month ≤ e.day := (hy ▸ hm ▸ hd).ge
    rw [dayNumber, dayNumber, dayOfYear_of_lastDay hlast, dayOfYear, hy, hm,
      Nat.le_antisymm (Nat.not_lt.1 hday) d.day_mem.1]
    omega
  · obtain ⟨hy, hm, hd⟩ := ofParts?_eq_some_iff.1 h
    have hlast : daysInMonth e.year e.month ≤ e.day := by
      rw [hm, hd]
      exact Nat.le_refl 31
    rw [dayNumber_of_firstDay (Nat.not_lt.1 hmonth) (Nat.not_lt.1 hday), dayNumber_of_lastDay hm.ge hlast, hy,
      Int.sub_add_cancel]

theorem exists_next? (h : d.dayNumber < e.dayNumber) : ∃ f, d.next? = some f := by
  have hyear := d.year_mem
  have hmonths := d.month_mem
  unfold next?
  split_ifs with hday hmonth
  · exact exists_ofParts? hyear hmonths ⟨Nat.le_add_left 1 _, hday⟩
  · exact exists_ofParts? hyear ⟨Nat.le_add_left 1 _, hmonth⟩ ⟨le_rfl, daysInMonth_pos _ _⟩
  · have hnext : daysBeforeYear (d.year + 1) < daysBeforeYear (e.year + 1) :=
      calc
        daysBeforeYear (d.year + 1) = d.dayNumber :=
          (dayNumber_of_lastDay (Nat.not_lt.1 hmonth) (Nat.not_lt.1 hday)).symm
        _ < e.dayNumber := h
        _ ≤ daysBeforeYear (e.year + 1) := e.dayNumber_le_daysBeforeYear_succ
    have hlater : d.year < e.year := by
      by_contra hle
      exact Int.not_lt.2 (daysBeforeYear_mono (by omega)) hnext
    have hlast := e.year_mem
    exact exists_ofParts? (by omega) ⟨le_rfl, by decide⟩ ⟨le_rfl, daysInMonth_pos _ _⟩

theorem exists_previous? (h : e.dayNumber < d.dayNumber) : ∃ f, d.previous? = some f := by
  have hyear := d.year_mem
  have hmonths := d.month_mem
  unfold previous?
  split_ifs with hday hmonth
  · have hdays := d.day_mem
    exact exists_ofParts? hyear hmonths (by omega)
  · exact exists_ofParts? hyear (by omega) ⟨daysInMonth_pos _ _, le_rfl⟩
  · have hprevious : daysBeforeYear e.year < daysBeforeYear d.year := by
      have hbefore := e.daysBeforeYear_lt_dayNumber
      have hfirst := dayNumber_of_firstDay (Nat.not_lt.1 hmonth) (Nat.not_lt.1 hday)
      omega
    have hearlier : e.year < d.year := by
      by_contra hle
      exact Int.not_lt.2 (daysBeforeYear_mono (by omega)) hprevious
    have hfirst := e.year_mem
    exact exists_ofParts? (by omega) ⟨by decide, le_rfl⟩ ⟨by decide, le_rfl⟩

theorem next?_eq_some_iff : d.next? = some e ↔ e.dayNumber = d.dayNumber + 1 := by
  refine ⟨dayNumber_next?, fun h => ?_⟩
  obtain ⟨f, hf⟩ := exists_next? (d := d) (e := e) (by omega)
  rw [hf, dayNumber_inj.1 ((dayNumber_next? hf).trans h.symm)]

theorem previous?_eq_some_iff : d.previous? = some e ↔ d.dayNumber = e.dayNumber + 1 := by
  refine ⟨dayNumber_previous?, fun h => ?_⟩
  obtain ⟨f, hf⟩ := exists_previous? (d := d) (e := e) (by omega)
  have hsame : f.dayNumber = e.dayNumber := by
    have hf' := dayNumber_previous? hf
    omega
  rw [hf, dayNumber_inj.1 hsame]

end Date

theorem compare_eq_compare_sub (a b : Int) : compare a b = compare 0 (b - a) := by
  rcases lt_trichotomy a b with h | rfl | h
  · rw [compare_lt_iff_lt.2 h, compare_lt_iff_lt.2 (by omega)]
  · rw [compare_eq_iff_eq.2 rfl, compare_eq_iff_eq.2 (by omega)]
  · rw [compare_gt_iff_gt.2 h, compare_gt_iff_gt.2 (by omega)]

theorem compare_digits {d a b r s : Int} (hr : 0 ≤ r ∧ r < d) (hs : 0 ≤ s ∧ s < d) :
    (compare a b).then (compare r s) = compare (d * a + r) (d * b + s) :=
  calc
    (compare a b).then (compare r s) = (compare a b).then (compare 0 (s - r)) := by
      rw [compare_eq_compare_sub r s]
    _ = compare (a * d) (b * d + (s - r)) :=
      (Binary64.compare_add_fraction (by omega) (by omega)).symm
    _ = compare (d * a + r) (d * b + s) := by
      rw [compare_eq_compare_sub, compare_eq_compare_sub (d * a + r)]
      exact congrArg (compare 0) (by ring)

theorem compare_natCast (m n : Nat) : compare (m : Int) n = compare m n := by
  rcases lt_trichotomy m n with h | rfl | h
  · rw [compare_lt_iff_lt.2 h, compare_lt_iff_lt.2 (Int.ofNat_lt.2 h)]
  · rw [compare_eq_iff_eq.2 rfl, compare_eq_iff_eq.2 rfl]
  · rw [compare_gt_iff_gt.2 h, compare_gt_iff_gt.2 (Int.ofNat_lt.2 h)]

namespace TimeOfDay

variable {s t : TimeOfDay}

def secondOfDay (t : TimeOfDay) : Nat := 60 * t.minuteOfDay + t.second

theorem minuteOfDay_lt (t : TimeOfDay) : t.minuteOfDay < 1440 := by
  have hhour := t.hour_lt
  have hminute := t.minute_lt
  unfold minuteOfDay
  omega

theorem secondOfDay_lt (t : TimeOfDay) : t.secondOfDay < 86400 := by
  have hminutes := t.minuteOfDay_lt
  have hsecond := t.second_lt
  unfold secondOfDay
  omega

theorem minuteOfDay_atMinute (t : TimeOfDay) {minutes : Nat} (h : minutes < 1440) :
    (t.atMinute minutes).minuteOfDay = minutes := by
  simp only [minuteOfDay, atMinute]
  omega

theorem secondOfDay_atMinute (t : TimeOfDay) {minutes : Nat} (h : minutes < 1440) :
    (t.atMinute minutes).secondOfDay = 60 * minutes + t.second := by
  rw [secondOfDay, minuteOfDay_atMinute t h]
  rfl

theorem compare_eq_secondOfDay (s t : TimeOfDay) :
    s.compare t = (Ord.compare s.secondOfDay t.secondOfDay).then (Ord.compare s.nano t.nano) := by
  have hminutes : (Ord.compare s.hour t.hour).then (Ord.compare s.minute t.minute) =
      Ord.compare s.minuteOfDay t.minuteOfDay := by
    have hs := s.minute_lt
    have ht := t.minute_lt
    simp only [← compare_natCast]
    exact compare_digits (d := 60) (by omega) (by omega)
  have hseconds : (Ord.compare s.minuteOfDay t.minuteOfDay).then (Ord.compare s.second t.second) =
      Ord.compare s.secondOfDay t.secondOfDay := by
    have hs := s.second_lt
    have ht := t.second_lt
    simp only [← compare_natCast]
    exact compare_digits (d := 60) (by omega) (by omega)
  rw [compare, ← Ordering.then_assoc, hminutes, ← Ordering.then_assoc, hseconds]

theorem eq_of_secondOfDay (hsecond : s.secondOfDay = t.secondOfDay) (hnano : s.nano = t.nano) : s = t := by
  have hs := s.second_lt
  have hs' := s.minute_lt
  have ht := t.second_lt
  have ht' := t.minute_lt
  unfold secondOfDay minuteOfDay at hsecond
  have hparts : s.hour = t.hour ∧ s.minute = t.minute ∧ s.second = t.second := by omega
  have hread := t.ofParts?_parts
  rw [← hparts.1, ← hparts.2.1, ← hparts.2.2, ← hnano, s.ofParts?_parts] at hread
  exact Option.some.inj hread

end TimeOfDay

namespace DateTime

variable {t u : DateTime}

/-- Seconds on a scale that starts a day before the year 1. Leap seconds are not counted: one is told apart
from the second before it by its nanoseconds alone. -/
def seconds (t : DateTime) : Int := 86400 * t.date.dayNumber + t.time.secondOfDay

theorem compare_eq_seconds (t u : DateTime) :
    t.compare u = (Ord.compare t.seconds u.seconds).then (Ord.compare t.time.nano u.time.nano) := by
  have ht := t.time.secondOfDay_lt
  have hu := u.time.secondOfDay_lt
  rw [compare, Date.compare_eq_dayNumber, TimeOfDay.compare_eq_secondOfDay, ← Ordering.then_assoc,
    ← compare_natCast t.time.secondOfDay, compare_digits (d := 86400) (by omega) (by omega)]
  rfl

theorem eq_of_seconds (hseconds : t.seconds = u.seconds) (hnano : t.time.nano = u.time.nano) : t = u := by
  have ht := t.time.secondOfDay_lt
  have hu := u.time.secondOfDay_lt
  unfold seconds at hseconds
  have hdate : t.date = u.date := Date.dayNumber_inj.1 (by omega)
  have htime : t.time = u.time := TimeOfDay.eq_of_secondOfDay (by omega) hnano
  cases t
  cases u
  cases hdate
  cases htime
  rfl

theorem shift?_eq_some_iff_parts {minutes : Int} (h : -1440 < minutes ∧ minutes < 1440) :
    t.shift? minutes = some u ↔
      u.time = t.time.atMinute (((t.time.minuteOfDay : Int) + minutes) % 1440).toNat ∧
        u.date.dayNumber = t.date.dayNumber + ((t.time.minuteOfDay : Int) + minutes) / 1440 := by
  have hminutes := t.time.minuteOfDay_lt
  obtain ⟨date, time⟩ := u
  simp only [shift?]
  generalize t.time.atMinute (((t.time.minuteOfDay : Int) + minutes) % 1440).toNat = clock
  have hdays : ((t.time.minuteOfDay : Int) + minutes) / 1440 = 0 ∨
      ((t.time.minuteOfDay : Int) + minutes) / 1440 = 1 ∨
        ((t.time.minuteOfDay : Int) + minutes) / 1440 = -1 := by omega
  have hmap (date? : Option Date) : date?.map (DateTime.mk · clock) = some ⟨date, time⟩ ↔
      time = clock ∧ date? = some date := by
    cases date? with
    | none => exact iff_of_false (nomatch ·) (nomatch ·.2)
    | some d =>
      rw [Option.map_some, Option.some.injEq, DateTime.mk.injEq, Option.some.injEq, and_comm]
      exact and_congr_left' eq_comm
  rcases hdays with hdays | hdays | hdays
  · rw [if_pos hdays, hdays, Int.add_zero, Date.dayNumber_inj]
    exact (hmap (some t.date)).trans (and_congr_right' (Option.some_inj.trans eq_comm))
  · rw [if_neg (by omega), if_pos hdays, hdays, hmap, Date.next?_eq_some_iff]
  · rw [if_neg (by omega), if_neg (by omega), if_pos hdays, hdays, hmap, Date.previous?_eq_some_iff]
    exact and_congr_right' ⟨fun h => by omega, fun h => by omega⟩

theorem shift?_eq_some_iff {minutes : Int} (h : -1440 < minutes ∧ minutes < 1440) :
    t.shift? minutes = some u ↔
      u.seconds = t.seconds + 60 * minutes ∧ u.time.nano = t.time.nano := by
  have hminutes := t.time.minuteOfDay_lt
  have hsecond := t.time.second_lt
  have hday := u.time.secondOfDay_lt
  have hclock : (((t.time.minuteOfDay : Int) + minutes) % 1440).toNat < 1440 := by omega
  have hread := t.time.secondOfDay_atMinute hclock
  have hsame : t.time.secondOfDay = 60 * t.time.minuteOfDay + t.time.second := rfl
  rw [shift?_eq_some_iff_parts h, seconds, seconds]
  constructor
  · rintro ⟨htime, hdate⟩
    rw [htime, hread, hdate]
    exact ⟨by omega, rfl⟩
  · rintro ⟨hseconds, hnano⟩
    refine ⟨TimeOfDay.eq_of_secondOfDay ?_ hnano, by omega⟩
    rw [hread]
    omega

end DateTime

end RecordQuery
