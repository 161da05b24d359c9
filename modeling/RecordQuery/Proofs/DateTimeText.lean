import Mathlib.Data.Nat.Digits.Defs
import RecordQuery.Calendar.Reading
import RecordQuery.Calendar.Text
import RecordQuery.Proofs.Renderings

/-! The text of a date-time is read back, by the first form without a zone: every part of a written stamp
is cut off the front of the text and leaves the rest. Fractions of any length and signed years are read as
they were, and so is a leap second that ends its minute. Any other leap second is written as the second
after it, and read as that. -/

namespace RecordQuery

namespace Text

theorem isDigit_padded (width n : Nat) : (padded width n).all Char.isDigit = true := by
  rw [padded, List.all_append, Numeral.isDigit_toDigits, Bool.and_true, List.all_eq_true]
  intro c hc
  rw [List.eq_of_mem_replicate hc]
  rfl

theorem length_padded_of_lt {width n : Nat} (hwidth : 0 < width) (hn : n < 10 ^ width) :
    (padded width n).length = width := by
  have hlength := Nat.toDigits_length 10 n width hwidth hn
  rw [padded, List.length_append, List.length_replicate]
  omega

theorem natOfDigits_take {ds : List Char} (hds : ds.all Char.isDigit = true) (n : Nat) :
    natOfDigits (ds.take n) = natOfDigits ds / 10 ^ (ds.length - n) := by
  have hlast : (ds.drop n).all Char.isDigit = true := by
    rw [← List.take_append_drop n ds, List.all_append, Bool.and_eq_true] at hds
    exact hds.2
  have hlt : natOfDigits (ds.drop n) < 10 ^ (ds.length - n) := List.length_drop (l := ds) ▸ ofDigitChars_lt hlast
  have hsplit : natOfDigits ds = 10 ^ (ds.length - n) * natOfDigits (ds.take n) + natOfDigits (ds.drop n) := by
    conv_lhs => rw [← List.take_append_drop n ds, natOfDigits, Nat.ofDigitChars_append,
      Nat.ofDigitChars_eq_ofDigitChars_zero, List.length_drop]
    rfl
  rw [hsplit, Nat.mul_add_div (Nat.pow_pos (by decide)), Nat.div_eq_of_lt hlt, Nat.add_zero]

theorem padded_ne_nil (width n : Nat) : padded width n ≠ [] :=
  List.append_ne_nil_of_right_ne_nil _ Nat.toDigits_ne_nil

theorem exists_padded (width n : Nat) : ∃ d ds, padded width n = d :: ds ∧ d.isDigit = true := by
  cases h : padded width n with
  | nil => exact absurd h (padded_ne_nil width n)
  | cons d ds =>
    have hall := isDigit_padded width n
    rw [h] at hall
    exact ⟨d, ds, rfl, List.all_eq_true.1 hall d List.mem_cons_self⟩

theorem isBlank_of_isDigit {c : Char} (h : c.isDigit = true) : isBlank c = false := by
  simp only [Char.isDigit, Bool.and_eq_true, decide_eq_true_eq] at h
  have hlow : 48 ≤ c.toNat := h.1
  have hhigh : c.toNat ≤ 57 := h.2
  refine Bool.eq_false_iff.2 fun hblank => ?_
  simp only [isBlank, Bool.or_eq_true, Bool.and_eq_true, decide_eq_true_eq, beq_iff_eq] at hblank
  omega

theorem isBlank_of_mem_padded {width n : Nat} : ∀ c ∈ padded width n, isBlank c = false :=
  fun c hc => isBlank_of_isDigit (List.all_eq_true.1 (isDigit_padded width n) c hc)

end Text

open Text (natOfDigits padded)

theorem isBlank_of_mem_yearChars {year : Int} : ∀ c ∈ yearChars year, Text.isBlank c = false := by
  unfold yearChars
  split_ifs with hyear hneg
  · exact Text.isBlank_of_mem_padded
  · exact List.forall_mem_cons.2 ⟨by decide, Text.isBlank_of_mem_padded⟩
  · exact List.forall_mem_cons.2 ⟨by decide, Text.isBlank_of_mem_padded⟩

namespace Date

theorem month_lt (d : Date) : d.month < 100 := by
  have hmonth := d.month_mem
  omega

theorem day_lt (d : Date) : d.day < 100 := by
  have hday := d.day_mem
  have hdays : daysInMonth d.year d.month ≤ 31 := by
    unfold daysInMonth
    split_ifs <;> decide
  omega

theorem chars_append (d : Date) (rest : List Char) : d.chars ++ rest =
    yearChars d.year ++ '-' :: (padded 2 d.month ++ '-' :: (padded 2 d.day ++ rest)) := by
  simp [chars]

theorem isBlank_of_mem_chars (d : Date) : ∀ c ∈ d.chars, Text.isBlank c = false := by
  have hnumber {n : Nat} : ∀ c ∈ padded 2 n, Text.isBlank c = false := Text.isBlank_of_mem_padded
  simp only [chars, List.forall_mem_append, List.forall_mem_cons]
  exact ⟨⟨isBlank_of_mem_yearChars, by decide, hnumber⟩, by decide, hnumber⟩

end Date

namespace TimeOfDay

/-- A leap second, where the time is in one, is the last of its minute. -/
def LeapEndsMinute (t : TimeOfDay) : Prop := 1000000000 ≤ t.nano → t.second = 59

instance (t : TimeOfDay) : Decidable t.LeapEndsMinute := inferInstanceAs (Decidable (_ → _))

def writtenSecond (t : TimeOfDay) : Nat := t.second + t.nano / 1000000000

/-- The time that the text of a time means: a leap second within a minute is written as the next second. -/
def asWritten (t : TimeOfDay) : TimeOfDay :=
  if h : 1000000000 ≤ t.nano ∧ t.second < 59 then
    { t with
      second := t.second + 1
      nano := t.nano - 1000000000
      second_lt := Nat.succ_lt_succ h.2
      nano_lt := Nat.lt_of_le_of_lt (Nat.sub_le _ _) t.nano_lt }
  else t

theorem asWritten_of_leapEndsMinute {t : TimeOfDay} (h : t.LeapEndsMinute) : t.asWritten = t :=
  dif_neg fun hleap => Nat.ne_of_lt hleap.2 (h hleap.1)

theorem asWritten_eq_self_iff {t : TimeOfDay} : t.asWritten = t ↔ t.LeapEndsMinute := by
  refine ⟨fun h hleap => ?_, asWritten_of_leapEndsMinute⟩
  have hsecond := t.second_lt
  by_contra hne
  have hlater : t.asWritten.second = t.second + 1 := by
    rw [asWritten, dif_pos ⟨hleap, by omega⟩]
  rw [h] at hlater
  exact Nat.ne_of_lt (Nat.lt_succ_self _) hlater

theorem writtenSecond_lt (t : TimeOfDay) : t.writtenSecond < 100 := by
  have hsecond := t.second_lt
  have hnano := t.nano_lt
  unfold writtenSecond
  omega

def clockChars (t : TimeOfDay) : List Char :=
  padded 2 t.hour ++ ':' :: padded 2 t.minute ++ ':' :: padded 2 t.writtenSecond

theorem clockChars_append (t : TimeOfDay) (rest : List Char) : t.clockChars ++ rest =
    padded 2 t.hour ++ ':' :: (padded 2 t.minute ++ ':' :: (padded 2 t.writtenSecond ++ rest)) := by
  simp [clockChars]

theorem chars_eq (t : TimeOfDay) : t.chars = t.clockChars ++ fractionChars (t.nano % 1000000000) := rfl

theorem chars_append (t : TimeOfDay) (rest : List Char) :
    t.chars ++ rest = t.clockChars ++ (fractionChars (t.nano % 1000000000) ++ rest) := List.append_assoc _ _ _

theorem isBlank_of_mem_clockChars (t : TimeOfDay) : ∀ c ∈ t.clockChars, Text.isBlank c = false := by
  have hnumber {n : Nat} : ∀ c ∈ padded 2 n, Text.isBlank c = false := Text.isBlank_of_mem_padded
  simp only [clockChars, List.forall_mem_append, List.forall_mem_cons]
  exact ⟨⟨hnumber, by decide, hnumber⟩, by decide, hnumber⟩

end TimeOfDay

theorem DateTime.chars_append (t : DateTime) (rest : List Char) :
    t.chars ++ rest = t.date.chars ++ 'T' :: (t.time.chars ++ rest) := by
  simp [chars]

/-- A fraction of a second as RFC 3339 has it: a point and digits that make up the nanoseconds exactly, or
nothing for a whole second. -/
inductive WritesFraction (nano : Nat) : List Char → Prop
  | none (h : nano = 0) : WritesFraction nano []
  | digits {ds : List Char} (hds : ds.all Char.isDigit = true) (hne : ds ≠ [])
    (h : natOfDigits ds * 10 ^ 9 = nano * 10 ^ ds.length) : WritesFraction nano ('.' :: ds)

theorem writesFraction_padded {nano width n : Nat} (hwidth : 0 < width) (hn : n < 10 ^ width)
    (h : n * 10 ^ 9 = nano * 10 ^ width) : WritesFraction nano ('.' :: padded width n) := by
  refine .digits (Text.isDigit_padded width n) (Text.padded_ne_nil width n) ?_
  rwa [Text.natOfDigits_padded, Text.length_padded_of_lt hwidth hn]

theorem writesFraction_chars {nano : Nat} (hnano : nano < 1000000000) :
    WritesFraction nano (fractionChars nano) := by
  unfold fractionChars
  split_ifs with hzero hmilli hmicro
  · exact .none hzero
  · exact writesFraction_padded (by decide) (by omega) (by omega)
  · exact writesFraction_padded (by decide) (by omega) (by omega)
  · exact writesFraction_padded (by decide) (by omega) (by omega)

theorem WritesFraction.isBlank_of_mem {nano : Nat} {cs : List Char} (h : WritesFraction nano cs) :
    ∀ c ∈ cs, Text.isBlank c = false := by
  cases h with
  | none => exact List.forall_mem_nil _
  | digits hds =>
    exact List.forall_mem_cons.2 ⟨by decide, fun c hc => Text.isBlank_of_isDigit (List.all_eq_true.1 hds c hc)⟩

namespace Scan

variable {α β : Type} {cs rest : List Char}

theorem bind_of_eq {m : Scan α} {f : α → Scan β} {a : α} (h : m cs = some (a, rest)) :
    (m >>= f) cs = f a rest := by
  change (m cs).bind _ = _
  rw [h]
  rfl

theorem bind_of_eq_none {m : Scan α} {f : α → Scan β} (h : m cs = none) : (m >>= f) cs = none := by
  change (m cs).bind _ = _
  rw [h]
  rfl

theorem whole_of_eq {scan : Scan α} {a : α} (h : scan cs = some (a, [])) : whole scan cs = some a := by
  change ((scan >>= _) cs).map _ = _
  rw [bind_of_eq h]
  rfl

theorem whole_of_eq_none {scan : Scan α} (h : scan cs = none) : whole scan cs = none := by
  change ((scan cs).bind _).map _ = _
  rw [h]
  rfl

theorem lift_eq (o : Option α) : (liftM o : Scan α) cs = o.map fun a => (a, cs) := by
  cases o <;> rfl

theorem char_cons {allowed : Char → Bool} {c : Char} (h : allowed c = true) :
    char allowed (c :: rest) = some (c, rest) := if_pos h

theorem literal_cons (c : Char) : literal c (c :: rest) = some ((), rest) := by
  change (char (· = c) >>= _) _ = _
  rw [bind_of_eq (char_cons (decide_eq_true rfl))]
  rfl

theorem digits_append {least most : Nat} {ds : List Char} (hds : ds.all Char.isDigit = true)
    (hleast : least ≤ ds.length) (hmost : ds.length ≤ most)
    (hrest : ds.length = most ∨ ∀ c ∈ rest.head?, c.isDigit = false) :
    digits least most (ds ++ rest) = some (natOfDigits ds, rest) := by
  have htaken : ((ds ++ rest).take most).takeWhile Char.isDigit = ds := by
    rw [List.take_append, List.take_of_length_le hmost,
      List.takeWhile_append_of_pos (List.all_eq_true.1 hds)]
    rcases hrest with rfl | hrest
    · rw [Nat.sub_self, List.take_zero, List.takeWhile_nil, List.append_nil]
    · have hnone : (rest.take (most - ds.length)).takeWhile Char.isDigit = [] := by
        cases rest with
        | nil => rw [List.take_nil, List.takeWhile_nil]
        | cons c rest =>
          cases most - ds.length with
          | zero => rfl
          | succ n => rw [List.take_succ_cons, List.takeWhile_cons_of_neg (by simp [hrest c rfl])]
      rw [hnone, List.append_nil]
  rw [digits, htaken, if_neg (Nat.not_lt.2 hleast), List.drop_left]

theorem digits_padded {least width n : Nat} (hleast : least ≤ width) (hwidth : 0 < width)
    (hn : n < 10 ^ width) : digits least width (padded width n ++ rest) = some (n, rest) := by
  have hlength := Text.length_padded_of_lt hwidth hn
  rw [digits_append (Text.isDigit_padded width n) (hlength.symm ▸ hleast) hlength.le (.inl hlength),
    Text.natOfDigits_padded]

theorem blanks_cons {c : Char} (h : Text.isBlank c = false) : blanks (c :: rest) = some ((), c :: rest) :=
  congrArg (fun cs => some ((), cs)) (Text.skipBlanks_cons h rest)

theorem get_eq : (get : Scan (List Char)) cs = some (cs, cs) := rfl

theorem set_eq (next : List Char) : (set next : Scan PUnit) cs = some (⟨⟩, next) := rfl

theorem blanks_padded (width n : Nat) : blanks (padded width n ++ rest) = some ((), padded width n ++ rest) := by
  obtain ⟨d, ds, hds, hd⟩ := Text.exists_padded width n
  rw [hds, List.cons_append, blanks_cons (Text.isBlank_of_isDigit hd)]

theorem fraction_digits {ds : List Char} (hds : ds.all Char.isDigit = true) (hne : ds ≠ [])
    (hrest : ∀ c ∈ rest.head?, c.isDigit = false) :
    fraction ('.' :: (ds ++ rest)) = some (nanoOfDigits ds, rest) := by
  have hempty : ds.isEmpty = false := List.isEmpty_eq_false_iff.2 hne
  simp [fraction, Text.takeDigits_append hds hrest, hempty]

theorem nanoOfDigits_eq {ds : List Char} (hds : ds.all Char.isDigit = true) :
    nanoOfDigits ds = natOfDigits ds * 10 ^ 9 / 10 ^ ds.length := by
  have hzeros : (ds ++ List.replicate 9 '0').all Char.isDigit = true := by
    rw [List.all_append, hds]
    rfl
  have hlength : (ds ++ List.replicate 9 '0').length = ds.length + 9 := by
    rw [List.length_append, List.length_replicate]
  have hvalue : natOfDigits (ds ++ List.replicate 9 '0') = natOfDigits ds * 10 ^ 9 := by
    rw [natOfDigits, Nat.ofDigitChars_append, Nat.ofDigitChars_replicate_zero, Nat.mul_comm]
    rfl
  rw [nanoOfDigits, Text.natOfDigits_take hzeros, hvalue, hlength, Nat.add_sub_cancel]

theorem fraction_of_writes {nano : Nat} {cs : List Char} (h : WritesFraction nano cs)
    (hrest : ∀ c ∈ rest.head?, c.isDigit = false ∧ c ≠ '.') : fraction (cs ++ rest) = some (nano, rest) := by
  cases h with
  | none hzero =>
    subst hzero
    cases rest with
    | nil => rfl
    | cons c rest => exact fraction.eq_2 _ fun _ h => (hrest c rfl).2 (List.cons.inj h).1
  | digits hds hne hvalue =>
    rw [List.cons_append, fraction_digits hds hne fun c hc => (hrest c hc).1, nanoOfDigits_eq hds, hvalue,
      Nat.mul_div_cancel _ (Nat.pow_pos (by decide))]

theorem clock?_writtenSecond (t : TimeOfDay) :
    clock? t.hour t.minute t.writtenSecond (t.nano % 1000000000) = some t.asWritten := by
  have hsecond := t.second_lt
  have hnano := t.nano_lt
  have hparts := t.asWritten.ofParts?_parts
  unfold clock? TimeOfDay.writtenSecond
  unfold TimeOfDay.asWritten at hparts ⊢
  by_cases hleap : 1000000000 ≤ t.nano
  · have hdiv : t.nano / 1000000000 = 1 := by omega
    have hmod : t.nano % 1000000000 = t.nano - 1000000000 := by omega
    rw [hdiv, hmod]
    by_cases hlast : t.second < 59
    · rw [dif_pos ⟨hleap, hlast⟩] at hparts ⊢
      rw [if_neg (by omega)]
      exact hparts
    · -- only the second 60 is read with over a second of nanoseconds
      have h59 : t.second = 59 := by omega
      rw [dif_neg fun h => hlast h.2] at hparts ⊢
      rw [if_pos (by omega), Nat.sub_add_cancel hleap, ← h59]
      exact hparts
  · rw [dif_neg fun h => hleap h.1] at hparts ⊢
    rw [if_neg (by omega), Nat.div_eq_of_lt (by omega), Nat.mod_eq_of_lt (by omega)]
    exact hparts

end Scan

namespace DateTime

open Scan

def asWritten (t : DateTime) : DateTime := ⟨t.date, t.time.asWritten⟩

theorem asWritten_eq_self_iff {t : DateTime} : t.asWritten = t ↔ t.time.LeapEndsMinute :=
  ⟨fun h => TimeOfDay.asWritten_eq_self_iff.1 (congrArg time h),
    fun h => congrArg (mk t.date) (TimeOfDay.asWritten_of_leapEndsMinute h)⟩

variable {rest : List Char}

theorem openNumber_padded {n : Nat} (hn : n < 100) :
    openNumber (padded 2 n ++ rest) = some (n, rest) := by
  rw [openNumber, bind_of_eq (blanks_padded 2 n)]
  exact digits_padded (by decide) (by decide) hn

theorem openYear_padded {n : Nat} (hn : n < 10000) :
    openYear (padded 4 n ++ rest) = some ((n : Int), rest) := by
  have hdigits : digits 1 4 (padded 4 n ++ rest) = some (n, rest) :=
    digits_padded (by decide) (by decide) hn
  obtain ⟨d, ds, hds, hd⟩ := Text.exists_padded 4 n
  have hminus : d ≠ '-' := by rintro rfl; cases hd
  have hplus : d ≠ '+' := by rintro rfl; cases hd
  rw [openYear, bind_of_eq (blanks_padded 4 n), bind_of_eq get_eq]
  rw [hds, List.cons_append] at hdigits ⊢
  simp only [List.cons.injEq, hminus, hplus, false_and, imp_self, implies_true]
  exact bind_of_eq hdigits

theorem openYear_minus {cs : List Char} {n : Nat} (h : digits 1 cs.length cs = some (n, rest)) :
    openYear ('-' :: cs) = some (-(n : Int), rest) := by
  rw [openYear, bind_of_eq (blanks_cons (by decide)), bind_of_eq get_eq]
  exact (bind_of_eq (set_eq cs)).trans (bind_of_eq h)

theorem openYear_plus {cs : List Char} {n : Nat} (h : digits 1 cs.length cs = some (n, rest)) :
    openYear ('+' :: cs) = some ((n : Int), rest) := by
  rw [openYear, bind_of_eq (blanks_cons (by decide)), bind_of_eq get_eq]
  exact (bind_of_eq (set_eq cs)).trans (bind_of_eq h)

theorem openYear_chars {year : Int} (hrest : ∀ c ∈ rest.head?, c.isDigit = false) :
    openYear (yearChars year ++ rest) = some (year, rest) := by
  by_cases hyear : 0 ≤ year ∧ year ≤ 9999
  · rw [yearChars, if_pos hyear, openYear_padded (by omega), Int.natAbs_of_nonneg hyear.1]
  · have hlength := Text.length_padded 4 year.natAbs
    have hdigits : digits 1 (padded 4 year.natAbs ++ rest).length (padded 4 year.natAbs ++ rest) =
        some (year.natAbs, rest) := by
      rw [digits_append (Text.isDigit_padded 4 _) (by omega) (by simp) (.inr hrest),
        Text.natOfDigits_padded]
    rw [yearChars, if_neg hyear, List.cons_append]
    split_ifs with hneg
    · have hvalue : -(year.natAbs : Int) = year := by omega
      rw [openYear_minus hdigits, hvalue]
    · have hvalue : (year.natAbs : Int) = year := by omega
      rw [openYear_plus hdigits, hvalue]

theorem openDate_chars (d : Date) : openDate (d.chars ++ rest) = some (d, rest) := by
  rw [d.chars_append, openDate, bind_of_eq (openYear_chars (by simp)), bind_of_eq (literal_cons '-'),
    bind_of_eq (openNumber_padded d.month_lt), bind_of_eq (literal_cons '-'),
    bind_of_eq (openNumber_padded d.day_lt), d.ofParts?_parts]
  rfl

theorem openTime_chars (t : TimeOfDay) (hrest : ∀ c ∈ rest.head?, c.isDigit = false ∧ c ≠ '.') :
    openTime (t.chars ++ rest) = some (t.asWritten, rest) := by
  have hhour := t.hour_lt
  have hminute := t.minute_lt
  have hnano : t.nano % 1000000000 < 1000000000 := Nat.mod_lt _ (by decide)
  rw [t.chars_append, t.clockChars_append, openTime, bind_of_eq (openNumber_padded (by omega)),
    bind_of_eq (literal_cons ':'), bind_of_eq (openNumber_padded (by omega)), bind_of_eq (literal_cons ':'),
    bind_of_eq (openNumber_padded t.writtenSecond_lt),
    bind_of_eq (fraction_of_writes (writesFraction_chars hnano) hrest), clock?_writtenSecond]
  rfl

theorem openForm_chars (t : DateTime) : openForm (literal 'T') t.chars = some (t.asWritten, []) := by
  have htime : openTime (t.time.chars ++ []) = some (t.time.asWritten, []) := openTime_chars t.time (by simp)
  rw [List.append_nil] at htime
  rw [DateTime.chars, openForm, bind_of_eq (openDate_chars t.date), bind_of_eq (literal_cons 'T'),
    bind_of_eq htime]
  rfl

/-- With four digits for its year, a date-time is the front of a zoned stamp: its offset is still to come. -/
theorem zoned_append {t : DateTime} (hyear : 0 ≤ t.date.year ∧ t.date.year ≤ 9999) {cs : List Char}
    (hfraction : WritesFraction (t.time.nano % 1000000000) cs)
    (hrest : ∀ c ∈ rest.head?, c.isDigit = false ∧ c ≠ '.') :
    zoned (t.date.chars ++ 'T' :: (t.time.clockChars ++ (cs ++ rest))) =
      (offset rest).bind fun p => (t.asWritten.shift? (-p.1)).map fun u => (u, p.2) := by
  have hhour := t.time.hour_lt
  have hminute := t.time.minute_lt
  have htwo {n : Nat} {cs : List Char} (hn : n < 100) : digits 2 2 (padded 2 n ++ cs) = some (n, cs) :=
    digits_padded (by decide) (by decide) hn
  rw [t.date.chars_append, t.time.clockChars_append, yearChars, if_pos hyear, zoned,
    bind_of_eq (digits_padded (by decide) (by decide) (by omega)),
    bind_of_eq (literal_cons '-'), bind_of_eq (htwo t.date.month_lt),
    bind_of_eq (literal_cons '-'), bind_of_eq (htwo t.date.day_lt), bind_of_eq (char_cons (by decide)),
    bind_of_eq (htwo (by omega)), bind_of_eq (literal_cons ':'), bind_of_eq (htwo (by omega)),
    bind_of_eq (literal_cons ':'), bind_of_eq (htwo t.time.writtenSecond_lt),
    bind_of_eq (fraction_of_writes hfraction hrest), Int.natAbs_of_nonneg hyear.1, Date.ofParts?_parts,
    clock?_writtenSecond]
  change (offset rest).bind _ = _
  refine congrArg _ (funext fun ⟨east, cs⟩ => ?_)
  exact (bind_of_eq (lift_eq (some t.date))).trans
    ((bind_of_eq (lift_eq (some t.time.asWritten))).trans (lift_eq (t.asWritten.shift? (-east))))

theorem whole_zoned_chars (t : DateTime) : whole zoned t.chars = none := by
  by_cases hyear : 0 ≤ t.date.year ∧ t.date.year ≤ 9999
  · -- the text ends where an offset has to follow
    have hfraction := writesFraction_chars (Nat.mod_lt t.time.nano (by decide : 1000000000 > 0))
    have hzoned : zoned (t.chars ++ []) = none := by
      rw [t.chars_append, t.time.chars_append]
      exact zoned_append hyear hfraction (by simp)
    rw [List.append_nil] at hzoned
    exact whole_of_eq_none hzoned
  · have hsign : ∃ c cs, t.chars = c :: cs ∧ c.isDigit = false := by
      simp only [chars, Date.chars, yearChars, if_neg hyear, List.cons_append]
      exact ⟨_, _, rfl, by split <;> rfl⟩
    obtain ⟨c, cs, hcs, hc⟩ := hsign
    rw [hcs, zoned]
    refine whole_of_eq_none (bind_of_eq_none ?_)
    simp [digits, hc]

theorem ofChars?_chars (t : DateTime) : ofChars? t.chars = some t.asWritten := by
  rw [ofChars?, whole_zoned_chars, whole_of_eq (openForm_chars t)]
  rfl

theorem isBlank_of_mem_chars (t : DateTime) : ∀ c ∈ t.chars, Text.isBlank c = false := by
  have hfraction := writesFraction_chars (Nat.mod_lt t.time.nano (by decide : 1000000000 > 0))
  rw [chars, TimeOfDay.chars_eq, List.forall_mem_append, List.forall_mem_cons, List.forall_mem_append]
  exact ⟨t.date.isBlank_of_mem_chars, by decide, t.time.isBlank_of_mem_clockChars, hfraction.isBlank_of_mem⟩

end DateTime

end RecordQuery
