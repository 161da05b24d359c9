import RecordQuery.Proofs.DayNumbers
import RecordQuery.Proofs.QuotedValues

/-! Date-time literals with an offset. The local time that clocks show at an instant, written as RFC 3339
has it with the offset behind it, is read as the instant itself, whatever the offset. Only a leap second
within a minute is written, and so read, as the second after it. -/

namespace RecordQuery

open Text (padded)

def offsetChars (minutes : Nat) : List Char := padded 2 (minutes / 60) ++ ':' :: padded 2 (minutes % 60)

inductive WritesOffset : Int → List Char → Prop
  | zulu : WritesOffset 0 ['Z']
  | plus (minutes : Nat) : WritesOffset minutes ('+' :: offsetChars minutes)
  | minus (minutes : Nat) : WritesOffset (-minutes) ('-' :: offsetChars minutes)

theorem isBlank_of_mem_offsetChars (minutes : Nat) : ∀ c ∈ offsetChars minutes, Text.isBlank c = false := by
  rw [offsetChars, List.forall_mem_append, List.forall_mem_cons]
  exact ⟨Text.isBlank_of_mem_padded, by decide, Text.isBlank_of_mem_padded⟩

namespace WritesOffset

variable {east : Int} {cs : List Char}

theorem isBlank_of_mem (h : WritesOffset east cs) : ∀ c ∈ cs, Text.isBlank c = false := by
  cases h with
  | zulu => exact List.forall_mem_singleton.2 (by decide)
  | plus minutes => exact List.forall_mem_cons.2 ⟨by decide, isBlank_of_mem_offsetChars minutes⟩
  | minus minutes => exact List.forall_mem_cons.2 ⟨by decide, isBlank_of_mem_offsetChars minutes⟩

theorem head?_spec (h : WritesOffset east cs) : ∀ c ∈ cs.head?, c.isDigit = false ∧ c ≠ '.' := by
  cases h <;> simp

end WritesOffset

namespace DateTime

open Scan

theorem offset_signed {sign : Char} (hsign : sign = '+' ∨ sign = '-') {minutes : Nat} (h : minutes < 1440) :
    offset (sign :: offsetChars minutes) =
      some (if sign = '+' then (minutes : Int) else -(minutes : Int), []) := by
  have hallowed : (sign = 'Z' || sign = 'z' || sign = '+' || sign = '-' || sign = '\u2212') = true := by
    rcases hsign with rfl | rfl <;> rfl
  have hletter : ¬ (sign = 'Z' || sign = 'z') = true := by
    rcases hsign with rfl | rfl <;> decide
  have hhours : digits 2 2 (offsetChars minutes) = some (minutes / 60, ':' :: padded 2 (minutes % 60)) :=
    digits_padded (by decide) (by decide) (by omega)
  have hminutes : digits 2 2 (padded 2 (minutes % 60) ++ []) = some (minutes % 60, []) :=
    digits_padded (by decide) (by decide) (by omega)
  rw [List.append_nil] at hminutes
  have hrange : ¬ (24 ≤ minutes / 60 || 60 ≤ minutes % 60) = true := by
    simp only [Bool.or_eq_true, decide_eq_true_eq]
    omega
  rw [offset, bind_of_eq (char_cons hallowed), if_neg hletter, bind_of_eq hhours, bind_of_eq (literal_cons ':'),
    bind_of_eq hminutes]
  simp only [if_neg hrange, Nat.div_add_mod]
  rfl

theorem offset_of_writes {east : Int} {cs : List Char} (h : WritesOffset east cs)
    (heast : -1440 < east ∧ east < 1440) : offset cs = some (east, []) := by
  cases h with
  | zulu => rfl
  | plus minutes => exact offset_signed (.inl rfl) (by omega)
  | minus minutes => exact offset_signed (.inr rfl) (by omega)

/-- The local time that clocks show at an instant where they are ahead of universal time by some minutes. -/
structure IsLocalTime (t clock : DateTime) (east : Int) : Prop where
  seconds : clock.seconds = t.seconds + 60 * east
  nano : clock.time.nano = t.time.nano

theorem seconds_asWritten (t : DateTime) : t.asWritten.seconds =
    t.seconds + (if 1000000000 ≤ t.time.nano ∧ t.time.second < 59 then 1 else 0 : Nat) := by
  have hday : t.time.asWritten.secondOfDay =
      t.time.secondOfDay + if 1000000000 ≤ t.time.nano ∧ t.time.second < 59 then 1 else 0 := by
    unfold TimeOfDay.asWritten
    split <;> rfl
  rw [seconds, seconds, Int.add_assoc, ← Int.natCast_add, ← hday]
  rfl

theorem nano_asWritten (t : DateTime) : t.asWritten.time.nano =
    if 1000000000 ≤ t.time.nano ∧ t.time.second < 59 then t.time.nano - 1000000000 else t.time.nano := by
  unfold asWritten TimeOfDay.asWritten
  split <;> rfl

theorem IsLocalTime.second {t clock : DateTime} {east : Int} (h : t.IsLocalTime clock east) :
    clock.time.second = t.time.second := by
  have hseconds := h.seconds
  have hclock := clock.time.second_lt
  have ht := t.time.second_lt
  unfold DateTime.seconds TimeOfDay.secondOfDay at hseconds
  omega

theorem IsLocalTime.asWritten {t clock : DateTime} {east : Int} (h : t.IsLocalTime clock east) :
    t.asWritten.IsLocalTime clock.asWritten east := by
  constructor
  · rw [seconds_asWritten, seconds_asWritten, h.second, h.nano, h.seconds]
    omega
  · rw [nano_asWritten, nano_asWritten, h.second, h.nano]

theorem IsLocalTime.shift? {t clock : DateTime} {east : Int} (h : t.IsLocalTime clock east)
    (heast : -1440 < east ∧ east < 1440) : clock.shift? (-east) = some t := by
  have hseconds := h.seconds
  exact (shift?_eq_some_iff ⟨by omega, by omega⟩).2 ⟨by omega, h.nano.symm⟩

/-- The texts that RFC 3339 has for an instant, its letters written as capitals: the local time at an offset of
less than a day, a year of four digits in it, and the offset. -/
inductive WritesStamp (t : DateTime) : List Char → Prop
  | mk {clock : DateTime} {east : Int} {fraction suffix : List Char} (hlocal : t.IsLocalTime clock east)
    (heast : -1440 < east ∧ east < 1440) (hyear : 0 ≤ clock.date.year ∧ clock.date.year ≤ 9999)
    (hfraction : WritesFraction (clock.time.nano % 1000000000) fraction) (hsuffix : WritesOffset east suffix) :
    WritesStamp t (clock.date.chars ++ 'T' :: (clock.time.clockChars ++ (fraction ++ suffix)))

variable {t u : DateTime} {cs : List Char}

theorem WritesStamp.isBlank_of_mem (h : t.WritesStamp cs) : ∀ c ∈ cs, Text.isBlank c = false := by
  cases h with
  | @mk clock _ _ _ _ _ _ hfraction hsuffix =>
    rw [List.forall_mem_append, List.forall_mem_cons, List.forall_mem_append, List.forall_mem_append]
    exact ⟨clock.date.isBlank_of_mem_chars, by decide, clock.time.isBlank_of_mem_clockChars,
      hfraction.isBlank_of_mem, hsuffix.isBlank_of_mem⟩

theorem writesStamp_chars {clock : DateTime} {east : Int} (hlocal : t.IsLocalTime clock east)
    (heast : -1440 < east ∧ east < 1440) (hyear : 0 ≤ clock.date.year ∧ clock.date.year ≤ 9999)
    (hsuffix : WritesOffset east cs) : t.WritesStamp (clock.chars ++ cs) := by
  rw [clock.chars_append, clock.time.chars_append]
  exact .mk hlocal heast hyear (writesFraction_chars (Nat.mod_lt _ (by decide))) hsuffix

theorem ofChars?_of_writesStamp (h : t.WritesStamp cs) : ofChars? cs = some t.asWritten := by
  cases h with
  | @mk clock east fraction suffix hlocal heast hyear hfraction hsuffix =>
    have hzoned : zoned (clock.date.chars ++ 'T' :: (clock.time.clockChars ++ (fraction ++ suffix))) =
        some (t.asWritten, []) := by
      rw [zoned_append hyear hfraction hsuffix.head?_spec, offset_of_writes hsuffix heast, Option.bind_some,
        hlocal.asWritten.shift? heast]
      rfl
    rw [ofChars?, whole_of_eq hzoned]
    rfl

def ZonedLiteral (t : DateTime) (text : String) : Prop :=
  ∃ before cs after : List Char, text.toList = before ++ cs ++ after ∧ t.WritesStamp cs ∧
    (∀ c ∈ before, Text.isBlank c = true) ∧ ∀ c ∈ after, Text.isBlank c = true

/-- The order of instants in time. A leap second is after the second that it follows, and before the next. -/
def compareInstants (t u : DateTime) : Ordering :=
  (Ord.compare t.seconds u.seconds).then (Ord.compare t.time.nano u.time.nano)

theorem compareInstants_eq_eq : t.compareInstants u = .eq ↔ t = u := by
  rw [compareInstants, Ordering.then_eq_eq, compare_eq_iff_eq, compare_eq_iff_eq]
  constructor
  · rintro ⟨hseconds, hnano⟩
    exact eq_of_seconds hseconds hnano
  · rintro rfl
    exact ⟨rfl, rfl⟩

end DateTime

namespace Kind

variable {t u : DateTime} {text other : String}

theorem coerce_zonedLiteral (h : t.ZonedLiteral text) :
    Kind.dateTime.coerce text = .ok (.dateTime t.asWritten) := by
  obtain ⟨before, cs, after, htext, hstamp, hbefore, hafter⟩ := h
  have hread : Kind.dateTime.carrierOf? text = some t.asWritten := by
    rw [carrierOf?, htext, Text.trimChars_append hbefore hstamp.isBlank_of_mem hafter]
    exact DateTime.ofChars?_of_writesStamp hstamp
  rw [coerce, hread]
  rfl

/-- A literal with an offset is read as the instant it is written for, unless that is in a leap second within
a minute. Two of them are the same value exactly when they are written for the same instant, and otherwise
compare as the instants do. -/
theorem coerce_zonedLiterals (ht : t.ZonedLiteral text) (hu : u.ZonedLiteral other) :
    ∃ v w, Kind.dateTime.coerce text = .ok v ∧ Kind.dateTime.coerce other = .ok w ∧
      (v = .dateTime t ↔ t.time.LeapEndsMinute) ∧
      (t.time.LeapEndsMinute → u.time.LeapEndsMinute → (v = w ↔ t.compareInstants u = .eq) ∧
        v.compare? w = some (t.compareInstants u) ∧ v.sortCompare w = t.compareInstants u) := by
  have hcompare : t.compare u = t.compareInstants u := DateTime.compare_eq_seconds t u
  refine ⟨_, _, coerce_zonedLiteral ht, coerce_zonedLiteral hu, ?_, fun htleap huleap => ?_⟩
  · rw [Value.dateTime.injEq, DateTime.asWritten_eq_self_iff]
  rw [DateTime.asWritten_eq_self_iff.2 htleap, DateTime.asWritten_eq_self_iff.2 huleap]
  refine ⟨?_, ?_, ?_⟩
  · rw [Value.dateTime.injEq, DateTime.compareInstants_eq_eq]
  · exact congrArg some hcompare
  · exact hcompare

end Kind

def clockNear : DateTime := (leapInstant.shift? 1).getD leapInstant

def clockFar : DateTime := (leapInstant.shift? 1439).getD leapInstant

theorem near_zonedLiteral : leapInstant.ZonedLiteral " 0000-01-01T00:00:60.9999999980+00:01\n" := by
  have hlocal : leapInstant.IsLocalTime clockNear 1 := ⟨by decide, rfl⟩
  have hfraction : WritesFraction 999999998 ('.' :: "9999999980".toList) :=
    .digits (by decide) (by decide) (by decide)
  exact ⟨[' '], _, ['\n'], by decide, .mk hlocal (by decide) (by decide) hfraction (.plus 1),
    List.forall_mem_singleton.2 rfl, List.forall_mem_singleton.2 rfl⟩

theorem far_zonedLiteral : leapInstant.ZonedLiteral "0000-01-01T23:58:60.999999998+23:59" := by
  have hlocal : leapInstant.IsLocalTime clockFar 1439 := ⟨by decide, rfl⟩
  exact ⟨[], _, [], by decide, DateTime.writesStamp_chars hlocal (by decide) (by decide) (.plus 1439),
    List.forall_mem_nil _, List.forall_mem_nil _⟩

theorem yearZero_zonedLiteral : (DateTime.atMidnight clockNear.date).ZonedLiteral "0000-01-01T00:00:00Z" := by
  have hlocal : (DateTime.atMidnight clockNear.date).IsLocalTime (.atMidnight clockNear.date) 0 := ⟨rfl, rfl⟩
  exact ⟨[], _, [], by decide, DateTime.writesStamp_chars hlocal (by decide) (by decide) .zulu,
    List.forall_mem_nil _, List.forall_mem_nil _⟩

theorem leapInstant_coerced :
    Kind.dateTime.coerce " 0000-01-01T00:00:60.9999999980+00:01\n" = .ok (.dateTime leapInstant) ∧
      Kind.dateTime.coerce "0000-01-01T23:58:60.999999998+23:59" = .ok (.dateTime leapInstant) ∧
      ∃ w, Kind.dateTime.coerce "0000-01-01T00:00:00Z" = .ok w ∧
        (Value.dateTime leapInstant).compare? w = some .lt := by
  have hleap : leapInstant.time.LeapEndsMinute := by decide
  obtain ⟨v, w, hv, hw, hread, hpair⟩ := Kind.coerce_zonedLiterals near_zonedLiteral far_zonedLiteral
  obtain rfl := hread.2 hleap
  obtain rfl := (hpair hleap hleap).1.2 (DateTime.compareInstants_eq_eq.2 rfl)
  obtain ⟨v, zero, -, hzero, hread, hpair⟩ := Kind.coerce_zonedLiterals near_zonedLiteral yearZero_zonedLiteral
  obtain rfl := hread.2 hleap
  exact ⟨hv, hw, zero, hzero, (hpair hleap (by decide)).2.1⟩

theorem inner_zonedLiteral : innerLeap.ZonedLiteral "2016-07-14T12:34:05.333333333Z" := by
  have hlocal : innerLeap.IsLocalTime innerLeap 0 := ⟨rfl, rfl⟩
  exact ⟨[], _, [], by decide, DateTime.writesStamp_chars hlocal (by decide) (by decide) .zulu,
    List.forall_mem_nil _, List.forall_mem_nil _⟩

/-- A leap second within a minute is written as the second after it. -/
theorem not_coerce_zonedLiterals : ¬ ∀ (t : DateTime) (text : String), t.ZonedLiteral text →
    Kind.dateTime.coerce text = .ok (.dateTime t) := by
  intro hall
  have hread := hall innerLeap _ inner_zonedLiteral
  rw [Kind.coerce_zonedLiteral inner_zonedLiteral] at hread
  have hne : innerLeap.asWritten ≠ innerLeap := by decide
  exact hne (Value.dateTime.inj (Except.ok.inj hread))

end RecordQuery
