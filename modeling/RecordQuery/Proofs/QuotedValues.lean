import RecordQuery.Proofs.DateTimeText
import RecordQuery.Proofs.Relations

/-! Values as literals. The shown text of a value that is no float is read back as that value, unless it is
a date-time in a leap second within a minute, so that a clause against a second selector and the clause
against the quoted value found there agree. -/

namespace RecordQuery

namespace Text

theorem trimChars_word {word : List Char} (h : ∀ c ∈ word, isBlank c = false) :
    trimChars word = word := by
  have htrim : trimChars ([] ++ word ++ []) = word := trimChars_append (by simp) h (by simp)
  rwa [List.nil_append, List.append_nil] at htrim

theorem takeSign_of_isDigit {d : Char} (hd : d.isDigit = true) (ds : List Char) :
    takeSign (d :: ds) = (false, d :: ds) := by
  unfold takeSign
  split
  · next h => exact absurd ((List.cons.inj h).1 ▸ hd) (by decide)
  · next h => exact absurd ((List.cons.inj h).1 ▸ hd) (by decide)
  · rfl

end Text

namespace Numeral

theorem chars_ofInt (n : Int) :
    (ofInt n).chars = (if n < 0 then ['-'] else []) ++ Nat.toDigits 10 n.natAbs := by
  simp [chars, ofInt]

theorem readInt?_ofInt (n : Int) : Text.readInt? (ofInt n).chars = some n := by
  refine Text.readInt?_of_takeSign ?_
  rw [chars_ofInt]
  by_cases hn : n < 0
  · rw [if_pos hn, decide_eq_true hn]
    rfl
  · rw [if_neg hn, decide_eq_false hn, List.nil_append]
    have hall := isDigit_toDigits n.natAbs
    cases hds : Nat.toDigits 10 n.natAbs with
    | nil => exact absurd hds Nat.toDigits_ne_nil
    | cons d ds =>
      rw [hds] at hall
      exact Text.takeSign_of_isDigit (List.all_eq_true.1 hall d List.mem_cons_self) ds

theorem isBlank_of_mem_ofInt {n : Int} : ∀ c ∈ (ofInt n).chars, Text.isBlank c = false := by
  rw [chars_ofInt, List.forall_mem_append]
  constructor
  · split
    · exact List.forall_mem_singleton.2 (by decide)
    · exact List.forall_mem_nil _
  · intro c hc
    exact Text.isBlank_of_isDigit (List.all_eq_true.1 (isDigit_toDigits n.natAbs) c hc)

end Numeral

theorem int64OfChars?_ofInt (n : Int64) : int64OfChars? (Numeral.ofInt n.toInt).chars = some n := by
  have hmem : Int64.minValue.toInt ≤ n.toInt ∧ n.toInt ≤ Int64.maxValue.toInt :=
    ⟨n.le_toInt, Int.le_of_lt_add_one n.toInt_lt⟩
  rw [int64OfChars?, Numeral.readInt?_ofInt]
  change (if _ then _ else _) = _
  rw [if_pos hmem, Int64.ofInt_toInt]

def Kind.asWritten : (k : Kind) → k.Carrier → k.Carrier
  | .dateTime, t => DateTime.asWritten t
  | _, x => x

namespace Value

def LeapEndsMinute : Value → Prop
  | .dateTime t => t.time.LeapEndsMinute
  | _ => True

def asWritten : Value → Value
  | .dateTime t => .dateTime t.asWritten
  | v => v

theorem asWritten_ofCarrier (k : Kind) (x : k.Carrier) :
    (ofCarrier k x).asWritten = ofCarrier k (k.asWritten x) := by
  cases k <;> rfl

theorem asWritten_eq_self_iff {v : Value} : v.asWritten = v ↔ v.LeapEndsMinute := by
  cases v with
  | dateTime t => exact (Value.dateTime.injEq _ _).to_iff.trans DateTime.asWritten_eq_self_iff
  | _ => exact iff_of_true rfl trivial

end Value

namespace Kind

theorem carrierOf?_display {k : Kind} (hk : k ≠ .float) (x : k.Carrier) :
    k.carrierOf? (Value.ofCarrier k x).display = some (k.asWritten x) := by
  cases k with
  | integer =>
    have htrim := Text.trimChars_word (Numeral.isBlank_of_mem_ofInt (n := Int64.toInt x))
    simp only [carrierOf?, Value.ofCarrier, Value.display, Numeral.text, String.toList_ofList, htrim]
    exact int64OfChars?_ofInt x
  | float => exact absurd rfl hk
  | text => rfl
  | dateTime =>
    have htrim := Text.trimChars_word (DateTime.isBlank_of_mem_chars x)
    simp only [carrierOf?, Value.ofCarrier, Value.display, DateTime.text, String.toList_ofList, htrim]
    exact DateTime.ofChars?_chars x
  | boolean => cases x <;> rfl

theorem coerce_display {k : Kind} {v : Value} (hv : v.kind? = some k) (hk : k ≠ .float) :
    k.coerce v.display = .ok v.asWritten := by
  obtain ⟨x, rfl⟩ := Value.exists_ofCarrier hv
  rw [coerce, carrierOf?_display hk, Value.asWritten_ofCarrier]

theorem coerce_display_eq_iff {k : Kind} {v : Value} (hv : v.kind? = some k) (hk : k ≠ .float) :
    k.coerce v.display = .ok v ↔ v.LeapEndsMinute := by
  rw [coerce_display hv hk, Except.ok.injEq, Value.asWritten_eq_self_iff]

end Kind

namespace Schema

variable {s : Schema} {path other : String} {left right : Selector} {op : Operator}

theorem ne_empty_of_resolve (h : s.resolve path = .ok left) : path.isEmpty = false := by
  refine Bool.eq_false_iff.2 fun hempty => ?_
  obtain rfl := String.isEmpty_iff.1 hempty
  cases h

theorem compileClause_quoted {v : Value} (hl : s.resolve path = .ok left) (hop : op ≠ .among)
    (hv : v.kind? = some left.kind) (hfloat : left.kind ≠ .float) :
    s.compileClause (.relating path op ("'" ++ v.display ++ "'")) = .ok ⟨left, op, .literal v.asWritten⟩ := by
  have hne : ("'" ++ v.display ++ "'").isEmpty = false := by simp
  have hvalue : s.compileValue left ("'" ++ v.display ++ "'") = .ok (.literal v.asWritten) :=
    compileValue_eq_ok.2 (.inl ⟨_, v.asWritten, unquote?_eq_some.2 rfl, Kind.coerce_display hv hfloat, rfl⟩)
  exact (compileClause_relating hop).2 ⟨hl, rfl, hne, hvalue⟩

theorem compileClause_field (hl : s.resolve path = .ok left) (hr : s.resolve other = .ok right)
    (hop : op ≠ .among) (hkind : left.kind = right.kind)
    (hother : ∀ content, other ≠ "'" ++ content ++ "'") :
    s.compileClause (.relating path op other) = .ok ⟨left, op, .field right⟩ := by
  have hquote : unquote? other = none :=
    Option.eq_none_iff_forall_ne_some.2 fun content h => hother content (unquote?_eq_some.1 h)
  have hcomparable : left.kind.comparableWith right.kind = true := by
    rw [hkind]
    simp [Kind.comparableWith]
  have hvalue : s.compileValue left other = .ok (.field right) :=
    compileValue_eq_ok.2 (.inr ⟨right, hquote, hr, hcomparable, rfl⟩)
  exact (compileClause_relating hop).2 ⟨hl, rfl, ne_empty_of_resolve hr, hvalue⟩

/-- Query by example: a clause against a second selector says of an element what the clause against the
value found there says, quoted as it is shown. For a value's shown text means that value, unless it is in a
leap second within a minute. -/
theorem compileClause_by_example (hl : s.resolve path = .ok left) (hr : s.resolve other = .ok right)
    (hkind : left.kind = right.kind) (hfloat : left.kind ≠ .float)
    (hother : ∀ content, other ≠ "'" ++ content ++ "'") :
    (∀ (op : Operator) (element : Record), op ≠ .among → (right.read element).isNull = false →
      ∃ c d, s.compileClause (.relating path op ("'" ++ (right.read element).display ++ "'")) = .ok c ∧
        s.compileClause (.relating path op other) = .ok d ∧
        ((right.read element).LeapEndsMinute → (c.holds element = true ↔ d.holds element = true))) ∧
      ∀ (k : Kind) (v : Value), v.kind? = some k → k ≠ .float →
        (k.coerce v.display = .ok v ↔ v.LeapEndsMinute) := by
  refine ⟨fun op element hop hnull => ?_, fun k v => Kind.coerce_display_eq_iff⟩
  have hv : (right.read element).kind? = some left.kind := by
    rw [hkind]
    obtain ⟨k, hk⟩ := Value.isNull_eq_false.1 hnull
    rcases right.kind?_read element with hnone | hsome
    · cases hk.symm.trans hnone
    · exact hsome
  refine ⟨_, _, compileClause_quoted hl hop hv hfloat, compileClause_field hl hr hop hkind hother,
    fun hleap => ?_⟩
  rw [Value.asWritten_eq_self_iff.2 hleap]
  rfl

end Schema

def leapInstant : DateTime :=
  ⟨{ year := -1, month := 12, day := 31 }, { hour := 23, minute := 59, second := 59, nano := 1999999998 }⟩

def periodSchema : Schema :=
  (((SchemaBuilder.new "Period").fieldOpt "From" .dateTime (Record.value? 0 .dateTime)).fieldOpt
    "Until" .utcDateTime (Record.value? 1 .utcDateTime)).build

def leapPeriod : Record :=
  ⟨"Period", [.value .dateTime (.atMidnight leapInstant.date), .value .utcDateTime leapInstant]⟩

theorem until_ne_quoted (content : String) : "Until" ≠ "'" ++ content ++ "'" := by
  intro h
  have hhead := congrArg (fun text : String => text.toList.head?) h
  simp at hhead

theorem leapPeriod_by_example : ∃ c d,
    periodSchema.compileClause (.relating "From" .lt "'-0001-12-31T23:59:60.999999998'") = .ok c ∧
      periodSchema.compileClause (.relating "From" .lt "Until") = .ok d ∧
      (c.holds leapPeriod = true ↔ d.holds leapPeriod = true) ∧
      Kind.dateTime.coerce "-0001-12-31T23:59:60.999999998" = .ok (.dateTime leapInstant) := by
  have hl : periodSchema.resolve "From" = .ok _ := rfl
  have hr : periodSchema.resolve "Until" = .ok _ := rfl
  have htext : (Value.dateTime leapInstant).display = "-0001-12-31T23:59:60.999999998" := by decide
  have hquoted : "'-0001-12-31T23:59:60.999999998'" = "'" ++ (Value.dateTime leapInstant).display ++ "'" := by
    decide
  obtain ⟨hclauses, hcoerce⟩ := Schema.compileClause_by_example hl hr rfl (by decide) until_ne_quoted
  obtain ⟨c, d, hc, hd, hagree⟩ := hclauses .lt leapPeriod (by decide) rfl
  have hleap : leapInstant.time.LeapEndsMinute := by decide
  rw [hquoted, ← htext]
  exact ⟨c, d, hc, hd, hagree hleap, (hcoerce .dateTime (.dateTime leapInstant) rfl (by decide)).2 hleap⟩

def innerLeap : DateTime :=
  ⟨{ year := 2016, month := 7, day := 14 }, { hour := 12, minute := 34, second := 4, nano := 1333333333 }⟩

def innerPeriod : Record := ⟨"Period", [.absent, .value .utcDateTime innerLeap]⟩

/-- A leap second within a minute is shown as the second after it, which it does not equal. -/
theorem not_compileClause_by_example :
    (¬ ∀ (s : Schema) (path other : String) (left right : Selector), s.resolve path = .ok left →
      s.resolve other = .ok right → left.kind = right.kind → left.kind ≠ .float →
      (∀ content, other ≠ "'" ++ content ++ "'") → ∀ (op : Operator) (element : Record), op ≠ .among →
      (right.read element).isNull = false →
      ∃ c d, s.compileClause (.relating path op ("'" ++ (right.read element).display ++ "'")) = .ok c ∧
        s.compileClause (.relating path op other) = .ok d ∧
        (c.holds element = true ↔ d.holds element = true)) ∧
      ¬ ∀ (k : Kind) (v : Value), v.kind? = some k → k ≠ .float → k.coerce v.display = .ok v := by
  have hinner : ¬ innerLeap.time.LeapEndsMinute := by decide
  constructor
  · intro hall
    have hl : periodSchema.resolve "Until" = .ok _ := rfl
    obtain ⟨c, d, hc, hd, hagree⟩ := hall periodSchema "Until" "Until" _ _ hl hl rfl (by decide)
      until_ne_quoted .eq innerPeriod (by decide) rfl
    cases hc.symm.trans (Schema.compileClause_quoted hl (by decide) rfl (by decide))
    cases hd.symm.trans (Schema.compileClause_field hl hl (by decide) rfl until_ne_quoted)
    exact absurd (hagree.2 (by decide)) (by decide)
  · intro hall
    exact hinner ((Kind.coerce_display_eq_iff rfl (by decide)).1
      (hall .dateTime (.dateTime innerLeap) rfl (by decide)))

end RecordQuery
