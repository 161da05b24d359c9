import RecordQuery.Proofs.OrderKeys

/-! Clauses that relate two values. A clause that compiles under one of the six relations compiles under
all of them, and its two sides are of comparable kinds or null, so that for every element the relations
give one consistent verdict: two values are ordered in exactly one way, or nothing but `!=` relates them. -/

namespace RecordQuery

namespace Binary64

theorem isSome_compare?_iff {x y : Binary64} :
    (x.compare? y).isSome = true ↔ x.isNaN = false ∧ y.isNaN = false := by
  unfold compare?
  cases x.isNaN <;> cases y.isNaN <;> simp

theorem isSome_compareInt?_iff {x : Binary64} {n : Int64} :
    (x.compareInt? n).isSome = true ↔ x.isNaN = false := by
  cases h : x.isNaN with
  | false => exact iff_of_true (by rw [compareInt?_eq h, Option.isSome_some]) rfl
  | true => simp [compareInt?, h]

end Binary64

namespace Value

def isNaN : Value → Bool
  | .float x => x.isNaN
  | _ => false

theorem isSome_compare?_iff {a b : Value} : (a.compare? b).isSome = true ↔
    (∃ k l, a.kind? = some k ∧ b.kind? = some l ∧ k.comparableWith l = true) ∧
      a.isNaN = false ∧ b.isNaN = false := by
  cases a <;> cases b <;>
    simp [compare?, kind?, isNaN, Kind.comparableWith, Kind.isNumeric, Binary64.isSome_compare?_iff,
      Binary64.isSome_compareInt?_iff]

theorem isNull_eq_false {v : Value} : v.isNull = false ↔ ∃ k, v.kind? = some k := by
  rw [isNull, Option.isNone_eq_false_iff, Option.isSome_iff_exists]

theorem isNull_iff {v : Value} : v.isNull = true ↔ v = .null := by
  cases v <;> first | exact iff_of_true rfl rfl | exact iff_of_false (nomatch ·) (nomatch ·)

theorem isNull_of_isNaN {v : Value} (h : v.isNaN = true) : v.isNull = false := by
  cases v <;> first | rfl | exact nomatch h

end Value

namespace Operator

def accepts : Operator → Option Ordering → Bool
  | .eq, o => o == some .eq
  | .ne, o => o != some .eq
  | .gt, o => o == some .gt
  | .ge, o => o == some .gt || o == some .eq
  | .lt, o => o == some .lt
  | .le, o => o == some .lt || o == some .eq
  | .among, _ => false

theorem ofText?_display (op : Operator) : ofText? op.display = some op := by cases op <;> decide

theorem holds_eq_accepts {a b : Value} (h : a.isNull = false ∨ b.isNull = false) (op : Operator) :
    op.holds a b = op.accepts (a.compare? b) := by
  have heq : a.equals b = (a.compare? b == some .eq) := by
    cases a <;> cases b <;> first | rfl | exact absurd h (by decide)
  cases op <;> simp [holds, accepts, heq, bne]

structure Trichotomous (matched : Operator → Bool) : Prop where
  exactly_one : ∃! op, op ∈ [Operator.lt, .eq, .gt] ∧ matched op = true
  le_eq : matched .le = (matched .lt || matched .eq)
  ge_eq : matched .ge = (matched .gt || matched .eq)
  ne_eq : matched .ne = !matched .eq

/-- The verdicts of the relations on any two values. -/
structure Decided (a b : Value) (matched : Operator → Bool) : Prop where
  ordered : a.isNull = false → b.isNull = false → a.isNaN = false → b.isNaN = false →
    Trichotomous matched
  unordered : a.isNull ≠ b.isNull ∨ a.isNaN = true ∨ b.isNaN = true →
    ∀ op, op ≠ .among → (matched op = true ↔ op = .ne)
  null : a.isNull = true → b.isNull = true →
    ∀ op, op ≠ .among → (matched op = true ↔ op = .eq)

theorem trichotomous_accepts (o : Ordering) : Trichotomous fun op => op.accepts (some o) where
  exactly_one := by
    cases o
    · exact ⟨.lt, by decide, fun op => by cases op <;> decide⟩
    · exact ⟨.eq, by decide, fun op => by cases op <;> decide⟩
    · exact ⟨.gt, by decide, fun op => by cases op <;> decide⟩
  le_eq := rfl
  ge_eq := rfl
  ne_eq := rfl

theorem accepts_none {op : Operator} (h : op ≠ .among) : op.accepts none = true ↔ op = .ne := by
  cases op
  case among => exact absurd rfl h
  all_goals decide

/-- The relations decide any two values whose kinds, where both have one, can be compared. -/
theorem decided_holds {a b : Value}
    (h : ∀ k l, a.kind? = some k → b.kind? = some l → k.comparableWith l = true) :
    Decided a b fun op => op.holds a b where
  ordered ha hb hxa hxb := by
    obtain ⟨k, hk⟩ := Value.isNull_eq_false.1 ha
    obtain ⟨l, hl⟩ := Value.isNull_eq_false.1 hb
    obtain ⟨o, ho⟩ := Option.isSome_iff_exists.1
      (Value.isSome_compare?_iff.2 ⟨⟨k, l, hk, hl, h k l hk hl⟩, hxa, hxb⟩)
    simp only [holds_eq_accepts (.inl ha), ho]
    exact trichotomous_accepts o
  unordered hab op hop := by
    have hsome : ¬(a.compare? b).isSome = true := fun hsome => by
      obtain ⟨⟨k, l, hk, hl, -⟩, hxa, hxb⟩ := Value.isSome_compare?_iff.1 hsome
      rcases hab with hne | hx | hx
      · exact hne ((Value.isNull_eq_false.2 ⟨k, hk⟩).trans (Value.isNull_eq_false.2 ⟨l, hl⟩).symm)
      · exact absurd (hxa.symm.trans hx) (by decide)
      · exact absurd (hxb.symm.trans hx) (by decide)
    have hnull : a.isNull = false ∨ b.isNull = false := by
      rcases hab with hne | hx | hx
      · revert hne
        cases a.isNull <;> cases b.isNull <;> decide
      · exact .inl (Value.isNull_of_isNaN hx)
      · exact .inr (Value.isNull_of_isNaN hx)
    rw [holds_eq_accepts hnull, Option.not_isSome_iff_eq_none.1 hsome]
    exact accepts_none hop
  null ha hb op hop := by
    rw [Value.isNull_iff.1 ha, Value.isNull_iff.1 hb]
    cases op
    case among => exact absurd rfl hop
    all_goals decide

end Operator

theorem unquote?_eq_some {text content : String} :
    unquote? text = some content ↔ text = "'" ++ content ++ "'" := by
  have hquoted : ("'" ++ content ++ "'").toList = '\'' :: (content.toList ++ ['\'']) := by
    rw [String.toList_append, String.toList_append]
    rfl
  rw [← String.toList_inj, hquoted]
  unfold unquote?
  split
  · next cs hcs =>
    rw [hcs]
    constructor
    · intro h
      split at h
      · next hlast =>
        obtain rfl := Option.some.inj h
        rw [String.toList_ofList, List.dropLast_append_getLast? _ hlast]
      · exact nomatch h
    · intro h
      obtain rfl := (List.cons.inj h).2
      rw [if_pos List.getLast?_concat, List.dropLast_concat, String.ofList_toList]
  · next hcs => exact iff_of_false (nomatch ·) (hcs _)

theorem Kind.isFinite_of_coerce {kind : Kind} {literal : String} {x : Binary64}
    (h : kind.coerce literal = .ok (.float x)) : x.isFinite = true := by
  obtain rfl : kind = .float := (Option.some.inj (kind?_of_coerce h)).symm
  unfold coerce at h
  split at h
  · next content hcontent =>
    cases h
    exact (Option.filter_eq_some_iff.1 hcontent).2
  · exact nomatch h

def Operand.value? (o : Operand) (element : Record) : Option Value :=
  match o with
  | .literal v => some v
  | .field s => some (s.read element)
  | .set _ => none

theorem Condition.holds_eq_of_value? {left : Selector} {op : Operator} {right : Operand}
    {element : Record} {b : Value} (h : right.value? element = some b) :
    Condition.holds ⟨left, op, right⟩ element = op.holds (left.read element) b := by
  cases right with
  | literal v =>
    cases h
    rfl
  | field other =>
    cases h
    rfl
  | set vs => exact nomatch h

def FilterClause.relating (path : String) (op : Operator) (value : String) : FilterClause :=
  ⟨path, op.display, some value, none⟩

namespace Schema

variable {s : Schema} {path value : String}

theorem compileOperand_relating {left : Selector} {op : Operator} {right : Operand}
    (hop : op ≠ .among) : s.compileOperand (.relating path op value) left op = .ok right ↔
      value.isEmpty = false ∧ s.compileValue left value = .ok right := by
  unfold compileOperand FilterClause.relating
  cases h : value.isEmpty <;> simp [Option.filter, h]

theorem compileClause_relating {op : Operator} {c : Condition} (hop : op ≠ .among) :
    s.compileClause (.relating path op value) = .ok c ↔ s.resolve path = .ok c.left ∧
      c.operator = op ∧ value.isEmpty = false ∧ s.compileValue c.left value = .ok c.right := by
  rw [compileClause_eq_ok, FilterClause.relating, op.ofText?_display, Option.some.injEq]
  refine and_congr_right fun _ => ⟨?_, ?_⟩
  · rintro ⟨rfl, h⟩
    exact ⟨rfl, (compileOperand_relating hop).1 h⟩
  · rintro ⟨rfl, h⟩
    exact ⟨rfl, (compileOperand_relating hop).2 h⟩

theorem comparable_of_compileValue {left : Selector} {right : Operand}
    (h : s.compileValue left value = .ok right) (element : Record) :
    ∃ b, right.value? element = some b ∧ ∀ k l, (left.read element).kind? = some k →
      b.kind? = some l → k.comparableWith l = true := by
  have hleft {k : Kind} (hk : (left.read element).kind? = some k) : k = left.kind := by
    rcases left.kind?_read element with hnone | hsome
    · exact nomatch hnone.symm.trans hk
    · exact (Option.some.inj (hsome.symm.trans hk)).symm
  rcases compileValue_eq_ok.1 h with ⟨content, v, -, hv, rfl⟩ | ⟨other, -, -, hkind, rfl⟩
  · refine ⟨v, rfl, fun k l hk hl => ?_⟩
    rw [Kind.kind?_of_coerce hv] at hl
    rw [hleft hk, Option.some.inj hl]
    simp [Kind.comparableWith]
  · refine ⟨other.read element, rfl, fun k l hk hl => ?_⟩
    rcases other.kind?_read element with hnone | hsome
    · exact nomatch hnone.symm.trans hl
    · rwa [hleft hk, ← Option.some.inj (hsome.symm.trans hl)]

/-- A relation that compiles is well typed: all six compile to the same two sides, a quoted right side is
a finite literal of the left side's kind, any other a selector of a comparable kind, and for every element
the six verdicts agree with one another. -/
theorem compileClause_decides {c : Condition}
    (h : s.compileClause (.relating path .eq value) = .ok c) :
    s.resolve path = .ok c.left ∧
      (∀ op, op ≠ .among → s.compileClause (.relating path op value) = .ok ⟨c.left, op, c.right⟩) ∧
      (∀ content, value = "'" ++ content ++ "'" → ∃ v, c.right = .literal v ∧
        v.kind? = some c.left.kind ∧ ∀ x, v = .float x → x.isFinite = true) ∧
      ((∀ content, value ≠ "'" ++ content ++ "'") → ∃ other, s.resolve value = .ok other ∧
        c.right = .field other ∧ c.left.kind.comparableWith other.kind = true) ∧
      ∀ element, ∃ b, c.right.value? element = some b ∧
        Operator.Decided (c.left.read element) b fun op => Condition.holds ⟨c.left, op, c.right⟩ element := by
  obtain ⟨hl, -, hne, hv⟩ := (compileClause_relating (by decide)).1 h
  refine ⟨hl, fun op hop => (compileClause_relating hop).2 ⟨hl, rfl, hne, hv⟩, fun content hq => ?_,
    fun hq => ?_, fun element => ?_⟩
  · rcases compileValue_eq_ok.1 hv with ⟨_, v, -, hc, hright⟩ | ⟨_, hnone, -⟩
    · refine ⟨v, hright, Kind.kind?_of_coerce hc, ?_⟩
      rintro x rfl
      exact Kind.isFinite_of_coerce hc
    · exact nomatch hnone.symm.trans (unquote?_eq_some.2 hq)
  · rcases compileValue_eq_ok.1 hv with ⟨content, _, hsome, -⟩ | ⟨other, -, hother, hkind, hright⟩
    · exact absurd (unquote?_eq_some.1 hsome) (hq content)
    · exact ⟨other, hother, hright, hkind⟩
  · obtain ⟨b, hb, hkinds⟩ := comparable_of_compileValue hv element
    refine ⟨b, hb, ?_⟩
    simp only [Condition.holds_eq_of_value? hb]
    exact Operator.decided_holds hkinds

end Schema

theorem groupToScore_decided : ∃ c : Condition,
    entrySchema.compileClause (.relating "Group" .eq "Score") = .ok c ∧
      Operator.Trichotomous (fun op => Condition.holds ⟨c.left, op, c.right⟩ (entry 1 (some .zero))) ∧
      ∀ op, op ≠ .among → (Condition.holds ⟨c.left, op, c.right⟩
        (entry 1 (some ⟨0x7FF8000000000000⟩)) = true ↔ op = .ne) := by
  have h : entrySchema.compileClause (.relating "Group" .eq "Score") = .ok _ := rfl
  obtain ⟨-, -, -, -, hdecided⟩ := Schema.compileClause_decides h
  refine ⟨_, h, ?_, ?_⟩
  · obtain ⟨b, hb, hverdicts⟩ := hdecided (entry 1 (some .zero))
    cases hb
    exact hverdicts.ordered rfl rfl rfl rfl
  · obtain ⟨b, hb, hverdicts⟩ := hdecided (entry 1 (some ⟨0x7FF8000000000000⟩))
    cases hb
    exact hverdicts.unordered (.inr (.inr rfl))

end RecordQuery
