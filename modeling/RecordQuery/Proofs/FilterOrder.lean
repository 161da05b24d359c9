import RecordQuery.Proofs.Relations

/-! The order that the relational operators use. Numbers of both kinds compare by their exact values
and every other kind by its own order, so that no chain of comparisons is lost in rounding; null and
NaN stand outside, and equality is the tie of the order together with null. -/

namespace RecordQuery

open Std (TransCmp OrientedCmp OrientedOrd)

theorem compare_then_of_isLE {α : Type} {cmp : α → α → Ordering} [TransCmp cmp] {a b c : α}
    (hab : (cmp a b).isLE) (hbc : (cmp b c).isLE) : cmp a c = (cmp a b).then (cmp b c) := by
  cases h : cmp a b with
  | lt => exact TransCmp.lt_of_lt_of_isLE h hbc
  | eq => exact TransCmp.congr_left h
  | gt => exact absurd (h ▸ hab) (by decide)

namespace Binary64

theorem compare_signedMagnitude (x y : Binary64) :
    compare x.signedMagnitude y.signedMagnitude = compare x.signedUnits y.signedUnits := by
  have hlt := signedUnits_lt_iff (x := x) (y := y)
  have hgt := signedUnits_lt_iff (x := y) (y := x)
  rcases lt_trichotomy x.signedUnits y.signedUnits with h | h | h
  · rw [compare_lt_iff_lt.2 h, compare_lt_iff_lt.2 (hlt.1 h)]
  · rw [compare_eq_iff_eq.2 h, compare_eq_iff_eq.2 (by omega)]
  · rw [compare_gt_iff_gt.2 h, compare_gt_iff_gt.2 (hgt.1 h)]

theorem compare?_eq {x y : Binary64} (hx : x.isNaN = false) (hy : y.isNaN = false) :
    x.compare? y = some (compare x.signedUnits y.signedUnits) := by
  rw [compare?, hx, hy, compare_signedMagnitude]
  rfl

theorem compare?_swap (x y : Binary64) : y.compare? x = (x.compare? y).map Ordering.swap := by
  unfold compare?
  rw [Bool.or_comm]
  split
  · rfl
  · exact congrArg some OrientedOrd.eq_swap

end Binary64

namespace Value

def isNumber : Value → Bool
  | .integer _ => true
  | .float x => !x.isNaN
  | _ => false

theorem isNumber_iff {v : Value} :
    v.isNumber = true ↔ (∃ k, v.kind? = some k ∧ k.isNumeric = true) ∧ v.isNaN = false := by
  cases v <;> simp [isNumber, kind?, isNaN, Kind.isNumeric]

theorem isNumber_ofCarrier {k : Kind} (hk : k.isNumeric = false) (x : k.Carrier) :
    (ofCarrier k x).isNumber = false := by
  cases k <;> first | rfl | exact absurd hk (by decide)

theorem ofCarrier_inj {k : Kind} {x y : k.Carrier} (h : ofCarrier k x = ofCarrier k y) : x = y := by
  cases k <;> injection h

theorem compare?_numbers {a b : Value} (ha : a.isNumber = true) (hb : b.isNumber = true) :
    a.compare? b = some (Ord.compare a.numberUnits b.numberUnits) := by
  cases a with
  | integer m =>
    cases b with
    | integer n => exact congrArg some (Binary64.compare_mul_one m.toInt n.toInt).symm
    | float y => exact Binary64.compareInt?_eq (isNumber_iff.1 hb).2 m
    | _ => cases hb
  | float x =>
    have hx : x.isNaN = false := (isNumber_iff.1 ha).2
    cases b with
    | integer n =>
      rw [compare?, Binary64.compareInt?_eq hx, Option.map_some, ← OrientedOrd.eq_swap]
      rfl
    | float y => exact Binary64.compare?_eq hx (isNumber_iff.1 hb).2
    | _ => cases hb
  | _ => cases ha

example : (integer 9007199254740993).compare? (.float ⟨0x4340000000000000⟩) = some .gt := by decide

theorem compare?_ofCarrier {k : Kind} (hk : k.isNumeric = false) (x y : k.Carrier) :
    (ofCarrier k x).compare? (ofCarrier k y) = some (k.compare x y) := by
  cases k <;> first | rfl | exact absurd hk (by decide)

theorem compare?_cases {a b : Value} {o : Ordering} (h : a.compare? b = some o) :
    (a.isNumber = true ∧ b.isNumber = true ∧ o = Ord.compare a.numberUnits b.numberUnits) ∨
      ∃ k x y, k.isNumeric = false ∧ a = ofCarrier k x ∧ b = ofCarrier k y ∧ o = k.compare x y := by
  have hsome : (a.compare? b).isSome = true := by rw [h, Option.isSome_some]
  obtain ⟨⟨k, l, hk, hl, hkl⟩, hxa, hxb⟩ := isSome_compare?_iff.1 hsome
  rw [Kind.comparableWith, Bool.or_eq_true, Bool.and_eq_true, decide_eq_true_eq] at hkl
  -- comparable kinds are both numeric or they are the same
  by_cases hnum : k.isNumeric = true
  · have hlnum : l.isNumeric = true := by
      rcases hkl with rfl | hboth
      · exact hnum
      · exact hboth.2
    have ha := isNumber_iff.2 ⟨⟨k, hk, hnum⟩, hxa⟩
    have hb := isNumber_iff.2 ⟨⟨l, hl, hlnum⟩, hxb⟩
    rw [compare?_numbers ha hb] at h
    exact .inl ⟨ha, hb, (Option.some.inj h).symm⟩
  · obtain rfl : k = l := hkl.resolve_right fun hboth => hnum hboth.1
    have hother : k.isNumeric = false := Bool.eq_false_iff.2 hnum
    obtain ⟨x, rfl⟩ := exists_ofCarrier hk
    obtain ⟨y, rfl⟩ := exists_ofCarrier hl
    rw [compare?_ofCarrier hother] at h
    exact .inr ⟨k, x, y, hother, rfl, rfl, (Option.some.inj h).symm⟩

theorem compare?_swap (a b : Value) : b.compare? a = (a.compare? b).map Ordering.swap := by
  cases a <;> cases b
  case integer.integer m n => exact congrArg some OrientedOrd.eq_swap
  case float.float x y => exact Binary64.compare?_swap x y
  case float.integer x n => simp [compare?, Function.comp_def]
  case text.text s t => exact congrArg some OrientedOrd.eq_swap
  case dateTime.dateTime s t =>
    have h : TransCmp DateTime.compare := inferInstance
    exact congrArg some h.eq_swap
  case boolean.boolean p q => exact congrArg some OrientedOrd.eq_swap
  all_goals rfl

theorem compare?_trans {a b c : Value} {o p : Ordering} (hab : a.compare? b = some o)
    (hbc : b.compare? c = some p) (ho : o.isLE) (hp : p.isLE) :
    a.compare? c = some (o.then p) := by
  rcases compare?_cases hab with ⟨ha, hb, rfl⟩ | ⟨k, x, y, hk, rfl, rfl, rfl⟩
  · rcases compare?_cases hbc with ⟨-, hc, rfl⟩ | ⟨k, y, z, hk, rfl, -, -⟩
    · rw [compare?_numbers ha hc, compare_then_of_isLE ho hp]
    · exact absurd (hb.symm.trans (isNumber_ofCarrier hk y)) (by decide)
  -- the value in the middle belongs to one kind, and so all three do
  · rcases compare?_cases hbc with ⟨hb, -, -⟩ | ⟨l, y', z, -, hy, rfl, rfl⟩
    · exact absurd (hb.symm.trans (isNumber_ofCarrier hk y)) (by decide)
    · obtain rfl : k = l := by
        have hkind := congrArg kind? hy
        rw [kind?_ofCarrier, kind?_ofCarrier] at hkind
        exact Option.some.inj hkind
      obtain rfl := ofCarrier_inj hy
      rw [compare?_ofCarrier hk, compare_then_of_isLE ho hp]

theorem compare?_self {a : Value} {o : Ordering} (h : a.compare? a = some o) : o = .eq := by
  have hswap := compare?_swap a a
  rw [h, Option.map_some, Option.some.injEq] at hswap
  cases o <;> first | rfl | exact absurd hswap (by decide)

theorem equals_iff {a b : Value} :
    a.equals b = true ↔ (a = .null ∧ b = .null) ∨ a.compare? b = some .eq := by
  cases a <;> cases b <;> simp [equals, compare?]

theorem equals_comm (a b : Value) : a.equals b = b.equals a := by
  rw [Bool.eq_iff_iff, equals_iff, equals_iff, compare?_swap a b, and_comm]
  refine or_congr_right ?_
  cases a.compare? b with
  | none => rfl
  | some o => cases o <;> decide

theorem equals_trans {a b c : Value} (hab : a.equals b = true) (hbc : b.equals c = true) :
    a.equals c = true := by
  rw [equals_iff] at hab hbc ⊢
  rcases hab with ⟨rfl, rfl⟩ | hab
  · exact hbc
  · rcases hbc with ⟨rfl, rfl⟩ | hbc
    · exact .inr hab
    · exact .inr (compare?_trans hab hbc rfl rfl)

theorem equals_self_iff {a : Value} : a.equals a = true ↔ a.isNaN = false := by
  rw [equals_iff]
  constructor
  · rintro (⟨rfl, -⟩ | h)
    · rfl
    · have hsome : (a.compare? a).isSome = true := by rw [h, Option.isSome_some]
      exact (isSome_compare?_iff.1 hsome).2.1
  · intro h
    cases hk : a.kind? with
    | none =>
      have hnull : a = .null := by cases a <;> first | rfl | exact nomatch hk
      exact .inl ⟨hnull, hnull⟩
    | some k =>
      have hkk : k.comparableWith k = true := by simp [Kind.comparableWith]
      obtain ⟨o, ho⟩ := Option.isSome_iff_exists.1
        (isSome_compare?_iff.2 ⟨⟨k, k, hk, hk, hkk⟩, h, h⟩)
      exact .inr (ho.trans (congrArg some (compare?_self ho)))

/-- Filters compare by a partial order on the values that are neither null nor NaN, defined within a kind
and between the two numeric ones, and `equals` is its tie, extended to null alone. -/
theorem compare?_partialOrder (a b c : Value) :
    b.compare? a = (a.compare? b).map Ordering.swap ∧
      ((a.compare? b).isSome = true ↔
        (∃ k l, a.kind? = some k ∧ b.kind? = some l ∧
          (k = l ∨ k ∈ [Kind.integer, .float] ∧ l ∈ [Kind.integer, .float])) ∧
        a.isNaN = false ∧ b.isNaN = false) ∧
      (∀ o p, a.compare? b = some o → b.compare? c = some p → o ≠ .gt → p ≠ .gt →
        a.compare? c = some (if o = .lt ∨ p = .lt then .lt else .eq)) ∧
      a.equals b = b.equals a ∧
      (a.equals b = true → b.equals c = true → a.equals c = true) ∧
      (a.equals a = true ↔ a.isNaN = false) ∧
      (a.equals b = true ↔ (a = .null ∧ b = .null) ∨ a.compare? b = some .eq) := by
  refine ⟨compare?_swap a b, ?_, ?_, equals_comm a b, equals_trans, equals_self_iff, equals_iff⟩
  · rw [isSome_compare?_iff]
    simp [Kind.comparableWith, Kind.isNumeric]
  · intro o p hab hbc ho hp
    rw [compare?_trans hab hbc (Ordering.isLE_iff_ne_gt.2 ho) (Ordering.isLE_iff_ne_gt.2 hp)]
    cases o <;> cases p <;> first | rfl | contradiction

end Value

end RecordQuery
