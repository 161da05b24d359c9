import RecordQuery.Proofs.FilterOrder

/-! The order of sorting against the order of filters. Sorting sees every difference that a filter sees,
and of the ties only the two zeros apart, so that a column sorted ascending shows what lies below a
value, what equals it and what lies above it in turn. -/

namespace RecordQuery

open Std (TransCmp OrientedCmp ReflCmp)

namespace Value

def OppositeZeros (a b : Value) : Prop :=
  (a = .float .zero ∧ b = .float .negZero) ∨ (a = .float .negZero ∧ b = .float .zero)

theorem sortRank_of_isNumber {v : Value} (h : v.isNumber = true) : v.sortRank = 2 := by
  cases v <;> first | rfl | cases h

theorem sortCompare_ofCarrier (k : Kind) (x y : k.Carrier) :
    (ofCarrier k x).sortCompare (ofCarrier k y) = k.compare x y := by
  cases k <;> rfl

theorem sortCompare_of_compare? {a b : Value} {o : Ordering} (h : a.compare? b = some o)
    (ho : o ≠ .eq) : a.sortCompare b = o := by
  rcases compare?_cases h with ⟨ha, hb, rfl⟩ | ⟨k, x, y, -, rfl, rfl, rfl⟩
  · rw [sortCompare_numbers (sortRank_of_isNumber ha) (sortRank_of_isNumber hb)]
    cases h' : Ord.compare a.numberUnits b.numberUnits with
    | lt => rfl
    | eq => exact absurd h' ho
    | gt => rfl
  · exact sortCompare_ofCarrier k x y

theorem tieCompare_eq_eq {a b : Value} (h : a.numberUnits = b.numberUnits) :
    a.tieCompare b = .eq ↔ ¬ OppositeZeros a b := by
  cases a
  case float x =>
    cases b
    case float y =>
      rcases Binary64.eq_or_zeros h with rfl | ⟨rfl, rfl⟩ | ⟨rfl, rfl⟩
      · refine iff_of_true (compare_eq_iff_eq.2 rfl) ?_
        rintro (⟨h, h'⟩ | ⟨h, h'⟩) <;> exact absurd (h.symm.trans h') (by decide)
      · exact iff_of_false (by decide) (not_not_intro (.inl ⟨rfl, rfl⟩))
      · exact iff_of_false (by decide) (not_not_intro (.inr ⟨rfl, rfl⟩))
    all_goals exact iff_of_true rfl (by rintro (⟨-, h⟩ | ⟨-, h⟩) <;> cases h)
  all_goals exact iff_of_true rfl (by rintro (⟨h, -⟩ | ⟨h, -⟩) <;> cases h)

theorem sortCompare_eq_eq {a b : Value} (h : a.compare? b = some .eq) :
    a.sortCompare b = .eq ↔ ¬ OppositeZeros a b := by
  rcases compare?_cases h with ⟨ha, hb, hunits⟩ | ⟨k, x, y, hk, rfl, rfl, htie⟩
  · rw [sortCompare_numbers (sortRank_of_isNumber ha) (sortRank_of_isNumber hb), ← hunits,
      Ordering.eq_then]
    exact tieCompare_eq_eq (compare_eq_iff_eq.1 hunits.symm)
  · rw [sortCompare_ofCarrier]
    refine iff_of_true htie.symm ?_
    rintro (⟨h, -⟩ | ⟨h, -⟩) <;> exact absurd (h ▸ isNumber_ofCarrier hk x) (by decide)

theorem null_sortCompare {b : Value} (h : b.isNull = false) : Value.null.sortCompare b = .lt := by
  cases b <;> first | rfl | cases h

theorem sortCompare_of_between {a b c : Value} {o p : Ordering} (hac : a.compare? c = some o)
    (hbc : b.compare? c = some p) (ho : o.isLE) (hp : p.isGE) (hne : o ≠ .eq ∨ p ≠ .eq) :
    a.sortCompare b = .lt := by
  have hcb : c.compare? b = some p.swap := by rw [compare?_swap b c, hbc, Option.map_some]
  have hab := compare?_trans hac hcb ho (by cases p <;> first | rfl | cases hp)
  have hlt : o.then p.swap = .lt := by
    cases o <;> cases p <;>
      first | rfl | exact absurd ho (by decide) | exact absurd hp (by decide) | exact absurd hne (by decide)
  exact sortCompare_of_compare? (hlt ▸ hab) (by decide)

end Value

def Precedes {α : Type} (first later : α → Prop) (xs : List α) : Prop :=
  ∀ (i j : Nat) (x y : α), xs[i]? = some x → xs[j]? = some y → first x → later y → i < j

theorem precedes_of_ascending {α : Type} {cmp : α → α → Ordering} [ReflCmp cmp]
    {first later : α → Prop} {xs : List α} (h : xs.Pairwise fun x y => cmp x y ≠ .gt)
    (hgt : ∀ x y, first x → later y → cmp y x = .gt) : Precedes first later xs := by
  intro i j x y hx hy hfirst hlater
  have hyx := hgt x y hfirst hlater
  obtain ⟨hi, rfl⟩ := List.getElem?_eq_some_iff.1 hx
  obtain ⟨hj, rfl⟩ := List.getElem?_eq_some_iff.1 hy
  by_contra hij
  -- at an earlier place the later entry would be out of order, at the same place unequal to itself
  rcases (Nat.le_of_not_lt hij).lt_or_eq with hlt | rfl
  · exact List.pairwise_iff_getElem.1 h j i hj hi hlt hyx
  · exact absurd (ReflCmp.compare_self.symm.trans hyx) (by decide)

namespace Selector

variable {key : Selector} {c : Value} {element x y : Record}

def Taken (key : Selector) (op : Operator) (c : Value) (element : Record) : Prop :=
  Condition.holds ⟨key, op, .literal c⟩ element = true

/-- What a list shows of a constant in turn: the elements below it, those equal to it, those above it. -/
structure InTurn (key : Selector) (c : Value) (xs : List Record) : Prop where
  lt_eq : Precedes (key.Taken .lt c) (key.Taken .eq c) xs
  eq_gt : Precedes (key.Taken .eq c) (key.Taken .gt c) xs
  lt_gt : Precedes (key.Taken .lt c) (key.Taken .gt c) xs

theorem taken_lt : key.Taken .lt c element ↔ (key.read element).compare? c = some .lt := beq_iff_eq

theorem taken_gt : key.Taken .gt c element ↔ (key.read element).compare? c = some .gt := beq_iff_eq

theorem taken_eq (hc : c.isNull = false) :
    key.Taken .eq c element ↔ (key.read element).compare? c = some .eq := by
  refine Value.equals_iff.trans (or_iff_right ?_)
  rintro ⟨-, rfl⟩
  cases hc

end Selector

namespace Schema

variable {s : Schema} {path : String} {order : SortOrder}

theorem compare_of_compileOrder_single (h : s.compileOrder [⟨path, .ascending⟩] = .ok order) :
    ∃ key, s.resolve path = .ok key ∧
      ∀ x y, order.compare x y = (key.read x).sortCompare (key.read y) := by
  obtain ⟨k, ks, ⟨hk, hd⟩, hks, hkeys⟩ := List.forall₂_cons_left_iff.1 (compileOrder_eq_ok.1 h)
  obtain rfl := List.forall₂_nil_left_iff.1 hks
  refine ⟨k.selector, hk, fun x y => ?_⟩
  rw [order.compare_eq_compareBy, hkeys, SortOrder.compareBy, SortOrder.compareBy, Ordering.then_eq,
    OrderKey.compare, hd]
  rfl

end Schema

theorem Selector.inTurn_of_ascending {key : Selector} {c : Value} (hc : c.isNull = false)
    {xs : List Record}
    (h : xs.Pairwise fun x y => (key.read x).sortCompare (key.read y) ≠ .gt) : key.InTurn c xs := by
  have hswap {x y : Record} (hxy : (key.read x).sortCompare (key.read y) = .lt) :
      (key.read y).sortCompare (key.read x) = .gt := OrientedCmp.gt_of_lt hxy
  have : ReflCmp fun x y : Record => (key.read x).sortCompare (key.read y) :=
    ⟨fun {x} => ReflCmp.compare_self⟩
  constructor
  · refine precedes_of_ascending h fun x y hx hy => hswap ?_
    exact Value.sortCompare_of_between (taken_lt.1 hx) ((taken_eq hc).1 hy) rfl rfl (by decide)
  · refine precedes_of_ascending h fun x y hx hy => hswap ?_
    exact Value.sortCompare_of_between ((taken_eq hc).1 hx) (taken_gt.1 hy) rfl rfl (by decide)
  · refine precedes_of_ascending h fun x y hx hy => hswap ?_
    exact Value.sortCompare_of_between (taken_lt.1 hx) (taken_gt.1 hy) rfl rfl (by decide)

/-- Sorting refines the filter order: it keeps every difference, tells no ties apart but opposite zeros
and puts null first. So a list sorted ascending on one key shows what filters take below a constant,
at it and above it in turn. -/
theorem sortCompare_refines_compare? :
    (∀ a b : Value,
      (∀ o, a.compare? b = some o → o ≠ .eq → a.sortCompare b = o) ∧
      (a.compare? b = some .eq → (a.sortCompare b = .eq ↔ ¬ a.OppositeZeros b)) ∧
      (b.isNull = false → Value.null.sortCompare b = .lt) ∧
      (b.isNull = true → Value.null.sortCompare b = .eq) ∧
      b.sortCompare a = (a.sortCompare b).swap) ∧
    ∀ (s : Schema) (path : String) (order : SortOrder),
      s.compileOrder [⟨path, .ascending⟩] = .ok order →
      ∃ key, s.resolve path = .ok key ∧ ∀ c : Value, c.isNull = false →
        (∀ xs : List Record, (xs.Pairwise fun x y => order.compare x y ≠ .gt) → key.InTurn c xs) ∧
        ∀ elements, key.InTurn c (order.sort elements) := by
  refine ⟨fun a b => ⟨fun o => Value.sortCompare_of_compare?, Value.sortCompare_eq_eq,
    Value.null_sortCompare, fun h => ?_, OrientedCmp.eq_swap⟩, fun s path order h => ?_⟩
  · rw [Value.isNull_iff.1 h]
    rfl
  · obtain ⟨key, hkey, hcompare⟩ := Schema.compare_of_compileOrder_single h
    have hinTurn (c : Value) (hc : c.isNull = false) (xs : List Record)
        (hxs : xs.Pairwise fun x y => order.compare x y ≠ .gt) : key.InTurn c xs := by
      simp only [hcompare] at hxs
      exact Selector.inTurn_of_ascending hc hxs
    exact ⟨key, hkey, fun c hc => ⟨hinTurn c hc, fun elements =>
      hinTurn c hc _ (order.stablySorted_sortOn id elements).ascending⟩⟩

theorem scores_inTurn_around_zero : ∃ order key,
    entrySchema.compileOrder [⟨"Score", .ascending⟩] = .ok order ∧
      entrySchema.resolve "Score" = .ok key ∧
      key.InTurn (.integer 0) (order.sort [entry 1 (some ⟨0x3FF0000000000000⟩), entry 2 (some .zero),
        entry 3 (some ⟨0x7FF8000000000000⟩), entry 4 none, entry 5 (some .negZero),
        entry 6 (some ⟨0xBFF0000000000000⟩)]) := by
  have h : entrySchema.compileOrder [⟨"Score", .ascending⟩] = .ok _ := rfl
  obtain ⟨key, hkey, hturn⟩ := sortCompare_refines_compare?.2 entrySchema "Score" _ h
  exact ⟨_, key, h, hkey, (hturn (.integer 0) rfl).2 _⟩

end RecordQuery
