import RecordQuery.Proofs.Units

/-! The comparison for sorting. Within one kind it is the kind's own order with null before it;
between kinds the rank decides, and between integers and floating-point numbers the exact value.
The one defect is the integer 0, which equals both floating-point zeros although these differ. -/

namespace RecordQuery

open Std (TransCmp OrientedCmp TransOrd OrientedOrd)

instance : TransCmp Date.compare :=
  inferInstanceAs (TransCmp (compareLex (compareOn (β := Int) Date.year)
    (compareLex (compareOn (β := Nat) Date.month) (compareOn (β := Nat) Date.day))))

instance : TransCmp TimeOfDay.compare :=
  inferInstanceAs (TransCmp (compareLex (compareOn (β := Nat) TimeOfDay.hour)
    (compareLex (compareOn (β := Nat) TimeOfDay.minute)
      (compareLex (compareOn (β := Nat) TimeOfDay.second) (compareOn (β := Nat) TimeOfDay.nano)))))

theorem transCmp_comap {α β : Type} (f : α → β) (cmp : β → β → Ordering) [h : TransCmp cmp] :
    TransCmp fun a b => cmp (f a) (f b) where
  eq_swap := h.eq_swap
  isLE_trans := h.isLE_trans

instance : TransCmp DateTime.compare :=
  have := transCmp_comap DateTime.date Date.compare
  have := transCmp_comap DateTime.time TimeOfDay.compare
  inferInstanceAs (TransCmp (compareLex (fun s t : DateTime => s.date.compare t.date)
    fun s t : DateTime => s.time.compare t.time))

instance totalCompare_transCmp : TransCmp Binary64.totalCompare :=
  transCmp_comap Binary64.rank Ord.compare

namespace Kind

def compare : (k : Kind) → k.Carrier → k.Carrier → Ordering
  | .integer => fun m n => Ord.compare m.toInt n.toInt
  | .float => Binary64.totalCompare
  | .text => Ord.compare
  | .dateTime => DateTime.compare
  | .boolean => Ord.compare

instance (k : Kind) : TransCmp k.compare :=
  match k with
  | .integer => transCmp_comap Int64.toInt Ord.compare
  | .float => inferInstanceAs (TransCmp Binary64.totalCompare)
  | .text => inferInstanceAs (TransCmp (Ord.compare (α := String)))
  | .dateTime => inferInstanceAs (TransCmp DateTime.compare)
  | .boolean => inferInstanceAs (TransCmp (Ord.compare (α := Bool)))

def compareOption (k : Kind) (x y : Option k.Carrier) : Ordering :=
  letI : Ord k.Carrier := ⟨k.compare⟩
  Ord.compare x y

instance compareOption_transCmp (k : Kind) : TransCmp k.compareOption :=
  letI : Ord k.Carrier := ⟨k.compare⟩
  haveI : TransOrd k.Carrier := inferInstanceAs (TransCmp k.compare)
  inferInstanceAs (TransOrd (Option k.Carrier))

end Kind

namespace Value

theorem sortCompare_ofOption (k : Kind) (x y : Option k.Carrier) :
    (ofOption k x).sortCompare (ofOption k y) = k.compareOption x y := by
  cases k <;> cases x <;> cases y <;> rfl

theorem exists_ofCarrier {v : Value} {k : Kind} (h : v.kind? = some k) :
    ∃ x, v = ofCarrier k x := by
  cases v <;> cases h <;> exact ⟨_, rfl⟩

theorem exists_ofOption {v : Value} {k : Kind} (h : v.kind? = none ∨ v.kind? = some k) :
    ∃ x, v = ofOption k x := by
  rcases h with h | h
  · cases v <;> cases h
    exact ⟨none, rfl⟩
  · obtain ⟨x, rfl⟩ := exists_ofCarrier h
    exact ⟨some x, rfl⟩

theorem sortCompare_of_rank_ne {a b : Value} (h : a.sortRank ≠ b.sortRank) :
    a.sortCompare b = Ord.compare a.sortRank b.sortRank := by
  cases a <;> cases b <;> simp_all [sortRank, sortCompare, compare?]

theorem sortRank_le {a b : Value} (h : (a.sortCompare b).isLE) : a.sortRank ≤ b.sortRank := by
  by_cases hr : a.sortRank = b.sortRank
  · exact hr.le
  · rw [sortCompare_of_rank_ne hr] at h
    exact Std.isLE_compare.1 h

theorem exists_kind (v : Value) : ∃ k, v.kind? = none ∨ v.kind? = some k := by
  cases v.kind? with
  | none => exact ⟨.text, .inl rfl⟩
  | some k => exact ⟨k, .inr rfl⟩

theorem kind?_eq_of_sortRank {a b : Value} (h : a.sortRank = b.sortRank) (hn : a.sortRank ≠ 2) :
    a.kind? = b.kind? := by
  cases a <;> cases b <;> simp_all [sortRank, kind?]

theorem exists_contents {a b c : Value} {k : Kind} (ha : a.kind? = none ∨ a.kind? = some k)
    (hb : b.kind? = none ∨ b.kind? = some k) (hc : c.kind? = none ∨ c.kind? = some k) :
    ∃ x y z, a = ofOption k x ∧ b = ofOption k y ∧ c = ofOption k z := by
  obtain ⟨x, rfl⟩ := exists_ofOption ha
  obtain ⟨y, rfl⟩ := exists_ofOption hb
  obtain ⟨z, rfl⟩ := exists_ofOption hc
  exact ⟨x, y, z, rfl, rfl, rfl⟩

def numberUnits : Value → Int
  | .integer n => n.toInt * Binary64.one
  | .float x => x.signedUnits
  | _ => 0

/-- What tells apart two numbers of the same value: two floating-point patterns may still differ. -/
def tieCompare : Value → Value → Ordering
  | .float x, .float y => x.totalCompare y
  | _, _ => .eq

theorem totalCompare_eq_then (x y : Binary64) :
    x.totalCompare y = (Ord.compare x.signedUnits y.signedUnits).then (x.totalCompare y) := by
  rcases lt_trichotomy x.signedUnits y.signedUnits with h | h | h
  · rw [compare_lt_iff_lt.2 h, Ordering.lt_then]
    exact compare_lt_iff_lt.2 (Binary64.rank_lt h)
  · rw [compare_eq_iff_eq.2 h, Ordering.eq_then]
  · rw [compare_gt_iff_gt.2 h, Ordering.gt_then]
    exact compare_gt_iff_gt.2 (Binary64.rank_lt h)

theorem sortCompare_numbers {a b : Value} (ha : a.sortRank = 2) (hb : b.sortRank = 2) :
    a.sortCompare b = (Ord.compare a.numberUnits b.numberUnits).then (a.tieCompare b) := by
  cases a with
  | integer m =>
    cases b with
    | integer n =>
      simpa [sortCompare, compare?, numberUnits, tieCompare] using
        (Binary64.compare_mul_one m.toInt n.toInt).symm
    | float y =>
      simpa [sortCompare, numberUnits, tieCompare] using Binary64.totalCompareInt_eq m y
    | _ => cases hb
  | float x =>
    cases b with
    | integer n =>
      rw [sortCompare, Binary64.totalCompareInt_eq, ← OrientedOrd.eq_swap, tieCompare,
        Ordering.then_eq]
      · rfl
      · exact fun _ _ _ h => nomatch h
    | float y => exact totalCompare_eq_then x y
    | _ => cases hb
  | _ => cases ha

theorem tieCompare_swap (a b : Value) : b.tieCompare a = (a.tieCompare b).swap := by
  cases a <;> cases b
  case float.float x y => exact totalCompare_transCmp.eq_swap
  all_goals rfl

instance : OrientedCmp sortCompare where
  eq_swap {a b} := by
    by_cases hr : a.sortRank = b.sortRank
    · by_cases hn : a.sortRank = 2
      · rw [sortCompare_numbers hn (hr ▸ hn), sortCompare_numbers (hr ▸ hn) hn, Ordering.swap_then,
          ← tieCompare_swap, ← OrientedOrd.eq_swap]
      · obtain ⟨k, hk⟩ := exists_kind a
        obtain ⟨x, y, -, rfl, rfl, -⟩ := exists_contents hk (kind?_eq_of_sortRank hr hn ▸ hk) hk
        rw [sortCompare_ofOption, sortCompare_ofOption]
        exact k.compareOption_transCmp.eq_swap
    · rw [sortCompare_of_rank_ne hr, sortCompare_of_rank_ne (Ne.symm hr)]
      exact OrientedOrd.eq_swap

theorem sortCompare_isLE_trans_of_kind {a b c : Value} {k : Kind}
    (ha : a.kind? = none ∨ a.kind? = some k) (hb : b.kind? = none ∨ b.kind? = some k)
    (hc : c.kind? = none ∨ c.kind? = some k)
    (hab : (a.sortCompare b).isLE) (hbc : (b.sortCompare c).isLE) : (a.sortCompare c).isLE := by
  obtain ⟨x, y, z, rfl, rfl, rfl⟩ := exists_contents ha hb hc
  rw [sortCompare_ofOption] at hab hbc ⊢
  exact k.compareOption_transCmp.isLE_trans hab hbc

/-- The integer 0 between the two zeros, the larger one first. -/
def ZeroBetween (a b c : Value) : Prop := a = .float .zero ∧ b = .integer 0 ∧ c = .float .negZero

theorem integer_eq_zero {n : Int64} (h : n.toInt * Binary64.one = 0) : n = 0 := by
  rcases Int.mul_eq_zero.1 h with h | h
  · exact Int64.toInt_inj.1 h
  · exact absurd h Binary64.one_pos.ne'

/-- Numbers of one value: only the larger zero before the integer and the smaller one is out of
order. -/
theorem tieCompare_isLE_trans {a b c : Value} (ha : a.sortRank = 2) (hb : b.sortRank = 2)
    (hc : c.sortRank = 2) (hz : ¬ ZeroBetween a b c) (hac : a.numberUnits = c.numberUnits)
    (hbc : b.numberUnits = c.numberUnits) (hab' : (a.tieCompare b).isLE)
    (hbc' : (b.tieCompare c).isLE) : (a.tieCompare c).isLE := by
  cases a with
  | float x =>
    cases c with
    | float z =>
      cases b with
      | float y => exact totalCompare_transCmp.isLE_trans hab' hbc'
      | integer n =>
        rcases Binary64.eq_or_zeros hac with rfl | ⟨rfl, rfl⟩ | ⟨rfl, rfl⟩
        · exact Ordering.isLE_of_eq_eq (compare_eq_iff_eq.2 rfl)
        · exact absurd ⟨rfl, congrArg integer (integer_eq_zero hbc), rfl⟩ hz
        · decide
      | _ => cases hb
    | integer _ => rfl
    | _ => cases hc
  | integer _ => rfl
  | _ => cases ha

theorem sortCompare_isLE_trans {a b c : Value} (hz : ¬ ZeroBetween a b c)
    (hab : (a.sortCompare b).isLE) (hbc : (b.sortCompare c).isLE) : (a.sortCompare c).isLE := by
  have hrab := sortRank_le hab
  have hrbc := sortRank_le hbc
  by_cases hr : a.sortRank = c.sortRank
  · have hb : b.sortRank = a.sortRank := by omega
    -- rank 2 alone is shared by two kinds
    by_cases hn : a.sortRank = 2
    · have hnb := hb.trans hn
      have hnc := hr.symm.trans hn
      rw [sortCompare_numbers hn hnb] at hab
      rw [sortCompare_numbers hnb hnc] at hbc
      rw [sortCompare_numbers hn hnc]
      have huab := Std.isLE_compare.1 (Ordering.isLE_left_of_isLE_then hab)
      have hubc := Std.isLE_compare.1 (Ordering.isLE_left_of_isLE_then hbc)
      -- the ends differ in value, or all three values agree and the ties decide
      rcases (huab.trans hubc).lt_or_eq with hu | hu
      · rw [compare_lt_iff_lt.2 hu]
        rfl
      · have hub : b.numberUnits = c.numberUnits := by omega
        rw [compare_eq_iff_eq.2 (hu.trans hub.symm), Ordering.eq_then] at hab
        rw [compare_eq_iff_eq.2 hub, Ordering.eq_then] at hbc
        rw [compare_eq_iff_eq.2 hu, Ordering.eq_then]
        exact tieCompare_isLE_trans hn hnb hnc hz hu hub hab hbc
    · obtain ⟨k, hk⟩ := exists_kind a
      exact sortCompare_isLE_trans_of_kind hk (kind?_eq_of_sortRank hb.symm hn ▸ hk)
        (kind?_eq_of_sortRank hr hn ▸ hk) hab hbc
  · rw [sortCompare_of_rank_ne hr]
    exact Std.isLE_compare.2 (hrab.trans hrbc)

theorem sortCompare_of_zeroBetween {a b c : Value} (h : ZeroBetween a b c) :
    a.sortCompare b = .eq ∧ b.sortCompare c = .eq ∧ a.sortCompare c = .gt := by
  obtain ⟨rfl, rfl, rfl⟩ := h
  decide

theorem sortCompare_eq_trans {a b c : Value} (h : ¬ ZeroBetween a b c) (h' : ¬ ZeroBetween c b a)
    (hab : a.sortCompare b = .eq) (hbc : b.sortCompare c = .eq) : a.sortCompare c = .eq := by
  have hac := sortCompare_isLE_trans h (Ordering.isLE_of_eq_eq hab) (Ordering.isLE_of_eq_eq hbc)
  have hca := sortCompare_isLE_trans h' (Ordering.isLE_of_eq_eq (OrientedCmp.eq_symm hbc))
    (Ordering.isLE_of_eq_eq (OrientedCmp.eq_symm hab))
  exact OrientedCmp.isLE_antisymm hac hca

/-- Sorting compares by a total preorder but for one triple of values in either direction: the
integer 0 equals both zeros, which are not equal to each other. -/
theorem sortCompare_preorder_iff (a b c : Value) :
    b.sortCompare a = (a.sortCompare b).swap ∧
      ((a.sortCompare b ≠ .gt → b.sortCompare c ≠ .gt → a.sortCompare c ≠ .gt) ↔
        ¬ ZeroBetween a b c) ∧
      ((a.sortCompare b = .eq → b.sortCompare c = .eq → a.sortCompare c = .eq) ↔
        ¬ ZeroBetween a b c ∧ ¬ ZeroBetween c b a) := by
  refine ⟨OrientedCmp.eq_swap, ⟨fun ht hz => ?_, fun hz => ?_⟩,
    ⟨fun ht => ⟨fun hz => ?_, fun hz => ?_⟩, fun hz => ?_⟩⟩
  · obtain ⟨hab, hbc, hac⟩ := sortCompare_of_zeroBetween hz
    exact ht (by rw [hab]; decide) (by rw [hbc]; decide) hac
  · simp only [← Ordering.isLE_iff_ne_gt]
    exact sortCompare_isLE_trans hz
  · obtain ⟨hab, hbc, hac⟩ := sortCompare_of_zeroBetween hz
    exact absurd ((ht hab hbc).symm.trans hac) (by decide)
  · obtain ⟨hcb, hba, hca⟩ := sortCompare_of_zeroBetween hz
    have hac := ht (OrientedCmp.eq_symm hba) (OrientedCmp.eq_symm hcb)
    exact absurd ((OrientedCmp.eq_symm hac).symm.trans hca) (by decide)
  · exact sortCompare_eq_trans hz.1 hz.2

/-- The zeros below and above the integer 0 refute transitivity. -/
theorem sortCompare_not_preorder : ¬ ∀ a b c : Value, b.sortCompare a = (a.sortCompare b).swap ∧
    (a.sortCompare b ≠ .gt → b.sortCompare c ≠ .gt → a.sortCompare c ≠ .gt) ∧
    (a.sortCompare b = .eq → b.sortCompare c = .eq → a.sortCompare c = .eq) := by
  intro h
  have hzeros := (h (.float .negZero) (.integer 0) (.float .zero)).2.2 (by decide) (by decide)
  exact absurd hzeros (by decide)

end Value

end RecordQuery
