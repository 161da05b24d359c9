import Mathlib.Tactic.Linarith
import RecordQuery.Value.Sort

/-! Floating-point patterns as exact numbers of smallest units. Units grow with the magnitude
over all patterns, the infinities and NaNs included, so that one count of units serves both
for the numeric order and for the place of an integer among the patterns. -/

namespace RecordQuery.Binary64

/-- The units of a pattern with its sign. Past the finite patterns the count goes on growing:
an infinity has more units than any integer, a NaN more than an infinity. -/
def signedUnits (x : Binary64) : Int := if x.isNegative then -(x.units : Int) else x.units

theorem one_pos : (0 : Int) < one := by decide

theorem units_lt_next_binade (x : Binary64) :
    x.units < hiddenBit <<< (x.magnitude / hiddenBit) := by
  unfold units significand place
  split
  · next h =>
    rw [Nat.div_eq_of_lt h]
    simpa using h
  · next h =>
    obtain ⟨q, hq⟩ : ∃ q, x.magnitude / hiddenBit = q + 1 :=
      ⟨x.magnitude / hiddenBit - 1, by have := Nat.div_pos (Nat.le_of_not_lt h) (by decide); omega⟩
    have hr : x.magnitude % hiddenBit < hiddenBit := Nat.mod_lt _ (by decide)
    rw [hq, Nat.add_sub_cancel, Nat.shiftLeft_eq, Nat.shiftLeft_eq, Nat.pow_succ', ← Nat.mul_assoc]
    exact Nat.mul_lt_mul_of_pos_right (by omega) (Nat.two_pow_pos q)

theorem binade_le_units {x : Binary64} (h : hiddenBit ≤ x.magnitude) :
    hiddenBit <<< (x.magnitude / hiddenBit - 1) ≤ x.units := by
  rw [units, significand, if_neg (by omega), place, Nat.shiftLeft_eq, Nat.shiftLeft_eq]
  exact Nat.mul_le_mul_right _ (Nat.le_add_right _ _)

theorem units_lt_of_binade_eq {x y : Binary64}
    (hq : x.magnitude / hiddenBit = y.magnitude / hiddenBit) (h : x.magnitude < y.magnitude) :
    x.units < y.units := by
  have hs : x.significand < y.significand := by
    unfold significand
    have hx := Nat.div_add_mod x.magnitude hiddenBit
    have hy := Nat.div_add_mod y.magnitude hiddenBit
    rw [hq] at hx
    split <;> split <;> omega
  rw [units, units, place, place, hq, Nat.shiftLeft_eq, Nat.shiftLeft_eq]
  exact Nat.mul_lt_mul_of_pos_right hs (Nat.two_pow_pos _)

theorem units_lt {x y : Binary64} (h : x.magnitude < y.magnitude) : x.units < y.units := by
  have hle : x.magnitude / hiddenBit ≤ y.magnitude / hiddenBit := Nat.div_le_div_right h.le
  rcases hle.lt_or_eq with hq | hq
  · have hy : hiddenBit ≤ y.magnitude := by
      by_contra hy
      rw [Nat.div_eq_of_lt (Nat.lt_of_not_le hy)] at hq
      exact absurd hq (Nat.not_lt_zero _)
    calc x.units < hiddenBit <<< (x.magnitude / hiddenBit) := units_lt_next_binade x
      _ ≤ hiddenBit <<< (y.magnitude / hiddenBit - 1) := by
        rw [Nat.shiftLeft_eq, Nat.shiftLeft_eq]
        exact Nat.mul_le_mul_left _ (Nat.pow_le_pow_right (by decide) (by omega))
      _ ≤ y.units := binade_le_units hy
  · exact units_lt_of_binade_eq hq h

theorem units_le {x y : Binary64} (h : x.magnitude ≤ y.magnitude) : x.units ≤ y.units := by
  rcases h.lt_or_eq with h | h
  · exact (units_lt h).le
  · simp only [units, significand, place, h, le_refl]

theorem units_lt_iff {x y : Binary64} : x.units < y.units ↔ x.magnitude < y.magnitude :=
  ⟨fun h => lt_of_not_ge fun hm => h.not_ge (units_le hm), units_lt⟩

theorem units_eq_iff {x y : Binary64} : x.units = y.units ↔ x.magnitude = y.magnitude := by
  have hlt := units_lt_iff (x := x) (y := y)
  have hgt := units_lt_iff (x := y) (y := x)
  omega

theorem signedUnits_lt_iff {x y : Binary64} :
    x.signedUnits < y.signedUnits ↔ x.signedMagnitude < y.signedMagnitude := by
  have hzero (z : Binary64) : z.units = 0 ↔ z.magnitude = 0 :=
    units_eq_iff (x := z) (y := ⟨0⟩)
  have hx := hzero x
  have hy := hzero y
  have hlt := units_lt_iff (x := x) (y := y)
  have hgt := units_lt_iff (x := y) (y := x)
  unfold signedUnits signedMagnitude
  split <;> split <;> omega

theorem signedUnits_eq (x : Binary64) : x.signedUnits =
    x.wholePart * one +
      (if x.isNegative then -((x.units % one : Nat) : Int) else (x.units % one : Nat)) := by
  have h : (x.units : Int) = (x.units / one : Nat) * one + (x.units % one : Nat) := by
    rw [mul_comm]
    exact_mod_cast (Nat.div_add_mod x.units one).symm
  unfold signedUnits wholePart
  split
  · rw [h, neg_add, neg_mul]
  · exact h

theorem compare_add_fraction {d n w f : Int} (hd : 0 < d) (hf : -d < f ∧ f < d) :
    compare (n * d) (w * d + f) = (compare n w).then (compare 0 f) := by
  rcases lt_trichotomy n w with h | rfl | h
  · have hm : (n + 1) * d ≤ w * d := Int.mul_le_mul_of_nonneg_right (by omega) hd.le
    rw [Int.add_mul] at hm
    rw [compare_lt_iff_lt.2 h, compare_lt_iff_lt.2 (by omega), Ordering.lt_then]
  · rw [compare_eq_iff_eq.2 rfl, Ordering.eq_then]
    rcases lt_trichotomy 0 f with h | rfl | h
    · rw [compare_lt_iff_lt.2 h, compare_lt_iff_lt.2 (by omega)]
    · rw [add_zero, compare_eq_iff_eq.2 rfl, compare_eq_iff_eq.2 rfl]
    · rw [compare_gt_iff_gt.2 h, compare_gt_iff_gt.2 (by omega)]
  · have hm : (w + 1) * d ≤ n * d := Int.mul_le_mul_of_nonneg_right (by omega) hd.le
    rw [Int.add_mul] at hm
    rw [compare_gt_iff_gt.2 h, compare_gt_iff_gt.2 (by omega), Ordering.gt_then]

theorem compare_mul_one (m n : Int) : compare (m * one) (n * one) = compare m n := by
  have h := compare_add_fraction (n := m) (w := n) (f := 0) one_pos (by decide)
  simpa using h

theorem compare_wholePart (x : Binary64) (n : Int) :
    (compare n x.wholePart).then
        (if x.hasFraction then (if x.isNegative then .gt else .lt) else .eq) =
      compare (n * one) x.signedUnits := by
  have hr : x.units % one < one := Nat.mod_lt _ (by decide)
  rw [signedUnits_eq, compare_add_fraction one_pos (by split <;> omega)]
  congr 1
  unfold hasFraction
  by_cases hz : x.units % one = 0
  · simp [hz]
  · cases hn : x.isNegative
    · simpa [hz, hn] using (compare_lt_iff_lt.2 (by omega)).symm
    · simpa [hz, hn] using (compare_gt_iff_gt.2 (by omega)).symm

theorem signedUnits_twoPow63 : twoPow63.signedUnits = 0x8000000000000000 * one := by decide

theorem signedUnits_negTwoPow63 : negTwoPow63.signedUnits = -0x8000000000000000 * one := by decide

theorem wholePart_mem {x : Binary64} (hlo : -0x8000000000000000 * one ≤ x.signedUnits)
    (hhi : x.signedUnits < 0x8000000000000000 * one) :
    -0x8000000000000000 ≤ x.wholePart ∧ x.wholePart < 0x8000000000000000 := by
  have hd := one_pos
  unfold wholePart
  unfold signedUnits at hlo hhi
  cases hn : x.isNegative
  · simp only [hn, Bool.false_eq_true, if_false] at hhi ⊢
    have hq : x.units / one < 0x8000000000000000 := Nat.div_lt_of_lt_mul (by rw [mul_comm]; omega)
    generalize x.units / one = q at hq ⊢
    omega
  · simp only [hn, if_true] at hlo ⊢
    have hq : x.units / one ≤ 0x8000000000000000 := Nat.div_le_of_le_mul (by rw [mul_comm]; omega)
    generalize x.units / one = q at hq ⊢
    omega

theorem toInt_mul_one_mem (n : Int64) :
    -0x8000000000000000 * one ≤ n.toInt * one ∧ n.toInt * one < 0x8000000000000000 * one :=
  ⟨Int.mul_le_mul_of_nonneg_right n.le_toInt one_pos.le,
    Int.mul_lt_mul_of_pos_right n.toInt_lt one_pos⟩

/-- Cutting to the whole part loses nothing: an integer is compared with the exact value. -/
theorem compareInt?_eq {x : Binary64} (h : x.isNaN = false) (n : Int64) :
    x.compareInt? n = some (compare (n.toInt * one) x.signedUnits) := by
  have hn := toInt_mul_one_mem n
  have hhi := signedUnits_lt_iff (x := x) (y := twoPow63)
  have hlo := signedUnits_lt_iff (x := x) (y := negTwoPow63)
  rw [signedUnits_twoPow63] at hhi
  rw [signedUnits_negTwoPow63] at hlo
  simp only [compareInt?, h, Bool.false_eq_true, if_false]
  -- past either bound the bound decides, between them the whole part is an integer of 64 bits
  split
  · rw [compare_lt_iff_lt.2 (by omega)]
  · split
    · rw [compare_gt_iff_gt.2 (by omega)]
    · have hw := wholePart_mem (x := x) (by omega) (by omega)
      rw [Int64.toInt_ofInt_of_le hw.1 hw.2, compare_wholePart]

theorem isNaN_iff_units (x : Binary64) :
    x.isNaN = true ↔ (⟨0x7FF0000000000000⟩ : Binary64).units < x.units := by
  rw [units_lt_iff, isNaN, decide_eq_true_iff]
  rfl

theorem totalCompareInt_eq (n : Int64) (x : Binary64) :
    Value.totalCompareInt n x = compare (n.toInt * one) x.signedUnits := by
  unfold Value.totalCompareInt
  cases h : x.isNaN with
  | false => rw [compareInt?_eq h, Option.getD_some]
  | true =>
    have hn := toInt_mul_one_mem n
    have hu := (isNaN_iff_units x).1 h
    have hinf : 0x8000000000000000 * one < (⟨0x7FF0000000000000⟩ : Binary64).units := by decide
    simp only [compareInt?, h, if_true, Option.getD_none, signedUnits]
    split
    · rw [compare_gt_iff_gt.2 (by omega)]
    · rw [compare_lt_iff_lt.2 (by omega)]

def zero : Binary64 := ⟨0⟩

def negZero : Binary64 := ⟨0x8000000000000000⟩

theorem toNat_bits (x : Binary64) :
    x.bits.toNat = if x.isNegative then signBit + x.magnitude else x.magnitude := by
  have hb := x.bits.toNat_lt
  unfold isNegative magnitude
  simp only [decide_eq_true_eq, signBit]
  split <;> omega

theorem eq_of_toNat_bits {x y : Binary64} (h : x.bits.toNat = y.bits.toNat) : x = y := by
  cases x
  cases y
  exact congrArg Binary64.mk (UInt64.toNat_inj.1 h)

theorem rank_lt {x y : Binary64} (h : x.signedUnits < y.signedUnits) : x.rank < y.rank := by
  rw [signedUnits_lt_iff] at h
  unfold signedMagnitude at h
  unfold rank
  split <;> split <;> simp only [*, if_true, Bool.false_eq_true, if_false] at h <;> omega

theorem eq_or_zeros {x y : Binary64} (h : x.signedUnits = y.signedUnits) :
    x = y ∨ (x = zero ∧ y = negZero) ∨ (x = negZero ∧ y = zero) := by
  have hm : x.signedMagnitude = y.signedMagnitude := by
    have hlt := signedUnits_lt_iff (x := x) (y := y)
    have hgt := signedUnits_lt_iff (x := y) (y := x)
    omega
  have hx := toNat_bits x
  have hy := toNat_bits y
  unfold signedMagnitude at hm
  cases hsx : x.isNegative <;> cases hsy : y.isNegative <;>
    simp only [hsx, hsy, if_true, Bool.false_eq_true, if_false] at hm hx hy
  · exact .inl (eq_of_toNat_bits (by omega))
  · exact .inr (.inl ⟨eq_of_toNat_bits (hx.trans (by omega : x.magnitude = 0)),
      eq_of_toNat_bits (hy.trans (by omega : signBit + y.magnitude = signBit))⟩)
  · exact .inr (.inr ⟨eq_of_toNat_bits (hx.trans (by omega : signBit + x.magnitude = signBit)),
      eq_of_toNat_bits (hy.trans (by omega : y.magnitude = 0))⟩)
  · exact .inl (eq_of_toNat_bits (by omega))

end RecordQuery.Binary64
