import Mathlib.Data.Rat.Floor
import Mathlib.Order.WithBotTop
import RecordQuery.Proofs.Relations

/-! The exact numbers that floating-point patterns stand for, read off their exponent and fraction, and the
place of an integer among them. -/

namespace RecordQuery

def truncate (q : ℚ) : ℤ := if 0 ≤ q then ⌊q⌋ else ⌈q⌉

namespace Binary64

def exponentBits (x : Binary64) : Nat := x.bits.toNat / 2 ^ 52 % 2 ^ 11

def fractionBits (x : Binary64) : Nat := x.bits.toNat % 2 ^ 52

/-- The number of a finite pattern without its sign. The fraction stands behind a one, except at the smallest
exponent, where nothing stands before it. -/
def absolute (x : Binary64) : ℚ :=
  if x.exponentBits = 0 then x.fractionBits / 2 ^ 52 * 2 ^ (-1022 : ℤ)
  else (1 + x.fractionBits / 2 ^ 52) * 2 ^ ((x.exponentBits : ℤ) - 1023)

def signed (x : Binary64) : ℚ := if x.isNegative then -x.absolute else x.absolute

/-- The exact value of a pattern. The largest exponent belongs to the infinities and, with a fraction, to the
NaNs, which have no value. -/
def value? (x : Binary64) : Option (WithBotTop ℚ) :=
  if x.exponentBits = 2047 then
    if x.fractionBits = 0 then some (if x.isNegative then ⊥ else ⊤) else none
  else some x.signed

example : zero.value? = some ((0 : ℚ) : WithBotTop ℚ) ∧ negZero.value? = some ((0 : ℚ) : WithBotTop ℚ) := by
  decide +kernel

/-- `compareInt?`, given up where neither bound decides and the whole part is no integer of 64 bits. -/
def compareIntWithin? (x : Binary64) (n : Int64) : Option (Option Ordering) :=
  if x.isNaN then some none
  else if twoPow63.signedMagnitude ≤ x.signedMagnitude then some (some .lt)
  else if x.signedMagnitude < negTwoPow63.signedMagnitude then some (some .gt)
  else if Int64.minValue.toInt ≤ x.wholePart ∧ x.wholePart ≤ Int64.maxValue.toInt then
    some (x.compareInt? n)
  else none

variable {x : Binary64}

theorem exponentBits_eq (x : Binary64) : x.exponentBits = x.magnitude / hiddenBit :=
  (Nat.mod_mul_right_div_self x.bits.toNat (2 ^ 52) (2 ^ 11)).symm

theorem fractionBits_eq (x : Binary64) : x.fractionBits = x.magnitude % hiddenBit :=
  (Nat.mod_mod_of_dvd x.bits.toNat (by decide : 2 ^ 52 ∣ signBit)).symm

theorem magnitude_eq_bits (x : Binary64) : x.magnitude = 2 ^ 52 * x.exponentBits + x.fractionBits := by
  rw [exponentBits_eq, fractionBits_eq]
  exact (Nat.div_add_mod x.magnitude hiddenBit).symm

theorem fractionBits_lt (x : Binary64) : x.fractionBits < 2 ^ 52 := Nat.mod_lt _ (by decide)

theorem exponentBits_lt (x : Binary64) : x.exponentBits < 2 ^ 11 := Nat.mod_lt _ (by decide)

theorem isNaN_iff_bits : x.isNaN = true ↔ x.exponentBits = 2047 ∧ x.fractionBits ≠ 0 := by
  have hfraction := x.fractionBits_lt
  have hexponent := x.exponentBits_lt
  rw [isNaN, decide_eq_true_iff, magnitude_eq_bits, infinityMagnitude]
  omega

theorem units_eq_bits (x : Binary64) : x.units =
    if x.exponentBits = 0 then x.fractionBits else (2 ^ 52 + x.fractionBits) * 2 ^ (x.exponentBits - 1) := by
  have hfraction := x.fractionBits_lt
  have hsmall : x.magnitude < hiddenBit ↔ x.exponentBits = 0 := by
    rw [magnitude_eq_bits, hiddenBit]
    omega
  unfold units significand place
  rw [← exponentBits_eq, ← fractionBits_eq, Nat.shiftLeft_eq]
  simp only [hsmall]
  split
  · next hzero => rw [magnitude_eq_bits, hzero, Nat.mul_zero, Nat.zero_add, Nat.pow_zero, Nat.mul_one]
  · rfl

theorem cast_one_shiftLeft (k : Nat) : ((1 <<< k : Nat) : ℚ) = 2 ^ (k : ℤ) := by
  rw [Nat.one_shiftLeft, Nat.cast_pow, Nat.cast_ofNat, zpow_natCast]

theorem cast_one : ((one : Nat) : ℚ) = 2 ^ (1074 : ℤ) := cast_one_shiftLeft 1074

theorem cast_one_pos : (0 : ℚ) < ((one : Nat) : ℚ) := Nat.cast_pos.2 (Int.natCast_pos.1 one_pos)

theorem absolute_mul_one (x : Binary64) : x.absolute * (one : Nat) = x.units := by
  rw [cast_one, units_eq_bits, absolute]
  split
  · rw [mul_assoc, ← zpow_add₀ two_ne_zero]
    norm_num
  · next hne =>
    have hexponent : (x.exponentBits : ℤ) - 1023 + 1074 = 52 + (x.exponentBits - 1 : Nat) := by omega
    have hsignificand : (1 + (x.fractionBits : ℚ) / 2 ^ 52) * 2 ^ (52 : ℤ) = 2 ^ 52 + x.fractionBits := by
      rw [zpow_ofNat]
      field_simp
    rw [mul_assoc, ← zpow_add₀ two_ne_zero, hexponent, zpow_add₀ two_ne_zero, zpow_natCast, ← mul_assoc,
      hsignificand]
    push_cast
    rfl

theorem signed_mul_one (x : Binary64) : x.signed * (one : Nat) = x.signedUnits := by
  unfold signed signedUnits
  split
  · rw [neg_mul, absolute_mul_one, Int.cast_neg, Int.cast_natCast]
  · rw [absolute_mul_one, Int.cast_natCast]

theorem compare_signed (x : Binary64) (n : Int) :
    compare ((n : ℚ) : WithBotTop ℚ) (x.signed : WithBotTop ℚ) = compare (n * one) x.signedUnits := by
  rw [← cmp_eq_compare, ← cmp_eq_compare]
  calc cmp ((n : ℚ) : WithBotTop ℚ) (x.signed : WithBotTop ℚ) = cmp (n : ℚ) x.signed :=
        WithBotTop.coe_strictMono.cmp_map_eq _ _
    _ = cmp ((n : ℚ) * (one : Nat)) (x.signed * (one : Nat)) := (cmp_mul_pos_right cast_one_pos _ _).symm
    _ = cmp ((n * one : Int) : ℚ) (x.signedUnits : ℚ) := by
      rw [signed_mul_one, Int.cast_mul, Int.cast_natCast]
    _ = cmp (n * one) x.signedUnits := Int.cast_strictMono.cmp_map_eq _ _

theorem compareInt?_of_infinite (hexponent : x.exponentBits = 2047) (hfraction : x.fractionBits = 0)
    (n : Int64) : x.compareInt? n = some (if x.isNegative then .gt else .lt) := by
  have hnan : x.isNaN = false := Bool.eq_false_iff.2 fun h => (isNaN_iff_bits.1 h).2 hfraction
  have hmagnitude : x.magnitude = infinityMagnitude := by
    rw [magnitude_eq_bits, hexponent, hfraction]
    rfl
  unfold compareInt? signedMagnitude
  rw [hnan, hmagnitude]
  cases x.isNegative <;> rfl

theorem compareInt?_of_value? {v : WithBotTop ℚ} (h : x.value? = some v) (n : Int64) :
    x.compareInt? n = some (compare ((n.toInt : ℚ) : WithBotTop ℚ) v) := by
  unfold value? at h
  split at h
  · next hexponent =>
    split at h
    · next hfraction =>
      cases h
      rw [compareInt?_of_infinite hexponent hfraction]
      split
      · rw [compare_gt_iff_gt.2 (WithBotTop.coe_ne_bot _).bot_lt]
      · rw [compare_lt_iff_lt.2 (WithBotTop.coe_ne_top _).lt_top]
    · cases h
  · next hexponent =>
    cases h
    have hnan : x.isNaN = false := Bool.eq_false_iff.2 fun h => hexponent (isNaN_iff_bits.1 h).1
    rw [compareInt?_eq hnan, compare_signed]

theorem compareInt?_eq_none_iff (n : Int64) :
    x.compareInt? n = none ↔ x.exponentBits = 2047 ∧ x.fractionBits ≠ 0 := by
  rw [← isNaN_iff_bits, ← Option.not_isSome_iff_eq_none, isSome_compareInt?_iff, Bool.not_eq_false]

theorem value?_eq_none_iff : x.value? = none ↔ x.exponentBits = 2047 ∧ x.fractionBits ≠ 0 := by
  unfold value?
  split
  · next hexponent =>
    split
    · next hfraction => exact iff_of_false (Option.some_ne_none _) fun h => h.2 hfraction
    · next hfraction => exact iff_of_true rfl ⟨hexponent, hfraction⟩
  · next hexponent => exact iff_of_false (Option.some_ne_none _) fun h => hexponent h.1

theorem compareInt?_eq_map (x : Binary64) (n : Int64) :
    x.compareInt? n = x.value?.map (compare ((n.toInt : ℚ) : WithBotTop ℚ)) := by
  cases h : x.value? with
  | none => exact (compareInt?_eq_none_iff n).2 (value?_eq_none_iff.1 h)
  | some v => exact compareInt?_of_value? h n

theorem eq_signed_of_value? {q : ℚ} (h : x.value? = some (q : WithBotTop ℚ)) : q = x.signed := by
  unfold value? at h
  split at h
  · split at h
    · split at h
      · exact absurd (Option.some.inj h).symm (WithBotTop.coe_ne_bot q)
      · exact absurd (Option.some.inj h).symm (WithBotTop.coe_ne_top q)
    · cases h
  · exact (WithBotTop.coe_injective (Option.some.inj h)).symm

theorem absolute_eq_div (x : Binary64) : x.absolute = x.units / (one : Nat) :=
  eq_div_of_mul_eq cast_one_pos.ne' x.absolute_mul_one

theorem wholePart_eq (x : Binary64) : x.wholePart = truncate x.signed := by
  have hfloor : ⌊x.absolute⌋ = (x.units / one : Nat) := by
    rw [absolute_eq_div, Rat.floor_natCast_div_natCast, Int.natCast_ediv]
  have hnonneg : 0 ≤ x.absolute := by
    rw [absolute_eq_div]
    positivity
  unfold wholePart signed truncate
  -- below zero the whole part is next above the number, and a negative zero is not below
  split
  · by_cases hzero : 0 ≤ -x.absolute
    · have habsolute : x.absolute = 0 := le_antisymm (neg_nonneg.1 hzero) hnonneg
      rw [if_pos hzero, ← hfloor, habsolute, neg_zero, Int.floor_zero, neg_zero]
    · rw [if_neg hzero, Int.ceil_neg, hfloor]
  · exact hfloor.symm

theorem compareIntWithin?_eq_some (x : Binary64) (n : Int64) :
    x.compareIntWithin? n = some (x.compareInt? n) := by
  have hhi := signedUnits_lt_iff (x := x) (y := twoPow63)
  have hlo := signedUnits_lt_iff (x := x) (y := negTwoPow63)
  rw [signedUnits_twoPow63] at hhi
  rw [signedUnits_negTwoPow63] at hlo
  unfold compareIntWithin?
  split
  · next hnan => rw [compareInt?, if_pos hnan]
  · next hnan =>
    split
    · next hbound => rw [compareInt?, if_neg hnan, if_pos hbound]
    · next habove =>
      split
      · next hbound => rw [compareInt?, if_neg hnan, if_neg habove, if_pos hbound]
      · have hwhole := wholePart_mem (x := x) (by omega) (by omega)
        have hmin : Int64.minValue.toInt = -0x8000000000000000 := by decide
        have hmax : Int64.maxValue.toInt = 0x7FFFFFFFFFFFFFFF := by decide
        rw [if_pos (by omega)]

/-- An integer is compared with the exact value of a pattern, be it a dyadic number or an infinity. Only a NaN
has no place among the integers, and where the whole part is compared it is an integer of 64 bits. -/
theorem compareInt?_exact (x : Binary64) (n : Int64) :
    (x.compareInt? n = none ↔ x.exponentBits = 2047 ∧ x.fractionBits ≠ 0) ∧
    x.compareInt? n = x.value?.map (compare ((n.toInt : ℚ) : WithBotTop ℚ)) ∧
    (∀ q : ℚ, x.value? = some (q : WithBotTop ℚ) →
      (∃ m : ℤ, q = m / 2 ^ (1074 : ℤ)) ∧ x.wholePart = truncate q) ∧
    x.compareIntWithin? n = some (x.compareInt? n) := by
  refine ⟨compareInt?_eq_none_iff n, x.compareInt?_eq_map n, fun q hq => ?_, x.compareIntWithin?_eq_some n⟩
  obtain rfl := eq_signed_of_value? hq
  refine ⟨⟨x.signedUnits, ?_⟩, x.wholePart_eq⟩
  rw [← cast_one]
  exact eq_div_of_mul_eq cast_one_pos.ne' x.signed_mul_one

example : (⟨0x8000000000000001⟩ : Binary64).compareInt? 0 = some .gt := by decide

end Binary64

end RecordQuery
