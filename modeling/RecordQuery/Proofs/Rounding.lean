import Mathlib.Tactic.Linarith
import RecordQuery.Binary64.Nearest

/-! Rounding to the nearest number: how far it goes up, and when its result is finite. -/

namespace RecordQuery.Binary64

theorem divEven_le (a b : Nat) : divEven a b ≤ a / b + 1 := by
  unfold divEven
  dsimp only
  split
  · exact le_rfl
  · exact Nat.le_succ _

theorem le_divEven (a b : Nat) : a / b ≤ divEven a b := by
  unfold divEven
  dsimp only
  split
  · exact Nat.le_succ _
  · exact le_rfl

def lastPlace (q : Nat) : Nat := q.log2 - 52

def largest : Nat := (2 * hiddenBit - 1) * 2 ^ 971

def topPlace : Nat := 971 + 1074

theorem pow_mul_one_shiftLeft (i j : Nat) : 2 ^ i * 1 <<< j = 2 ^ (i + j) := by
  rw [Nat.shiftLeft_eq, one_mul, pow_add]

theorem largest_mul_one : largest * one = (2 * hiddenBit - 1) * 2 ^ topPlace := by
  rw [largest, one, mul_assoc, pow_mul_one_shiftLeft, topPlace]

theorem nearestMagnitude_eq (a b : Nat) : nearestMagnitude a b = min infinityMagnitude
    (lastPlace (a * one / b) * hiddenBit + divEven (a * one) (b <<< lastPlace (a * one / b))) := rfl

theorem div_lastPlace_lt (q : Nat) : q / 2 ^ lastPlace q < 2 * hiddenBit := by
  have hlog : q < 2 ^ (q.log2 + 1) := Nat.lt_log2_self
  have hplace : 2 ^ (q.log2 + 1) ≤ 2 ^ (53 + lastPlace q) :=
    Nat.pow_le_pow_right (by decide) (by unfold lastPlace; omega)
  refine Nat.div_lt_of_lt_mul ?_
  calc q < 2 ^ (53 + lastPlace q) := hlog.trans_le hplace
    _ = 2 ^ lastPlace q * (2 * hiddenBit) := by rw [pow_add, mul_comm]; rfl

theorem two_pow_lastPlace_mul_le {q : Nat} (h : hiddenBit ≤ q) : 2 ^ lastPlace q * hiddenBit ≤ q := by
  have hq : q ≠ 0 := by rintro rfl; exact absurd h (by decide)
  have hlog : 52 ≤ q.log2 := (Nat.le_log2 hq).2 h
  calc 2 ^ lastPlace q * hiddenBit = 2 ^ (lastPlace q + 52) := (pow_add 2 _ 52).symm
    _ = 2 ^ q.log2 := by rw [lastPlace, Nat.sub_add_cancel hlog]
    _ ≤ q := Nat.log2_self_le hq

theorem units_ofMagnitude {s m : Nat} (negative : Bool) (hs : s * hiddenBit + m < signBit)
    (hle : m ≤ 2 * hiddenBit) (hm : s = 0 ∨ hiddenBit ≤ m) :
    (ofMagnitude negative (s * hiddenBit + m)).units = m * 2 ^ s := by
  unfold units significand place
  rw [magnitude_ofMagnitude hs, Nat.shiftLeft_eq]
  rcases Nat.lt_or_ge m hiddenBit with hlt | hge
  · obtain rfl := hm.resolve_right hlt.not_ge
    rw [zero_mul, zero_add, if_pos hlt, Nat.div_eq_of_lt hlt]
  have hbig : ¬ s * hiddenBit + m < hiddenBit := by omega
  have hdiv : (s * hiddenBit + m) / hiddenBit = s + m / hiddenBit := by
    rw [mul_comm, Nat.mul_add_div (by decide)]
  have hmod : (s * hiddenBit + m) % hiddenBit = m % hiddenBit := by rw [mul_comm, Nat.mul_add_mod]
  rw [if_neg hbig, hdiv, hmod]
  -- a significand rounded up to the next power of two moves on to the next binade
  rcases hle.lt_or_eq with hlt | rfl
  · have hone : m / hiddenBit = 1 := Nat.div_eq_of_lt_le (by omega) (by omega)
    have hrest : hiddenBit + m % hiddenBit = m := by
      have hsum := Nat.div_add_mod m hiddenBit
      rwa [hone, mul_one] at hsum
    rw [hone, hrest, Nat.add_sub_cancel]
  · rw [Nat.mul_div_cancel 2 (by decide), Nat.mul_mod_left, add_zero, Nat.add_succ_sub_one, pow_succ',
      mul_left_comm, mul_assoc]

section

variable {a b : Nat}

theorem div_shift_lastPlace (a b : Nat) :
    a / (b <<< lastPlace (a / b)) = a / b / 2 ^ lastPlace (a / b) := by
  rw [Nat.shiftLeft_eq, Nat.div_div_eq_div_mul]

theorem divEven_lastPlace_le (a b : Nat) :
    divEven a (b <<< lastPlace (a / b)) ≤ a / b / 2 ^ lastPlace (a / b) + 1 := by
  rw [← div_shift_lastPlace]
  exact divEven_le _ _

theorem div_two_pow_lt {q m n : Nat} (h : q < m * 2 ^ n) : q / 2 ^ n < m :=
  (Nat.div_lt_iff_lt_mul (Nat.two_pow_pos n)).2 h

theorem lastPlace_le {q n : Nat} (h : q < 2 ^ (53 + n)) : lastPlace q ≤ n := by
  rcases Nat.eq_zero_or_pos q with rfl | hq
  · exact Nat.zero_le n
  · have hlog : q.log2 < 53 + n := (Nat.log2_lt hq.ne').2 h
    unfold lastPlace
    omega

theorem nearestMagnitude_lt (h : a * one / b < largest * one) :
    nearestMagnitude a b < infinityMagnitude := by
  rw [largest_mul_one] at h
  rw [nearestMagnitude_eq]
  refine (min_le_right _ _).trans_lt ?_
  have hround := divEven_lastPlace_le (a * one) b
  have hplace := div_lastPlace_lt (a * one / b)
  have hle : lastPlace (a * one / b) ≤ topPlace := by
    refine lastPlace_le (h.trans_le ?_)
    rw [pow_add]
    exact Nat.mul_le_mul_right _ (by decide)
  rcases hle.lt_or_eq with hlt | heq
  · calc _ ≤ (topPlace - 1) * hiddenBit + 2 * hiddenBit :=
        Nat.add_le_add (Nat.mul_le_mul_right _ (Nat.le_sub_one_of_lt hlt)) (hround.trans hplace)
      _ < infinityMagnitude := by decide
  · -- in the last place of all the significand must not be carried
    have hquot : a * one / b / 2 ^ topPlace < 2 * hiddenBit - 1 := div_two_pow_lt h
    rw [heq] at hround ⊢
    calc _ ≤ topPlace * hiddenBit + (2 * hiddenBit - 1) := Nat.add_le_add_left (hround.trans hquot) _
      _ < infinityMagnitude := by decide

theorem isFinite_nearest (negative : Bool) (h : a * one / b < largest * one) :
    (nearest negative a b).isFinite = true := by
  have hlt := nearestMagnitude_lt h
  have hsign := hlt.trans (by decide : infinityMagnitude < signBit)
  rw [isFinite, nearest, magnitude_ofMagnitude hsign]
  exact decide_eq_true hlt

theorem units_nearest_le (negative : Bool) (hfinite : nearestMagnitude a b < infinityMagnitude) :
    (nearest negative a b).units ≤ a * one / b + 2 ^ lastPlace (a * one / b) := by
  have hround := divEven_lastPlace_le (a * one) b
  have hplace := div_lastPlace_lt (a * one / b)
  -- past the subnormal numbers rounding leaves the hidden bit in place
  have hnormal : lastPlace (a * one / b) = 0 ∨
      hiddenBit ≤ divEven (a * one) (b <<< lastPlace (a * one / b)) := by
    refine or_iff_not_imp_left.2 fun hs => ?_
    have hbig : hiddenBit ≤ a * one / b := by
      by_contra hsmall
      exact hs (Nat.le_zero.1 (lastPlace_le ((Nat.lt_of_not_le hsmall).trans (by decide))))
    calc hiddenBit ≤ a * one / b / 2 ^ lastPlace (a * one / b) :=
          (Nat.le_div_iff_mul_le (Nat.two_pow_pos _)).2 (mul_comm _ hiddenBit ▸ two_pow_lastPlace_mul_le hbig)
      _ ≤ _ := by
        rw [← div_shift_lastPlace]
        exact le_divEven _ _
  rw [nearestMagnitude_eq] at hfinite
  have hlt := (min_lt_iff.1 hfinite).resolve_left (lt_irrefl _)
  have hsign := hlt.trans (by decide : infinityMagnitude < signBit)
  rw [nearest, nearestMagnitude_eq, min_eq_right hlt.le,
    units_ofMagnitude negative hsign (hround.trans hplace) hnormal]
  calc _ ≤ (a * one / b / 2 ^ lastPlace (a * one / b) + 1) * 2 ^ lastPlace (a * one / b) :=
        Nat.mul_le_mul_right _ hround
    _ ≤ _ := by
      rw [add_mul, one_mul]
      exact Nat.add_le_add_right (Nat.div_mul_le_self _ _) _

end

end RecordQuery.Binary64
