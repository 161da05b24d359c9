import Mathlib.Tactic.Linarith
import Mathlib.Tactic.Ring
import RecordQuery.Binary64.Scaled
import RecordQuery.Proofs.Rounding
import RecordQuery.Proofs.Tokens

/-! The exact value of a numeral against the floating-point number it is read as. Leading digits are kept
and both factors are rounded; up to `10 ^ 308` the result is finite all the same. -/

namespace RecordQuery

namespace Binary64

theorem units_ofNat_mul_le {n : Nat} (hpos : 0 < n) (h : n < largest) :
    (ofNat n).units * hiddenBit ≤ n * one * (hiddenBit + 1) := by
  have hfinite : n * one / 1 < largest * one := by
    rw [Nat.div_one]
    exact Nat.mul_lt_mul_of_pos_right h (by decide)
  have hround := units_nearest_le false (nearestMagnitude_lt hfinite)
  have hbig : hiddenBit ≤ n * one :=
    (by decide : hiddenBit ≤ one).trans (Nat.le_mul_of_pos_left one hpos)
  have hplace := two_pow_lastPlace_mul_le hbig
  rw [Nat.div_one] at hround
  calc (ofNat n).units * hiddenBit ≤ (n * one + 2 ^ lastPlace (n * one)) * hiddenBit :=
        Nat.mul_le_mul_right _ hround
    _ ≤ n * one * (hiddenBit + 1) := by
      rw [add_mul, mul_add, mul_one]
      exact Nat.add_le_add_left hplace _

theorem isFinite_mul_ofNat {m n : Nat} (hm : 0 < m) (hn : 0 < n)
    (h : m * n * ((hiddenBit + 1) * (hiddenBit + 1)) < largest * (hiddenBit * hiddenBit)) :
    ((ofNat m).mul (ofNat n)).isFinite = true := by
  have hsquare : hiddenBit * hiddenBit ≤ (hiddenBit + 1) * (hiddenBit + 1) := by decide
  have hproduct : m * n < largest :=
    Nat.lt_of_mul_lt_mul_right ((Nat.mul_le_mul_left _ hsquare).trans_lt h)
  have hx := units_ofNat_mul_le hm ((Nat.le_mul_of_pos_right m hn).trans_lt hproduct)
  have hy := units_ofNat_mul_le hn ((Nat.le_mul_of_pos_left n hm).trans_lt hproduct)
  refine isFinite_nearest _ ?_
  have hone : 0 < one := by decide
  rw [Nat.mul_div_mul_right _ _ hone, Nat.div_lt_iff_lt_mul hone]
  refine Nat.lt_of_mul_lt_mul_right (a := hiddenBit * hiddenBit) ?_
  calc (ofNat m).units * (ofNat n).units * (hiddenBit * hiddenBit)
      = (ofNat m).units * hiddenBit * ((ofNat n).units * hiddenBit) := by ring
    _ ≤ m * one * (hiddenBit + 1) * (n * one * (hiddenBit + 1)) := Nat.mul_le_mul hx hy
    _ = m * n * ((hiddenBit + 1) * (hiddenBit + 1)) * (one * one) := by ring
    _ < largest * (hiddenBit * hiddenBit) * (one * one) :=
      Nat.mul_lt_mul_of_pos_right h (Nat.mul_pos hone hone)
    _ = largest * one * one * (hiddenBit * hiddenBit) := by ring

end Binary64

theorem digitValue_le {d : Char} (h : d.isDigit = true) : d.toNat - '0'.toNat ≤ 9 := by
  simp only [Char.isDigit, Bool.and_eq_true, decide_eq_true_eq] at h
  have hle : d.toNat ≤ 57 := h.2
  change d.toNat - 48 ≤ 9
  omega

theorem ofDigitChars_lt {ds : List Char} (h : ds.all Char.isDigit = true) :
    Nat.ofDigitChars 10 ds 0 < 10 ^ ds.length := by
  induction ds with
  | nil => exact Nat.one_pos
  | cons d ds ih =>
    obtain ⟨hd, hds⟩ := Bool.and_eq_true_iff.1 h
    have hdigit := digitValue_le hd
    have hrest := ih hds
    rw [Nat.ofDigitChars_cons, Nat.ofDigitChars_eq_ofDigitChars_zero, List.length_cons, pow_succ]
    nlinarith

theorem le_ofDigitChars (ds : List Char) (n : Nat) : n * 10 ^ ds.length ≤ Nat.ofDigitChars 10 ds n := by
  rw [Nat.ofDigitChars_eq_ofDigitChars_zero, mul_comm]
  exact Nat.le_add_right _ _

theorem ofDigitChars_le {ds : List Char} (h : ds.all Char.isDigit = true) (n : Nat) :
    Nat.ofDigitChars 10 ds n ≤ (n + 1) * 10 ^ ds.length := by
  have hlt := ofDigitChars_lt h
  rw [Nat.ofDigitChars_eq_ofDigitChars_zero, add_mul, one_mul, mul_comm n]
  exact Nat.add_le_add_left hlt.le _

namespace Numeral

def digits (n : Numeral) : Nat := Nat.ofDigitChars 10 (n.whole ++ n.fraction) 0

def scale (n : Numeral) : Int := (Text.readInt? n.exponent).getD 0 - n.fraction.length

def isAtMost (bound : Nat) (n : Numeral) : Bool :=
  n.digits * Nat.pow 10 n.scale.toNat ≤ bound * Nat.pow 10 (-n.scale).toNat

theorem exists_taken (word : Nat) (ds : List Char) : ∃ taken, ds = taken ++ (fillWord word ds).2 ∧
    (fillWord word ds).1 = Nat.ofDigitChars 10 taken word ∧
    ∀ d rest, (fillWord word ds).2 = d :: rest →
      UInt64.size ≤ Nat.ofDigitChars 10 [d] (fillWord word ds).1 := by
  induction ds generalizing word with
  | nil => exact ⟨[], rfl, rfl, fun _ _ h => nomatch h⟩
  | cons d ds ih =>
    by_cases hnext : Nat.ofDigitChars 10 [d] word < UInt64.size
    · have hfill : fillWord word (d :: ds) = fillWord (Nat.ofDigitChars 10 [d] word) ds := if_pos hnext
      obtain ⟨taken, hds, hword, hfull⟩ := ih (Nat.ofDigitChars 10 [d] word)
      rw [hfill]
      exact ⟨d :: taken, congrArg (d :: ·) hds, hword, hfull⟩
    · have hfill : fillWord word (d :: ds) = (word, d :: ds) := if_neg hnext
      rw [hfill]
      refine ⟨[], rfl, rfl, fun d' rest h => ?_⟩
      obtain ⟨rfl, -⟩ := List.cons.inj h
      exact Nat.le_of_not_lt hnext

theorem mul_pow_le_ofDigitChars {word : Nat} {dropped taken : List Char} (ignored : List Char)
    (hdropped : dropped.all Char.isDigit = true) (htaken : taken.all Char.isDigit = true)
    (hfull : ∀ d rest, dropped = d :: rest → UInt64.size ≤ Nat.ofDigitChars 10 [d] word) :
    Nat.ofDigitChars 10 taken word * 10 ^ (dropped.length + ignored.length) * 2 ^ 60 ≤
      Nat.ofDigitChars 10 (dropped ++ taken ++ ignored) word * (2 ^ 60 + 1) := by
  cases dropped with
  | nil =>
    have hle := le_ofDigitChars ignored (Nat.ofDigitChars 10 taken word)
    rw [List.nil_append, Nat.ofDigitChars_append, List.length_nil, Nat.zero_add]
    exact Nat.mul_le_mul hle (Nat.le_succ _)
  | cons d rest =>
    -- a digit was dropped, so the word is nearly full and one more unit of it is a small part
    have hword : 2 ^ 60 ≤ word := by
      have hsize : 2 ^ 64 ≤ 10 * word + (d.toNat - '0'.toNat) := hfull d rest rfl
      have hdigit := digitValue_le (Bool.and_eq_true_iff.1 hdropped).1
      omega
    obtain ⟨p, hp⟩ : ∃ p, 10 ^ (taken.length + ((d :: rest).length + ignored.length)) = p := ⟨_, rfl⟩
    have hupper : Nat.ofDigitChars 10 taken word * 10 ^ ((d :: rest).length + ignored.length) ≤
        (word + 1) * p := by
      rw [← hp, pow_add 10 taken.length, ← mul_assoc]
      exact Nat.mul_le_mul_right _ (ofDigitChars_le htaken word)
    have hlower : word * p ≤ Nat.ofDigitChars 10 (d :: rest ++ taken ++ ignored) word := by
      have hle := le_ofDigitChars (d :: rest ++ taken ++ ignored) word
      rwa [List.length_append, List.length_append, Nat.add_right_comm, Nat.add_comm, hp] at hle
    calc _ ≤ (word + 1) * p * 2 ^ 60 := Nat.mul_le_mul_right _ hupper
      _ = word * p * 2 ^ 60 + 2 ^ 60 * p := by ring
      _ ≤ word * p * 2 ^ 60 + word * p := Nat.add_le_add_left (Nat.mul_le_mul_right p hword) _
      _ = word * p * (2 ^ 60 + 1) := by ring
      _ ≤ _ := Nat.mul_le_mul_right _ hlower

/-- Of digits that do not fit the word the value gains at most one part in `2 ^ 60`. -/
theorem exists_scaled (n : Numeral) (hwhole : n.whole.all Char.isDigit = true)
    (hfraction : n.fraction.all Char.isDigit = true) : ∃ k : Nat, n.scaled.2 = n.scale + k ∧
      n.scaled.1 * 10 ^ k * 2 ^ 60 ≤ n.digits * (2 ^ 60 + 1) := by
  obtain ⟨taken, htaken, hword, hfull⟩ := exists_taken 0 n.whole
  obtain ⟨taken', htaken', hword', -⟩ := exists_taken (fillWord 0 n.whole).1 n.fraction
  obtain ⟨dropped, hdropped⟩ : ∃ ds, (fillWord 0 n.whole).2 = ds := ⟨_, rfl⟩
  obtain ⟨ignored, hignored⟩ : ∃ ds, (fillWord (fillWord 0 n.whole).1 n.fraction).2 = ds := ⟨_, rfl⟩
  have hscaled : n.scaled = ((fillWord (fillWord 0 n.whole).1 n.fraction).1,
      (Text.readInt? n.exponent).getD 0 + dropped.length -
        (n.fraction.length - ignored.length : Nat)) := by
    rw [← hdropped, ← hignored]
    rfl
  rw [hdropped] at htaken hfull
  rw [hignored] at htaken'
  generalize (fillWord 0 n.whole).1 = word at *
  refine ⟨dropped.length + ignored.length, ?_, ?_⟩
  · rw [hscaled, scale]
    have hlength := congrArg List.length htaken'
    rw [List.length_append] at hlength
    push_cast
    omega
  · have hdigits : n.digits = Nat.ofDigitChars 10 (dropped ++ taken' ++ ignored) word := by
      rw [digits, htaken, htaken', List.append_assoc, Nat.ofDigitChars_append, ← hword, List.append_assoc]
    rw [htaken, List.all_append, Bool.and_eq_true] at hwhole
    rw [htaken', List.all_append, Bool.and_eq_true] at hfraction
    rw [hscaled, hword', hdigits]
    exact mul_pow_le_ofDigitChars ignored hwhole.2 hfraction.1 hfull

theorem all_isDigit_of_isWritten {n : Numeral} (h : n.isWritten = true) :
    n.whole.all Char.isDigit = true ∧ n.fraction.all Char.isDigit = true := by
  obtain ⟨hdigits, -⟩ := Bool.and_eq_true_iff.1 h
  obtain ⟨hwhole, hfraction⟩ := Bool.and_eq_true_iff.1 hdigits
  refine ⟨?_, hfraction⟩
  cases hds : n.whole with
  | nil => rfl
  | cons d ds =>
    rw [hds] at hwhole
    exact (Bool.and_eq_true_iff.1 hwhole).1

theorem scaled_mul_pow_le {n : Numeral} {bound : Nat} (hn : n.isWritten = true)
    (h : n.isAtMost bound = true) (hpos : 0 ≤ n.scaled.2) :
    n.scaled.1 * 10 ^ n.scaled.2.toNat * 2 ^ 60 ≤ bound * (2 ^ 60 + 1) := by
  obtain ⟨hwhole, hfraction⟩ := all_isDigit_of_isWritten hn
  obtain ⟨k, hscale, hle⟩ := n.exists_scaled hwhole hfraction
  have h : n.digits * 10 ^ n.scale.toNat ≤ bound * 10 ^ (-n.scale).toNat := of_decide_eq_true h
  generalize n.scaled.1 = word at *
  generalize n.scaled.2 = exponent at *
  have hshift : k + n.scale.toNat = exponent.toNat + (-n.scale).toNat := by omega
  refine Nat.le_of_mul_le_mul_right ?_ (Nat.pow_pos Nat.succ_pos' : 0 < 10 ^ (-n.scale).toNat)
  calc word * 10 ^ exponent.toNat * 2 ^ 60 * 10 ^ (-n.scale).toNat
      = word * 10 ^ (exponent.toNat + (-n.scale).toNat) * 2 ^ 60 := by ring
    _ = word * 10 ^ k * 2 ^ 60 * 10 ^ n.scale.toNat := by rw [← hshift]; ring
    _ ≤ n.digits * (2 ^ 60 + 1) * 10 ^ n.scale.toNat := Nat.mul_le_mul_right _ hle
    _ = n.digits * 10 ^ n.scale.toNat * (2 ^ 60 + 1) := by ring
    _ ≤ bound * 10 ^ (-n.scale).toNat * (2 ^ 60 + 1) := Nat.mul_le_mul_right _ h
    _ = bound * (2 ^ 60 + 1) * 10 ^ (-n.scale).toNat := by ring

theorem isFinite_of_le {n : Numeral} {bound : Nat}
    (hle : 0 ≤ n.scaled.2 → n.scaled.1 * 10 ^ n.scaled.2.toNat * 2 ^ 60 ≤ bound * (2 ^ 60 + 1))
    (hexponent : bound * (2 ^ 60 + 1) < 10 ^ 309 * 2 ^ 60)
    (hlargest : bound * (2 ^ 60 + 1) * ((Binary64.hiddenBit + 1) * (Binary64.hiddenBit + 1)) <
      Binary64.largest * (Binary64.hiddenBit * Binary64.hiddenBit) * 2 ^ 60) : n.isFinite = true := by
  unfold isFinite
  generalize n.scaled = scaled at hle
  obtain ⟨word, exponent⟩ := scaled
  simp only [Bool.or_eq_true, Bool.and_eq_true, decide_eq_true_eq]
  rcases Nat.eq_zero_or_pos word with hzero | hword
  · exact .inl (.inl hzero)
  rcases lt_or_ge exponent 0 with hneg | hpos
  · exact .inl (.inr hneg)
  -- the word is no zero, which bounds the power of ten; the product rounds either factor once
  have hle := hle hpos
  have hpow : 0 < 10 ^ exponent.toNat := Nat.pow_pos Nat.succ_pos'
  refine .inr ⟨?_, ?_⟩
  · have hlt : 10 ^ exponent.toNat < 10 ^ 309 := by
      refine Nat.lt_of_mul_lt_mul_right (a := 2 ^ 60) ?_
      exact ((Nat.mul_le_mul_right _ (Nat.le_mul_of_pos_left _ hword)).trans hle).trans_lt hexponent
    have := (Nat.pow_lt_pow_iff_right (by decide)).1 hlt
    omega
  · refine Binary64.isFinite_mul_ofNat hword hpow ?_
    refine Nat.lt_of_mul_lt_mul_right (a := 2 ^ 60) ?_
    refine lt_of_le_of_lt ?_ hlargest
    have hround := Nat.mul_le_mul_right ((Binary64.hiddenBit + 1) * (Binary64.hiddenBit + 1)) hle
    rwa [Nat.mul_right_comm] at hround

theorem isFinite_of_isAtMost {n : Numeral} (hn : n.isWritten = true) (h : n.isAtMost (10 ^ 308) = true) :
    n.isFinite = true :=
  isFinite_of_le (scaled_mul_pow_le hn h) (by decide +kernel) (by decide +kernel)

def isReadable (n : Numeral) : Bool := n.isFinite || (n.isWritten && n.isAtMost (10 ^ 308))

theorem isFinite_of_isReadable {n : Numeral} (h : n.isReadable = true) : n.isFinite = true := by
  rcases Bool.or_eq_true_iff.1 h with h | h
  · exact h
  · obtain ⟨hn, h⟩ := Bool.and_eq_true_iff.1 h
    exact isFinite_of_isAtMost hn h

end Numeral

end RecordQuery
