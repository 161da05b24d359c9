import Mathlib.Data.List.Basic
import RecordQuery.Binary64.Layout
import RecordQuery.Proofs.NumberRange
import RecordQuery.Proofs.Units

/-! Finite numbers as decimals. The search through the grids always comes to a decimal that rounds to the
number, and each layout writes that decimal, in JSON with a fraction or an exponent. -/

namespace RecordQuery

theorem pow_ten_le_two_pow {k q : Nat} (h : 10 * k ≤ 3 * q) : 10 ^ k ≤ 2 ^ q := by
  refine (Nat.pow_le_pow_iff_left (n := 3) (by decide)).1 ?_
  calc (10 ^ k) ^ 3 = (10 ^ 3) ^ k := pow_right_comm 10 k 3
    _ ≤ (2 ^ 10) ^ k := Nat.pow_le_pow_left (by decide) k
    _ = 2 ^ (10 * k) := (pow_mul 2 10 k).symm
    _ ≤ 2 ^ (3 * q) := Nat.pow_le_pow_right (by decide) h
    _ = (2 ^ q) ^ 3 := by rw [mul_comm 3 q, pow_mul]

theorem two_pow_le_pow_ten {p j : Nat} (h : 16 * p ≤ 53 * j) : 2 ^ p ≤ 10 ^ j := by
  refine (Nat.pow_le_pow_iff_left (n := 16) (by decide)).1 ?_
  calc (2 ^ p) ^ 16 = 2 ^ (16 * p) := by rw [← pow_mul, mul_comm]
    _ ≤ 2 ^ (53 * j) := Nat.pow_le_pow_right (by decide) h
    _ = (2 ^ 53) ^ j := pow_mul 2 53 j
    _ ≤ (10 ^ 16) ^ j := Nat.pow_le_pow_left (by decide) j
    _ = (10 ^ j) ^ 16 := pow_right_comm 10 16 j

namespace Binary64

variable {x y : Binary64} {tie : Tie}

theorem four_mul_one : 4 * one = 2 ^ (2 + 1074) := pow_mul_one_shiftLeft 2 1074

theorem gridStep_le {place : Nat} {m k : Int} (hk : k = m * 30103 / 100000 - 18) (hlo : -1074 ≤ m)
    (hhi : m ≤ 1023) (hplace : m + 1022 ≤ place) :
    4 * one * 10 ^ k.toNat ≤ 2 ^ place * 10 ^ (-k).toNat := by
  rw [four_mul_one]
  rcases le_or_gt 0 k with hpos | hneg
  · have hzero : (-k).toNat = 0 := by omega
    have hpow : 10 ^ k.toNat ≤ 2 ^ (place - (2 + 1074)) := pow_ten_le_two_pow (by omega)
    calc 2 ^ (2 + 1074) * 10 ^ k.toNat ≤ 2 ^ (2 + 1074) * 2 ^ (place - (2 + 1074)) := Nat.mul_le_mul_left _ hpow
      _ = 2 ^ place := by rw [← pow_add, Nat.add_sub_cancel' (by omega)]
      _ = 2 ^ place * 10 ^ (-k).toNat := by rw [hzero, pow_zero, mul_one]
  · have hzero : k.toNat = 0 := by omega
    have hpow : 2 ^ (2 + 1074 - place) ≤ 10 ^ (-k).toNat := two_pow_le_pow_ten (by omega)
    calc 2 ^ (2 + 1074) * 10 ^ k.toNat = 2 ^ (2 + 1074) := by rw [hzero, pow_zero, mul_one]
      _ ≤ 2 ^ (place + (2 + 1074 - place)) := Nat.pow_le_pow_right (by decide) (by omega)
      _ = 2 ^ place * 2 ^ (2 + 1074 - place) := pow_add 2 _ _
      _ ≤ 2 ^ place * 10 ^ (-k).toNat := Nat.mul_le_mul_left _ hpow

theorem significand_lt (x : Binary64) : x.significand < 2 * hiddenBit := by
  unfold significand
  split
  · omega
  · have hrest : x.magnitude % hiddenBit < hiddenBit := Nat.mod_lt _ (by decide)
    omega

theorem significand_pos (hx : x.isZero = false) : 0 < x.significand := by
  have hne : x.magnitude ≠ 0 := of_decide_eq_false hx
  unfold significand
  split
  · exact Nat.pos_of_ne_zero hne
  · exact Nat.add_pos_left (by decide) _

theorem units_eq_mul (x : Binary64) : x.units = x.significand * 2 ^ x.place := Nat.shiftLeft_eq _ _

theorem place_le (hx : x.isFinite = true) : x.place ≤ 2045 := by
  have hlt : x.magnitude < infinityMagnitude := of_decide_eq_true hx
  have hdiv : x.magnitude / hiddenBit < 2047 := Nat.div_lt_of_lt_mul hlt
  unfold place
  omega

theorem log2_units_le (hx : x.isZero = false) : x.units.log2 ≤ x.place + 52 := by
  have hplace : 0 < 2 ^ x.place := Nat.two_pow_pos x.place
  have hpos : x.units ≠ 0 := by
    rw [units_eq_mul]
    exact (Nat.mul_pos (significand_pos hx) hplace).ne'
  have hlt : x.units < 2 ^ (x.place + 53) := by
    rw [units_eq_mul, pow_add, mul_comm]
    exact Nat.mul_lt_mul_of_pos_left x.significand_lt hplace
  exact Nat.le_of_lt_succ ((Nat.log2_lt hpos).2 hlt)

theorem lowerEdge_bounds (hx : x.isZero = false) :
    0 < x.lowerEdge ∧ x.lowerEdge + 2 ^ x.place ≤ 4 * x.units := by
  have hplace : 0 < 2 ^ x.place := Nat.two_pow_pos x.place
  have hunits : 2 ^ x.place ≤ x.units := by
    rw [units_eq_mul]
    exact Nat.le_mul_of_pos_left _ (significand_pos hx)
  unfold lowerEdge
  split
  · rw [Nat.shiftLeft_eq]
    omega
  · rw [Nat.shiftLeft_eq]
    omega

theorem upperEdge_eq (x : Binary64) : x.upperEdge = 4 * x.units + 2 * 2 ^ x.place := by
  rw [upperEdge, Nat.shiftLeft_eq]

theorem roundsTo_zero (hx : x.isZero = false) {b : Nat} (hb : 0 < b) : x.roundsTo 0 b = false := by
  have hedge : 0 < x.lowerEdge * b := Nat.mul_pos (lowerEdge_bounds hx).1 hb
  unfold roundsTo
  split
  · rw [decide_eq_false (Nat.not_le.2 hedge), Bool.false_and]
  · rw [decide_eq_false (Nat.not_lt_zero _), Bool.false_and]

theorem roundsTo_of_between {a b : Nat} (hlo : x.lowerEdge * b < a) (hhi : a < x.upperEdge * b) :
    x.roundsTo a b = true := by
  unfold roundsTo
  split
  · rw [decide_eq_true hlo.le, decide_eq_true hhi.le, Bool.and_self]
  · rw [decide_eq_true hlo, decide_eq_true hhi, Bool.and_self]

theorem roundsTo_mul {a b c : Nat} (hc : 0 < c) : x.roundsTo (a * c) (b * c) = x.roundsTo a b := by
  unfold roundsTo
  simp only [← mul_assoc, Nat.mul_le_mul_right_iff hc, Nat.mul_lt_mul_right hc]

theorem roundsTo_below (hx : x.isZero = false) {step b : Nat} (hb : 0 < b) (hpos : 0 < step)
    (hstep : step ≤ 2 ^ x.place * b) : x.roundsTo (4 * x.units * b / step * step) b = true := by
  have hle : 4 * x.units * b / step * step ≤ 4 * x.units * b := Nat.div_mul_le_self _ _
  have hlt : 4 * x.units * b < 4 * x.units * b / step * step + step := Nat.lt_div_mul_add hpos
  have hlo : (x.lowerEdge + 2 ^ x.place) * b ≤ 4 * x.units * b :=
    Nat.mul_le_mul_right b (lowerEdge_bounds hx).2
  have hhi : 4 * x.units * b < x.upperEdge * b := by
    refine Nat.mul_lt_mul_of_pos_right ?_ hb
    rw [upperEdge_eq]
    exact Nat.lt_add_of_pos_right (Nat.mul_pos (by decide) (Nat.two_pow_pos _))
  rw [add_mul] at hlo
  exact roundsTo_of_between (by omega) (hle.trans_lt hhi)

theorem roundsTo_of_onGrid? {k : Int} {c : Nat} (h : x.onGrid? tie k = some c) :
    x.roundsTo (c * (4 * one * Nat.pow 10 k.toNat)) (Nat.pow 10 (-k).toNat) = true := by
  simp only [onGrid?] at h
  generalize 4 * one * Nat.pow 10 k.toNat = step at h ⊢
  generalize Nat.pow 10 (-k).toNat = b at h ⊢
  split at h
  · exact nomatch h
  · next hbelow _ => exact Option.some.inj h ▸ hbelow
  · next _ habove => exact Option.some.inj h ▸ habove
  · next hbelow habove =>
    split at h
    · exact Option.some.inj h ▸ hbelow
    split at h
    · exact Option.some.inj h ▸ habove
    split at h
    · exact Option.some.inj h ▸ habove
    split at h
    · exact Option.some.inj h ▸ hbelow
    · exact Option.some.inj h ▸ habove

theorem isSome_onGrid? {k : Int} (h : x.roundsTo (4 * x.units * Nat.pow 10 (-k).toNat /
      (4 * one * Nat.pow 10 k.toNat) * (4 * one * Nat.pow 10 k.toNat)) (Nat.pow 10 (-k).toNat) = true) :
    (x.onGrid? tie k).isSome = true := by
  simp only [onGrid?]
  rw [h]
  split
  · next hbelow _ => exact nomatch hbelow
  · rfl
  · rfl
  · split
    · rfl
    split
    · rfl
    split
    · rfl
    · rfl

theorem exists_onGrid? (hfinite : x.isFinite = true) (hx : x.isZero = false) (tie : Tie) :
    ∃ k ∈ x.gridExponents, (x.onGrid? tie k).isSome = true := by
  have hlog := log2_units_le hx
  have hplace := place_le hfinite
  refine ⟨x.topExponent - (19 : Nat), List.mem_map.2 ⟨19, by decide, rfl⟩, isSome_onGrid? ?_⟩
  have hk : x.topExponent - (19 : Nat) = ((x.units.log2 : Int) - 1074) * 30103 / 100000 - 18 := by
    unfold topExponent
    omega
  exact roundsTo_below hx (Nat.pow_pos (by decide)) (Nat.mul_pos (by decide) (Nat.pow_pos (by decide)))
    (gridStep_le hk (by omega) (by omega) (by omega))

/-- The search comes to a decimal, and the decimal was taken on the grid of its exponent. -/
theorem onGrid?_shortest (hfinite : x.isFinite = true) (hx : x.isZero = false) (tie : Tie) :
    x.onGrid? tie (x.shortest tie).exponent = some (x.shortest tie).digits := by
  unfold shortest
  cases hfound : x.gridExponents.findSome? fun k => (x.onGrid? tie k).map fun c => (⟨c, k⟩ : Decimal) with
  | none =>
    obtain ⟨k, hk, hsome⟩ := exists_onGrid? hfinite hx tie
    have hnone := Option.map_eq_none_iff.1 (List.findSome?_eq_none_iff.1 hfound k hk)
    rw [hnone] at hsome
    exact nomatch hsome
  | some d =>
    obtain ⟨k, -, hk⟩ := List.exists_of_findSome?_eq_some hfound
    obtain ⟨c, hc, rfl⟩ := Option.map_eq_some_iff.1 hk
    exact hc

theorem shortest_pos (hfinite : x.isFinite = true) (hx : x.isZero = false) (tie : Tie) :
    0 < (x.shortest tie).digits := by
  refine Nat.pos_of_ne_zero fun hzero => ?_
  have hpow : 0 < Nat.pow 10 (-(x.shortest tie).exponent).toNat := Nat.pow_pos (by decide)
  have hrounds := roundsTo_of_onGrid? (onGrid?_shortest hfinite hx tie)
  rw [hzero, Nat.zero_mul, roundsTo_zero hx hpow] at hrounds
  exact nomatch hrounds

theorem magnitude_eq (x : Binary64) : x.magnitude = x.place * hiddenBit + x.significand := by
  unfold place significand hiddenBit
  split <;> omega

theorem place_eq_zero_or (x : Binary64) : x.place = 0 ∨ hiddenBit ≤ x.significand := by
  unfold place significand hiddenBit
  split <;> omega

theorem units_of_magnitude_eq_succ (h : y.magnitude = x.magnitude + 1) :
    y.units = x.units + 2 ^ x.place := by
  have hmagnitude : y.magnitude = x.place * hiddenBit + (x.significand + 1) := by
    rw [h, magnitude_eq x, add_assoc]
  have hlt : x.place * hiddenBit + (x.significand + 1) < signBit := hmagnitude ▸ y.magnitude_lt
  have hnormal : x.place = 0 ∨ hiddenBit ≤ x.significand + 1 :=
    x.place_eq_zero_or.imp_right fun h => h.trans (Nat.le_succ _)
  have hsame : y.units = (ofMagnitude false (x.place * hiddenBit + (x.significand + 1))).units := by
    rw [units_eq_iff, magnitude_ofMagnitude hlt, hmagnitude]
  rw [hsame, units_ofMagnitude false hlt x.significand_lt hnormal, units_eq_mul, add_mul, one_mul]

theorem place_of_magnitude_eq_succ (h : y.magnitude = x.magnitude + 1) :
    y.place = if y.significand = hiddenBit ∧ 0 < y.place then x.place + 1 else x.place := by
  unfold place significand hiddenBit
  split <;> split <;> omega

theorem lowerEdge_of_magnitude_eq_succ (h : y.magnitude = x.magnitude + 1) :
    y.lowerEdge = 4 * y.units - 2 * 2 ^ x.place := by
  have hplace := place_of_magnitude_eq_succ h
  unfold lowerEdge
  split
  · next hedge =>
    rw [if_pos hedge] at hplace
    rw [hplace, Nat.shiftLeft_eq, one_mul, pow_succ, mul_comm 2]
  · next hedge =>
    rw [if_neg hedge] at hplace
    rw [hplace, Nat.shiftLeft_eq]

def distance (a b : Nat) (x : Binary64) : Nat := ((a : Int) - (x.units * b : Nat)).natAbs

theorem roundsTo_bounds {a b : Nat} (h : x.roundsTo a b = true) :
    x.lowerEdge * b < a ∧ a < x.upperEdge * b ∨
      x.significand % 2 = 0 ∧ x.lowerEdge * b ≤ a ∧ a ≤ x.upperEdge * b := by
  unfold roundsTo at h
  split at h
  · next heven =>
    rw [Bool.and_eq_true, decide_eq_true_eq, decide_eq_true_eq] at h
    exact .inr ⟨heven, h⟩
  · rw [Bool.and_eq_true, decide_eq_true_eq, decide_eq_true_eq] at h
    exact .inl h

/-- What rounds to a number has it as the nearest of all. Where another one is as near, the number is the one
with the even significand. -/
theorem distance_of_roundsTo {a b : Nat} (hb : 0 < b) (h : x.roundsTo (4 * a) b = true)
    (hne : y.magnitude ≠ x.magnitude) : distance a b x < distance a b y ∨
      distance a b x = distance a b y ∧ x.significand % 2 = 0 := by
  have hbounds := roundsTo_bounds h
  rcases Nat.lt_or_gt_of_ne hne with hlt | hgt
  · -- Half of the way down to the next smaller number is the lower edge, and `y` lies no higher than that one.
    have hpred : (ofMagnitude false (x.magnitude - 1)).magnitude = x.magnitude - 1 :=
      magnitude_ofMagnitude ((Nat.sub_le _ _).trans_lt x.magnitude_lt)
    generalize ofMagnitude false (x.magnitude - 1) = z at hpred
    have hsucc : x.magnitude = z.magnitude + 1 := by omega
    have hy : y.units ≤ z.units := units_le (by omega)
    have hgap : 0 < 2 ^ z.place * b := Nat.mul_pos (Nat.two_pow_pos _) hb
    have hyb := Nat.mul_le_mul_right b hy
    rw [lowerEdge_of_magnitude_eq_succ hsucc, units_of_magnitude_eq_succ hsucc] at hbounds
    rw [distance, distance, units_of_magnitude_eq_succ hsucc]
    simp only [Nat.sub_mul, add_mul, mul_assoc] at hbounds ⊢
    omega
  · have hlast : x.magnitude + 1 < signBit := Nat.lt_of_le_of_lt hgt y.magnitude_lt
    have hnext : (ofMagnitude false (x.magnitude + 1)).magnitude = x.magnitude + 1 :=
      magnitude_ofMagnitude hlast
    generalize ofMagnitude false (x.magnitude + 1) = z at hnext
    have hy : x.units + 2 ^ x.place ≤ y.units := by
      rw [← units_of_magnitude_eq_succ hnext]
      exact units_le (by omega)
    have hgap : 0 < 2 ^ x.place * b := Nat.mul_pos (Nat.two_pow_pos _) hb
    have hyb := Nat.mul_le_mul_right b hy
    rw [upperEdge_eq] at hbounds
    rw [distance, distance]
    simp only [add_mul, mul_assoc] at hbounds hyb ⊢
    omega

theorem roundsTo_congr {a b c d : Nat} (hb : 0 < b) (hd : 0 < d) (h : a * d = c * b) :
    x.roundsTo a b = x.roundsTo c d := by
  rw [← roundsTo_mul hd, h, mul_comm b d, roundsTo_mul hb]

theorem roundsTo_of_isZero (hx : x.isZero = true) (b : Nat) : x.roundsTo 0 b = true := by
  have hmagnitude : x.magnitude = 0 := of_decide_eq_true hx
  have hsignificand : x.significand = 0 := by
    rw [significand, hmagnitude]
    rfl
  have hedge : x.lowerEdge = 0 := by
    rw [lowerEdge, units_eq_mul, hsignificand, zero_mul, mul_zero, Nat.zero_sub]
  have hupper : 0 ≤ x.upperEdge * b := Nat.zero_le _
  rw [roundsTo, hsignificand, hedge, Nat.zero_mul, if_pos rfl, decide_eq_true hupper]
  rfl

end Binary64

namespace Numeral

structure IsDecimal (n : Numeral) : Prop where
  written : n.isWritten = true
  marked : n.fraction ≠ [] ∨ n.exponent ≠ []

/-- The numeral is `digits * 10 ^ exponent`, perhaps with more zeros behind the digits. -/
structure Denotes (n : Numeral) (negative : Bool) (digits : Nat) (exponent : Int) : Prop where
  sign : n.negative = negative
  value : ∃ m : Nat, n.digits = digits * 10 ^ m ∧ n.scale = exponent - m

def distance (n : Numeral) (x : Binary64) : Nat :=
  Binary64.distance (n.digits * Nat.pow 10 n.scale.toNat * Binary64.one) (Nat.pow 10 (-n.scale).toNat) x

/-- No number is nearer to the value of the numeral, and where another is as near the significand is even. -/
structure RoundsTo (n : Numeral) (x : Binary64) : Prop where
  sign : n.negative = x.isNegative
  nearest : ∀ y : Binary64, y.magnitude ≠ x.magnitude →
    n.distance x < n.distance y ∨ n.distance x = n.distance y ∧ x.significand % 2 = 0

theorem IsDecimal.toInt?_eq_none {n : Numeral} (h : n.IsDecimal) : n.toInt? = none := by
  have hmarked : n.isInteger = false := by
    rw [isInteger, Bool.and_eq_false_iff, List.isEmpty_eq_false_iff, List.isEmpty_eq_false_iff]
    exact h.marked
  rw [toInt?, hmarked]
  rfl

theorem IsDecimal.of_fraction {negative : Bool} {whole fraction : List Char} (hwhole : isWhole whole = true)
    (hfraction : fraction.all Char.isDigit = true) (hne : fraction ≠ []) :
    IsDecimal ⟨negative, whole, fraction, []⟩ := by
  refine ⟨?_, .inl hne⟩
  rw [isWritten, hwhole, hfraction]
  rfl

theorem Denotes.roundsTo {n : Numeral} {x : Binary64} {digits : Nat} {exponent : Int}
    (h : n.Denotes x.isNegative digits exponent) (hx : x.roundsTo
      (digits * (4 * Binary64.one * Nat.pow 10 exponent.toNat)) (Nat.pow 10 (-exponent).toNat) = true) :
    n.RoundsTo x := by
  obtain ⟨m, hdigits, hscale⟩ := h.value
  have hpow (e : Nat) : 0 < Nat.pow 10 e := Nat.pow_pos (by decide)
  refine ⟨h.sign, fun y hy => Binary64.distance_of_roundsTo (hpow _) ?_ hy⟩
  rw [← hx]
  refine Binary64.roundsTo_congr (hpow _) (hpow _) ?_
  have hexponents : m + n.scale.toNat + (-exponent).toNat = exponent.toNat + (-n.scale).toNat := by
    omega
  have hpowers : 10 ^ m * 10 ^ n.scale.toNat * 10 ^ (-exponent).toNat =
      10 ^ exponent.toNat * 10 ^ (-n.scale).toNat := by
    rw [← pow_add, ← pow_add, hexponents, pow_add]
  simp only [Nat.pow_eq]
  calc 4 * (n.digits * 10 ^ n.scale.toNat * Binary64.one) * 10 ^ (-exponent).toNat
      = digits * (4 * Binary64.one) * (10 ^ m * 10 ^ n.scale.toNat * 10 ^ (-exponent).toNat) := by
        rw [hdigits]
        ring
    _ = digits * (4 * Binary64.one * 10 ^ exponent.toNat) * 10 ^ (-n.scale).toNat := by
        rw [hpowers]
        ring

theorem scale_of_fraction (negative : Bool) (whole fraction : List Char) :
    scale ⟨negative, whole, fraction, []⟩ = -(fraction.length : Int) := Int.zero_sub _

end Numeral

namespace Binary64

section

variable (negative : Bool) (n : Nat) (k : Int)

theorem denotes_positionalNumeral :
    (positionalNumeral .json negative (Nat.toDigits 10 n) k).Denotes negative n k := by
  have hvalue : Nat.ofDigitChars 10 (Nat.toDigits 10 n) 0 = n := Nat.ofDigitChars_ten_toDigits
  unfold positionalNumeral
  generalize Nat.toDigits 10 n = ds at hvalue ⊢
  by_cases hk : 0 ≤ k
  · rw [if_pos hk]
    refine ⟨rfl, k.toNat + 1, ?_, ?_⟩
    · have hfraction (m : Nat) : Nat.ofDigitChars 10 ['0'] m = 10 * m := rfl
      rw [Numeral.digits, Nat.ofDigitChars_append, Nat.ofDigitChars_append, hvalue,
        Nat.ofDigitChars_replicate_zero]
      exact (hfraction _).trans (by ring)
    · have hscale : -(([('0' : Char)].length : Nat) : Int) = k - ((k.toNat + 1 : Nat) : Int) := by
        rw [List.length_singleton]
        omega
      exact (Numeral.scale_of_fraction ..).trans hscale
  · rw [if_neg hk]
    dsimp only
    split
    · refine ⟨rfl, 0, ?_, ?_⟩
      · rw [Numeral.digits, List.take_append_drop, hvalue, pow_zero, mul_one]
      · rw [Numeral.scale_of_fraction, List.length_drop]
        omega
    · refine ⟨rfl, 0, ?_, ?_⟩
      · rw [Numeral.digits, Nat.ofDigitChars_append, Nat.ofDigitChars_append,
          Nat.ofDigitChars_replicate_zero, pow_zero, mul_one]
        exact hvalue
      · rw [Numeral.scale_of_fraction, List.length_append, List.length_replicate]
        omega

theorem readInt?_exponent (e : Int) :
    Text.readInt? ((if e < 0 then '-' else '+') :: Nat.toDigits 10 e.natAbs) = some e := by
  refine Text.readInt?_of_takeSign ?_
  by_cases he : e < 0
  · rw [if_pos he, decide_eq_true he]
    rfl
  · rw [if_neg he, decide_eq_false he]
    rfl

theorem denotes_scientificNumeral :
    (scientificNumeral negative (Nat.toDigits 10 n) (k + (Nat.toDigits 10 n).length - 1)).Denotes
      negative n k := by
  have hlength : 0 < (Nat.toDigits 10 n).length := List.length_pos_iff.2 Nat.toDigits_ne_nil
  refine ⟨rfl, 0, ?_, ?_⟩
  · rw [scientificNumeral, Numeral.digits, List.take_append_drop, pow_zero, mul_one]
    exact Nat.ofDigitChars_ten_toDigits
  · rw [scientificNumeral, Numeral.scale, readInt?_exponent, List.length_drop, Option.getD_some]
    omega

theorem isDecimal_positionalNumeral {n : Nat} (hn : 0 < n) (k : Int) :
    (positionalNumeral .json negative (Nat.toDigits 10 n) k).IsDecimal := by
  have hdigits := Numeral.isDigit_toDigits n
  have hne : Nat.toDigits 10 n ≠ [] := Nat.toDigits_ne_nil
  have hzeros (m : Nat) : (List.replicate m '0').all Char.isDigit = true :=
    List.all_eq_true.2 fun c hc => by rw [List.eq_of_mem_replicate hc]; rfl
  unfold positionalNumeral
  generalize hds : Nat.toDigits 10 n = ds at hdigits hne ⊢
  by_cases hk : 0 ≤ k
  · -- All digits stand before the point, filled up with zeros.
    have hall : (ds ++ List.replicate k.toNat '0').all Char.isDigit = true := by
      rw [List.all_append, hdigits, hzeros, Bool.and_self]
    have hhead : (ds ++ List.replicate k.toNat '0').head? ≠ some '0' := by
      rw [List.head?_append_of_ne_nil _ hne, ← hds]
      exact Numeral.head?_toDigits hn
    rw [if_pos hk]
    exact .of_fraction (Numeral.isWhole_of_head?_ne hall (List.append_ne_nil_of_left_ne_nil hne _) hhead)
      rfl (List.cons_ne_nil _ _)
  · have hplaces : 0 < (-k).toNat := by omega
    have hmem := List.all_eq_true.1 hdigits
    rw [if_neg hk]
    dsimp only
    split
    · -- The point falls among the digits, and the first of them stays in front.
      next hlt =>
      have htake : 0 < ds.length - (-k).toNat := Nat.sub_pos_of_lt hlt
      have hwhole : Numeral.isWhole (ds.take (ds.length - (-k).toNat)) = true := by
        refine Numeral.isWhole_of_head?_ne ?_ ?_ ?_
        · exact List.all_eq_true.2 fun c hc => hmem c (List.mem_of_mem_take hc)
        · simp only [ne_eq, List.take_eq_nil_iff, hne, or_false, htake.ne', not_false_eq_true]
        · rw [List.head?_take, if_neg htake.ne', ← hds]
          exact Numeral.head?_toDigits hn
      have hfraction : (ds.drop (ds.length - (-k).toNat)).all Char.isDigit = true :=
        List.all_eq_true.2 fun c hc => hmem c (List.mem_of_mem_drop hc)
      have hdrop : ds.drop (ds.length - (-k).toNat) ≠ [] := by
        rw [ne_eq, List.drop_eq_nil_iff]
        omega
      exact .of_fraction hwhole hfraction hdrop
    · have hfraction : (List.replicate ((-k).toNat - ds.length) '0' ++ ds).all Char.isDigit = true := by
        rw [List.all_append, hdigits, hzeros, Bool.and_self]
      exact .of_fraction rfl hfraction (List.append_ne_nil_of_right_ne_nil _ hne)

theorem isDecimal_scientificNumeral (e : Int) :
    (scientificNumeral negative (Nat.toDigits 10 n) e).IsDecimal := by
  have hsign : Json.exponentSign ((if e < 0 then '-' else '+') :: Nat.toDigits 10 e.natAbs) =
      ([if e < 0 then '-' else '+'], Nat.toDigits 10 e.natAbs) := by
    split <;> rfl
  have hempty : (Nat.toDigits 10 e.natAbs).isEmpty = false := by
    rw [List.isEmpty_eq_false_iff]
    exact Nat.toDigits_ne_nil
  have hdigits := Numeral.isDigit_toDigits n
  refine ⟨?_, .inr (List.cons_ne_nil _ _)⟩
  cases hds : Nat.toDigits 10 n with
  | nil => exact absurd hds Nat.toDigits_ne_nil
  | cons d ds =>
    rw [hds, List.all_cons, Bool.and_eq_true] at hdigits
    have hwhole : Numeral.isWhole [d] = true := by
      rw [Numeral.isWhole, List.all_cons, hdigits.1]
      simp
    rw [scientificNumeral, Numeral.isWritten, hsign, hempty, Numeral.isDigit_toDigits]
    simp [hwhole, hdigits.2]

end

theorem isDecimal_numeral {x : Binary64} (hfinite : x.isFinite = true) : (x.numeral .json).IsDecimal := by
  unfold numeral
  by_cases hx : x.isZero = true
  · rw [if_pos hx]
    exact .of_fraction rfl rfl (List.cons_ne_nil _ _)
  · have hpos := shortest_pos hfinite (Bool.eq_false_iff.2 hx) FloatLayout.json.tie
    rw [if_neg hx]
    dsimp only
    split
    · exact isDecimal_positionalNumeral _ hpos _
    · exact isDecimal_scientificNumeral _ _ _

theorem roundsTo_numeral {x : Binary64} (hfinite : x.isFinite = true) : (x.numeral .json).RoundsTo x := by
  unfold numeral
  by_cases hx : x.isZero = true
  · have hzero : Numeral.Denotes ⟨x.isNegative, ['0'], ['0'], []⟩ x.isNegative 0 0 := ⟨rfl, 1, rfl, rfl⟩
    rw [if_pos hx]
    refine hzero.roundsTo ?_
    rw [Nat.zero_mul]
    exact roundsTo_of_isZero hx _
  · have hgrid := onGrid?_shortest hfinite (Bool.eq_false_iff.2 hx) FloatLayout.json.tie
    have hrounds := roundsTo_of_onGrid? hgrid
    rw [if_neg hx]
    dsimp only
    split
    · exact (denotes_positionalNumeral _ _ _).roundsTo hrounds
    · exact (denotes_scientificNumeral _ _ _).roundsTo hrounds

end Binary64

end RecordQuery
