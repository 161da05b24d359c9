import Mathlib.Data.String.Basic
import RecordQuery.Text.Ascii
import RecordQuery.Proofs.Segments

/-! The case of letters. Only letters change when a text is made small, each for a single byte, so that two
spellings of a text have their marks in the same places and are cut into spellings of the same pieces. -/

namespace RecordQuery.Text

theorem toLower_cases (c : Char) :
    c.toLower = c ∨ 65 ≤ c.toNat ∧ c.toNat ≤ 90 ∧ c.toLower.toNat = c.toNat + 32 := by
  unfold Char.toLower
  split
  · next h =>
    have hA : 65 ≤ c.val.toNat := h.1
    have hZ : c.val.toNat ≤ 90 := h.2
    have hlt : c.val.toNat + 32 < 2 ^ 32 := by omega
    refine .inr ⟨hA, hZ, ?_⟩
    change (c.val + 32).toNat = c.val.toNat + 32
    rw [UInt32.toNat_add]
    exact Nat.mod_eq_of_lt hlt
  · exact .inl rfl

theorem isAlpha_of_le_90 {c : Char} (hA : 65 ≤ c.toNat) (hZ : c.toNat ≤ 90) : c.isAlpha = true :=
  Bool.or_eq_true_iff.2 (.inl (decide_eq_true ⟨hA, hZ⟩))

theorem isAlpha_of_le_122 {c : Char} (ha : 97 ≤ c.toNat) (hz : c.toNat ≤ 122) : c.isAlpha = true :=
  Bool.or_eq_true_iff.2 (.inr (Bool.and_eq_true_iff.2 ⟨decide_eq_true ha, decide_eq_true hz⟩))

theorem toLower_eq_iff {c mark : Char} (hmark : mark.isAlpha = false) : c.toLower = mark ↔ c = mark := by
  rcases toLower_cases c with h | ⟨hA, hZ, h⟩
  · rw [h]
  · have hletter : c.isAlpha = true := isAlpha_of_le_90 hA hZ
    have hsmall : c.toLower.isAlpha = true := isAlpha_of_le_122 (by omega) (by omega)
    refine iff_of_false ?_ ?_
    · rintro rfl
      exact Bool.noConfusion (hmark.symm.trans hsmall)
    · rintro rfl
      exact Bool.noConfusion (hmark.symm.trans hletter)

theorem isAlpha_dot : ('.' : Char).isAlpha = false := rfl

theorem isAlpha_quote : ('\'' : Char).isAlpha = false := rfl

theorem map_toLower_eq_some {mark : Char} (hmark : mark.isAlpha = false) {c? : Option Char} :
    c?.map Char.toLower = some mark ↔ c? = some mark := by
  simp only [Option.map_eq_some_iff, toLower_eq_iff hmark, exists_eq_right]

theorem utf8Size_toLower (c : Char) : c.toLower.utf8Size = c.utf8Size := by
  rcases toLower_cases c with h | ⟨hA, hZ, h⟩
  · rw [h]
  · have hone {d : Char} (hd : d.toNat ≤ 127) : d.utf8Size = 1 := Char.utf8Size_eq_one_iff.2 hd
    rw [hone (by omega), hone (by omega)]

theorem toList_lower (s : String) : (lower s).toList = s.toList.map Char.toLower := String.toList_ofList

theorem sameLetters_iff {a b : String} : sameLetters a b = true ↔ lower a = lower b := beq_iff_eq

theorem sameLetters_symm {a b : String} (h : sameLetters a b = true) : sameLetters b a = true := by
  rwa [sameLetters_comm]

theorem lower_eq_empty {s : String} : lower s = "" ↔ s = "" := by
  rw [lower, String.ofList_eq_empty_iff, List.map_eq_nil_iff, String.toList_eq_nil_iff]

theorem isEmpty_of_sameLetters {a b : String} (h : sameLetters a b = true) : a.isEmpty = b.isEmpty := by
  rw [Bool.eq_iff_iff, String.isEmpty_iff, String.isEmpty_iff, ← lower_eq_empty, sameLetters_iff.1 h,
    lower_eq_empty]

theorem head?_lower {mark : Char} (hmark : mark.isAlpha = false) (s : String) :
    (lower s).toList.head? = some mark ↔ s.toList.head? = some mark := by
  rw [toList_lower, List.head?_map, map_toLower_eq_some hmark]

theorem utf8ByteSize_lower (s : String) : (lower s).utf8ByteSize = s.utf8ByteSize := by
  have hlen (cs : List Char) : String.utf8Len (cs.map Char.toLower) = String.utf8Len cs := by
    induction cs with
    | nil => rfl
    | cons c cs ih => rw [List.map_cons, String.utf8Len_cons, String.utf8Len_cons, ih, utf8Size_toLower]
  rw [lower, String.utf8ByteSize_ofList, hlen, ← String.utf8ByteSize_ofList, String.ofList_toList]

theorem cutAt_map_toLower {mark : Char} (hmark : mark.isAlpha = false) (cs : List Char) :
    cutAt mark (cs.map Char.toLower) = (cutAt mark cs).map (·.map Char.toLower) := by
  induction cs with
  | nil => rfl
  | cons c cs ih =>
    rw [List.map_cons, cutAt, cutAt, ih]
    by_cases hc : c = mark
    · rw [if_pos ((toLower_eq_iff hmark).2 hc), if_pos hc]
      rfl
    · rw [if_neg (mt (toLower_eq_iff hmark).1 hc), if_neg hc]
      cases cutAt mark cs <;> rfl

theorem pieces_lower {mark : Char} (hmark : mark.isAlpha = false) (s : String) :
    pieces mark (lower s) = (pieces mark s).map lower := by
  rw [pieces, pieces, toList_lower, cutAt_map_toLower hmark, List.map_map, List.map_map]
  apply List.map_congr_left
  intro piece _
  simp only [Function.comp_apply, lower, String.toList_ofList]

theorem count_lower {mark : Char} (hmark : mark.isAlpha = false) (s : String) :
    (lower s).toList.count mark = s.toList.count mark := by
  have h := congrArg List.length (pieces_lower hmark s)
  rw [List.length_map, length_pieces, length_pieces] at h
  exact Nat.succ.inj h

end RecordQuery.Text
