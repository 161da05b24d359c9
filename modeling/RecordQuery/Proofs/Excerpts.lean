import Mathlib.Data.String.Basic
import RecordQuery.Text.Excerpt

/-! Excerpts of request text. An excerpt holds no control character and has a bounded length. Its mark is
never missing where something was cut, but it also follows where only control characters were dropped. -/

namespace RecordQuery.Text

def Printable (s : String) : Prop := ∀ c ∈ s.toList, isControl c = false

instance (s : String) : Decidable (Printable s) := List.decidableBAll _ s.toList

theorem printable_append {s t : String} : Printable (s ++ t) ↔ Printable s ∧ Printable t := by
  rw [Printable, String.toList_append, List.forall_mem_append]
  rfl

def shownChars (s : String) : List Char := s.toList.filter fun c => !isControl c

/-- An excerpt whose mark follows exactly where characters that may be shown were cut off. -/
def faithfulExcerpt (limit : Nat) (s : String) : String :=
  if (shownChars s).length ≤ limit then String.ofList (shownChars s)
  else String.ofList ((shownChars s).take limit) ++ truncationMark

variable {limit : Nat} {s : String}

theorem excerpt_of_length_le (h : s.length ≤ limit) :
    excerpt limit s = String.ofList ((shownChars s).take limit) := if_neg (Nat.not_lt.2 h)

theorem excerpt_of_lt_length (h : limit < s.length) :
    excerpt limit s = String.ofList ((shownChars s).take limit) ++ truncationMark := if_pos h

theorem length_shownChars_le (s : String) : (shownChars s).length ≤ s.length := by
  rw [← String.length_toList]
  exact List.length_filter_le _ _

theorem printable_ofList_take (limit : Nat) (s : String) :
    Printable (String.ofList ((shownChars s).take limit)) := by
  intro c hc
  rw [String.toList_ofList] at hc
  have hshown := (List.mem_filter.1 (List.mem_of_mem_take hc)).2
  exact Bool.not_eq_eq_eq_not.1 hshown

theorem printable_excerpt (limit : Nat) (s : String) : Printable (excerpt limit s) := by
  have hshown := printable_ofList_take limit s
  rcases Nat.lt_or_ge limit s.length with h | h
  · rw [excerpt_of_lt_length h]
    exact printable_append.2 ⟨hshown, by decide⟩
  · rw [excerpt_of_length_le h]
    exact hshown

theorem length_excerpt_le (limit : Nat) (s : String) :
    (excerpt limit s).length ≤ limit + truncationMark.length := by
  have hshown : (String.ofList ((shownChars s).take limit)).length ≤ limit := by
    rw [String.length_ofList]
    exact List.length_take_le limit _
  rcases Nat.lt_or_ge limit s.length with h | h
  · rw [excerpt_of_lt_length h, String.length_append]
    exact Nat.add_le_add_right hshown _
  · rw [excerpt_of_length_le h]
    exact hshown.trans (Nat.le_add_right limit _)

theorem append_truncationMark_ne (s : String) : s ++ truncationMark ≠ s := by
  intro h
  have hlength := congrArg String.length h
  rw [String.length_append] at hlength
  exact absurd (Nat.add_eq_left.1 hlength) (by decide)

theorem excerpt_of_only_dropped (hshown : (shownChars s).length ≤ limit) (h : limit < s.length) :
    excerpt limit s = faithfulExcerpt limit s ++ truncationMark := by
  rw [excerpt_of_lt_length h, faithfulExcerpt, if_pos hshown, List.take_of_length_le hshown]

theorem excerpt_of_not_only_dropped (h : limit < s.length ↔ limit < (shownChars s).length) :
    excerpt limit s = faithfulExcerpt limit s := by
  rcases Nat.lt_or_ge limit (shownChars s).length with hcut | hshown
  · rw [excerpt_of_lt_length (h.2 hcut), faithfulExcerpt, if_neg (Nat.not_le.2 hcut)]
  · have hlength : s.length ≤ limit := Nat.not_lt.1 fun hlt => Nat.not_lt.2 hshown (h.1 hlt)
    rw [excerpt_of_length_le hlength, faithfulExcerpt, if_pos hshown, List.take_of_length_le hshown]

/-- An excerpt shows what it should, and at most its mark is superfluous. It is faithful exactly when the
control characters make no difference to whether the text is too long. -/
theorem excerpt_faithful_iff (limit : Nat) (s : String) :
    (excerpt limit s = faithfulExcerpt limit s ∨
        excerpt limit s = faithfulExcerpt limit s ++ truncationMark) ∧
      (excerpt limit s = faithfulExcerpt limit s ↔
        (limit < s.length ↔ limit < (shownChars s).length)) := by
  by_cases hsame : limit < s.length ↔ limit < (shownChars s).length
  · have hfaithful := excerpt_of_not_only_dropped hsame
    exact ⟨.inl hfaithful, iff_of_true hfaithful hsame⟩
  · -- what may be shown is never longer than the text, so the two lengths differ in one way only
    have hle := length_shownChars_le s
    have hmarked : excerpt limit s = faithfulExcerpt limit s ++ truncationMark :=
      excerpt_of_only_dropped (by omega) (by omega)
    refine ⟨.inr hmarked, iff_of_false (fun hfaithful => ?_) hsame⟩
    exact append_truncationMark_ne _ (hmarked.symm.trans hfaithful)

/-- Two characters and a line break are shown in full, and marked as if something had been cut off. -/
theorem not_excerpt_faithful : ¬ ∀ (limit : Nat) (s : String), excerpt limit s = faithfulExcerpt limit s := by
  intro hall
  have hmarked : excerpt 2 "ab\n" = "ab... (truncated)" := by decide
  have hfaithful : faithfulExcerpt 2 "ab\n" = "ab" := by decide
  exact absurd (hmarked.symm.trans ((hall 2 "ab\n").trans hfaithful)) (by decide)

end RecordQuery.Text
