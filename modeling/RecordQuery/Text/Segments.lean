/-!
Cutting a text at every occurrence of one character. Nothing is lost: joining the pieces with the
character gives the text back.
-/

namespace RecordQuery.Text

def cutAt (mark : Char) : List Char → List (List Char)
  | [] => [[]]
  | c :: cs =>
    if c = mark then [] :: cutAt mark cs
    else match cutAt mark cs with
      | [] => [[c]]
      | piece :: pieces => (c :: piece) :: pieces

def pieces (mark : Char) (s : String) : List String := (cutAt mark s.toList).map String.ofList

theorem cutAt_ne_nil (mark : Char) (cs : List Char) : cutAt mark cs ≠ [] := by
  induction cs with
  | nil => simp [cutAt]
  | cons c cs _ =>
    rw [cutAt]
    split
    · simp
    · split <;> simp

theorem intercalate_cutAt (mark : Char) (cs : List Char) : [mark].intercalate (cutAt mark cs) = cs := by
  induction cs with
  | nil => simp [cutAt, List.intercalate]
  | cons c cs ih =>
    rw [cutAt]
    cases h : cutAt mark cs with
    | nil => exact absurd h (cutAt_ne_nil mark cs)
    | cons piece pieces =>
      rw [h] at ih
      cases pieces <;> split <;> simp_all [List.intercalate]

end RecordQuery.Text
