/-!
ASCII case: only the letters A to Z and a to z have two cases here, every other character stands for itself.
-/

namespace RecordQuery.Text

def lower (s : String) : String := String.ofList (s.toList.map Char.toLower)

def sameLetters (a b : String) : Bool := lower a == lower b

theorem sameLetters_refl (a : String) : sameLetters a a = true := by simp [sameLetters]

theorem sameLetters_comm (a b : String) : sameLetters a b = sameLetters b a := by
  simp only [sameLetters, Bool.beq_comm]

end RecordQuery.Text
