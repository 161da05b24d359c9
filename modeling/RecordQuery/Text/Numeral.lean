/-!
Decimal numerals as written: a sign, whole digits, fraction digits and an exponent.
-/

namespace RecordQuery

/-- The parts of a written number. `fraction` and `exponent` are empty where the number has none;
`exponent` holds its sign, if one is written, and its digits. -/
structure Numeral where
  negative : Bool
  whole : List Char
  fraction : List Char
  exponent : List Char
  deriving DecidableEq, Inhabited

namespace Numeral

def ofNat (n : Nat) : Numeral := ⟨false, Nat.toDigits 10 n, [], []⟩

def ofInt (n : Int) : Numeral := ⟨n < 0, Nat.toDigits 10 n.natAbs, [], []⟩

def chars (n : Numeral) : List Char :=
  (if n.negative then ['-'] else []) ++ n.whole
    ++ (if n.fraction.isEmpty then [] else '.' :: n.fraction)
    ++ (if n.exponent.isEmpty then [] else 'e' :: n.exponent)

def text (n : Numeral) : String := String.ofList n.chars

def isInteger (n : Numeral) : Bool := n.fraction.isEmpty && n.exponent.isEmpty

/-- The integer a numeral writes. A zero with a minus sign is no integer, nor is anything that has a
fraction or an exponent. -/
def toInt? (n : Numeral) : Option Int :=
  let m := Nat.ofDigitChars 10 n.whole 0
  if !n.isInteger then none
  else if n.negative then (if m = 0 then none else some (-(m : Int)))
  else some m

theorem toInt?_ofInt (n : Int) : (ofInt n).toInt? = some n := by
  simp only [toInt?, ofInt, isInteger, Nat.ofDigitChars_ten_toDigits, List.isEmpty_nil, Bool.and_self,
    Bool.not_true, Bool.false_eq_true, if_false, decide_eq_true_eq]
  split
  · rename_i h
    rw [if_neg (by omega)]
    congr 1
    omega
  · congr 1
    omega

end RecordQuery.Numeral
