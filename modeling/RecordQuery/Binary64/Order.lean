import RecordQuery.Binary64.Basic

/-!
Orders of floating-point numbers. The numeric order knows no NaN and one zero; the total order places
every pattern, NaNs outermost on the side of their sign. Against an integer a number is cut to its
whole part first, so that no integer is ever rounded.
-/

namespace RecordQuery.Binary64

def signedMagnitude (x : Binary64) : Int := if x.isNegative then -(x.magnitude : Int) else x.magnitude

def rank (x : Binary64) : Int := if x.isNegative then -(x.magnitude : Int) - 1 else x.magnitude

def compare? (x y : Binary64) : Option Ordering :=
  if x.isNaN || y.isNaN then none else some (compare x.signedMagnitude y.signedMagnitude)

def totalCompare (x y : Binary64) : Ordering := compare x.rank y.rank

def twoPow63 : Binary64 := ⟨0x43E0000000000000⟩

def negTwoPow63 : Binary64 := ⟨0xC3E0000000000000⟩

def wholePart (x : Binary64) : Int :=
  if x.isNegative then -((x.units / one : Nat) : Int) else (x.units / one : Nat)

def hasFraction (x : Binary64) : Bool := x.units % one ≠ 0

/-- The place of an integer against a number. Outside the range of the integers the number's side decides; inside
it the whole parts do, and on a tie the fraction. -/
def compareInt? (x : Binary64) (n : Int64) : Option Ordering :=
  if x.isNaN then none
  else if twoPow63.signedMagnitude ≤ x.signedMagnitude then some .lt
  else if x.signedMagnitude < negTwoPow63.signedMagnitude then some .gt
  else
    let fraction : Ordering := if x.hasFraction then (if x.isNegative then .gt else .lt) else .eq
    some ((compare n.toInt (Int64.ofInt x.wholePart).toInt).then fraction)

end RecordQuery.Binary64
