/-!
Binary floating-point numbers of 64 bits, kept as bit patterns: sign, eleven exponent bits, fifty-two
fraction bits. A finite pattern stands for a whole number of units of `2 ^ -1074`.
-/

namespace RecordQuery

structure Binary64 where
  bits : UInt64
  deriving DecidableEq, Inhabited

namespace Binary64

abbrev signBit : Nat := 0x8000000000000000

abbrev hiddenBit : Nat := 0x10000000000000

def magnitude (x : Binary64) : Nat := x.bits.toNat % signBit

def isNegative (x : Binary64) : Bool := signBit ≤ x.bits.toNat

abbrev infinityMagnitude : Nat := 0x7FF0000000000000

def isNaN (x : Binary64) : Bool := infinityMagnitude < x.magnitude

def isFinite (x : Binary64) : Bool := x.magnitude < infinityMagnitude

def isZero (x : Binary64) : Bool := x.magnitude = 0

def ofMagnitude (negative : Bool) (magnitude : Nat) : Binary64 :=
  ⟨UInt64.ofNat (if negative then signBit + magnitude else magnitude)⟩

/-- The place of the last significand bit: a unit in that place is `2 ^ place` smallest units. -/
def place (x : Binary64) : Nat := x.magnitude / hiddenBit - 1

def significand (x : Binary64) : Nat :=
  if x.magnitude < hiddenBit then x.magnitude else hiddenBit + x.magnitude % hiddenBit

/-- How many of the smallest units `2 ^ -1074` a finite number is away from zero. -/
def units (x : Binary64) : Nat := x.significand <<< x.place

def one : Nat := 1 <<< 1074

theorem magnitude_lt (x : Binary64) : x.magnitude < signBit := Nat.mod_lt _ (by decide)

theorem magnitude_ofMagnitude {negative : Bool} {m : Nat} (h : m < signBit) :
    (ofMagnitude negative m).magnitude = m := by
  cases negative <;> simp [ofMagnitude, magnitude, signBit] at h ⊢ <;> omega

end RecordQuery.Binary64
