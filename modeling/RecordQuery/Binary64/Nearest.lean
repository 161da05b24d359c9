import RecordQuery.Binary64.Basic

/-!
Rounding an exact fraction to the nearest floating-point number, ties to the even pattern.
-/

namespace RecordQuery.Binary64

/-- The quotient rounded to the nearest integer, a tie to the even one. -/
def divEven (a b : Nat) : Nat :=
  let q := a / b
  let r := a % b
  if b < 2 * r || (2 * r = b && q % 2 = 1) then q + 1 else q

/-- The magnitude nearest to the fraction `a / b`. The last significand bit is put where fifty-three
bits remain, and the pattern of `s` places and a significand `m` is `s * hiddenBit + m`, also when
rounding carries into the next place. -/
def nearestMagnitude (a b : Nat) : Nat :=
  let u := a * one
  let s := (u / b).log2 - 52
  min infinityMagnitude (s * hiddenBit + divEven u (b <<< s))

def nearest (negative : Bool) (a b : Nat) : Binary64 := ofMagnitude negative (nearestMagnitude a b)

/-- The number of a 32-bit pattern. Every such number has an equal one of 64 bits; a NaN keeps its sign
and its payload and becomes a quiet one. -/
def ofSingle (bits : UInt32) : Binary64 :=
  let negative : Bool := 0x80000000 ≤ bits.toNat
  let magnitude := bits.toNat % 0x80000000
  let exponent := magnitude / 0x800000
  let fraction := magnitude % 0x800000
  if exponent = 255 then
    if fraction = 0 then ofMagnitude negative infinityMagnitude
    else ofMagnitude negative (infinityMagnitude + (fraction <<< 29 ||| hiddenBit / 2))
  else
    let significand := if exponent = 0 then fraction else 0x800000 + fraction
    nearest negative (significand <<< (exponent - 1)) (1 <<< 149)

end RecordQuery.Binary64
