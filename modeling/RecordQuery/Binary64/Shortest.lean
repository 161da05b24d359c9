import RecordQuery.Binary64.Basic

/-!
The shortest decimal that reads back as a given number: the coarsest decimal grid with a point in the
interval of reals that round to the number, and on that grid the point nearest to it.
-/

namespace RecordQuery

structure Decimal where
  digits : Nat
  exponent : Int
  deriving DecidableEq, Inhabited

inductive Tie where
  | up
  | toEven
  deriving DecidableEq

namespace Binary64

/-- The lower end of the reals that round to `x`, in quarters of the smallest unit. Below a power of two
the numbers lie twice as close. -/
def lowerEdge (x : Binary64) : Nat :=
  4 * x.units - (if x.significand = hiddenBit ∧ 0 < x.place then 1 <<< x.place else 2 <<< x.place)

def upperEdge (x : Binary64) : Nat := 4 * x.units + 2 <<< x.place

/-- Whether the fraction `a / b`, in quarters of the smallest unit, rounds to `x`. The ends of the
interval do when the significand is even. -/
def roundsTo (x : Binary64) (a b : Nat) : Bool :=
  if x.significand % 2 = 0 then x.lowerEdge * b ≤ a && a ≤ x.upperEdge * b
  else x.lowerEdge * b < a && a < x.upperEdge * b

def onGrid? (tie : Tie) (x : Binary64) (k : Int) : Option Nat :=
  let b := Nat.pow 10 (-k).toNat
  let step := 4 * one * Nat.pow 10 k.toNat
  let value := 4 * x.units * b
  let below := value / step
  let rest := 2 * (value % step)
  match x.roundsTo (below * step) b, x.roundsTo ((below + 1) * step) b with
  | false, false => none
  | true, false => some below
  | false, true => some (below + 1)
  | true, true =>
    if rest < step then some below
    else if step < rest then some (below + 1)
    else match tie with
      | .up => some (below + 1)
      | .toEven => some (if below % 2 = 0 then below else below + 1)

/-- A decimal exponent that no point of `x`'s interval reaches past: `30103 / 100000` is just above the
logarithm of two. -/
def topExponent (x : Binary64) : Int := ((x.units.log2 : Int) - 1074) * 30103 / 100000 + 1

/-- The exponents of the grids on which a shortest form of at most seventeen digits can lie, coarsest first. -/
def gridExponents (x : Binary64) : List Int := (List.range 20).map fun i : Nat => x.topExponent - i

def shortest (tie : Tie) (x : Binary64) : Decimal :=
  (x.gridExponents.findSome? fun k => (x.onGrid? tie k).map fun c => ⟨c, k⟩).getD ⟨0, 0⟩

end RecordQuery.Binary64
