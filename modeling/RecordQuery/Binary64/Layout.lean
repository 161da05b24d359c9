import RecordQuery.Binary64.Shortest
import RecordQuery.Text.Numeral

/-!
Layouts of floating-point numbers: where positional writing ends, what a whole number ends in and how
ties between shortest forms go.
-/

namespace RecordQuery

structure FloatLayout where
  tie : Tie
  positional : Int → Bool
  wholeFraction : List Char

def FloatLayout.display : FloatLayout := ⟨.up, fun _ => true, []⟩

/-- JSON text is positional from 0.00001 up to but not including 10 ^ 16, and a whole number ends in
a point and a zero. -/
def FloatLayout.json : FloatLayout := ⟨.toEven, fun e => -5 ≤ e && e < 16, ['0']⟩

namespace Binary64

def positionalNumeral (layout : FloatLayout) (negative : Bool) (ds : List Char) (k : Int) : Numeral :=
  if 0 ≤ k then ⟨negative, ds ++ List.replicate k.toNat '0', layout.wholeFraction, []⟩
  else
    let places := (-k).toNat
    if places < ds.length then ⟨negative, ds.take (ds.length - places), ds.drop (ds.length - places), []⟩
    else ⟨negative, ['0'], List.replicate (places - ds.length) '0' ++ ds, []⟩

def scientificNumeral (negative : Bool) (ds : List Char) (e : Int) : Numeral :=
  ⟨negative, ds.take 1, ds.drop 1, (if e < 0 then '-' else '+') :: Nat.toDigits 10 e.natAbs⟩

def numeral (layout : FloatLayout) (x : Binary64) : Numeral :=
  if x.isZero then ⟨x.isNegative, ['0'], layout.wholeFraction, []⟩
  else
    let d := x.shortest layout.tie
    let ds := Nat.toDigits 10 d.digits
    let e := d.exponent + ds.length - 1
    if layout.positional e then positionalNumeral layout x.isNegative ds d.exponent
    else scientificNumeral x.isNegative ds e

def text (x : Binary64) : String :=
  if x.isNaN then "NaN"
  else if x.isFinite then (x.numeral .display).text
  else if x.isNegative then "-inf" else "inf"

end RecordQuery.Binary64
