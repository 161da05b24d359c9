import RecordQuery.Binary64.Nearest
import RecordQuery.Text.Digits
import RecordQuery.Text.Numeral

/-!
Numerals read in floating point: the leading digits that fit a word of 64 bits, rounded, times a power of ten,
rounded. The two roundings can lead beyond the finite numbers where the exact value would not.
-/

namespace RecordQuery

namespace Binary64

def ofNat (n : Nat) : Binary64 := nearest false n 1

def mul (x y : Binary64) : Binary64 :=
  nearest (x.isNegative != y.isNegative) (x.units * y.units) (one * one)

end Binary64

namespace Numeral

/-- Appends digits to a word while it stays below `2 ^ 64`; the digits that are left over do not count. -/
def fillWord (word : Nat) : List Char → Nat × List Char
  | [] => (word, [])
  | d :: ds =>
    let next := Nat.ofDigitChars 10 [d] word
    if next < UInt64.size then fillWord next ds else (word, d :: ds)

def scaled (n : Numeral) : Nat × Int :=
  let (whole, dropped) := fillWord 0 n.whole
  let (word, ignored) := fillWord whole n.fraction
  (word, (Text.readInt? n.exponent).getD 0 + dropped.length - (n.fraction.length - ignored.length : Nat))

def isFinite (n : Numeral) : Bool :=
  let (word, exponent) := n.scaled
  word = 0 || exponent < 0 || (exponent ≤ 308 &&
    ((Binary64.ofNat word).mul (Binary64.ofNat (Nat.pow 10 exponent.toNat))).isFinite)

end Numeral

end RecordQuery
