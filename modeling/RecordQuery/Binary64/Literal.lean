import RecordQuery.Binary64.Nearest
import RecordQuery.Text.Digits

/-!
Reading decimal literals as the nearest floating-point numbers.
-/

namespace RecordQuery.Binary64

def nearestDecimal (negative : Bool) (ds : List Char) (e : Int) : Binary64 :=
  let significant := ds.dropWhile (· = '0')
  let leading := (significant.length : Int) + e
  if significant.isEmpty || leading < -330 then ofMagnitude negative 0
  else if 310 < leading then ofMagnitude negative infinityMagnitude
  else nearest negative (Text.natOfDigits significant * Nat.pow 10 e.toNat) (Nat.pow 10 (-e).toNat)

/-- An exponent's digits as a number. Once it has passed 65535 further digits do not count. -/
def exponentOfDigits (ds : List Char) : Nat :=
  ds.foldl (fun e d => if e < 0x10000 then 10 * e + (d.toNat - '0'.toNat) else e) 0

def exponent? : List Char → Option Int
  | [] => some 0
  | c :: cs =>
    if c = 'e' || c = 'E' then
      let (negative, ds) := Text.takeSign cs
      if ds.isEmpty || !ds.all Char.isDigit then none
      else some (if negative then -(exponentOfDigits ds : Int) else exponentOfDigits ds)
    else none

/-- A sign, digits with at most one point among or beside them, an exponent: all but one digit may be
missing. Too large a number reads as an infinity. -/
def ofLiteral? (cs : List Char) : Option Binary64 := do
  let (negative, body) := Text.takeSign cs
  let (whole, afterWhole) := Text.takeDigits body
  let (fraction, rest) := match afterWhole with
    | '.' :: cs => Text.takeDigits cs
    | cs => ([], cs)
  if (whole ++ fraction).isEmpty then none
  let e ← exponent? rest
  some (nearestDecimal negative (whole ++ fraction) (e - fraction.length))

end RecordQuery.Binary64
