import RecordQuery.Json.Token
import RecordQuery.Text.Digits

/-!
Cutting JSON text into tokens.
-/

namespace RecordQuery.Json

def isSpace (c : Char) : Bool := c = ' ' || c = '\t' || c = '\n' || c = '\r'

/-- One written element of a string: a character, or a 16-bit unit as four hexadecimal digits. -/
inductive Letter where
  | plain (c : Char)
  | unit (u : Nat)

def hexValue? (c : Char) : Option Nat :=
  if c.isDigit then some (c.toNat - '0'.toNat)
  else if 'a' ≤ c ∧ c ≤ 'f' then some (c.toNat - 'a'.toNat + 10)
  else if 'A' ≤ c ∧ c ≤ 'F' then some (c.toNat - 'A'.toNat + 10)
  else none

def hexUnit? (a b c d : Char) : Option Nat := do
  return 4096 * (← hexValue? a) + 256 * (← hexValue? b) + 16 * (← hexValue? c) + (← hexValue? d)

def shortEscape? (c : Char) : Option Char :=
  if c = '"' || c = '\\' || c = '/' then some c
  else if c = 'b' then some '\x08'
  else if c = 'f' then some '\x0c'
  else if c = 'n' then some '\n'
  else if c = 'r' then some '\r'
  else if c = 't' then some '\t'
  else none

def letters? : List Char → Option (List Letter × List Char)
  | [] => none
  | '"' :: cs => some ([], cs)
  | '\\' :: 'u' :: a :: b :: c :: d :: cs => do
    let u ← hexUnit? a b c d
    let (ls, rest) ← letters? cs
    return (.unit u :: ls, rest)
  | '\\' :: c :: cs => do
    let e ← shortEscape? c
    let (ls, rest) ← letters? cs
    return (.plain e :: ls, rest)
  | c :: cs =>
    if c.toNat < 0x20 then none
    else do
      let (ls, rest) ← letters? cs
      return (.plain c :: ls, rest)

def isHighSurrogate (u : Nat) : Bool := 0xD800 ≤ u && u < 0xDC00

def isLowSurrogate (u : Nat) : Bool := 0xDC00 ≤ u && u < 0xE000

/-- The text of a string's elements: a high surrogate and the low one right after it are one character,
and neither may stand alone. -/
def joinLetters : List Letter → Option (List Char)
  | [] => some []
  | .plain c :: ls => (c :: ·) <$> joinLetters ls
  | .unit u :: .unit v :: ls =>
    if isHighSurrogate u then
      if isLowSurrogate v then
        (Char.ofNat (0x10000 + (u - 0xD800) * 0x400 + (v - 0xDC00)) :: ·) <$> joinLetters ls
      else none
    else if isLowSurrogate u then none
    else (Char.ofNat u :: ·) <$> joinLetters (.unit v :: ls)
  | .unit u :: ls =>
    if isHighSurrogate u || isLowSurrogate u then none else (Char.ofNat u :: ·) <$> joinLetters ls

def wholeDigits? (cs : List Char) : Option (List Char × List Char) :=
  match Text.takeDigits cs with
  | ([], _) => none
  | ('0' :: _ :: _, _) => none
  | (ds, rest) => some (ds, rest)

def fractionDigits? : List Char → Option (List Char × List Char)
  | '.' :: cs =>
    let (ds, rest) := Text.takeDigits cs
    if ds.isEmpty then none else some (ds, rest)
  | cs => some ([], cs)

def exponentSign : List Char → List Char × List Char
  | '+' :: cs => (['+'], cs)
  | '-' :: cs => (['-'], cs)
  | cs => ([], cs)

def exponentChars? : List Char → Option (List Char × List Char)
  | [] => some ([], [])
  | c :: cs =>
    if c = 'e' || c = 'E' then
      let (sign, body) := exponentSign cs
      let (ds, rest) := Text.takeDigits body
      if ds.isEmpty then none else some (sign ++ ds, rest)
    else some ([], c :: cs)

def takeMinus : List Char → Bool × List Char
  | '-' :: cs => (true, cs)
  | cs => (false, cs)

def numeral? (cs : List Char) : Option (Numeral × List Char) := do
  let (negative, body) := takeMinus cs
  let (whole, afterWhole) ← wholeDigits? body
  let (fraction, afterFraction) ← fractionDigits? afterWhole
  let (exponent, rest) ← exponentChars? afterFraction
  return (⟨negative, whole, fraction, exponent⟩, rest)

def nextToken? : List Char → Option (Token × List Char)
  | '[' :: cs => some (.openArray, cs)
  | ']' :: cs => some (.closeArray, cs)
  | '\x7b' :: cs => some (.openObject, cs)
  | '\x7d' :: cs => some (.closeObject, cs)
  | ',' :: cs => some (.comma, cs)
  | ':' :: cs => some (.colon, cs)
  | 'n' :: 'u' :: 'l' :: 'l' :: cs => some (.null, cs)
  | 't' :: 'r' :: 'u' :: 'e' :: cs => some (.bool true, cs)
  | 'f' :: 'a' :: 'l' :: 's' :: 'e' :: cs => some (.bool false, cs)
  | '"' :: cs => (letters? cs).map fun (ls, rest) => (.string ((joinLetters ls).map String.ofList), rest)
  | cs => (numeral? cs).map fun (n, rest) => (.number n, rest)

theorem length_takeDigits (cs : List Char) : (Text.takeDigits cs).2.length ≤ cs.length := by
  simpa [Text.takeDigits] using (List.dropWhile_sublist _).length_le

theorem length_takeDigits_lt {cs : List Char} (h : (Text.takeDigits cs).1 ≠ []) :
    (Text.takeDigits cs).2.length < cs.length := by
  have := congrArg List.length (List.takeWhile_append_dropWhile (p := Char.isDigit) (l := cs))
  have := List.length_pos_iff.2 h
  simp only [Text.takeDigits, List.length_append] at *
  omega

theorem length_letters? {cs rest : List Char} {ls : List Letter} (h : letters? cs = some (ls, rest)) :
    rest.length < cs.length := by
  fun_induction letters? cs generalizing ls rest <;>
    simp only [Option.bind_eq_bind, Option.bind_eq_some_iff, reduceCtorEq, List.length_cons] at h ⊢ <;> grind

theorem length_fractionDigits? {cs ds rest : List Char} (h : fractionDigits? cs = some (ds, rest)) :
    rest.length ≤ cs.length := by
  have := length_takeDigits cs.tail
  fun_cases fractionDigits? cs <;> simp_all [fractionDigits?]
  grind

theorem length_exponentSign (cs : List Char) : (exponentSign cs).2.length ≤ cs.length := by
  fun_cases exponentSign cs <;> simp

theorem length_exponentChars? {cs ds rest : List Char} (h : exponentChars? cs = some (ds, rest)) :
    rest.length ≤ cs.length := by
  have hs := length_exponentSign cs.tail
  have hd := length_takeDigits (exponentSign cs.tail).2
  fun_cases exponentChars? cs <;> simp_all [exponentChars?]
  grind

theorem length_wholeDigits? {cs ds rest : List Char} (h : wholeDigits? cs = some (ds, rest)) :
    rest.length < cs.length := by
  have := @length_takeDigits_lt cs
  grind [wholeDigits?]

theorem length_takeMinus (cs : List Char) : (takeMinus cs).2.length ≤ cs.length := by
  fun_cases takeMinus cs <;> simp

theorem length_numeral? {cs rest : List Char} {n : Numeral} (h : numeral? cs = some (n, rest)) :
    rest.length < cs.length := by
  have hw := @length_wholeDigits?
  have hf := @length_fractionDigits?
  have he := @length_exponentChars?
  simp only [numeral?, Option.bind_eq_bind, Option.bind_eq_some_iff] at h
  have hm := length_takeMinus cs
  grind

theorem length_nextToken? {cs rest : List Char} {t : Token} (h : nextToken? cs = some (t, rest)) :
    rest.length < cs.length := by
  have hl := @length_letters?
  have hn := @length_numeral?
  revert h
  fun_cases nextToken? cs <;> intro h <;> simp_all <;> grind

def lex? (cs : List Char) : Option (List Token) :=
  match cs with
  | [] => some []
  | c :: rest =>
    if isSpace c then lex? rest
    else match _h : nextToken? (c :: rest) with
      | none => none
      | some (t, after) => (t :: ·) <$> lex? after
termination_by cs.length
decreasing_by
  · simp
  · exact length_nextToken? _h

end RecordQuery.Json
