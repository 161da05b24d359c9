import RecordQuery.Json.Lexer

/-! Written tokens are cut off a text as they were written: a string comes back with its content, a
numeral with its parts as long as the text does not go on like a number. -/

namespace RecordQuery

def Numeral.isWhole : List Char → Bool
  | [] => false
  | d :: ds => (d :: ds).all Char.isDigit && (d ≠ '0' || ds.isEmpty)

def Numeral.isWritten (n : Numeral) : Bool :=
  isWhole n.whole && n.fraction.all Char.isDigit &&
    (n.exponent.isEmpty || (!(Json.exponentSign n.exponent).2.isEmpty &&
      (Json.exponentSign n.exponent).2.all Char.isDigit))

namespace Numeral

theorem head?_toDigits {n : Nat} (hn : 0 < n) : (Nat.toDigits 10 n).head? ≠ some '0' := by
  induction n using Nat.strongRecOn with
  | ind n ih =>
    by_cases hlt : n < 10
    · have hdigit : ∀ k < 10, 0 < k → [Nat.digitChar k].head? ≠ some '0' := by decide
      rw [Nat.toDigits_of_lt_base hlt]
      exact hdigit n hlt hn
    · have hle : 10 ≤ n := Nat.not_lt.1 hlt
      have hhead := ih (n / 10) (Nat.div_lt_self hn (by decide)) (Nat.div_pos hle (by decide))
      rw [Nat.toDigits_of_base_le (by decide) hle, List.head?_append]
      cases hds : Nat.toDigits 10 (n / 10) with
      | nil => exact absurd hds Nat.toDigits_ne_nil
      | cons d ds =>
        rw [hds] at hhead
        exact hhead

theorem isDigit_toDigits (n : Nat) : (Nat.toDigits 10 n).all Char.isDigit = true :=
  List.all_eq_true.2 fun _ hc => Nat.isDigit_of_mem_toDigits (by decide) (by decide) hc

theorem isWhole_of_head?_ne {ds : List Char} (hds : ds.all Char.isDigit = true) (hne : ds ≠ [])
    (hzero : ds.head? ≠ some '0') : isWhole ds = true := by
  cases ds with
  | nil => exact absurd rfl hne
  | cons d ds =>
    have hd : d ≠ '0' := fun h => hzero (congrArg some h)
    rw [isWhole, hds, decide_eq_true hd]
    rfl

theorem isWhole_toDigits (n : Nat) : isWhole (Nat.toDigits 10 n) = true := by
  rcases Nat.eq_zero_or_pos n with rfl | hn
  · rfl
  · exact isWhole_of_head?_ne (isDigit_toDigits n) Nat.toDigits_ne_nil (head?_toDigits hn)

theorem isWritten_ofInt (n : Int) : (ofInt n).isWritten = true := by
  rw [isWritten, ofInt, isWhole_toDigits]
  rfl

end Numeral

theorem Numeral.chars_head {n : Numeral} (hn : n.isWritten = true) :
    ∃ c cs, n.chars = c :: cs ∧ (c.isDigit = true ∨ c = '-') := by
  obtain ⟨negative, whole, fraction, exponent⟩ := n
  obtain ⟨hwhole, -⟩ := Bool.and_eq_true_iff.1 (Bool.and_eq_true_iff.1 hn).1
  cases negative with
  | true => exact ⟨'-', _, rfl, .inr rfl⟩
  | false =>
    cases whole with
    | nil => exact nomatch hwhole
    | cons d ds =>
      have hdigit : d.isDigit = true :=
        List.all_eq_true.1 (Bool.and_eq_true_iff.1 hwhole).1 d List.mem_cons_self
      exact ⟨d, _, rfl, .inl hdigit⟩

theorem Text.readInt?_of_takeSign {n : Int} {cs : List Char}
    (h : takeSign cs = (decide (n < 0), Nat.toDigits 10 n.natAbs)) : readInt? cs = some n := by
  have hempty : (Nat.toDigits 10 n.natAbs).isEmpty = false := by
    rw [List.isEmpty_eq_false_iff]
    exact Nat.toDigits_ne_nil
  have hvalue : natOfDigits (Nat.toDigits 10 n.natAbs) = n.natAbs := Nat.ofDigitChars_ten_toDigits
  rw [readInt?, h]
  simp only [hempty, Numeral.isDigit_toDigits, hvalue, Bool.not_true, Bool.or_self, Bool.false_eq_true,
    if_false, decide_eq_true_eq]
  congr 1
  split <;> omega

def EndsNumeral (cs : List Char) : Prop :=
  ∀ c ∈ cs.head?, c.isDigit = false ∧ c ≠ '.' ∧ c ≠ 'e' ∧ c ≠ 'E'

theorem Text.takeDigits_append {ds cs : List Char} (hds : ds.all Char.isDigit = true)
    (hcs : ∀ c ∈ cs.head?, c.isDigit = false) : takeDigits (ds ++ cs) = (ds, cs) := by
  have hds' : ∀ d ∈ ds, d.isDigit = true := List.all_eq_true.1 hds
  rw [takeDigits, List.takeWhile_append_of_pos hds', List.dropWhile_append_of_pos hds']
  cases cs with
  | nil => rw [List.takeWhile_nil, List.dropWhile_nil, List.append_nil]
  | cons c cs =>
    have hc : ¬ c.isDigit = true := Bool.eq_false_iff.1 (hcs c rfl)
    rw [List.takeWhile_cons_of_neg hc, List.dropWhile_cons_of_neg hc, List.append_nil]

namespace Json

theorem letters?_plain {c : Char} (hquote : c ≠ '"') (hslash : c ≠ '\\') (hc : 0x20 ≤ c.toNat)
    (cs : List Char) : letters? (c :: cs) = (letters? cs).map fun p => (.plain c :: p.1, p.2) := by
  rw [letters?.eq_5 c cs hquote (fun _ _ _ _ _ h => absurd h hslash) (fun _ _ h => absurd h hslash),
    if_neg (Nat.not_lt.2 hc)]
  cases letters? cs <;> rfl

theorem letters?_short {e c : Char} (he : shortEscape? e = some c) (hu : e ≠ 'u') (cs : List Char) :
    letters? ('\\' :: e :: cs) = (letters? cs).map fun p => (.plain c :: p.1, p.2) := by
  rw [letters?.eq_4 e cs (fun _ _ _ _ _ h => absurd h hu), he]
  cases letters? cs <;> rfl

theorem letters?_unit {a b c d : Char} {u : Nat} (hu : hexUnit? a b c d = some u) (cs : List Char) :
    letters? ('\\' :: 'u' :: a :: b :: c :: d :: cs) =
      (letters? cs).map fun p => (.unit u :: p.1, p.2) := by
  rw [letters?, hu]
  cases letters? cs <;> rfl

theorem joinLetters_unit {u : Nat} (hu : u < 0xD800) (ls : List Letter) :
    joinLetters (.unit u :: ls) = (Char.ofNat u :: ·) <$> joinLetters ls := by
  have hhigh : isHighSurrogate u = false := by
    rw [isHighSurrogate, decide_eq_false (Nat.not_le.2 hu), Bool.false_and]
  have hlow : isLowSurrogate u = false := by
    rw [isLowSurrogate, decide_eq_false (by omega), Bool.false_and]
  match ls with
  | [] | .plain c :: ls | .unit v :: ls =>
    simp only [joinLetters, hhigh, hlow, Bool.or_self, Bool.false_eq_true, if_false]

theorem escapeChar_cases (c : Char) :
    (∃ e, escapeChar c = ['\\', e] ∧ shortEscape? e = some c ∧ e ≠ 'u') ∨
      (c.toNat < 0x20 ∧ escapeChar c =
        ['\\', 'u', '0', '0', Nat.digitChar (c.toNat / 16), Nat.digitChar (c.toNat % 16)]) ∨
      (0x20 ≤ c.toNat ∧ c ≠ '"' ∧ c ≠ '\\' ∧ escapeChar c = [c]) := by
  by_cases hquote : c = '"'
  · exact .inl ⟨'"', by rw [hquote]; decide⟩
  by_cases hslash : c = '\\'
  · exact .inl ⟨'\\', by rw [hslash]; decide⟩
  by_cases hb : c = '\x08'
  · exact .inl ⟨'b', by rw [hb]; decide⟩
  by_cases hf : c = '\x0c'
  · exact .inl ⟨'f', by rw [hf]; decide⟩
  by_cases hn : c = '\n'
  · exact .inl ⟨'n', by rw [hn]; decide⟩
  by_cases hr : c = '\r'
  · exact .inl ⟨'r', by rw [hr]; decide⟩
  by_cases ht : c = '\t'
  · exact .inl ⟨'t', by rw [ht]; decide⟩
  rw [escapeChar, if_neg hquote, if_neg hslash, if_neg hb, if_neg hf, if_neg hn, if_neg hr, if_neg ht]
  by_cases hc : c.toNat < 0x20
  · exact .inr (.inl ⟨hc, if_pos hc⟩)
  · exact .inr (.inr ⟨Nat.not_lt.1 hc, hquote, hslash, if_neg hc⟩)

theorem exists_letter (c : Char) : ∃ l : Letter,
    (∀ cs, letters? (escapeChar c ++ cs) = (letters? cs).map fun p => (l :: p.1, p.2)) ∧
      ∀ ls, joinLetters (l :: ls) = (c :: ·) <$> joinLetters ls := by
  rcases escapeChar_cases c with ⟨e, he, hc, hu⟩ | ⟨hlt, he⟩ | ⟨hle, hquote, hslash, he⟩
  · rw [he]
    exact ⟨.plain c, letters?_short hc hu, fun _ => rfl⟩
  · have hhex : ∀ n < 0x20, hexUnit? '0' '0' (Nat.digitChar (n / 16)) (Nat.digitChar (n % 16)) =
        some n := by decide
    rw [he]
    refine ⟨.unit c.toNat, letters?_unit (hhex _ hlt), fun ls => ?_⟩
    rw [joinLetters_unit (by omega), Char.ofNat_toNat]
  · rw [he]
    exact ⟨.plain c, letters?_plain hquote hslash hle, fun _ => rfl⟩

theorem letters?_escaped (s cs : List Char) : ∃ ls,
    letters? (s.flatMap escapeChar ++ '"' :: cs) = some (ls, cs) ∧ joinLetters ls = some s := by
  induction s with
  | nil => exact ⟨[], rfl, rfl⟩
  | cons c s ih =>
    obtain ⟨ls, hls, hjoin⟩ := ih
    obtain ⟨l, hl, hjoin'⟩ := exists_letter c
    refine ⟨l :: ls, ?_, ?_⟩
    · rw [List.flatMap_cons, List.append_assoc, hl, hls]
      rfl
    · rw [hjoin', hjoin]
      rfl

theorem nextToken?_string (content : StringContent) (cs : List Char) :
    nextToken? (stringChars content ++ cs) = some (.string content, cs) := by
  cases content with
  | none =>
    have hchars : stringChars none = ['"', '\\', 'u', 'd', '8', '0', '0', '"'] := by decide
    have hletters : letters? ('\\' :: 'u' :: 'd' :: '8' :: '0' :: '0' :: '"' :: cs) =
        some ([.unit 0xD800], cs) := letters?_unit (by decide) ('"' :: cs)
    have htoken : nextToken? ('"' :: '\\' :: 'u' :: 'd' :: '8' :: '0' :: '0' :: '"' :: cs) =
        some (.string ((joinLetters [.unit 0xD800]).map String.ofList), cs) := by
      rw [nextToken?, hletters]
      rfl
    rw [hchars]
    exact htoken
  | some s =>
    obtain ⟨ls, hletters, hjoin⟩ := letters?_escaped s.toList cs
    have hchars : stringChars (some s) ++ cs = '"' :: (s.toList.flatMap escapeChar ++ '"' :: cs) :=
      List.append_assoc ('"' :: s.toList.flatMap escapeChar) ['"'] cs
    have htoken : nextToken? ('"' :: (s.toList.flatMap escapeChar ++ '"' :: cs)) =
        some (.string ((joinLetters ls).map String.ofList), cs) := by
      rw [nextToken?, hletters]
      rfl
    rw [hchars, htoken, hjoin, Option.map_some, String.ofList_toList]

theorem wholeDigits?_append {ds cs : List Char} (hds : Numeral.isWhole ds = true)
    (hcs : ∀ c ∈ cs.head?, c.isDigit = false) : wholeDigits? (ds ++ cs) = some (ds, cs) := by
  cases ds with
  | nil => exact absurd hds Bool.false_ne_true
  | cons d ds =>
    obtain ⟨hdigits, hzero⟩ := Bool.and_eq_true_iff.1 hds
    rw [wholeDigits?, Text.takeDigits_append hdigits hcs]
    split
    · next h => exact absurd (congrArg Prod.fst h) (List.cons_ne_nil d ds)
    · next h =>
      obtain ⟨rfl, rfl⟩ := List.cons.inj (congrArg Prod.fst h)
      exact absurd hzero Bool.false_ne_true
    · next h => rw [← h]

theorem fractionDigits?_append {ds cs : List Char} (hds : ds.all Char.isDigit = true)
    (hcs : ∀ c ∈ cs.head?, c.isDigit = false ∧ c ≠ '.') :
    fractionDigits? ((if ds.isEmpty then [] else '.' :: ds) ++ cs) = some (ds, cs) := by
  cases ds with
  | nil =>
    cases cs with
    | nil => rfl
    | cons c cs => exact fractionDigits?.eq_2 (c :: cs) fun cs' h => (hcs c rfl).2 (List.cons.inj h).1
  | cons d ds =>
    change fractionDigits? ('.' :: ((d :: ds) ++ cs)) = _
    rw [fractionDigits?, Text.takeDigits_append hds fun c hc => (hcs c hc).1]
    rfl

theorem exponentSign_append {cs : List Char} (h : cs ≠ []) (more : List Char) :
    exponentSign (cs ++ more) = ((exponentSign cs).1, (exponentSign cs).2 ++ more) := by
  cases cs with
  | nil => exact absurd rfl h
  | cons c cs =>
    by_cases hplus : c = '+'
    · rw [hplus]
      rfl
    by_cases hminus : c = '-'
    · rw [hminus]
      rfl
    have hnone : ∀ cs, exponentSign (c :: cs) = ([], c :: cs) := fun cs =>
      exponentSign.eq_3 (c :: cs) (fun _ h => hplus (List.cons.inj h).1) fun _ h =>
        hminus (List.cons.inj h).1
    rw [List.cons_append, hnone, hnone, List.cons_append]

theorem append_exponentSign (cs : List Char) : (exponentSign cs).1 ++ (exponentSign cs).2 = cs := by
  unfold exponentSign
  split <;> rfl

theorem exponentChars?_append {es cs : List Char} (hes : (es.isEmpty ||
      (!(exponentSign es).2.isEmpty && (exponentSign es).2.all Char.isDigit)) = true)
    (hcs : EndsNumeral cs) :
    exponentChars? ((if es.isEmpty then [] else 'e' :: es) ++ cs) = some (es, cs) := by
  cases es with
  | nil =>
    cases cs with
    | nil => rfl
    | cons c cs =>
      obtain ⟨-, -, he, hE⟩ := hcs c rfl
      change exponentChars? (c :: cs) = _
      rw [exponentChars?, decide_eq_false he, decide_eq_false hE]
      rfl
  | cons e es =>
    obtain ⟨hne, hdigits⟩ := Bool.and_eq_true_iff.1 hes
    have hempty : (exponentSign (e :: es)).2.isEmpty = false := Bool.not_eq_true' _ ▸ hne
    have htake : Text.takeDigits ((exponentSign (e :: es)).2 ++ cs) = ((exponentSign (e :: es)).2, cs) :=
      Text.takeDigits_append hdigits fun c hc => (hcs c hc).1
    change exponentChars? ('e' :: ((e :: es) ++ cs)) = _
    rw [exponentChars?, exponentSign_append (List.cons_ne_nil e es)]
    simp only [htake, hempty, append_exponentSign, decide_true, Bool.true_or, if_true,
      Bool.false_eq_true, if_false]

theorem takeMinus_append {ds : List Char} (hds : Numeral.isWhole ds = true) (negative : Bool)
    (cs : List Char) :
    takeMinus ((if negative then ['-'] else []) ++ (ds ++ cs)) = (negative, ds ++ cs) := by
  cases negative with
  | true => rfl
  | false =>
    cases ds with
    | nil => exact nomatch hds
    | cons d ds =>
      have hdigit : d.isDigit = true :=
        List.all_eq_true.1 (Bool.and_eq_true_iff.1 hds).1 d List.mem_cons_self
      have hminus : d ≠ '-' := by
        rintro rfl
        exact nomatch hdigit
      exact takeMinus.eq_2 (d :: (ds ++ cs)) fun _ h => hminus (List.cons.inj h).1

theorem numeral?_append {n : Numeral} (hn : n.isWritten = true) {cs : List Char}
    (hcs : EndsNumeral cs) : numeral? (n.chars ++ cs) = some (n, cs) := by
  obtain ⟨negative, whole, fraction, exponent⟩ := n
  obtain ⟨hn, hexponent⟩ := Bool.and_eq_true_iff.1 hn
  obtain ⟨hwhole, hfraction⟩ := Bool.and_eq_true_iff.1 hn
  have hafterFraction : ∀ c ∈ ((if exponent.isEmpty then [] else 'e' :: exponent) ++ cs).head?,
      c.isDigit = false ∧ c ≠ '.' := by
    intro c hc
    cases exponent with
    | nil => exact ⟨(hcs c hc).1, (hcs c hc).2.1⟩
    | cons e es =>
      obtain rfl := Option.some.inj hc
      decide
  have hafterWhole : ∀ c ∈ ((if fraction.isEmpty then [] else '.' :: fraction) ++
      ((if exponent.isEmpty then [] else 'e' :: exponent) ++ cs)).head?, c.isDigit = false := by
    intro c hc
    cases fraction with
    | nil => exact (hafterFraction c hc).1
    | cons d ds =>
      obtain rfl := Option.some.inj hc
      decide
  simp only [numeral?, Numeral.chars, List.append_assoc, takeMinus_append hwhole,
    wholeDigits?_append hwhole hafterWhole, fractionDigits?_append hfraction hafterFraction,
    exponentChars?_append hexponent hcs, Option.bind_eq_bind, Option.bind_some, Option.pure_def]

theorem nextToken?_of_head {c : Char} (hc : c.isDigit = true ∨ c = '-') (cs : List Char) :
    nextToken? (c :: cs) = (numeral? (c :: cs)).map fun p => (.number p.1, p.2) := by
  unfold nextToken?
  split
  case h_11 => rfl
  all_goals
    next h =>
      obtain ⟨rfl, -⟩ := List.cons.inj h
      exact absurd hc (by decide)

def Token.isWritten : Token → Bool
  | .number n => n.isWritten
  | _ => true

theorem nextToken?_chars {t : Token} (ht : t.isWritten = true) {cs : List Char}
    (hcs : ∀ n, t = .number n → EndsNumeral cs) : nextToken? (t.chars ++ cs) = some (t, cs) := by
  cases t with
  | openArray | closeArray | openObject | closeObject | comma | colon => rfl
  | null =>
    have hchars : Token.null.chars = ['n', 'u', 'l', 'l'] := by decide
    rw [hchars]
    rfl
  | bool b =>
    have htrue : (Token.bool true).chars = ['t', 'r', 'u', 'e'] := by decide
    have hfalse : (Token.bool false).chars = ['f', 'a', 'l', 's', 'e'] := by decide
    cases b with
    | true =>
      rw [htrue]
      rfl
    | false =>
      rw [hfalse]
      rfl
  | number n =>
    obtain ⟨c, rest, hchars, hc⟩ := Numeral.chars_head ht
    have hnumeral : numeral? (n.chars ++ cs) = some (n, cs) := numeral?_append ht (hcs n rfl)
    rw [hchars, List.cons_append] at hnumeral
    change nextToken? (n.chars ++ cs) = _
    rw [hchars, List.cons_append, nextToken?_of_head hc, hnumeral]
    rfl
  | string content => exact nextToken?_string content cs

theorem isSpace_of_isDigit {c : Char} (h : c.isDigit = true) : isSpace c = false := by
  rw [Bool.eq_false_iff]
  intro hspace
  simp only [isSpace, Bool.or_eq_true, decide_eq_true_eq] at hspace
  rcases hspace with ((rfl | rfl) | rfl) | rfl <;> exact nomatch h

theorem Token.chars_head {t : Token} (ht : t.isWritten = true) :
    ∃ c cs, t.chars = c :: cs ∧ isSpace c = false := by
  cases t with
  | openArray | closeArray | openObject | closeObject | comma | colon => exact ⟨_, _, rfl, rfl⟩
  | null => exact ⟨'n', ['u', 'l', 'l'], by decide⟩
  | bool b =>
    cases b with
    | true => exact ⟨'t', ['r', 'u', 'e'], by decide⟩
    | false => exact ⟨'f', ['a', 'l', 's', 'e'], by decide⟩
  | number n =>
    obtain ⟨c, cs, hchars, hc⟩ := Numeral.chars_head ht
    refine ⟨c, cs, hchars, ?_⟩
    rcases hc with hdigit | rfl
    · exact isSpace_of_isDigit hdigit
    · rfl
  | string content =>
    cases content with
    | none => exact ⟨'"', ['\\', 'u', 'd', '8', '0', '0', '"'], by decide⟩
    | some s => exact ⟨'"', _, rfl, rfl⟩

/-- A written token is the first token of the text that begins with it. -/
theorem lex?_chars {t : Token} (ht : t.isWritten = true) {cs : List Char}
    (hcs : ∀ n, t = .number n → EndsNumeral cs) : lex? (t.chars ++ cs) = (lex? cs).map (t :: ·) := by
  have hnext := nextToken?_chars ht hcs
  obtain ⟨c, rest, hchars, hspace⟩ := Token.chars_head ht
  rw [hchars, List.cons_append] at hnext ⊢
  rw [lex?, hspace]
  simp only [Bool.false_eq_true, if_false]
  split
  · next h => exact absurd (hnext.symm.trans h) (Option.some_ne_none _)
  · next h =>
    cases hnext.symm.trans h
    rfl

end Json

end RecordQuery
