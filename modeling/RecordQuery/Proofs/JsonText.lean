import RecordQuery.Json.Reader
import RecordQuery.Proofs.Tokens

/-! The compact text of a JSON value reads back as the value, as long as its numbers are numerals. -/

namespace RecordQuery.Json

theorem endsNumeral_moreItems (vs : List Json) (cs : List Char) :
    EndsNumeral ((moreItems vs).flatMap Token.chars ++ cs) := by
  intro c hc
  cases vs with
  | nil =>
    obtain rfl := Option.some.inj hc
    decide
  | cons v vs =>
    obtain rfl := Option.some.inj hc
    decide

theorem endsNumeral_moreMembers (members : List (StringContent × Json)) (cs : List Char) :
    EndsNumeral ((moreMembers members).flatMap Token.chars ++ cs) := by
  intro c hc
  cases members with
  | nil =>
    obtain rfl := Option.some.inj hc
    decide
  | cons m members =>
    obtain rfl := Option.some.inj hc
    decide

def Token.isMark : Token → Bool
  | .number _ => false
  | _ => true

variable {string : StringContent → Bool}

theorem lex?_mark (t : Token) (ht : t.isMark = true) (cs : List Char) :
    lex? (t.chars ++ cs) = (lex? cs).map (t :: ·) := by
  cases t with
  | number n => exact nomatch ht
  | _ => exact lex?_chars rfl nofun

mutual

theorem lex?_tokens (v : Json) (h : v.all Numeral.isWritten string = true) {cs : List Char}
    (hcs : EndsNumeral cs) :
    lex? (v.tokens.flatMap Token.chars ++ cs) = (lex? cs).map (v.tokens ++ ·) := by
  match v with
  | .null | .bool b | .string content =>
    rw [tokens, List.flatMap_singleton, lex?_mark _ rfl]
    rfl
  | .number n =>
    rw [tokens, List.flatMap_singleton]
    exact lex?_chars (t := .number n) h fun _ _ => hcs
  | .array [] =>
    simp only [tokens, List.flatMap_cons, List.flatMap_nil, List.append_assoc, List.nil_append]
    rw [lex?_mark .openArray rfl, lex?_mark .closeArray rfl, Option.map_map]
    rfl
  | .array (w :: vs) =>
    obtain ⟨hw, hvs⟩ := Bool.and_eq_true_iff.1 h
    simp only [tokens, List.flatMap_cons, List.flatMap_append, List.append_assoc]
    rw [lex?_mark .openArray rfl, lex?_tokens w hw (endsNumeral_moreItems vs cs), lex?_moreItems vs hvs]
    simp only [Option.map_map, Function.comp_def, List.cons_append, List.append_assoc]
  | .object [] =>
    simp only [tokens, List.flatMap_cons, List.flatMap_nil, List.append_assoc, List.nil_append]
    rw [lex?_mark .openObject rfl, lex?_mark .closeObject rfl, Option.map_map]
    rfl
  | .object ((name, w) :: members) =>
    obtain ⟨hw, hmembers⟩ := Bool.and_eq_true_iff.1 h
    obtain ⟨-, hw⟩ := Bool.and_eq_true_iff.1 hw
    simp only [tokens, List.flatMap_cons, List.flatMap_append, List.append_assoc]
    rw [lex?_mark .openObject rfl, lex?_mark (.string name) rfl, lex?_mark .colon rfl,
      lex?_tokens w hw (endsNumeral_moreMembers members cs), lex?_moreMembers members hmembers]
    simp only [Option.map_map, Function.comp_def, List.cons_append, List.append_assoc]

theorem lex?_moreItems (vs : List Json) (h : allItems Numeral.isWritten string vs = true)
    (cs : List Char) :
    lex? ((moreItems vs).flatMap Token.chars ++ cs) = (lex? cs).map (moreItems vs ++ ·) := by
  match vs with
  | [] =>
    rw [moreItems, List.flatMap_singleton, lex?_mark .closeArray rfl]
    rfl
  | w :: vs =>
    obtain ⟨hw, hvs⟩ := Bool.and_eq_true_iff.1 h
    simp only [moreItems, List.flatMap_cons, List.flatMap_append, List.append_assoc]
    rw [lex?_mark .comma rfl, lex?_tokens w hw (endsNumeral_moreItems vs cs), lex?_moreItems vs hvs]
    simp only [Option.map_map, Function.comp_def, List.cons_append, List.append_assoc]

theorem lex?_moreMembers (members : List (StringContent × Json))
    (h : allMembers Numeral.isWritten string members = true) (cs : List Char) :
    lex? ((moreMembers members).flatMap Token.chars ++ cs) =
      (lex? cs).map (moreMembers members ++ ·) := by
  match members with
  | [] =>
    rw [moreMembers, List.flatMap_singleton, lex?_mark .closeObject rfl]
    rfl
  | (name, w) :: members =>
    obtain ⟨hw, hmembers⟩ := Bool.and_eq_true_iff.1 h
    obtain ⟨-, hw⟩ := Bool.and_eq_true_iff.1 hw
    simp only [moreMembers, List.flatMap_cons, List.flatMap_append, List.append_assoc]
    rw [lex?_mark .comma rfl, lex?_mark (.string name) rfl, lex?_mark .colon rfl,
      lex?_tokens w hw (endsNumeral_moreMembers members cs), lex?_moreMembers members hmembers]
    simp only [Option.map_map, Function.comp_def, List.cons_append, List.append_assoc]

end

theorem ofTokens?_tokens (v : Json) : ofTokens? v.tokens = some v := by
  have hread := foldlM_tokens v [] []
  rw [List.append_nil] at hread
  rw [ofTokens?, Reader.start, hread]
  rfl

theorem read?_write_of_all {v : Json} (h : v.all Numeral.isWritten string = true) :
    read? v.write = some v := by
  have hend : EndsNumeral [] := nofun
  have hlex := lex?_tokens v h hend
  rw [List.append_nil, lex?, Option.map_some, List.append_nil] at hlex
  rw [read?, write, String.toList_ofList, hlex, Option.bind_some, ofTokens?_tokens]

end RecordQuery.Json
