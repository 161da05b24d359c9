import RecordQuery.Json.Lexer
import RecordQuery.Binary64.Literal

/-!
Reading JSON values. A reader goes through the tokens once and keeps the containers that are still open;
reading the tokens of a value anywhere leaves that value finished.
-/

namespace RecordQuery.Json

inductive Frame where
  | array (done : List Json)
  | object (done : List (StringContent × Json)) (name : StringContent)

inductive Stage where
  | value
  | firstItem
  | firstName
  | name (done : List (StringContent × Json))
  | colon (done : List (StringContent × Json)) (name : StringContent)
  | after (v : Json)

structure Reader where
  frames : List Frame
  stage : Stage

namespace Reader

def start : Reader := ⟨[], .value⟩

def begin? (frames : List Frame) : Token → Option Reader
  | .null => some ⟨frames, .after .null⟩
  | .bool b => some ⟨frames, .after (.bool b)⟩
  | .number n => some ⟨frames, .after (.number n)⟩
  | .string content => some ⟨frames, .after (.string content)⟩
  | .openArray => some ⟨.array [] :: frames, .firstItem⟩
  | .openObject => some ⟨frames, .firstName⟩
  | _ => none

def continue? (v : Json) : List Frame → Token → Option Reader
  | .array done :: frames, .comma => some ⟨.array (v :: done) :: frames, .value⟩
  | .array done :: frames, .closeArray => some ⟨frames, .after (.array (v :: done).reverse)⟩
  | .object done name :: frames, .comma => some ⟨frames, .name ((name, v) :: done)⟩
  | .object done name :: frames, .closeObject => some ⟨frames, .after (.object ((name, v) :: done).reverse)⟩
  | _, _ => none

def step? (r : Reader) (t : Token) : Option Reader :=
  match r.stage with
  | .value => begin? r.frames t
  | .firstItem =>
    match t, r.frames with
    | .closeArray, .array _ :: frames => some ⟨frames, .after (.array [])⟩
    | _, _ => begin? r.frames t
  | .firstName =>
    match t with
    | .closeObject => some ⟨r.frames, .after (.object [])⟩
    | .string name => some ⟨r.frames, .colon [] name⟩
    | _ => none
  | .name done =>
    match t with
    | .string name => some ⟨r.frames, .colon done name⟩
    | _ => none
  | .colon done name =>
    match t with
    | .colon => some ⟨.object done name :: r.frames, .value⟩
    | _ => none
  | .after v => continue? v r.frames t

def result? (r : Reader) : Option Json :=
  match r.frames, r.stage with
  | [], .after v => some v
  | _, _ => none

end Reader

def ofTokens? (ts : List Token) : Option Json := (ts.foldlM Reader.step? Reader.start).bind Reader.result?

def read? (s : String) : Option Json := (lex? s.toList).bind ofTokens?

theorem tokens_head (v : Json) : ∃ t ts, v.tokens = t :: ts ∧ t ≠ .closeArray := by
  match v with
  | .null | .bool _ | .number _ | .string _ | .array [] | .array (_ :: _) | .object [] | .object ((_, _) :: _) =>
    simp [tokens]

mutual

theorem foldlM_tokens (v : Json) (frames : List Frame) (rest : List Token) :
    (v.tokens ++ rest).foldlM Reader.step? ⟨frames, .value⟩ = rest.foldlM Reader.step? ⟨frames, .after v⟩ := by
  match v with
  | .null | .bool _ | .number _ | .string _ => simp [tokens, Reader.step?, Reader.begin?]
  | .array [] => simp [tokens, Reader.step?, Reader.begin?]
  | .array (w :: vs) =>
    have hw : ∀ frames rest, (w.tokens ++ rest).foldlM Reader.step? ⟨frames, .firstItem⟩ =
        (w.tokens ++ rest).foldlM Reader.step? ⟨frames, .value⟩ := by
      intro frames rest
      obtain ⟨t, ts, ht, hc⟩ := tokens_head w
      simp only [ht, List.cons_append, List.foldlM_cons]
      congr 1
      cases t <;> simp_all [Reader.step?]
    simp only [tokens, List.cons_append, List.foldlM_cons, Reader.step?, Reader.begin?, Option.bind_eq_bind,
      Option.bind_some, List.append_assoc, hw]
    rw [foldlM_tokens w, foldlM_moreItems vs]
    simp
  | .object [] => simp [tokens, Reader.step?, Reader.begin?]
  | .object ((name, w) :: members) =>
    simp only [tokens, List.cons_append, List.foldlM_cons, Reader.step?, Reader.begin?, Option.bind_eq_bind,
      Option.bind_some, List.append_assoc]
    rw [foldlM_tokens w, foldlM_moreMembers members]
    simp

theorem foldlM_moreItems (vs : List Json) (v : Json) (done : List Json) (frames : List Frame) (rest : List Token) :
    (moreItems vs ++ rest).foldlM Reader.step? ⟨.array done :: frames, .after v⟩ =
      rest.foldlM Reader.step? ⟨frames, .after (.array (done.reverse ++ v :: vs))⟩ := by
  match vs with
  | [] => simp [moreItems, Reader.step?, Reader.continue?]
  | w :: vs =>
    simp only [moreItems, List.cons_append, List.foldlM_cons, Reader.step?, Reader.continue?,
      Option.bind_eq_bind, Option.bind_some, List.append_assoc]
    rw [foldlM_tokens w, foldlM_moreItems vs]
    simp

theorem foldlM_moreMembers (members : List (StringContent × Json)) (v : Json) (name : StringContent)
    (done : List (StringContent × Json)) (frames : List Frame) (rest : List Token) :
    (moreMembers members ++ rest).foldlM Reader.step? ⟨.object done name :: frames, .after v⟩ =
      rest.foldlM Reader.step? ⟨frames, .after (.object (done.reverse ++ (name, v) :: members))⟩ := by
  match members with
  | [] => simp [moreMembers, Reader.step?, Reader.continue?]
  | (next, w) :: members =>
    simp only [moreMembers, List.cons_append, List.foldlM_cons, Reader.step?, Reader.continue?,
      Option.bind_eq_bind, Option.bind_some, List.append_assoc]
    rw [foldlM_tokens w, foldlM_moreMembers members]
    simp

end

end RecordQuery.Json
