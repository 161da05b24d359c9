import RecordQuery.Request.Json
import RecordQuery.Proofs.Fields
import RecordQuery.Proofs.LetterCase
import RecordQuery.Proofs.NumberRange

/-! The renderings of a request: its fields under any of their names and in any order, other members among
them, a direction in any case, the source as a name or an object. All of them are read as the request. -/

namespace RecordQuery

namespace Text

theorem toLower_of_isBlank {c : Char} (h : isBlank c = true) : c.toLower = c := by
  rcases toLower_cases c with hsmall | ⟨hA, hZ, -⟩
  · exact hsmall
  · simp only [isBlank, Bool.or_eq_true, Bool.and_eq_true, decide_eq_true_eq, beq_iff_eq] at h
    omega

theorem skipBlanks_append {blanks : List Char} (h : ∀ c ∈ blanks, isBlank c = true) (cs : List Char) :
    skipBlanks (blanks ++ cs) = skipBlanks cs := List.dropWhile_append_of_pos h

theorem skipBlanks_cons {c : Char} (h : isBlank c = false) (cs : List Char) :
    skipBlanks (c :: cs) = c :: cs := List.dropWhile_cons_of_neg (ne_true_of_eq_false h)

theorem skipBlanks_word {word : List Char} (h : ∀ c ∈ word, isBlank c = false) :
    skipBlanks word = word := by
  cases word with
  | nil => rfl
  | cons c cs => exact skipBlanks_cons (h c List.mem_cons_self) cs

theorem trimChars_append {before word after : List Char} (hbefore : ∀ c ∈ before, isBlank c = true)
    (hword : ∀ c ∈ word, isBlank c = false) (hafter : ∀ c ∈ after, isBlank c = true) :
    trimChars (before ++ word ++ after) = word := by
  have hreverse : ∀ c ∈ word.reverse, isBlank c = false := fun c hc => hword c (List.mem_reverse.1 hc)
  have hend : ∀ c ∈ after.reverse, isBlank c = true := fun c hc => hafter c (List.mem_reverse.1 hc)
  rw [trimChars, List.append_assoc, skipBlanks_append hbefore]
  cases word with
  | nil => rw [List.nil_append, ← List.append_nil after, skipBlanks_append hafter]; rfl
  | cons c cs =>
    rw [List.cons_append, skipBlanks_cons (hword c List.mem_cons_self), ← List.cons_append,
      List.reverse_append, skipBlanks_append hend, skipBlanks_word hreverse, List.reverse_reverse]

end Text

namespace Direction

def words : Direction → List String
  | .ascending => ["asc", "ascending"]
  | .descending => ["desc", "descending"]

def Spelled (d : Direction) (s : String) : Prop :=
  ∃ before word after : String, s = before ++ word ++ after ∧ Text.lower word ∈ d.words ∧
    before.toList.all Text.isBlank = true ∧ after.toList.all Text.isBlank = true

theorem all_words_not_isBlank (d : Direction) :
    (d.words.all fun word => word.toList.all fun c => !Text.isBlank c) = true := by
  cases d <;> decide

theorem isBlank_of_mem_words {d : Direction} {word : String} (hword : word ∈ d.words) :
    ∀ c ∈ word.toList, Text.isBlank c = false := by
  intro c hc
  have hall := List.all_eq_true.1 d.all_words_not_isBlank word hword
  exact Bool.not_eq_eq_eq_not.1 (List.all_eq_true.1 hall c hc)

theorem ofText?_of_mem_words {d : Direction} {s : String} (h : Text.lower (Text.trim s) ∈ d.words) :
    ofText? s = some d := by
  cases d with
  | ascending =>
    rcases List.mem_pair.1 h with h | h
    · rw [ofText?, h]; rfl
    · rw [ofText?, h]; rfl
  | descending =>
    rcases List.mem_pair.1 h with h | h
    · rw [ofText?, h]; rfl
    · rw [ofText?, h]; rfl

theorem ofText?_of_spelled {d : Direction} {s : String} (h : d.Spelled s) : ofText? s = some d := by
  obtain ⟨before, word, after, rfl, hword, hbefore, hafter⟩ := h
  have hblank : ∀ c ∈ word.toList, Text.isBlank c = false := by
    intro c hc
    refine Bool.eq_false_iff.2 fun h => ?_
    have hmem : c ∈ (Text.lower word).toList := by
      rw [Text.lower, String.toList_ofList, ← Text.toLower_of_isBlank h]
      exact List.mem_map_of_mem hc
    exact ne_true_of_eq_false (isBlank_of_mem_words hword c hmem) h
  have htrim : Text.trim (before ++ word ++ after) = word := by
    rw [Text.trim, String.toList_append, String.toList_append,
      Text.trimChars_append (List.all_eq_true.1 hbefore) hblank (List.all_eq_true.1 hafter),
      String.ofList_toList]
  exact ofText?_of_mem_words (htrim.symm ▸ hword)

end Direction

namespace Json

theorem membersDepth_le {members : List (StringContent × Json)} {n : Nat}
    (h : ∀ m ∈ members, m.2.depth ≤ n) : membersDepth members ≤ n := by
  induction members with
  | nil => exact Nat.zero_le n
  | cons m rest ih =>
    obtain ⟨hm, hrest⟩ := List.forall_mem_cons.1 h
    rw [membersDepth]
    exact Nat.max_le.2 ⟨hm, ih hrest⟩

theorem allMembers_iff {number : Numeral → Bool} {string : StringContent → Bool}
    {members : List (StringContent × Json)} : allMembers number string members = true ↔
      ∀ m ∈ members, string m.1 = true ∧ m.2.all number string = true := by
  induction members with
  | nil => simp only [allMembers, List.not_mem_nil, false_imp_iff, implies_true]
  | cons m rest ih => rw [allMembers, Bool.and_eq_true, Bool.and_eq_true, ih, List.forall_mem_cons]

theorem allItems_iff {number : Numeral → Bool} {string : StringContent → Bool} {items : List Json} :
    allItems number string items = true ↔ ∀ v ∈ items, v.all number string = true := by
  induction items with
  | nil => simp only [allItems, List.not_mem_nil, false_imp_iff, implies_true]
  | cons v vs ih => rw [allItems, Bool.and_eq_true, ih, List.forall_mem_cons]

mutual

theorem all_mono {number more : Numeral → Bool} {string : StringContent → Bool}
    (hmore : ∀ n, number n = true → more n = true) (v : Json) (h : v.all number string = true) :
    v.all more string = true := by
  match v with
  | .null | .bool _ | .string _ => exact h
  | .number n => exact hmore n h
  | .array items => exact allItems_mono hmore items h
  | .object members => exact allMembers_mono hmore members h

theorem allItems_mono {number more : Numeral → Bool} {string : StringContent → Bool}
    (hmore : ∀ n, number n = true → more n = true) (items : List Json)
    (h : allItems number string items = true) : allItems more string items = true := by
  match items with
  | [] => rfl
  | v :: vs =>
    obtain ⟨hv, hvs⟩ := Bool.and_eq_true_iff.1 h
    exact Bool.and_eq_true_iff.2 ⟨all_mono hmore v hv, allItems_mono hmore vs hvs⟩

theorem allMembers_mono {number more : Numeral → Bool} {string : StringContent → Bool}
    (hmore : ∀ n, number n = true → more n = true) (members : List (StringContent × Json))
    (h : allMembers number string members = true) : allMembers more string members = true := by
  match members with
  | [] => rfl
  | (name, v) :: rest =>
    obtain ⟨hmember, hrest⟩ := Bool.and_eq_true_iff.1 h
    obtain ⟨hname, hv⟩ := Bool.and_eq_true_iff.1 hmember
    exact Bool.and_eq_true_iff.2
      ⟨Bool.and_eq_true_iff.2 ⟨hname, all_mono hmore v hv⟩, allMembers_mono hmore rest hrest⟩

end

end Json

open Json

def SelectItem.Renders (added : Json → Prop) (item : SelectItem) : Json → Prop :=
  Spells added [.required ["selector"] RendersText item.selector,
    .defaulted ["alias", "name"] none (RendersOption RendersText) item.label]

def FilterClause.Renders (added : Json → Prop) (c : FilterClause) : Json → Prop :=
  Spells added [.required ["selector"] RendersText c.selector,
    .required ["operator"] RendersText c.operator,
    .defaulted ["value"] none (RendersOption RendersText) c.value,
    .defaulted ["valueSet", "values"] none (RendersOption (RendersList RendersText)) c.values]

def Direction.Renders (d : Direction) (j : Json) : Prop := ∃ s, j = .text s ∧ d.Spelled s

def SortKey.Renders (added : Json → Prop) (k : SortKey) : Json → Prop :=
  Spells added [.required ["selector"] RendersText k.selector,
    .defaulted ["direction"] .ascending Direction.Renders k.direction]

def Limit.Renders (added : Json → Prop) (l : Limit) : Json → Prop :=
  Spells added [.defaulted ["skip"] 0 RendersInt64 l.skip, .defaulted ["take"] 0 RendersInt64 l.take]

def RendersSource (added : Json → Prop) (source : String) (j : Json) : Prop :=
  RendersText source j ∨ Spells added [.required ["name", "Name"] RendersText source] j

/-- A request as an object. `added` says what other members may hold, and `addedToSource` what those of
the source may. -/
def Request.Renders (added addedToSource : Json → Prop) (r : Request) : Json → Prop :=
  Spells added [.required ["select"] (RendersList (SelectItem.Renders added)) r.select,
    .required ["from"] (RendersSource addedToSource) r.source,
    .defaulted ["where"] [] (RendersList (FilterClause.Renders added)) r.filters,
    .defaulted ["orderBy"] [] (RendersList (SortKey.Renders added)) r.order,
    .defaulted ["limit"] none (RendersOption (Limit.Renders added)) r.limit]

/-- Values nested at most 100 deep whose numbers and strings all pass. -/
def Bounded (number : Numeral → Bool) (string : StringContent → Bool) (j : Json) : Prop :=
  j.depth ≤ 100 ∧ j.all number string = true

/-- Values that can be read ahead of use: their numbers are read as finite ones and their strings are
text. -/
def ReadAhead : Json → Prop := Bounded Numeral.isReadable Option.isSome

variable {added : Json → Prop}

theorem reads_selectItem : Reads SelectItem.ofJson? (SelectItem.Renders added) := by
  intro item j h
  obtain ⟨found, hfields, hfound⟩ := h.fields? (by decide : ["selector", "alias", "name"].Nodup)
  obtain _ | ⟨hselector, _ | ⟨hlabel, ⟨⟩⟩⟩ := hfound
  have hselector := reads_text.required? hselector
  have hlabel := (reads_text.option rfl).defaulted? hlabel
  rw [SelectItem.ofJson?, show j.fields? [["selector"], ["alias", "name"]] = _ from hfields]
  simp only [Option.bind_eq_bind, Option.bind_some, hselector, hlabel]
  rfl

theorem reads_filterClause : Reads FilterClause.ofJson? (FilterClause.Renders added) := by
  intro c j h
  obtain ⟨found, hfields, hfound⟩ := h.fields?
    (by decide : ["selector", "operator", "value", "valueSet", "values"].Nodup)
  obtain _ | ⟨hselector, _ | ⟨hoperator, _ | ⟨hvalue, _ | ⟨hvalues, ⟨⟩⟩⟩⟩⟩ := hfound
  have hselector := reads_text.required? hselector
  have hoperator := reads_text.required? hoperator
  have hvalue := (reads_text.option rfl).defaulted? hvalue
  have hvalues := (reads_text.list.option rfl).defaulted? hvalues
  rw [FilterClause.ofJson?,
    show j.fields? [["selector"], ["operator"], ["value"], ["valueSet", "values"]] = _ from hfields]
  simp only [Option.bind_eq_bind, Option.bind_some, hselector, hoperator, hvalue, hvalues]
  rfl

theorem reads_direction : Reads Direction.ofJson? Direction.Renders := by
  rintro d _ ⟨s, rfl, hs⟩
  rw [Direction.ofJson?, reads_text s _ rfl, Option.bind_some, Direction.ofText?_of_spelled hs]

theorem reads_sortKey : Reads SortKey.ofJson? (SortKey.Renders added) := by
  intro k j h
  obtain ⟨found, hfields, hfound⟩ := h.fields? (by decide : ["selector", "direction"].Nodup)
  obtain _ | ⟨hselector, _ | ⟨hdirection, ⟨⟩⟩⟩ := hfound
  have hselector := reads_text.required? hselector
  have hdirection := reads_direction.defaulted? hdirection
  rw [SortKey.ofJson?, show j.fields? [["selector"], ["direction"]] = _ from hfields]
  simp only [Option.bind_eq_bind, Option.bind_some, hselector, hdirection]
  rfl

theorem reads_limit : Reads Limit.ofJson? (Limit.Renders added) := by
  intro l j h
  obtain ⟨found, hfields, hfound⟩ := h.fields? (by decide : ["skip", "take"].Nodup)
  obtain _ | ⟨hskip, _ | ⟨htake, ⟨⟩⟩⟩ := hfound
  have hskip := reads_int64.defaulted? hskip
  have htake := reads_int64.defaulted? htake
  rw [Limit.ofJson?, show j.fields? [["skip"], ["take"]] = _ from hfields]
  simp only [Option.bind_eq_bind, Option.bind_some, hskip, htake]
  rfl

theorem reads_source : Reads Request.sourceOfJson? (RendersSource ReadAhead) := by
  rintro source j (rfl | h)
  · rfl
  obtain ⟨members, rfl⟩ := h.exists_members
  have hvalue : ∀ m ∈ members, ReadAhead m.2 := by
    intro m hm
    rcases (h.mem m hm).2 with hadded | ⟨f, hf, hv⟩
    · exact hadded
    · obtain rfl := List.mem_singleton.1 hf
      obtain hv : m.2 = .text source := hv
      rw [hv]
      exact ⟨Nat.zero_le _, rfl⟩
  have hdepth : (Json.object members).depth ≤ Request.maxSourceDepth := by
    have : membersDepth members ≤ 100 := membersDepth_le fun m hm => (hvalue m hm).1
    rw [depth, Request.maxSourceDepth]
    omega
  have hall : (Json.object members).all Numeral.isFinite Option.isSome = true :=
    allMembers_iff.2 fun m hm =>
      ⟨(h.mem m hm).1, all_mono (fun _ => Numeral.isFinite_of_isReadable) m.2 (hvalue m hm).2⟩
  obtain ⟨field, hfield, hfound⟩ := h.exists_found (by decide : ["name", "Name"].Nodup) _
    (List.mem_singleton_self _)
  have hname := reads_text.required? hfound
  rw [Request.sourceOfJson?, if_pos (Bool.and_eq_true_iff.2 ⟨decide_eq_true hdepth, hall⟩),
    show member? ["name", "Name"] members = _ from hfield]
  exact hname

theorem reads_request : Reads Request.ofJson? (Request.Renders added ReadAhead) := by
  intro r j h
  obtain ⟨found, hfields, hfound⟩ := h.fields? (by decide : ["select", "from", "where", "orderBy", "limit"].Nodup)
  obtain _ | ⟨hselect, _ | ⟨hsource, _ | ⟨hfilters, _ | ⟨horder, _ | ⟨hlimit, ⟨⟩⟩⟩⟩⟩⟩ := hfound
  have hselect := reads_selectItem.list.required? hselect
  have hsource := reads_source.required? hsource
  have hfilters := reads_filterClause.list.defaulted? hfilters
  have horder := reads_sortKey.list.defaulted? horder
  have hlimit := (reads_limit.option rfl).defaulted? hlimit
  rw [Request.ofJson?,
    show j.fields? [["select"], ["from"], ["where"], ["orderBy"], ["limit"]] = _ from hfields]
  simp only [Option.bind_eq_bind, Option.bind_some, hselect, hsource, hfilters, horder, hlimit]
  rfl

end RecordQuery
