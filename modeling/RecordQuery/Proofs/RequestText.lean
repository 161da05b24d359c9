import Mathlib.Tactic.Common
import RecordQuery.Proofs.JsonText
import RecordQuery.Proofs.Renderings

/-! Requests as JSON text. What a request is written as is one of its renderings, and the text of it is
read as that value; so a written request is read back, and other renderings are read as the same request. -/

namespace RecordQuery

namespace Json

def named (members : List (String × Json)) : List (StringContent × Json) :=
  members.map fun (name, v) => (some name, v)

theorem Spells.of_written {added : Json → Prop} {fields : List FieldForm} {members : List (String × Json)}
    (h : Written fields (named members)) : Spells added fields (.record members) :=
  .intro h (List.forall_mem_nil _) (.of_eq (List.append_nil _).symm)

theorem Spells.record_reverse {added : Json → Prop} {fields : List FieldForm}
    (known extra : List (String × Json)) (hknown : Written fields (named known))
    (hextra : ∀ m ∈ extra, (∀ f ∈ fields, m.1 ∉ f.names) ∧ added m.2) :
    Spells added fields (.record (known ++ extra).reverse) := by
  have hnamed : ∀ m ∈ named extra,
      (∃ name, m.1 = some name ∧ ∀ f ∈ fields, name ∉ f.names) ∧ added m.2 := by
    intro m hm
    obtain ⟨⟨name, v⟩, hmem, rfl⟩ := List.mem_map.1 hm
    obtain ⟨hname, hv⟩ := hextra (name, v) hmem
    exact ⟨⟨name, rfl, hname⟩, hv⟩
  have hperm : (named (known ++ extra).reverse).Perm (named known ++ named extra) := by
    rw [named, named, named, ← List.map_append]
    exact (List.reverse_perm _).map _
  exact .intro hknown hnamed hperm

theorem Written.append {fields more : List FieldForm} {members rest : List (String × Json)}
    (h : Written fields (named members)) (hrest : Written more (named rest)) :
    Written (fields ++ more) (named (members ++ rest)) := by
  rw [named, List.map_append]
  change Written _ (named members ++ named rest)
  generalize named members = known at h
  induction h with
  | nil => exact hrest
  | cons hname hv _ ih => exact .cons hname hv ih
  | omitted homit _ ih => exact .omitted homit ih

theorem rendersText (s : String) : RendersText s (.text s) := rfl

section

variable {α : Type} {renders : α → Json → Prop} {toJson : α → Json} {name : String} {names : List String}

theorem Written.optionalMember (hname : name ∈ names) (h : ∀ a, renders a (toJson a)) (x : Option α) :
    Written [.defaulted names none (RendersOption renders) x] (named (optionalMember name toJson x)) := by
  cases x with
  | none => exact .omitted rfl .nil
  | some a => exact .cons hname (h a) .nil

theorem rendersList_map (h : ∀ a, renders a (toJson a)) (xs : List α) :
    RendersList renders xs (.array (xs.map toJson)) :=
  ⟨_, rfl, List.forall₂_map_right_iff.2 (List.forall₂_same.2 fun a _ => h a)⟩

theorem Written.listMember (hname : name ∈ names) (h : ∀ a, renders a (toJson a)) (xs : List α) :
    Written [.defaulted names [] (RendersList renders) xs] (named (listMember name toJson xs)) := by
  cases xs with
  | nil => exact .omitted rfl .nil
  | cons a as => exact .cons hname (rendersList_map h (a :: as)) .nil

end

def NumbersWritten (j : Json) : Prop := j.all Numeral.isWritten (fun _ => true) = true

theorem numbersWritten_array_map {α : Type} {toJson : α → Json} (h : ∀ a, (toJson a).NumbersWritten)
    (xs : List α) : (Json.array (xs.map toJson)).NumbersWritten := by
  refine allItems_iff.2 fun v hv => ?_
  obtain ⟨a, -, rfl⟩ := List.mem_map.1 hv
  exact h a

theorem numbersWritten_record {members : List (String × Json)} (h : ∀ m ∈ members, m.2.NumbersWritten) :
    (Json.record members).NumbersWritten := by
  refine allMembers_iff.2 fun m hm => ?_
  obtain ⟨⟨name, v⟩, hmem, rfl⟩ := List.mem_map.1 hm
  exact ⟨rfl, h (name, v) hmem⟩

theorem numbersWritten_optionalMember {α : Type} {toJson : α → Json} (name : String)
    (h : ∀ a, (toJson a).NumbersWritten) (x : Option α) :
    ∀ m ∈ optionalMember name toJson x, m.2.NumbersWritten := by
  cases x with
  | none => exact List.forall_mem_nil _
  | some a => exact List.forall_mem_singleton.2 (h a)

theorem numbersWritten_listMember {α : Type} {toJson : α → Json} (name : String)
    (h : ∀ a, (toJson a).NumbersWritten) (xs : List α) :
    ∀ m ∈ listMember name toJson xs, m.2.NumbersWritten := by
  cases xs with
  | nil => exact List.forall_mem_nil _
  | cons a as => exact List.forall_mem_singleton.2 (numbersWritten_array_map h (a :: as))

theorem numbersWritten_text (s : String) : (Json.text s).NumbersWritten := rfl

theorem numbersWritten_int (n : Int) : (Json.int n).NumbersWritten := Numeral.isWritten_ofInt n

end Json

open Json

variable {added addedToSource : Json → Prop}

theorem SelectItem.renders_toJson (item : SelectItem) : item.Renders added item.toJson := by
  have hlabel : Written [.defaulted ["alias", "name"] none (RendersOption RendersText) item.label]
      (named (optionalMember "alias" .text item.label)) := .optionalMember (.head _) rendersText _
  exact .of_written (.cons (.head _) rfl hlabel)

theorem FilterClause.renders_toJson (c : FilterClause) : c.Renders added c.toJson := by
  have hvalue : Written [.defaulted ["value"] none (RendersOption RendersText) c.value]
      (named (optionalMember "value" .text c.value)) := .optionalMember (.head _) rendersText _
  have hvalues : Written
      [.defaulted ["valueSet", "values"] none (RendersOption (RendersList RendersText)) c.values]
      (named (optionalMember "valueSet" textList c.values)) :=
    .optionalMember (.head _) (rendersList_map rendersText) _
  exact .of_written (.cons (.head _) rfl (.cons (.head _) rfl (hvalue.append hvalues)))

theorem Direction.renders_toJson (d : Direction) : d.Renders d.toJson := by
  cases d with
  | ascending => exact ⟨"Asc", rfl, "", "Asc", "", by decide⟩
  | descending => exact ⟨"Desc", rfl, "", "Desc", "", by decide⟩

theorem SortKey.renders_toJson (k : SortKey) : k.Renders added k.toJson :=
  .of_written (.cons (.head _) rfl (.cons (.head _) k.direction.renders_toJson .nil))

theorem Limit.renders_toJson (l : Limit) : l.Renders added l.toJson :=
  .of_written (.cons (.head _) rfl (.cons (.head _) rfl .nil))

theorem Request.renders_toJson (r : Request) : r.Renders added addedToSource r.toJson := by
  have hselect : RendersList (SelectItem.Renders added) r.select (.array (r.select.map (·.toJson))) :=
    rendersList_map SelectItem.renders_toJson r.select
  have hfilters : Written [.defaulted ["where"] [] (RendersList (FilterClause.Renders added)) r.filters]
      (named (listMember "where" FilterClause.toJson r.filters)) :=
    .listMember (.head _) FilterClause.renders_toJson _
  have horder : Written [.defaulted ["orderBy"] [] (RendersList (SortKey.Renders added)) r.order]
      (named (listMember "orderBy" SortKey.toJson r.order)) :=
    .listMember (.head _) SortKey.renders_toJson _
  have hlimit : Written [.defaulted ["limit"] none (RendersOption (Limit.Renders added)) r.limit]
      (named (optionalMember "limit" Limit.toJson r.limit)) :=
    .optionalMember (.head _) Limit.renders_toJson _
  exact .of_written (.cons (.head _) hselect (.cons (.head _) (.inl rfl)
    ((hfilters.append horder).append hlimit)))

theorem SelectItem.numbersWritten_toJson (item : SelectItem) : item.toJson.NumbersWritten :=
  numbersWritten_record <| List.forall_mem_append.2 ⟨List.forall_mem_singleton.2 (numbersWritten_text _),
    numbersWritten_optionalMember _ numbersWritten_text _⟩

theorem FilterClause.numbersWritten_toJson (c : FilterClause) : c.toJson.NumbersWritten := by
  have hnames : ∀ m ∈ [("selector", Json.text c.selector), ("operator", .text c.operator)],
      m.2.NumbersWritten :=
    List.forall_mem_cons.2 ⟨numbersWritten_text _, List.forall_mem_singleton.2 (numbersWritten_text _)⟩
  have hvalue := numbersWritten_optionalMember "value" numbersWritten_text c.value
  have hvalues := numbersWritten_optionalMember "valueSet"
    (numbersWritten_array_map numbersWritten_text) c.values
  exact numbersWritten_record
    (List.forall_mem_append.2 ⟨List.forall_mem_append.2 ⟨hnames, hvalue⟩, hvalues⟩)

theorem SortKey.numbersWritten_toJson (k : SortKey) : k.toJson.NumbersWritten := by
  have hdirection : k.direction.toJson.NumbersWritten := by
    cases k.direction with
    | ascending => exact numbersWritten_text _
    | descending => exact numbersWritten_text _
  exact numbersWritten_record
    (List.forall_mem_cons.2 ⟨numbersWritten_text _, List.forall_mem_singleton.2 hdirection⟩)

theorem Limit.numbersWritten_toJson (l : Limit) : l.toJson.NumbersWritten :=
  numbersWritten_record <|
    List.forall_mem_cons.2 ⟨numbersWritten_int _, List.forall_mem_singleton.2 (numbersWritten_int _)⟩

theorem Request.numbersWritten_toJson (r : Request) : r.toJson.NumbersWritten := by
  have hselect : (Json.array (r.select.map (·.toJson))).NumbersWritten :=
    numbersWritten_array_map SelectItem.numbersWritten_toJson r.select
  have hfilters := numbersWritten_listMember "where" FilterClause.numbersWritten_toJson r.filters
  have horder := numbersWritten_listMember "orderBy" SortKey.numbersWritten_toJson r.order
  have hlimit := numbersWritten_optionalMember "limit" Limit.numbersWritten_toJson r.limit
  refine numbersWritten_record ?_
  simp only [List.forall_mem_append]
  exact ⟨⟨⟨List.forall_mem_cons.2 ⟨hselect, List.forall_mem_singleton.2 (numbersWritten_text _)⟩,
    hfilters⟩, horder⟩, hlimit⟩

theorem Request.read?_write (r : Request) : Request.read? r.write = some r := by
  have hvalue : Json.read? r.toJson.write = some r.toJson := read?_write_of_all r.numbersWritten_toJson
  have hrequest : Request.ofJson? r.toJson = some r :=
    reads_request r r.toJson (r.renders_toJson : r.Renders (fun _ => True) ReadAhead r.toJson)
  rw [Request.read?, Request.write, hvalue, Option.bind_some, hrequest]

/-- All renderings of a request are read as that request, and so are their texts, the compact one among
them. -/
theorem Request.decodes_renderings {r : Request} {j : Json} (h : r.Renders (fun _ => True) ReadAhead j) :
    Request.ofJson? j = some r ∧ (∀ s, Json.read? s = some j → Request.read? s = some r) ∧
      (j.NumbersWritten → Request.read? j.write = some r) := by
  have hrequest : Request.ofJson? j = some r := reads_request r j h
  have hread : ∀ s, Json.read? s = some j → Request.read? s = some r := by
    intro s hs
    rw [Request.read?, hs, Option.bind_some, hrequest]
  exact ⟨hrequest, hread, fun hnumbers => hread j.write (read?_write_of_all hnumbers)⟩

def labelledRequest : Request :=
  ⟨[⟨"A", some "N"⟩], "F", [⟨"A", "IN", none, some ["x"]⟩], [⟨"A", .descending⟩], some ⟨0, 5⟩⟩

def labelledMembers : List (String × Json) :=
  [("select", .array [.record [("name", .text "N"), ("selector", .text "A")]]),
    ("from", .record [("kind", .bool true), ("Name", .text "F")]),
    ("where", .array [.record [("values", .array [.text "x"]), ("value", .null), ("operator", .text "IN"),
      ("selector", .text "A")]]),
    ("orderBy", .array [.record [("direction", .text " DeScEnding\t"), ("selector", .text "A")]]),
    ("limit", .record [("take", .int 5)])]

def labelledReversed : Json :=
  .record (labelledMembers ++ [("note", Json.number ⟨false, ['1'], [], ['4', '0', '0']⟩)]).reverse

theorem labelledRequest_renders :
    labelledRequest.Renders (fun _ => True) ReadAhead labelledReversed := by
  have hselect : RendersList (SelectItem.Renders fun _ => True) labelledRequest.select
      (.array [.record [("name", .text "N"), ("selector", .text "A")]]) :=
    ⟨_, rfl, .cons (.record_reverse [("selector", .text "A"), ("name", .text "N")] []
      (.cons (.head _) rfl (.cons (.tail _ (.head _)) rfl .nil)) (List.forall_mem_nil _)) .nil⟩
  have hsource : RendersSource ReadAhead labelledRequest.source
      (.record [("kind", .bool true), ("Name", .text "F")]) :=
    .inr (.record_reverse [("Name", .text "F")] [("kind", .bool true)]
      (.cons (.tail _ (.head _)) rfl .nil)
      (List.forall_mem_singleton.2 ⟨by decide, Nat.zero_le _, rfl⟩))
  have hfilters : RendersList (FilterClause.Renders fun _ => True) labelledRequest.filters
      (.array [.record [("values", .array [.text "x"]), ("value", .null), ("operator", .text "IN"),
        ("selector", .text "A")]]) :=
    ⟨_, rfl, .cons (.record_reverse [("selector", .text "A"), ("operator", .text "IN"), ("value", .null),
        ("values", .array [.text "x"])] []
      (.cons (.head _) rfl (.cons (.head _) rfl (.cons (.head _) rfl
        (.cons (.tail _ (.head _)) ⟨_, rfl, .cons rfl .nil⟩ .nil)))) (List.forall_mem_nil _)) .nil⟩
  have hdirection : Direction.descending.Renders (.text " DeScEnding\t") :=
    ⟨_, rfl, " ", "DeScEnding", "\t", by decide⟩
  have horder : RendersList (SortKey.Renders fun _ => True) labelledRequest.order
      (.array [.record [("direction", .text " DeScEnding\t"), ("selector", .text "A")]]) :=
    ⟨_, rfl, .cons (.record_reverse [("selector", .text "A"), ("direction", .text " DeScEnding\t")] []
      (.cons (.head _) rfl (.cons (.head _) hdirection .nil)) (List.forall_mem_nil _)) .nil⟩
  have hlimit : RendersOption (Limit.Renders fun _ => True) labelledRequest.limit
      (.record [("take", .int 5)]) :=
    .record_reverse [("take", .int 5)] [] (.omitted rfl (.cons (.head _) rfl .nil)) (List.forall_mem_nil _)
  exact .record_reverse labelledMembers _
    (.cons (.head _) hselect (.cons (.head _) hsource (.cons (.head _) hfilters (.cons (.head _) horder
      (.cons (.head _) hlimit .nil)))))
    (List.forall_mem_singleton.2 ⟨by decide, trivial⟩)

theorem labelledReversed_decodes :
    labelledRequest.Renders (fun _ => True) ReadAhead labelledReversed ∧
      Request.ofJson? labelledReversed = some labelledRequest ∧
      Request.read? labelledReversed.write = some labelledRequest := by
  have hnumbers : labelledReversed.NumbersWritten := rfl
  obtain ⟨hvalue, -, htext⟩ := Request.decodes_renderings labelledRequest_renders
  exact ⟨labelledRequest_renders, hvalue, htext hnumbers⟩

def Numeral.belowLargest : Numeral := ⟨false, "1797693134862315708".toList, ['1'], "290".toList⟩

def besideSource (v : Json) : Json :=
  .record [("select", .array []), ("from", .record [("x", v), ("name", .text "F")])]

theorem renders_besideSource {v : Json} (hv : addedToSource v) :
    (Request.ofSource "F").Renders added addedToSource (besideSource v) := by
  have hname : "x" ∉ ["name", "Name"] := by decide
  have hsource : RendersSource addedToSource "F" (.record [("x", v), ("name", .text "F")]) :=
    .inr (.record_reverse [("name", .text "F")] [("x", v)] (.cons (.head _) rfl .nil)
      (List.forall_mem_singleton.2 ⟨List.forall_mem_singleton.2 hname, hv⟩))
  exact .of_written (.cons (.head _) ⟨_, rfl, .nil⟩ (.cons (.head _) hsource
    (.omitted rfl (.omitted rfl (.omitted rfl .nil)))))

/-- What is added to a source is read with it. A number below the largest finite one may be read as
infinite, which fails, and so does a string that is no text. Names must be text everywhere. -/
theorem not_decodes_in_range :
    (¬ ∀ (r : Request) (j : Json), r.Renders (Bounded (Numeral.isAtMost Binary64.largest) Option.isSome)
      (Bounded (Numeral.isAtMost Binary64.largest) Option.isSome) j → Request.ofJson? j = some r) ∧
    (¬ ∀ (r : Request) (j : Json), r.Renders (Bounded Numeral.isReadable fun _ => true)
      (Bounded Numeral.isReadable fun _ => true) j → Request.ofJson? j = some r) ∧
    Request.ofJson? (.object [(some "select", .array []), (some "from", .text "F"), (none, .null)]) = none := by
  refine ⟨fun h => ?_, fun h => ?_, rfl⟩
  · have hnumber : Bounded (Numeral.isAtMost Binary64.largest) Option.isSome (.number .belowLargest) :=
      ⟨Nat.zero_le _, by decide +kernel⟩
    exact absurd (h _ _ (renders_besideSource hnumber)) (by decide +kernel)
  · have hstring : Bounded Numeral.isReadable (fun _ => true) (.string none) := ⟨Nat.zero_le _, rfl⟩
    exact absurd (h _ _ (renders_besideSource hstring)) (by decide +kernel)

end RecordQuery
