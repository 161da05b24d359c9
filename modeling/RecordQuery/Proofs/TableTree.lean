import RecordQuery.Proofs.Listings
import RecordQuery.Proofs.Outlines

/-! The tables of a schema as a tree. Every table but the first is entered from an earlier one, by one
nested field, and all other nested fields stay at their own table. No number that is looked up is without a
table then, neither for a path nor for the outline. -/

namespace RecordQuery

theorem SchemaField.target?_shift (f : SchemaField) (offset : Nat) :
    (f.shift offset).target? = f.target?.map (· + offset) := by
  obtain ⟨name, shape⟩ := f
  cases shape <;> rfl

namespace SchemaNode

def LeadsTo (n : SchemaNode) (place target : Nat) : Prop :=
  ∃ f, n.fields[place]? = some f ∧ f.target? = some target

variable {n : SchemaNode} {place target bound : Nat}

theorem Within.target_lt (hn : n.Within bound) (h : n.LeadsTo place target) : target < bound := by
  obtain ⟨⟨name, shape⟩, hf, htarget⟩ := h
  have hwithin := hn _ (List.mem_of_getElem? hf)
  cases shape with
  | value kind read => cases htarget
  | nested child step =>
    cases htarget
    exact hwithin

theorem leadsTo_push {f : SchemaField} : (n.push f).LeadsTo place target ↔
    n.LeadsTo place target ∨ (place = n.fields.length ∧ f.target? = some target) := by
  rw [LeadsTo, LeadsTo, push]
  rcases Nat.lt_trichotomy place n.fields.length with hlt | rfl | hgt
  · rw [List.getElem?_append_left hlt]
    exact (or_iff_left fun h => Nat.ne_of_lt hlt h.1).symm
  · rw [List.getElem?_concat_length, List.getElem?_eq_none (Nat.le_refl _)]
    simp only [Option.some.injEq, exists_eq_left', reduceCtorEq, false_and, exists_false, false_or, true_and]
  · have hpast : (n.fields ++ [f]).length ≤ place := by
      rw [List.length_append, List.length_singleton]
      exact hgt
    rw [List.getElem?_eq_none hpast, List.getElem?_eq_none (Nat.le_of_lt hgt)]
    exact (or_iff_left fun h => Nat.ne_of_gt hgt h.1).symm

theorem leadsTo_shift {offset : Nat} : (n.shift offset).LeadsTo place target ↔
    ∃ target', n.LeadsTo place target' ∧ target = target' + offset := by
  rw [LeadsTo, shift, List.getElem?_map]
  constructor
  · rintro ⟨f, hf, htarget⟩
    obtain ⟨g, hg, rfl⟩ := Option.map_eq_some_iff.1 hf
    rw [SchemaField.target?_shift] at htarget
    obtain ⟨target', htarget', rfl⟩ := Option.map_eq_some_iff.1 htarget
    exact ⟨target', ⟨g, hg, htarget'⟩, rfl⟩
  · rintro ⟨target', ⟨g, hg, htarget'⟩, rfl⟩
    refine ⟨g.shift offset, ?_, ?_⟩
    · rw [hg, Option.map_some]
    · rw [SchemaField.target?_shift, htarget', Option.map_some]

end SchemaNode

namespace Schema

def node? (s : Schema) (id : Nat) : Option SchemaNode := s.nodes[id]?

def Edge (s : Schema) (source place target : Nat) : Prop :=
  ∃ n, s.node? source = some n ∧ n.LeadsTo place target

def Enters (s : Schema) (target : Nat) (entry : Nat × Nat) : Prop :=
  entry.1 < target ∧ s.Edge entry.1 entry.2 target

/-- Every nested field leads to a table. Each table but the first is entered from an earlier one, by one
field only, and the fields that enter no table stay at their own. -/
structure FormsTree (s : Schema) : Prop where
  within : ∀ source place target, s.Edge source place target → target < s.nodes.length
  entered : ∀ target, 0 < target → target < s.nodes.length → ∃! entry, s.Enters target entry
  stays : ∀ source place target, s.Edge source place target → ¬ source < target → target = source

def appended (s inner : Schema) : Schema :=
  { s with others := s.others ++ inner.nodes.map (·.shift s.nodes.length) }

def follow? (s : Schema) (path : String) (id : Nat) : List String → Option (Except SelectorFault Selector)
  | [] => some (.error .emptySegment)
  | segment :: rest =>
    (s.node? id).bind fun n =>
      if segment.isEmpty then some (.error .emptySegment)
      else match n.field? segment with
        | none => some (.error (.noField segment n.typeName))
        | some f =>
          match f.shape, rest with
          | .value kind read, [] => some (.ok ⟨path, [], kind, read⟩)
          | .value _ _, _ :: _ => some (.error (.valueHasNoFields segment))
          | .nested child _, [] =>
            (s.node? child).map fun target => .error (.recordNeedsField segment target.typeName)
          | .nested child step, _ :: _ => (s.follow? path child rest).map (·.map (·.prepend step))

def resolve? (s : Schema) (path : String) : Option (Except Error Selector) :=
  (s.follow? path 0 (Text.pieces '.' path)).map (·.mapError (.badSelector path))

def propertiesOf? (s : Schema) (path : List Nat) (id : Nat) : Option (List Property) :=
  (s.node? id).bind fun n => n.fields.mapM fun f =>
    match f.shape with
    | .value kind _ => some (.value f.name kind)
    | .nested child _ =>
      (if _hopen : child ∈ path then some []
        else if _hlt : child < s.nodes.length then s.propertiesOf? (child :: path) child
        else none).bind fun properties =>
          (s.node? child).map fun target => .record f.name target.typeName properties
termination_by s.unvisited path
decreasing_by exact s.unvisited_cons_lt _hopen _hlt

def outline? (s : Schema) : Option Outline := (s.propertiesOf? [0] 0).map fun properties => ⟨s.name, properties⟩

variable {s inner : Schema} {source place target id : Nat}

theorem node?_eq_some (hid : id < s.nodes.length) : s.node? id = some (s.node id) := getElem?_nodes hid

theorem Closed.follow?_eq_some (hs : s.Closed) (path : String) (hid : id < s.nodes.length)
    (segments : List String) : s.follow? path id segments = some (s.follow path id segments) := by
  induction segments generalizing id with
  | nil => rfl
  | cons segment rest ih =>
    rw [follow?, follow, node?_eq_some hid, Option.bind_some]
    split
    · rfl
    cases hfield : (s.node id).field? segment with
    | none => rfl
    | some f =>
      have hwithin := hs.node hid f (SchemaNode.mem_of_field? hfield)
      obtain ⟨name, shape⟩ := f
      cases shape with
      | value kind read => cases rest <;> rfl
      | nested child step =>
        have hchild : child < s.nodes.length := hwithin
        cases rest with
        | nil => simp only [node?_eq_some hchild, Option.map_some]
        | cons next rest => simp only [ih hchild, Option.map_some]

theorem Closed.resolve?_eq_some (hs : s.Closed) (path : String) :
    s.resolve? path = some (s.resolve path) := by
  rw [resolve?, hs.follow?_eq_some path (Nat.succ_pos _), Option.map_some, resolve]

example : (⟨"", ⟨"", [⟨"p", .nested 1 some⟩]⟩, []⟩ : Schema).resolve? "p.x" = none := rfl

theorem Closed.propertiesOf?_eq_some (hs : s.Closed) (path : List Nat) (hid : id < s.nodes.length) :
    s.propertiesOf? path id = some (s.propertiesOf path id) := by
  induction path, id using propertiesOf.induct s with
  | case1 path id ih =>
    rw [propertiesOf?, propertiesOf_eq_map, node?_eq_some hid, Option.bind_some, mapM_eq_some,
      List.forall₂_map_right_iff, List.forall₂_same]
    intro f hf
    have hwithin := hs.node hid f hf
    obtain ⟨name, shape⟩ := f
    cases shape with
    | value kind read => rfl
    | nested child step =>
      have hlt : child < s.nodes.length := hwithin
      by_cases hopen : child ∈ path
      · rw [propertyOf_back hopen]
        simp only [dif_pos hopen, Option.bind_some, node?_eq_some hlt, Option.map_some]
      · rw [propertyOf_enter hopen hlt]
        simp only [dif_neg hopen, dif_pos hlt, ih child ⟨hopen, hlt⟩ hlt, Option.bind_some,
          node?_eq_some hlt, Option.map_some]

theorem Closed.outline?_eq_some (hs : s.Closed) : s.outline? = some s.outline := by
  rw [outline?, hs.propertiesOf?_eq_some [0] (Nat.succ_pos _), Option.map_some, outline]

theorem Edge.source_lt (h : s.Edge source place target) : source < s.nodes.length := by
  obtain ⟨n, hn, -⟩ := h
  exact (List.getElem?_eq_some_iff.1 hn).1

theorem Closed.edge_lt (hs : s.Closed) (h : s.Edge source place target) : target < s.nodes.length := by
  obtain ⟨n, hn, hleads⟩ := h
  exact (hs n (List.mem_of_getElem? hn)).target_lt hleads

theorem edge_zero_iff : s.Edge 0 place target ↔ s.root.LeadsTo place target := by
  constructor
  · rintro ⟨n, hn, hleads⟩
    cases hn
    exact hleads
  · exact fun hleads => ⟨s.root, rfl, hleads⟩

/-- Appended tables bring their own edges, shifted past the tables that were there. -/
theorem edge_appended_iff : (s.appended inner).Edge source place target ↔ s.Edge source place target ∨
    ∃ source' target', inner.Edge source' place target' ∧ source = source' + s.nodes.length ∧
      target = target' + s.nodes.length := by
  have hnode : (s.appended inner).node? source =
    (s.nodes ++ inner.nodes.map (·.shift s.nodes.length))[source]? := rfl
  rw [Edge, hnode]
  rcases Nat.lt_or_ge source s.nodes.length with hlt | hge
  · rw [List.getElem?_append_left hlt]
    refine (or_iff_left ?_).symm
    rintro ⟨source', -, -, rfl, -⟩
    omega
  · obtain ⟨source', rfl⟩ := Nat.exists_eq_add_of_le' hge
    rw [List.getElem?_append_right hge, Nat.add_sub_cancel, List.getElem?_map]
    constructor
    · rintro ⟨n, hn, hleads⟩
      obtain ⟨m, hm, rfl⟩ := Option.map_eq_some_iff.1 hn
      obtain ⟨target', hleads', rfl⟩ := SchemaNode.leadsTo_shift.1 hleads
      exact .inr ⟨source', target', ⟨m, hm, hleads'⟩, rfl, rfl⟩
    · rintro (h | ⟨source'', target', ⟨m, hm, hleads⟩, hsource, rfl⟩)
      · exact absurd h.source_lt (Nat.not_lt_of_le hge)
      · obtain rfl := Nat.add_right_cancel hsource
        exact ⟨m.shift s.nodes.length, Option.map_eq_some_iff.2 ⟨m, hm, rfl⟩,
          SchemaNode.leadsTo_shift.2 ⟨target', hleads, rfl⟩⟩

end Schema

namespace SchemaBuilder

variable {b c : SchemaBuilder} {source place target : Nat}

theorem edge_push_iff {name : String} {shape : FieldShape} :
    (b.push name shape).schema.Edge source place target ↔ b.schema.Edge source place target ∨
      (source = 0 ∧ place = b.schema.root.fields.length ∧
        (⟨name, shape⟩ : SchemaField).target? = some target) := by
  cases source with
  | succ source => exact (or_iff_left fun h => Nat.succ_ne_zero source h.1).symm
  | zero =>
    rw [Schema.edge_zero_iff, Schema.edge_zero_iff, eq_self, true_and]
    exact SchemaNode.leadsTo_push

theorem edge_nestedOpt_iff {name : String} {child : Record → Option Record} :
    (b.nestedOpt name c.build child).schema.Edge source place target ↔
      b.schema.Edge source place target ∨
      (∃ source' target', c.build.Edge source' place target' ∧ source = source' + b.schema.nodes.length ∧
        target = target' + b.schema.nodes.length) ∨
      (source = 0 ∧ place = b.schema.root.fields.length ∧ target = b.schema.nodes.length) := by
  have hpush : (push ⟨b.recordType, b.schema.appended c.build⟩ name
        (.nested b.schema.nodes.length (guarded b.recordType child))).schema.Edge source place target ↔ _ :=
    edge_push_iff
  rw [Schema.edge_appended_iff, or_assoc] at hpush
  refine hpush.trans (or_congr_right (or_congr_right ?_))
  rw [SchemaField.target?, Option.some.injEq, eq_comm (a := target)]
  rfl

theorem formsTree_push (h : b.schema.FormsTree) {name : String} {shape : FieldShape}
    (hclosed : (b.push name shape).schema.Closed)
    (hshape : ∀ target, (⟨name, shape⟩ : SchemaField).target? = some target → target = 0) :
    (b.push name shape).schema.FormsTree := by
  have hnew : ∀ source place target, (b.push name shape).schema.Edge source place target →
      b.schema.Edge source place target ∨ (source = 0 ∧ target = 0) := by
    intro source place target hedge
    exact (edge_push_iff.1 hedge).imp_right fun hlast => ⟨hlast.1, hshape target hlast.2.2⟩
  refine ⟨fun _ _ _ => hclosed.edge_lt, fun target hpos hlt => ?_, fun source place target hedge => ?_⟩
  · obtain ⟨entry, ⟨hearlier, hentry⟩, hunique⟩ := h.entered target hpos hlt
    refine ⟨entry, ⟨hearlier, edge_push_iff.2 (.inl hentry)⟩, fun other hother => ?_⟩
    rcases hnew other.1 other.2 target hother.2 with hold | ⟨-, rfl⟩
    · exact hunique other ⟨hother.1, hold⟩
    · exact absurd hpos (Nat.lt_irrefl 0)
  · rcases hnew source place target hedge with hold | ⟨rfl, rfl⟩
    · exact h.stays source place target hold
    · exact fun _ => rfl

section

variable {name : String} {child : Record → Option Record} {entry : Nat × Nat}

theorem enters_old_iff (htarget : target < b.schema.nodes.length) :
    (b.nestedOpt name c.build child).schema.Enters target entry ↔ b.schema.Enters target entry := by
  refine and_congr_right fun _ => edge_nestedOpt_iff.trans (or_iff_left ?_)
  rintro (⟨_, target', -, -, rfl⟩ | ⟨-, -, rfl⟩)
  · omega
  · exact Nat.lt_irrefl _ htarget

theorem enters_nested_iff (hb : b.schema.FormsTree) :
    (b.nestedOpt name c.build child).schema.Enters b.schema.nodes.length entry ↔
      entry = (0, b.schema.root.fields.length) := by
  constructor
  · rintro ⟨hearlier, hedge⟩
    rcases edge_nestedOpt_iff.1 hedge with hold | ⟨source', _, -, hsource, -⟩ | ⟨hsource, hplace, -⟩
    · exact absurd (hb.within _ _ _ hold) (Nat.lt_irrefl _)
    · omega
    · exact Prod.ext hsource hplace
  · rintro rfl
    exact ⟨Nat.succ_pos _, edge_nestedOpt_iff.2 (.inr (.inr ⟨rfl, rfl, rfl⟩))⟩

theorem enters_inner_iff (hb : b.schema.FormsTree) (htarget : 0 < target) :
    (b.nestedOpt name c.build child).schema.Enters (target + b.schema.nodes.length) entry ↔
      ∃ entry', c.build.Enters target entry' ∧ entry = (entry'.1 + b.schema.nodes.length, entry'.2) := by
  constructor
  · rintro ⟨hearlier, hedge⟩
    rcases edge_nestedOpt_iff.1 hedge with hold | ⟨source', target', hinner, hsource, hsame⟩ | ⟨-, -, hsame⟩
    · have := hb.within _ _ _ hold
      omega
    · obtain rfl := Nat.add_right_cancel hsame
      exact ⟨(source', entry.2), ⟨by omega, hinner⟩, Prod.ext hsource rfl⟩
    · omega
  · rintro ⟨entry', ⟨hearlier, hedge⟩, rfl⟩
    exact ⟨Nat.add_lt_add_right hearlier _,
      edge_nestedOpt_iff.2 (.inr (.inl ⟨entry'.1, target, hedge, rfl, rfl⟩))⟩

end

theorem formsTree_nestedOpt (hb : b.schema.FormsTree) (hc : c.build.FormsTree) {name : String}
    {child : Record → Option Record} (hclosed : (b.nestedOpt name c.build child).schema.Closed) :
    (b.nestedOpt name c.build child).schema.FormsTree := by
  have hlength : (b.nestedOpt name c.build child).schema.nodes.length =
      b.schema.nodes.length + c.build.nodes.length := by
    change (b.schema.nodes ++ c.build.nodes.map (·.shift b.schema.nodes.length)).length = _
    rw [List.length_append, List.length_map]
  refine ⟨fun _ _ _ => hclosed.edge_lt, fun target hpos hlt => ?_, fun source place target hedge hlater => ?_⟩
  · rw [hlength] at hlt
    rcases Nat.lt_trichotomy target b.schema.nodes.length with hold | rfl | hnew
    · simp only [enters_old_iff hold]
      exact hb.entered target hpos hold
    · simp only [enters_nested_iff hb]
      exact ⟨_, rfl, fun _ h => h⟩
    · obtain ⟨target, rfl⟩ := Nat.exists_eq_add_of_le' (Nat.le_of_lt hnew)
      have htarget : 0 < target := by omega
      obtain ⟨entry, hentry, hunique⟩ := hc.entered target htarget (by omega)
      simp only [enters_inner_iff hb htarget]
      refine ⟨_, ⟨entry, hentry, rfl⟩, ?_⟩
      rintro _ ⟨entry', hentry', rfl⟩
      rw [hunique entry' hentry']
  · rcases edge_nestedOpt_iff.1 hedge with hold | ⟨source', target', hinner, rfl, rfl⟩ | ⟨rfl, -, rfl⟩
    · exact hb.stays source place target hold hlater
    · rw [hc.stays source' place target' hinner (by omega)]
    · exact absurd (Nat.succ_pos _) hlater

theorem not_edge_new (recordType : String) : ¬ (new recordType).schema.Edge source place target := by
  rintro ⟨n, hn, f, hf, -⟩
  obtain rfl := List.mem_singleton.1 (List.mem_of_getElem? hn)
  exact absurd (List.mem_of_getElem? hf) List.not_mem_nil

theorem Made.formsTree (h : Made b) : b.build.FormsTree := by
  induction h with
  | new recordType =>
    refine ⟨fun _ _ _ hedge => ?_, fun target hpos hlt => ?_, fun _ _ _ hedge => ?_⟩
    · exact absurd hedge (not_edge_new recordType)
    · exact absurd hlt (Nat.not_lt_of_le hpos)
    · exact absurd hedge (not_edge_new recordType)
  | named name _ ih => exact ⟨ih.within, ih.entered, ih.stays⟩
  | field name type read hb ih =>
    exact formsTree_push ih (hb.field name type read).closed fun target htarget => by cases htarget
  | fieldOpt name type read hb ih =>
    exact formsTree_push ih (hb.fieldOpt name type read).closed fun target htarget => by cases htarget
  | nested name child hb hc ihb ihc => exact formsTree_nestedOpt ihb ihc (hb.nested name child hc).closed
  | nestedOpt name child hb hc ihb ihc => exact formsTree_nestedOpt ihb ihc (hb.nestedOpt name child hc).closed
  | recursive name child hb ih =>
    exact formsTree_push ih (hb.recursive name child).closed fun target htarget =>
      (Option.some.inj htarget).symm

/-- What a builder makes is a tree of tables, whatever was nested into it, and no number without a table is
looked up: neither that of the first table or of a nested field, nor one on the way of a path or in the
outline. -/
theorem Made.tables_found (h : Made b) :
    b.build.FormsTree ∧ b.build.node? 0 = some b.build.root ∧
    (∀ source place target, b.build.Edge source place target →
      b.build.node? target = some (b.build.node target)) ∧
    (∀ path, b.build.resolve? path = some (b.build.resolve path)) ∧
    b.build.outline? = some b.build.outline := by
  have htree := h.formsTree
  refine ⟨htree, rfl, fun source place target hedge => ?_, fun path => ?_, ?_⟩
  · exact Schema.node?_eq_some (htree.within source place target hedge)
  · exact h.closed.resolve?_eq_some path
  · exact h.closed.outline?_eq_some

theorem nodeOrders_found : nodeOrderBuilder.Made ∧ nodeOrderBuilder.build.nodes.length = 4 ∧
    nodeOrderBuilder.build.FormsTree ∧ nodeOrderBuilder.build.Edge 1 0 2 ∧
    nodeOrderBuilder.build.Edge 1 1 1 ∧ nodeOrderBuilder.build.node? 2 = some (nodeOrderBuilder.build.node 2) ∧
    nodeOrderBuilder.build.resolve? "Node.Parent.Tag.Label" =
      some (nodeOrderBuilder.build.resolve "Node.Parent.Tag.Label") ∧
    nodeOrderBuilder.build.outline? = some nodeOrderBuilder.build.outline := by
  obtain ⟨htree, -, hnode, hresolve, houtline⟩ := made_nodeOrderBuilder.tables_found
  have htag : nodeOrderBuilder.build.Edge 1 0 2 := ⟨_, rfl, _, rfl, rfl⟩
  exact ⟨made_nodeOrderBuilder, rfl, htree, htag, ⟨_, rfl, _, rfl, rfl⟩, hnode 1 0 2 htag,
    hresolve "Node.Parent.Tag.Label", houtline⟩

end SchemaBuilder

end RecordQuery
