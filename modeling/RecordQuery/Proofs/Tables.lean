import RecordQuery.Schema.Builder
import Mathlib.Data.List.GetD
import Mathlib.Logic.Relation

/-! The tables of a schema while it is built. No nested field ever points past the last table. A call
adds fields to the first table and tables after the last one, so that the tables of a nested schema
stay together, with their numbers shifted, through every later call. -/

namespace RecordQuery

def FieldShape.Within (bound : Nat) : FieldShape → Prop
  | .value _ _ => True
  | .nested node _ => node < bound

def SchemaNode.Within (bound : Nat) (n : SchemaNode) : Prop := ∀ f ∈ n.fields, f.shape.Within bound

theorem FieldShape.Within.mono {bound larger : Nat} {shape : FieldShape} (h : shape.Within bound)
    (hle : bound ≤ larger) : shape.Within larger := by
  cases shape with
  | value kind read => trivial
  | nested node child => exact Nat.lt_of_lt_of_le h hle

theorem FieldShape.Within.shift {bound : Nat} {shape : FieldShape} (h : shape.Within bound)
    (offset : Nat) : (shape.shift offset).Within (bound + offset) := by
  cases shape with
  | value kind read => trivial
  | nested node child => exact Nat.add_lt_add_right h offset

namespace SchemaNode

theorem Within.mono {bound larger : Nat} {n : SchemaNode} (h : n.Within bound) (hle : bound ≤ larger) :
    n.Within larger := fun f hf => (h f hf).mono hle

theorem Within.shift {bound : Nat} {n : SchemaNode} (h : n.Within bound) (offset : Nat) :
    (n.shift offset).Within (bound + offset) := by
  intro f hf
  obtain ⟨g, hg, rfl⟩ := List.mem_map.1 hf
  exact (h g hg).shift offset

theorem Within.push {bound : Nat} {n : SchemaNode} (h : n.Within bound) {f : SchemaField}
    (hf : f.shape.Within bound) : (n.push f).Within bound := by
  intro g hg
  rcases List.mem_append.1 hg with hg | hg
  · exact h g hg
  · rw [List.mem_singleton.1 hg]
    exact hf

end SchemaNode

namespace Schema

def Closed (s : Schema) : Prop := ∀ n ∈ s.nodes, n.Within s.nodes.length

/-- The first table keeps its fields and the other tables stay where they are. -/
structure Grows (s t : Schema) : Prop where
  fields : s.root.fields <+: t.root.fields
  others : s.others <+: t.others

/-- The tables of `inner` stand side by side in `outer` from the number `offset` on. -/
def Hosts (outer inner : Schema) (offset : Nat) : Prop :=
  ∃ before after, outer.others = before ++ inner.nodes.map (·.shift offset) ++ after ∧
    offset = before.length + 1

theorem length_nodes (s : Schema) : s.nodes.length = s.others.length + 1 := rfl

theorem Grows.refl (s : Schema) : s.Grows s := ⟨List.prefix_rfl, List.prefix_rfl⟩

theorem Grows.trans {s t u : Schema} (h : s.Grows t) (h' : t.Grows u) : s.Grows u :=
  ⟨h.fields.trans h'.fields, h.others.trans h'.others⟩

theorem Grows.hosts {s t inner : Schema} {offset : Nat} (h : s.Grows t) (hs : s.Hosts inner offset) :
    t.Hosts inner offset := by
  obtain ⟨before, after, hothers, hoffset⟩ := hs
  obtain ⟨more, hmore⟩ := h.others
  refine ⟨before, after ++ more, ?_, hoffset⟩
  rw [← hmore, hothers, List.append_assoc _ after]

theorem Hosts.node {outer inner : Schema} {offset id : Nat} (h : outer.Hosts inner offset)
    (hid : id < inner.nodes.length) : outer.node (id + offset) = (inner.node id).shift offset := by
  obtain ⟨before, after, hothers, rfl⟩ := h
  have hle : before.length ≤ id + before.length := Nat.le_add_left _ _
  have hlt : id < (inner.nodes.map (·.shift (before.length + 1))).length := by
    rwa [List.length_map]
  change outer.others.getD (id + before.length) ⟨"", []⟩ = _
  rw [hothers, List.append_assoc, List.getD_append_right _ _ _ _ hle, Nat.add_sub_cancel,
    List.getD_append _ _ _ _ hlt]
  exact List.getD_map inner.nodes ⟨"", []⟩ (SchemaNode.shift (before.length + 1))

theorem Closed.node {s : Schema} (h : s.Closed) {id : Nat} (hid : id < s.nodes.length) :
    (s.node id).Within s.nodes.length := by
  rw [Schema.node, List.getD_eq_getElem _ _ hid]
  exact h _ (List.getElem_mem hid)

theorem node_eq {s : Schema} {id : Nat} {n : SchemaNode} (hn : s.nodes[id]? = some n) : s.node id = n := by
  rw [node, List.getD_eq_getElem?_getD, hn, Option.getD_some]

theorem getElem?_nodes {s : Schema} {id : Nat} (hid : id < s.nodes.length) :
    s.nodes[id]? = some (s.node id) := by
  rw [node, List.getD_eq_getElem _ _ hid, List.getElem?_eq_getElem hid]

theorem forall_node_fields {s : Schema} {p : List SchemaField → Prop} (hnil : p [])
    (h : ∀ n ∈ s.nodes, p n.fields) (id : Nat) : p (s.node id).fields := by
  by_cases hid : id < s.nodes.length
  · exact h _ (List.mem_of_getElem? (getElem?_nodes hid))
  · rw [node, List.getD_eq_default _ _ (Nat.le_of_not_lt hid)]
    exact hnil

theorem node_mem_nodes {s : Schema} {id : Nat} {f : SchemaField} (hf : f ∈ (s.node id).fields) :
    s.node id ∈ s.nodes := by
  by_cases hid : id < s.nodes.length
  · rw [node, List.getD_eq_getElem _ _ hid]
    exact List.getElem_mem hid
  · rw [node, List.getD_eq_default _ _ (Nat.le_of_not_lt hid)] at hf
    exact absurd hf List.not_mem_nil

end Schema

namespace SchemaBuilder

inductive Call (b : SchemaBuilder) : SchemaBuilder → Prop
  | named (name : String) : Call b (b.named name)
  | field (name : String) (type : FieldType) (read : Record → type.Carrier) :
      Call b (b.field name type read)
  | fieldOpt (name : String) (type : FieldType) (read : Record → Option type.Carrier) :
      Call b (b.fieldOpt name type read)
  | nested {c : SchemaBuilder} (name : String) (child : Record → Record) (hc : Made c) :
      Call b (b.nested name c.build child)
  | nestedOpt {c : SchemaBuilder} (name : String) (child : Record → Option Record) (hc : Made c) :
      Call b (b.nestedOpt name c.build child)
  | recursive (name : String) (child : Record → Option Record) : Call b (b.recursive name child)

def Calls : SchemaBuilder → SchemaBuilder → Prop := Relation.ReflTransGen Call

variable {b : SchemaBuilder}

theorem grows_push (b : SchemaBuilder) (name : String) (shape : FieldShape) :
    b.schema.Grows (b.push name shape).schema := ⟨List.prefix_append _ _, List.prefix_rfl⟩

theorem grows_nestedOpt (b : SchemaBuilder) (name : String) (schema : Schema)
    (child : Record → Option Record) : b.schema.Grows (b.nestedOpt name schema child).schema :=
  ⟨List.prefix_append _ _, List.prefix_append _ _⟩

theorem hosts_nestedOpt (b : SchemaBuilder) (name : String) (schema : Schema)
    (child : Record → Option Record) :
    (b.nestedOpt name schema child).schema.Hosts schema b.schema.nodes.length :=
  ⟨b.schema.others, [], (List.append_nil _).symm, rfl⟩

theorem Call.grows {b' : SchemaBuilder} (h : Call b b') : b.schema.Grows b'.schema := by
  cases h with
  | named name => exact ⟨List.prefix_rfl, List.prefix_rfl⟩
  | field name type read => exact grows_push b name _
  | fieldOpt name type read => exact grows_push b name _
  | nested name child _ => exact grows_nestedOpt b name _ _
  | nestedOpt name child _ => exact grows_nestedOpt b name _ child
  | recursive name child => exact grows_push b name _

theorem Calls.grows {b' : SchemaBuilder} (h : Calls b b') : b.schema.Grows b'.schema := by
  induction h with
  | refl => exact Schema.Grows.refl b.schema
  | tail _ hcall ih => exact ih.trans hcall.grows

theorem closed_push (hb : b.schema.Closed) {name : String} {shape : FieldShape}
    (hshape : shape.Within b.schema.nodes.length) : (b.push name shape).schema.Closed := by
  intro n hn
  rcases List.mem_cons.1 hn with rfl | hn
  · exact (hb _ List.mem_cons_self).push hshape
  · exact hb n (List.mem_cons_of_mem _ hn)

theorem closed_nestedOpt (hb : b.schema.Closed) {schema : Schema} (hc : schema.Closed) {name : String}
    {child : Record → Option Record} : (b.nestedOpt name schema child).schema.Closed := by
  have hpos : 0 < schema.nodes.length := Nat.succ_pos _
  refine closed_push (b := ⟨b.recordType, _⟩) ?_ ?_
  -- old nodes keep their numbers, the nested schema's are shifted past them
  · intro n hn
    rw [Schema.length_nodes, List.length_append, List.length_map]
    rcases List.mem_cons.1 hn with rfl | hn
    · refine (hb _ List.mem_cons_self).mono ?_
      rw [Schema.length_nodes]
      omega
    · rcases List.mem_append.1 hn with hn | hn
      · refine (hb n (List.mem_cons_of_mem _ hn)).mono ?_
        rw [Schema.length_nodes]
        omega
      · obtain ⟨m, hm, rfl⟩ := List.mem_map.1 hn
        refine ((hc m hm).shift b.schema.nodes.length).mono ?_
        rw [b.schema.length_nodes]
        omega
  · change b.schema.nodes.length < (b.schema.others ++ _).length + 1
    rw [Schema.length_nodes, List.length_append, List.length_map]
    omega

theorem Made.closed (h : Made b) : b.schema.Closed := by
  induction h with
  | new recordType =>
    intro n hn f hf
    rw [List.mem_singleton.1 hn] at hf
    exact nomatch hf
  | named name _ ih => exact ih
  | field name type read _ ih => exact closed_push ih trivial
  | fieldOpt name type read _ ih => exact closed_push ih trivial
  | nested name child _ _ ihb ihc => exact closed_nestedOpt ihb ihc
  | nestedOpt name child _ _ ihb ihc => exact closed_nestedOpt ihb ihc
  | recursive name child _ ih => exact closed_push ih (Nat.succ_pos _)

end SchemaBuilder

end RecordQuery
