import RecordQuery.Schema.Outline
import RecordQuery.Proofs.Nesting

/-! What an outline lists. A table is entered through the field that nested it and a recursive field leads
back to an open table, so that the outline lists every field of every table once, and what stands below a
nested schema's field is that schema's own outline. -/

namespace RecordQuery

def Property.heading : Property → Property
  | .value name kind => .value name kind
  | .record name typeName _ => .record name typeName []

mutual

def Property.count : Property → Nat
  | .value _ _ => 1
  | .record _ _ properties => countAll properties + 1

def countAll : List Property → Nat
  | [] => 0
  | p :: ps => p.count + countAll ps

end

mutual

def Property.beneath : Property → List Property
  | .value _ _ => []
  | .record _ _ properties => properties.map Property.heading ++ beneathAll properties

def beneathAll : List Property → List Property
  | [] => []
  | p :: ps => p.beneath ++ beneathAll ps

end

def Outline.count (o : Outline) : Nat := countAll o.properties

def Outline.listing (o : Outline) : List Property := o.properties.map Property.heading ++ beneathAll o.properties

theorem beneathAll_append (ps qs : List Property) : beneathAll (ps ++ qs) = beneathAll ps ++ beneathAll qs := by
  induction ps with
  | nil => rfl
  | cons p ps ih => rw [List.cons_append, beneathAll, beneathAll, ih, List.append_assoc]

mutual

theorem Property.count_eq : ∀ p : Property, p.count = p.beneath.length + 1
  | .value _ _ => rfl
  | .record _ _ properties => by
    rw [Property.count, Property.beneath, countAll_eq properties, List.length_append, List.length_map]

theorem countAll_eq : ∀ ps : List Property, countAll ps = ps.length + (beneathAll ps).length
  | [] => rfl
  | p :: ps => by
    rw [countAll, beneathAll, Property.count_eq p, countAll_eq ps, List.length_append, List.length_cons]
    omega

end

theorem Outline.count_eq_length_listing (o : Outline) : o.count = o.listing.length := by
  rw [count, listing, countAll_eq, List.length_append, List.length_map]

theorem SchemaField.shift_zero (f : SchemaField) : f.shift 0 = f := by
  obtain ⟨name, shape⟩ := f
  cases shape <;> rfl

theorem SchemaNode.shift_zero (n : SchemaNode) : n.shift 0 = n := by
  obtain ⟨typeName, fields⟩ := n
  rw [shift, funext SchemaField.shift_zero, List.map_id']

namespace Schema

variable {s t outer inner : Schema} {offset id : Nat} {path path' : List Nat} {f : SchemaField}

def propertyOf (s : Schema) (path : List Nat) (f : SchemaField) : Property :=
  match f.shape with
  | .value kind _ => .value f.name kind
  | .nested child _ =>
    .record f.name (s.node child).typeName
      (if child ∉ path ∧ child < s.nodes.length then s.propertiesOf (child :: path) child else [])

theorem propertiesOf_eq_map (s : Schema) (path : List Nat) (id : Nat) :
    s.propertiesOf path id = (s.node id).fields.map (s.propertyOf path) := by
  rw [propertiesOf]
  refine List.map_congr_left fun f _ => ?_
  obtain ⟨name, shape⟩ := f
  cases shape <;> rfl

theorem properties_outline (s : Schema) : s.outline.properties = s.root.fields.map (s.propertyOf [0]) :=
  s.propertiesOf_eq_map [0] 0

theorem propertyOf_back {name : String} {child : Nat} {step : Record → Option Record} (h : child ∈ path) :
    s.propertyOf path ⟨name, .nested child step⟩ = .record name (s.node child).typeName [] := by
  simp only [propertyOf, h, not_true_eq_false, false_and, if_false]

theorem propertyOf_enter {name : String} {child : Nat} {step : Record → Option Record} (h : child ∉ path)
    (hlt : child < s.nodes.length) : s.propertyOf path ⟨name, .nested child step⟩ =
      .record name (s.node child).typeName (s.propertiesOf (child :: path) child) := by
  simp only [propertyOf, if_pos (And.intro h hlt)]

def headingOf (s : Schema) (f : SchemaField) : Property :=
  match f.shape with
  | .value kind _ => .value f.name kind
  | .nested child _ => .record f.name (s.node child).typeName []

def headings (s : Schema) (n : SchemaNode) : List Property := n.fields.map s.headingOf

theorem heading_propertyOf (s : Schema) (path : List Nat) (f : SchemaField) :
    (s.propertyOf path f).heading = s.headingOf f := by
  obtain ⟨name, shape⟩ := f
  cases shape <;> rfl

/-- The description of some fields, read as rules. The table of a nested field must be there; it is
entered if it is not open yet. -/
inductive Describes (s : Schema) : List Nat → List SchemaField → List Property → Prop
  | nil {path : List Nat} : Describes s path [] []
  | value {path : List Nat} {rest : List SchemaField} {ps : List Property} (name : String) (kind : Kind)
      (read : Record → Option kind.Carrier) :
      Describes s path rest ps → Describes s path (⟨name, .value kind read⟩ :: rest) (.value name kind :: ps)
  | back {path : List Nat} {rest : List SchemaField} {ps : List Property} {child : Nat} {n : SchemaNode}
      (name : String) (step : Record → Option Record) :
      child ∈ path → s.nodes[child]? = some n → Describes s path rest ps →
        Describes s path (⟨name, .nested child step⟩ :: rest) (.record name n.typeName [] :: ps)
  | enter {path : List Nat} {rest : List SchemaField} {ps qs : List Property} {child : Nat} {n : SchemaNode}
      (name : String) (step : Record → Option Record) :
      child ∉ path → s.nodes[child]? = some n → Describes s (child :: path) n.fields qs →
        Describes s path rest ps →
          Describes s path (⟨name, .nested child step⟩ :: rest) (.record name n.typeName qs :: ps)

theorem Describes.unique {fields : List SchemaField} {ps qs : List Property}
    (h : s.Describes path fields ps) (h' : s.Describes path fields qs) : ps = qs := by
  induction h generalizing qs with
  | nil =>
    cases h'
    rfl
  | value name kind read _ ih =>
    cases h' with
    | value _ _ _ h' => rw [ih h']
  | back name step hopen hn _ ih =>
    cases h' with
    | back _ _ _ hn' h' =>
      cases hn.symm.trans hn'
      rw [ih h']
    | enter _ _ hfresh => exact absurd hopen hfresh
  | enter name step hfresh hn _ _ ihn ih =>
    cases h' with
    | back _ _ hopen => exact absurd hopen hfresh
    | enter _ _ _ hn' hbelow h' =>
      cases hn.symm.trans hn'
      rw [ihn hbelow, ih h']

theorem describes_fields {fields : List SchemaField} (hfields : ∀ f ∈ fields, f.shape.Within s.nodes.length)
    (hchild : ∀ child, child ∉ path ∧ child < s.nodes.length →
      s.Describes (child :: path) (s.node child).fields (s.propertiesOf (child :: path) child)) :
    s.Describes path fields (fields.map (s.propertyOf path)) := by
  induction fields with
  | nil => exact .nil
  | cons f rest ih =>
    obtain ⟨hf, hrest⟩ := List.forall_mem_cons.1 hfields
    obtain ⟨name, shape⟩ := f
    rw [List.map_cons]
    cases shape with
    | value kind read => exact .value name kind read (ih hrest)
    | nested child step =>
      have hlt : child < s.nodes.length := hf
      by_cases hopen : child ∈ path
      · rw [propertyOf_back hopen]
        exact .back name step hopen (getElem?_nodes hlt) (ih hrest)
      · rw [propertyOf_enter hopen hlt]
        exact .enter name step hopen (getElem?_nodes hlt) (hchild child ⟨hopen, hlt⟩) (ih hrest)

theorem Closed.describes (hs : s.Closed) (path : List Nat) (hid : id < s.nodes.length) :
    s.Describes path (s.node id).fields (s.propertiesOf path id) := by
  induction path, id using propertiesOf.induct s with
  | case1 path id ih =>
    rw [propertiesOf_eq_map]
    exact describes_fields (hs.node hid) fun child hopen => ih child hopen hopen.2

/-- The tables of `inner` stand shifted in `outer` with the types they have there, those that are not open
with their fields as well. -/
structure Agrees (outer inner : Schema) (offset : Nat) (path path' : List Nat) : Prop where
  bound : ∀ id < inner.nodes.length, id + offset < outer.nodes.length
  open_iff : ∀ id < inner.nodes.length, (id + offset ∈ path' ↔ id ∈ path)
  typeName : ∀ id < inner.nodes.length, (outer.node (id + offset)).typeName = (inner.node id).typeName
  node : ∀ id < inner.nodes.length, id ∉ path → outer.node (id + offset) = (inner.node id).shift offset

namespace Agrees

theorem enter (h : Agrees outer inner offset path path') (id : Nat) :
    Agrees outer inner offset (id :: path) ((id + offset) :: path') := by
  refine ⟨h.bound, fun k hk => ?_, h.typeName, fun k hk hfresh => ?_⟩
  · rw [List.mem_cons, List.mem_cons, h.open_iff k hk, Nat.add_right_cancel_iff]
  · exact h.node k hk (List.not_mem_of_not_mem_cons hfresh)

theorem headingOf (h : Agrees outer inner offset path path') (hf : f.shape.Within inner.nodes.length) :
    outer.headingOf (f.shift offset) = inner.headingOf f := by
  obtain ⟨name, shape⟩ := f
  cases shape with
  | value kind read => rfl
  | nested child step => exact congrArg (Property.record name · []) (h.typeName child hf)

theorem headings (h : Agrees outer inner offset path path') {n : SchemaNode}
    (hn : n.Within inner.nodes.length) : outer.headings (n.shift offset) = inner.headings n := by
  rw [Schema.headings, Schema.headings, SchemaNode.shift, List.map_map]
  exact List.map_congr_left fun f hf => h.headingOf (hn f hf)

/-- A field has the same property in both, if the tables have that are entered from it. -/
theorem propertyOf_of (h : Agrees outer inner offset path path') (hf : f.shape.Within inner.nodes.length)
    (hchild : ∀ child, child ∉ path ∧ child < inner.nodes.length →
      outer.propertiesOf ((child + offset) :: path') (child + offset) =
        inner.propertiesOf (child :: path) child) :
    outer.propertyOf path' (f.shift offset) = inner.propertyOf path f := by
  obtain ⟨name, shape⟩ := f
  cases shape with
  | value kind read => rfl
  | nested child step =>
    have hlt : child < inner.nodes.length := hf
    have hiff : (child + offset ∉ path' ∧ child + offset < outer.nodes.length) ↔
        (child ∉ path ∧ child < inner.nodes.length) := by
      rw [h.open_iff child hlt, and_iff_left (h.bound child hlt), and_iff_left hlt]
    simp only [propertyOf, SchemaField.shift, FieldShape.shift, h.typeName child hlt, hiff]
    split
    · next hopen => rw [hchild child hopen]
    · rfl

theorem propertiesOf (h : Agrees outer inner offset path path') (hclosed : inner.Closed)
    (hid : id < inner.nodes.length) (hnode : outer.node (id + offset) = (inner.node id).shift offset) :
    outer.propertiesOf path' (id + offset) = inner.propertiesOf path id := by
  induction path, id using propertiesOf.induct inner generalizing path' with
  | case1 path id ih =>
    rw [propertiesOf_eq_map, propertiesOf_eq_map, hnode, SchemaNode.shift, List.map_map]
    -- what is open in one is open in the other, so that both enter the same tables
    refine List.map_congr_left fun f hf => h.propertyOf_of (hclosed.node hid f hf) fun child hopen => ?_
    exact ih child hopen (h.enter child) hopen.2 (h.node child hopen.2 hopen.1)

theorem propertyOf (h : Agrees outer inner offset path path') (hclosed : inner.Closed)
    (hf : f.shape.Within inner.nodes.length) :
    outer.propertyOf path' (f.shift offset) = inner.propertyOf path f := by
  refine h.propertyOf_of hf fun child hopen => ?_
  exact (h.enter child).propertiesOf hclosed hopen.2 (h.node child hopen.2 hopen.1)

end Agrees

theorem Hosts.agrees (h : outer.Hosts inner offset) : Agrees outer inner offset [0] [offset, 0] := by
  have hnode (id : Nat) (hid : id < inner.nodes.length) := h.node hid
  obtain ⟨before, after, hothers, rfl⟩ := h
  refine ⟨fun id hid => ?_, fun id _ => ?_, fun id hid => ?_, fun id hid _ => hnode id hid⟩
  · rw [outer.length_nodes, hothers, List.length_append, List.length_append, List.length_map]
    omega
  -- the first table of `outer` is open too, but no copy has its number
  · simp only [List.mem_cons, List.not_mem_nil, or_false]
    omega
  · rw [hnode id hid]
    rfl

theorem Grows.agrees (h : s.Grows t) (htype : t.root.typeName = s.root.typeName) :
    Agrees t s 0 [0] [0] := by
  have hnode : ∀ id < s.nodes.length, id ≠ 0 → t.node id = s.node id := by
    intro id hid hne
    obtain ⟨id, rfl⟩ := Nat.exists_eq_succ_of_ne_zero hne
    obtain ⟨more, hmore⟩ := h.others
    change t.others.getD id ⟨"", []⟩ = s.others.getD id ⟨"", []⟩
    rw [← hmore, List.getD_append _ _ _ _ (Nat.lt_of_succ_lt_succ hid)]
  refine ⟨fun id hid => ?_, fun id _ => Iff.rfl, fun id hid => ?_, fun id hid hfresh => ?_⟩
  · exact Nat.lt_of_lt_of_le hid (Nat.succ_le_succ h.others.length_le)
  · by_cases hzero : id = 0
    · rw [hzero]
      exact htype
    · exact congrArg SchemaNode.typeName (hnode id hid hzero)
  · rw [SchemaNode.shift_zero]
    exact hnode id hid (List.ne_of_not_mem_cons hfresh)

theorem Grows.properties (hs : s.Closed) (h : s.Grows t) (htype : t.root.typeName = s.root.typeName)
    {more : List SchemaField} (hfields : t.root.fields = s.root.fields ++ more) :
    t.outline.properties = s.outline.properties ++ more.map (t.propertyOf [0]) := by
  rw [properties_outline, properties_outline, hfields, List.map_append]
  refine congrArg (· ++ _) (List.map_congr_left fun f hf => ?_)
  rw [← (h.agrees htype).propertyOf hs (hs _ List.mem_cons_self f hf), SchemaField.shift_zero]

def ListsOthers (s : Schema) : Prop := beneathAll s.outline.properties = s.others.flatMap s.headings

theorem ListsOthers.grows (hs : s.Closed) (hlists : s.ListsOthers) (h : s.Grows t)
    (htype : t.root.typeName = s.root.typeName) {more : List SchemaField} {tables : List SchemaNode}
    (hfields : t.root.fields = s.root.fields ++ more) (hothers : t.others = s.others ++ tables)
    (hmore : beneathAll (more.map (t.propertyOf [0])) = tables.flatMap t.headings) : t.ListsOthers := by
  have hold : s.others.flatMap t.headings = s.others.flatMap s.headings := by
    refine List.flatMap_congr fun n hn => ?_
    rw [← (h.agrees htype).headings (hs n (List.mem_cons_of_mem _ hn)), SchemaNode.shift_zero]
  rw [ListsOthers, h.properties hs htype hfields, beneathAll_append, hothers, List.flatMap_append, hold,
    hlists, hmore]

theorem listing_outline (h : s.ListsOthers) : s.outline.listing = s.nodes.flatMap s.headings := by
  have hroot : s.outline.properties.map Property.heading = s.headings s.root := by
    rw [properties_outline, List.map_map]
    exact List.map_congr_left fun f _ => s.heading_propertyOf [0] f
  rw [Outline.listing, hroot, h]
  rfl

end Schema

namespace SchemaBuilder

variable {b c p : SchemaBuilder} {name : String}

theorem Call.typeName (h : Call b p) : p.build.root.typeName = b.build.root.typeName := by
  cases h <;> rfl

theorem Calls.typeName (h : Calls b p) : p.build.root.typeName = b.build.root.typeName := by
  induction h with
  | refl => rfl
  | tail _ hcall ih => exact hcall.typeName.trans ih

theorem Made.typeName (h : Made b) : b.build.root.typeName = shortTypeName b.recordType := by
  induction h with
  | new recordType => rfl
  | named name _ ih => exact ih
  | field name type read _ ih => exact ih
  | fieldOpt name type read _ ih => exact ih
  | nested name child _ _ ih _ => exact ih
  | nestedOpt name child _ _ ih _ => exact ih
  | recursive name child _ ih => exact ih

theorem listsOthers_push (hb : b.schema.Closed) (h : b.schema.ListsOthers) {shape : FieldShape}
    (hshape : ((b.push name shape).schema.propertyOf [0] ⟨name, shape⟩).beneath = []) :
    (b.push name shape).schema.ListsOthers := by
  refine h.grows hb (grows_push b name shape) rfl rfl (List.append_nil _).symm ?_
  rw [List.map_singleton, beneathAll, hshape]
  rfl

theorem propertyOf_hosted (hc : Made c) {s : Schema} {offset : Nat} (h : s.Hosts c.build offset)
    (step : Record → Option Record) : s.propertyOf [0] ⟨name, .nested offset step⟩ =
      .record name c.build.root.typeName c.build.outline.properties := by
  have hpos : 0 < c.build.nodes.length := Nat.succ_pos _
  have hnode := h.node hpos
  have hproperties := h.agrees.propertiesOf hc.closed hpos hnode
  have hlt := h.agrees.bound 0 hpos
  rw [Nat.zero_add] at hnode hproperties hlt
  have hfresh : offset ∉ [0] := by
    obtain ⟨before, after, -, rfl⟩ := h
    exact mt List.mem_singleton.1 before.length.succ_ne_zero
  rw [Schema.propertyOf_enter hfresh hlt, hnode, hproperties]
  rfl

theorem listsOthers_nestedOpt (hb : b.schema.Closed) (h : b.schema.ListsOthers) (hc : Made c)
    (hlists : c.schema.ListsOthers) (child : Record → Option Record) :
    (b.nestedOpt name c.build child).schema.ListsOthers := by
  have hhosts := hosts_nestedOpt b name c.build child
  refine h.grows hb (grows_nestedOpt b name c.build child) rfl rfl rfl ?_
  rw [List.map_singleton, propertyOf_hosted hc hhosts, beneathAll, beneathAll, List.append_nil, List.flatMap_map]
  refine (Schema.listing_outline hlists).trans (List.flatMap_congr fun n hn => ?_)
  exact (hhosts.agrees.headings (hc.closed n hn)).symm

theorem Made.listsOthers (h : Made b) : b.schema.ListsOthers := by
  induction h with
  | new recordType =>
    rw [Schema.ListsOthers, Schema.properties_outline]
    rfl
  | named name hb ih =>
    exact ih.grows hb.closed (Call.named name).grows rfl (List.append_nil _).symm (List.append_nil _).symm rfl
  | field name type read hb ih => exact listsOthers_push hb.closed ih rfl
  | fieldOpt name type read hb ih => exact listsOthers_push hb.closed ih rfl
  | nested name child hb hc ihb ihc => exact listsOthers_nestedOpt hb.closed ihb hc ihc _
  | nestedOpt name child hb hc ihb ihc => exact listsOthers_nestedOpt hb.closed ihb hc ihc child
  | recursive name child hb ih =>
    refine listsOthers_push hb.closed ih ?_
    rw [Schema.propertyOf_back List.mem_cons_self]
    rfl

theorem property_of_calls {shape : FieldShape} {others : List SchemaNode}
    (h : Calls (push ⟨b.recordType, { b.schema with others }⟩ name shape) p) :
    p.build.outline.properties[b.build.root.fields.length]? = some (p.build.propertyOf [0] ⟨name, shape⟩) := by
  obtain ⟨more, hfields⟩ := fields_of_calls h
  have hlength : (b.build.root.fields.map (p.build.propertyOf [0])).length = b.build.root.fields.length :=
    List.length_map _
  rw [Schema.properties_outline, hfields, List.map_append, ← hlength, List.getElem?_append_right (Nat.le_refl _),
    Nat.sub_self]
  rfl

theorem property_nestedOpt (hc : Made c) (child : Record → Option Record)
    (h : Calls (b.nestedOpt name c.build child) p) :
    p.build.outline.properties[b.build.root.fields.length]? =
      some (.record name c.build.root.typeName c.build.outline.properties) := by
  have hhosts : p.build.Hosts c.build b.schema.nodes.length :=
    h.grows.hosts (hosts_nestedOpt b name c.build child)
  rw [property_of_calls h, propertyOf_hosted hc hhosts]

theorem property_recursive (hb : Made b) (child : Record → Option Record)
    (h : Calls (b.recursive name child) p) : p.build.outline.properties[b.build.root.fields.length]? =
      some (.record name (shortTypeName b.recordType) []) := by
  rw [property_of_calls h, Schema.propertyOf_back List.mem_cons_self, Schema.node_zero, h.typeName,
    ← hb.typeName]
  rfl

/-- An outline is finite, complete and compositional. The rules of the description end with it and with
nothing else. It lists the fields of all tables in order, each once. A recursive field stands in it by its
type alone and a nested schema's field with that schema's own properties, whatever is called before and
after. -/
theorem Made.outline_complete (h : Made b) :
    (∀ ps, b.build.Describes [0] b.build.root.fields ps ↔ ps = b.build.outline.properties) ∧
    b.build.outline.count = (b.build.nodes.flatMap (·.fields)).length ∧
    b.build.outline.listing = b.build.nodes.flatMap (fun n => n.fields.map b.build.headingOf) ∧
    (∀ name child p, Calls (b.recursive name child) p →
      p.build.outline.properties[b.build.root.fields.length]? =
        some (.record name (shortTypeName b.recordType) [])) ∧
    ∀ c, Made c →
      (∀ name child p, Calls (b.nested name c.build child) p →
        p.build.outline.properties[b.build.root.fields.length]? =
          some (.record name c.build.root.typeName c.build.outline.properties)) ∧
      ∀ name child p, Calls (b.nestedOpt name c.build child) p →
        p.build.outline.properties[b.build.root.fields.length]? =
          some (.record name c.build.root.typeName c.build.outline.properties) := by
  have hdescribes : b.build.Describes [0] b.build.root.fields b.build.outline.properties :=
    h.closed.describes [0] (Nat.succ_pos _)
  have hlisting : b.build.outline.listing = b.build.nodes.flatMap b.build.headings :=
    Schema.listing_outline h.listsOthers
  refine ⟨fun ps => ?_, ?_, hlisting, fun name child p hp => property_recursive h child hp, fun c hc => ?_⟩
  · constructor
    · exact fun hps => hps.unique hdescribes
    · rintro rfl
      exact hdescribes
  · have hmap : b.build.nodes.flatMap b.build.headings =
        (b.build.nodes.flatMap (·.fields)).map b.build.headingOf := List.map_flatMap.symm
    rw [Outline.count_eq_length_listing, hlisting, hmap, List.length_map]
  · exact ⟨fun name child p hp => property_nestedOpt hc _ hp, fun name child p hp => property_nestedOpt hc child hp⟩

theorem nodeOrders_outlined : nodeOrderBuilder.build.outline.count = 8 ∧
    nodeOrderBuilder.build.outline.properties[1]? =
      some (.record "Node" "Node" nodeBuilder.build.outline.properties) ∧
    nodeOrderBuilder.build.outline.properties[3]? = some (.record "Next" "Order" []) := by
  have htag : Made tagBuilder := .fieldOpt "Label" .text _ (.new "Tag")
  have hnode : Made nodeBuilder := .recursive "Parent" _ (.nestedOpt "Tag" _ (.new "Node") htag)
  have horder : Made orderBuilder := .fieldOpt "Id" .int32 _ (.new "Order")
  have hbefore : Made ((orderBuilder.nestedOpt "Node" nodeBuilder.build (Record.child? 1)).nestedOpt "Tag"
    tagBuilder.build (Record.child? 2)) := .nestedOpt "Tag" _ (.nestedOpt "Node" _ horder hnode) htag
  refine ⟨made_nodeOrderBuilder.outline_complete.2.1, ?_, ?_⟩
  · exact (horder.outline_complete.2.2.2.2 nodeBuilder hnode).2 "Node" _ _
      (.tail (.tail .refl (.nestedOpt "Tag" _ htag)) (.recursive "Next" _))
  · exact hbefore.outline_complete.2.2.2.1 "Next" _ _ .refl

end SchemaBuilder

end RecordQuery
