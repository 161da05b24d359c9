import RecordQuery.Selector
import RecordQuery.Proofs.Segments
import RecordQuery.Proofs.Tables
import RecordQuery.Proofs.Traversal

/-! Selectors through a nested record. A walk over tables that stand shifted in another schema is the
walk over the tables themselves, so that a nested schema's selectors are found again behind the name of
the field, one record further in. -/

namespace RecordQuery

namespace SchemaNode

theorem field?_eq_or (n : SchemaNode) (name : String) :
    n.field? name = (n.fields.find? fun f => f.name = name).or
      (n.fields.find? fun f => Text.sameLetters f.name name) := Option.orElse_eq_or

theorem field?_shift (n : SchemaNode) (offset : Nat) (name : String) :
    (n.shift offset).field? name = (n.field? name).map (·.shift offset) := by
  rw [field?_eq_or, field?_eq_or, Option.map_or, shift, List.find?_map, List.find?_map]
  rfl

theorem mem_of_field? {n : SchemaNode} {name : String} {f : SchemaField} (h : n.field? name = some f) :
    f ∈ n.fields := by
  rw [field?_eq_or] at h
  rcases Option.or_eq_some_iff.1 h with h | ⟨-, h⟩
  · exact List.mem_of_find?_eq_some h
  · exact List.mem_of_find?_eq_some h

theorem field?_of_first {n : SchemaNode} {before after : List SchemaField} {f : SchemaField}
    (h : n.fields = before ++ f :: after) (hbefore : ∀ g ∈ before, g.name ≠ f.name) :
    n.field? f.name = some f := by
  have hnone : before.find? (fun g => g.name = f.name) = none := by
    rw [List.find?_eq_none]
    intro g hg
    simpa only [decide_eq_true_eq] using hbefore g hg
  have hfirst : (f :: after).find? (fun g => g.name = f.name) = some f :=
    List.find?_cons_of_pos (decide_eq_true rfl)
  rw [field?_eq_or, h, List.find?_append, hnone, hfirst]
  rfl

end SchemaNode

namespace Schema

variable {outer inner s : Schema}

/-- Tables that stand shifted in another schema are walked there as in their own. -/
theorem follow_shift {offset : Nat} (h : outer.Hosts inner offset) (hclosed : inner.Closed)
    (path : String) {id : Nat} (hid : id < inner.nodes.length) (segments : List String) :
    outer.follow path (id + offset) segments = inner.follow path id segments := by
  induction segments generalizing id with
  | nil => rfl
  | cons segment rest ih =>
    unfold follow
    rw [h.node hid, SchemaNode.field?_shift]
    cases hfield : (inner.node id).field? segment with
    | none => rfl
    | some f =>
      have hwithin := hclosed.node hid f (SchemaNode.mem_of_field? hfield)
      obtain ⟨fieldName, shape⟩ := f
      cases shape with
      | value kind read => cases rest <;> rfl
      | nested child step =>
        -- the table is closed, so the walk goes on inside the part that was copied
        have hchild : child < inner.nodes.length := hwithin
        cases rest with
        | nil =>
          have htype : (outer.node (child + offset)).typeName = (inner.node child).typeName :=
            (congrArg SchemaNode.typeName (h.node hchild)).trans rfl
          simp only [Option.map_some, SchemaField.shift, FieldShape.shift, htype]
        | cons next rest =>
          simp only [Option.map_some, SchemaField.shift, FieldShape.shift, ih hchild]

theorem follow_congr_path (path path' : String) (id : Nat) (segments : List String) :
    s.follow path id segments = (s.follow path' id segments).map fun t => { t with path } := by
  induction segments generalizing id with
  | nil => rfl
  | cons segment rest ih =>
    unfold follow
    split
    · rfl
    split
    · rfl
    split
    · rfl
    · rfl
    · rfl
    · next child step next rest _ =>
      rw [ih child]
      cases s.follow path' child (next :: rest) <;> rfl

/-- A path resolves through the field that its first segment finds: a value behind the last segment, or a
record whose table takes the rest of the path. -/
theorem follow_cons_eq_ok {path segment : String} {id : Nat} {rest : List String} {t : Selector} :
    s.follow path id (segment :: rest) = .ok t ↔ segment ≠ "" ∧ ∃ f, (s.node id).field? segment = some f ∧
      ((∃ kind read, f.shape = .value kind read ∧ rest = [] ∧ t = ⟨path, [], kind, read⟩) ∨
        ∃ child step t', f.shape = .nested child step ∧ s.follow path child rest = .ok t' ∧
          t = t'.prepend step) := by
  rw [follow]
  by_cases hempty : segment = ""
  · rw [if_pos (String.isEmpty_iff.2 hempty)]
    exact iff_of_false (nomatch ·) fun h => h.1 hempty
  rw [if_neg (mt String.isEmpty_iff.1 hempty), and_iff_right hempty]
  cases hfield : (s.node id).field? segment with
  | none => exact iff_of_false (nomatch ·) fun ⟨_, h, _⟩ => nomatch h
  | some f =>
    obtain ⟨name, shape⟩ := f
    simp only [Option.some.injEq, exists_eq_left']
    cases shape with
    | value kind read =>
      cases rest with
      | nil =>
        constructor
        · intro h
          cases h
          exact .inl ⟨kind, read, rfl, rfl, rfl⟩
        · rintro (⟨_, _, h, -, rfl⟩ | ⟨_, _, _, h, -⟩)
          · cases h
            rfl
          · exact nomatch h
      | cons next rest =>
        refine iff_of_false (nomatch ·) ?_
        rintro (⟨_, _, -, h, -⟩ | ⟨_, _, _, h, -⟩) <;> exact nomatch h
    | nested child step =>
      cases rest with
      | nil =>
        refine iff_of_false (nomatch ·) ?_
        rintro (⟨_, _, h, -⟩ | ⟨_, _, _, -, h, -⟩) <;> exact nomatch h
      | cons next rest =>
        rw [map_eq_ok]
        constructor
        · rintro ⟨t', ht', rfl⟩
          exact .inr ⟨child, step, t', rfl, ht', rfl⟩
        · rintro (⟨_, _, h, -⟩ | ⟨_, _, t', h, ht', rfl⟩)
          · exact nomatch h
          · cases h
            exact ⟨t', ht', rfl⟩

theorem resolve_behind {name : String} (hname : name ≠ "") (hdot : '.' ∉ name.toList) {id : Nat}
    {step : Record → Option Record} (hfield : s.root.field? name = some ⟨name, .nested id step⟩)
    (path : String) : s.resolve (name ++ "." ++ path) =
      ((s.follow (name ++ "." ++ path) id (Text.pieces '.' path)).map (·.prepend step)).mapError
        (.badSelector (name ++ "." ++ path)) := by
  have hempty : name.isEmpty = false := by
    rw [Bool.eq_false_iff, ne_eq, String.isEmpty_iff]
    exact hname
  rw [resolve, Text.pieces_behind hdot]
  cases hpieces : Text.pieces '.' path with
  | nil => exact absurd hpieces (Text.pieces_ne_nil '.' path)
  | cons segment rest =>
    rw [follow, hempty, node_zero, hfield]
    rfl

end Schema

/-- Behind the name of a field `outer` has the selectors of `inner`. They are one record deeper and read
what `inner` reads from the child of a record, if the record has the type and a child. -/
structure Nests (outer inner : Schema) (name recordType : String) (child : Record → Option Record) :
    Prop where
  resolves_iff : ∀ path, (∃ s, outer.resolve (name ++ "." ++ path) = .ok s) ↔
    ∃ t, inner.resolve path = .ok t
  reads : ∀ path s t, outer.resolve (name ++ "." ++ path) = .ok s → inner.resolve path = .ok t →
    s.kind = t.kind ∧ s.depth = t.depth + 1 ∧
      (∀ r, (r.typeName ≠ recordType ∨ child r = none) → s.read r = .null) ∧
      ∀ r r', r.typeName = recordType → child r = some r' → s.read r = t.read r'

theorem Selector.read_prepend (t : Selector) (step : Record → Option Record) (path : String)
    (r : Record) : ({ t.prepend step with path } : Selector).read r =
      match step r with
      | none => .null
      | some r' => t.read r' := by
  unfold read content? prepend
  rw [List.foldlM_cons]
  cases step r <;> rfl

theorem Nests.of_resolve {outer inner : Schema} {name recordType : String}
    {child : Record → Option Record} (h : ∀ path, outer.resolve (name ++ "." ++ path) =
      ((inner.follow (name ++ "." ++ path) 0 (Text.pieces '.' path)).map
        (·.prepend (guarded recordType child))).mapError (.badSelector (name ++ "." ++ path))) :
    Nests outer inner name recordType child := by
  have hok (path : String) (s : Selector) : outer.resolve (name ++ "." ++ path) = .ok s ↔
      ∃ t, inner.resolve path = .ok t ∧
        { t.prepend (guarded recordType child) with path := name ++ "." ++ path } = s := by
    rw [h, mapError_eq_ok, map_eq_ok, Schema.follow_congr_path _ path]
    simp only [Schema.resolve, mapError_eq_ok, map_eq_ok]
    constructor
    · rintro ⟨-, ⟨t, ht, rfl⟩, rfl⟩
      exact ⟨t, ht, rfl⟩
    · rintro ⟨t, ht, rfl⟩
      exact ⟨_, ⟨t, ht, rfl⟩, rfl⟩
  refine ⟨fun path => ⟨?_, ?_⟩, fun path s t hs ht => ?_⟩
  · rintro ⟨s, hs⟩
    obtain ⟨t, ht, -⟩ := (hok path s).1 hs
    exact ⟨t, ht⟩
  · rintro ⟨t, ht⟩
    exact ⟨_, (hok path _).2 ⟨t, ht, rfl⟩⟩
  · obtain ⟨t', ht', rfl⟩ := (hok path s).1 hs
    cases ht.symm.trans ht'
    refine ⟨rfl, rfl, fun r hr => ?_, fun r r' htype hchild => ?_⟩
    · have hnone : guarded recordType child r = none := by
        unfold guarded
        split
        · next htype => exact hr.resolve_left (not_not_intro htype)
        · rfl
      rw [Selector.read_prepend, hnone]
    · have hsome : guarded recordType child r = some r' := by
        rw [guarded, if_pos htype, hchild]
      rw [Selector.read_prepend, hsome]

namespace SchemaBuilder

variable {b p : SchemaBuilder} {name : String}

theorem fields_of_calls {shape : FieldShape} {others : List SchemaNode}
    (h : Calls (push ⟨b.recordType, { b.schema with others }⟩ name shape) p) :
    ∃ more, p.build.root.fields = b.build.root.fields ++ (⟨name, shape⟩ : SchemaField) :: more := by
  obtain ⟨more, hmore⟩ := h.grows.fields
  refine ⟨more, ?_⟩
  change (b.schema.root.fields ++ [(⟨name, shape⟩ : SchemaField)]) ++ more = _ at hmore
  rw [build, ← hmore, List.append_assoc]
  rfl

theorem field?_of_calls (hnew : ∀ f ∈ b.build.root.fields, f.name ≠ name) {shape : FieldShape}
    {others : List SchemaNode}
    (h : Calls (push ⟨b.recordType, { b.schema with others }⟩ name shape) p) :
    p.build.root.field? name = some ⟨name, shape⟩ := by
  obtain ⟨more, hfields⟩ := fields_of_calls h
  exact SchemaNode.field?_of_first hfields hnew

theorem nests_nestedOpt {c : SchemaBuilder} (hc : Made c) (hname : name ≠ "")
    (hdot : '.' ∉ name.toList) (hnew : ∀ f ∈ b.build.root.fields, f.name ≠ name)
    {child : Record → Option Record} (h : Calls (b.nestedOpt name c.build child) p) :
    Nests p.build c.build name b.recordType child := by
  have hhosts : p.build.Hosts c.build b.schema.nodes.length :=
    h.grows.hosts (hosts_nestedOpt b name c.build child)
  refine Nests.of_resolve fun path => ?_
  rw [Schema.resolve_behind hname hdot (field?_of_calls hnew h), ← Nat.zero_add b.schema.nodes.length,
    Schema.follow_shift hhosts hc.closed _ (Nat.succ_pos _)]

theorem nests_recursive (hname : name ≠ "") (hdot : '.' ∉ name.toList)
    (hnew : ∀ f ∈ b.build.root.fields, f.name ≠ name) {child : Record → Option Record}
    (h : Calls (b.recursive name child) p) : Nests p.build p.build name b.recordType child := by
  refine Nests.of_resolve fun path => ?_
  rw [Schema.resolve_behind hname hdot (field?_of_calls hnew h)]

/-- Nesting is compositional. Under a name that is new to a builder a nested schema's selectors are those
of the schema itself, and under the name of a recursive field they are the builder's own, whatever is
called before and after. -/
theorem nests_of_calls {c : SchemaBuilder} (hc : Made c) (hname : name ≠ "") (hdot : '.' ∉ name.toList)
    (hnew : ∀ f ∈ b.build.root.fields, f.name ≠ name) :
    (∀ child, Calls (b.nested name c.build child) p →
      Nests p.build c.build name b.recordType fun r => some (child r)) ∧
    (∀ child, Calls (b.nestedOpt name c.build child) p →
      Nests p.build c.build name b.recordType child) ∧
    ∀ child, Calls (b.recursive name child) p → Nests p.build p.build name b.recordType child := by
  refine ⟨fun child h => ?_, fun child h => ?_, fun child h => ?_⟩
  · exact nests_nestedOpt hc hname hdot hnew h
  · exact nests_nestedOpt hc hname hdot hnew h
  · exact nests_recursive hname hdot hnew h

end SchemaBuilder

open SchemaBuilder

def tagBuilder : SchemaBuilder := (new "Tag").fieldOpt "Label" .text (Record.value? 0 .text)

def nodeBuilder : SchemaBuilder :=
  ((new "Node").nestedOpt "Tag" tagBuilder.build (Record.child? 0)).recursive "Parent" (Record.child? 1)

def orderBuilder : SchemaBuilder := (new "Order").fieldOpt "Id" .int32 (Record.value? 0 .int32)

def nodeOrderBuilder : SchemaBuilder :=
  ((orderBuilder.nestedOpt "Node" nodeBuilder.build (Record.child? 1)).nestedOpt "Tag" tagBuilder.build
    (Record.child? 2)).recursive "Next" (Record.child? 3)

theorem made_nodeOrderBuilder : Made nodeOrderBuilder := by
  have htag : Made tagBuilder := .fieldOpt "Label" .text _ (.new "Tag")
  have hnode : Made nodeBuilder := .recursive "Parent" _ (.nestedOpt "Tag" _ (.new "Node") htag)
  have horder : Made orderBuilder := .fieldOpt "Id" .int32 _ (.new "Order")
  exact .recursive "Next" _ (.nestedOpt "Tag" _ (.nestedOpt "Node" _ horder hnode) htag)

def chainBuilder : SchemaBuilder := (orderBuilder.recursive "Next" (Record.child? 1)).named "orders"

theorem orders_nest_nodes :
    Nests nodeOrderBuilder.build nodeBuilder.build "Node" "Order" (Record.child? 1) ∧
    (∃ s, nodeOrderBuilder.build.resolve "Node.Parent.Tag.Label" = .ok s) ∧
    Nests chainBuilder.build chainBuilder.build "Next" "Order" (Record.child? 1) := by
  have htag : Made tagBuilder := .fieldOpt "Label" .text _ (.new "Tag")
  have hnode : Made nodeBuilder := .recursive "Parent" _ (.nestedOpt "Tag" _ (.new "Node") htag)
  have hnew : ∀ name, name ≠ "Id" → ∀ f ∈ orderBuilder.build.root.fields, f.name ≠ name := by
    intro name hname f hf
    rw [List.mem_singleton.1 hf]
    exact hname.symm
  have hnests : Nests nodeOrderBuilder.build nodeBuilder.build "Node" "Order" (Record.child? 1) :=
    (nests_of_calls hnode (by decide) (by decide) (hnew "Node" (by decide))).2.1 _
      (.tail (.tail .refl (.nestedOpt "Tag" _ htag)) (.recursive "Next" _))
  refine ⟨hnests, (hnests.resolves_iff "Parent.Tag.Label").2 ⟨_, rfl⟩, ?_⟩
  exact (nests_of_calls hnode (by decide) (by decide) (hnew "Next" (by decide))).2.2 _
    (.tail .refl (.named "orders"))

end RecordQuery
