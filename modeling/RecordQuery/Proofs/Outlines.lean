import Mathlib.Data.List.Nodup
import RecordQuery.Schema.Outline
import RecordQuery.Proofs.Nesting

/-! Outlines and selectors enumerate the same fields. The outline cuts a table that is already open on the
way down and a path is followed wherever it leads, so that the leaves of the outline are the exactly spelled
paths that come to no table twice. -/

namespace RecordQuery

structure OutlineLeaf where
  above : List String
  name : String
  kind : Kind

namespace OutlineLeaf

def names (l : OutlineLeaf) : List String := l.above ++ [l.name]

def path (l : OutlineLeaf) : String := ".".intercalate l.names

def depth (l : OutlineLeaf) : Nat := l.above.length

def under (record : String) (l : OutlineLeaf) : OutlineLeaf := { l with above := record :: l.above }

theorem length_names (l : OutlineLeaf) : l.names.length = l.depth + 1 := List.length_append

theorem map_names_under (record : String) (ls : List OutlineLeaf) :
    (ls.map (under record)).map names = (ls.map names).map (record :: ·) := by
  rw [List.map_map, List.map_map]
  rfl

theorem names_ne_nil (l : OutlineLeaf) : l.names ≠ [] := List.concat_ne_nil l.name l.above

end OutlineLeaf

mutual

def Property.leaves : Property → List OutlineLeaf
  | .value name kind => [⟨[], name, kind⟩]
  | .record name _ properties => (leavesOfAll properties).map (.under name)

def leavesOfAll : List Property → List OutlineLeaf
  | [] => []
  | p :: ps => p.leaves ++ leavesOfAll ps

end

def Outline.leaves (o : Outline) : List OutlineLeaf := leavesOfAll o.properties

theorem leavesOfAll_eq_flatMap (ps : List Property) : leavesOfAll ps = ps.flatMap Property.leaves := by
  induction ps with
  | nil => rfl
  | cons p ps ih => rw [leavesOfAll, ih, List.flatMap_cons]

def Property.name : Property → String
  | .value name _ => name
  | .record name _ _ => name

theorem Property.head?_names {p : Property} {l : OutlineLeaf} (h : l ∈ p.leaves) :
    l.names.head? = some p.name := by
  cases p with
  | value name kind =>
    rw [List.mem_singleton.1 h]
    rfl
  | record name typeName properties =>
    obtain ⟨l', -, rfl⟩ := List.mem_map.1 h
    rfl

theorem nodup_leavesOfAll {ps : List Property} (hnames : (ps.map (·.name)).Nodup)
    (h : ∀ p ∈ ps, (p.leaves.map (·.names)).Nodup) : ((leavesOfAll ps).map (·.names)).Nodup := by
  rw [leavesOfAll_eq_flatMap, List.map_flatMap, List.nodup_flatMap]
  refine ⟨h, (List.pairwise_map.1 hnames).imp fun {p q} hne => List.disjoint_left.2 ?_⟩
  intro names hp hq
  obtain ⟨l, hl, rfl⟩ := List.mem_map.1 hp
  obtain ⟨l', hl', hsame⟩ := List.mem_map.1 hq
  have hhead : some p.name = some q.name := by
    rw [← Property.head?_names hl, ← Property.head?_names hl', hsame]
  exact hne (Option.some.inj hhead)

def SchemaField.target? (f : SchemaField) : Option Nat :=
  match f.shape with
  | .value _ _ => none
  | .nested node _ => some node

theorem SchemaNode.field?_of_mem {n : SchemaNode} (hnames : (n.fields.map (·.name)).Nodup) {f : SchemaField}
    (hf : f ∈ n.fields) : n.field? f.name = some f := by
  obtain ⟨before, after, hfields⟩ := List.append_of_mem hf
  rw [hfields, List.map_append, List.map_cons, List.nodup_append] at hnames
  refine field?_of_first hfields fun g hg => ?_
  exact hnames.2.2 _ (List.mem_map_of_mem hg) _ List.mem_cons_self

namespace Schema

variable {s : Schema} {id child : Nat} {path : List Nat} {f : SchemaField} {segment : String}
  {step : Record → Option Record}

structure WellNamed (s : Schema) : Prop where
  nonempty : ∀ n ∈ s.nodes, ∀ f ∈ n.fields, f.name ≠ ""
  dotFree : ∀ n ∈ s.nodes, ∀ f ∈ n.fields, '.' ∉ f.name.toList
  distinct : ∀ n ∈ s.nodes, (n.fields.map (·.name)).Nodup

def trail (s : Schema) (id : Nat) : List String → List SchemaField
  | [] => []
  | segment :: rest =>
    match (s.node id).field? segment with
    | none => []
    | some f =>
      match f.shape with
      | .value _ _ => [f]
      | .nested child _ => f :: s.trail child rest

def visits (s : Schema) (id : Nat) (segments : List String) : List Nat :=
  (s.trail id segments).filterMap SchemaField.target?

def SpelledExactly (s : Schema) (path : String) : Prop :=
  (s.trail 0 (Text.pieces '.' path)).map (·.name) = Text.pieces '.' path

def VisitsOnce (s : Schema) (path : String) : Prop :=
  (0 :: s.visits 0 (Text.pieces '.' path)).Nodup

theorem trail_value {kind : Kind} {read : Record → Option kind.Carrier} (rest : List String)
    (hfield : (s.node id).field? segment = some f) (hshape : f.shape = .value kind read) :
    s.trail id (segment :: rest) = [f] := by
  rw [trail, hfield]
  simp only [hshape]

theorem trail_nested (rest : List String) (hfield : (s.node id).field? segment = some f)
    (hshape : f.shape = .nested child step) : s.trail id (segment :: rest) = f :: s.trail child rest := by
  rw [trail, hfield]
  simp only [hshape]

theorem visits_value {kind : Kind} {read : Record → Option kind.Carrier} (rest : List String)
    (hfield : (s.node id).field? segment = some f) (hshape : f.shape = .value kind read) :
    s.visits id (segment :: rest) = [] := by
  have htarget : f.target? = none := by rw [SchemaField.target?, hshape]
  rw [visits, trail_value rest hfield hshape, List.filterMap_cons_none htarget, List.filterMap_nil]

theorem visits_nested (rest : List String) (hfield : (s.node id).field? segment = some f)
    (hshape : f.shape = .nested child step) :
    s.visits id (segment :: rest) = child :: s.visits child rest := by
  have htarget : f.target? = some child := by rw [SchemaField.target?, hshape]
  rw [visits, trail_nested rest hfield hshape, List.filterMap_cons_some htarget]
  rfl

instance (s : Schema) (path : String) : Decidable (s.SpelledExactly path) :=
  inferInstanceAs (Decidable (_ = _))

instance (s : Schema) (path : String) : Decidable (s.VisitsOnce path) :=
  inferInstanceAs (Decidable (List.Nodup _))

theorem Closed.child_lt (hs : s.Closed) (hid : id < s.nodes.length) (hf : f ∈ (s.node id).fields)
    (hshape : f.shape = .nested child step) : child < s.nodes.length := by
  have hwithin := hs.node hid f hf
  rwa [hshape] at hwithin

theorem WellNamed.distinct_node (h : s.WellNamed) (id : Nat) : ((s.node id).fields.map (·.name)).Nodup :=
  forall_node_fields (p := fun fields => (fields.map (·.name)).Nodup) List.nodup_nil h.distinct id

theorem nodup_leaves_propertiesOf (h : s.WellNamed) (path : List Nat) (id : Nat) :
    ((leavesOfAll (s.propertiesOf path id)).map (·.names)).Nodup := by
  induction path, id using propertiesOf.induct s with
  | case1 path id ih =>
    refine nodup_leavesOfAll ?_ ?_
    · have hmap : (s.propertiesOf path id).map (·.name) = (s.node id).fields.map (·.name) := by
        rw [propertiesOf, List.map_map]
        refine List.map_congr_left fun f _ => ?_
        obtain ⟨name, shape⟩ := f
        cases shape <;> rfl
      rw [hmap]
      exact h.distinct_node id
    · rw [propertiesOf, List.forall_mem_map]
      rintro ⟨name, shape⟩ -
      cases shape with
      | value kind read => exact List.nodup_singleton _
      | nested child step =>
        simp only [Property.leaves, OutlineLeaf.map_names_under]
        refine List.Nodup.map List.cons_injective ?_
        split
        · next hopen => exact ih child hopen
        · exact List.nodup_nil

theorem mem_trail {segments : List String} (hf : f ∈ s.trail id segments) :
    ∃ n ∈ s.nodes, f ∈ n.fields := by
  induction segments generalizing id with
  | nil => exact nomatch hf
  | cons segment rest ih =>
    rw [trail] at hf
    split at hf
    · exact nomatch hf
    · next g hfield =>
      have hg := SchemaNode.mem_of_field? hfield
      split at hf
      · rw [List.mem_singleton.1 hf]
        exact ⟨_, node_mem_nodes hg, hg⟩
      · rcases List.mem_cons.1 hf with rfl | hf
        · exact ⟨_, node_mem_nodes hg, hg⟩
        · exact ih hf

theorem length_of_follow {path : String} {segments : List String} {t : Selector}
    (h : s.follow path id segments = .ok t) : segments.length = t.depth + 1 := by
  induction segments generalizing id t with
  | nil => exact nomatch h
  | cons segment rest ih =>
    obtain ⟨-, _, -, ⟨_, _, -, rfl, rfl⟩ | ⟨_, _, t', -, ht', rfl⟩⟩ := follow_cons_eq_ok.1 h
    · rfl
    · exact congrArg (· + 1) (ih ht')

theorem mem_leaves_propertiesOf (hs : s.Closed) (hid : id < s.nodes.length) {l : OutlineLeaf} :
    l ∈ leavesOfAll (s.propertiesOf path id) ↔ ∃ f ∈ (s.node id).fields,
      (∃ kind read, f.shape = .value kind read ∧ l = ⟨[], f.name, kind⟩) ∨
        ∃ child step l', f.shape = .nested child step ∧ child ∉ path ∧
          l' ∈ leavesOfAll (s.propertiesOf (child :: path) child) ∧ l = l'.under f.name := by
  rw [leavesOfAll_eq_flatMap, propertiesOf, List.flatMap_map, List.mem_flatMap]
  refine exists_congr fun f => and_congr_right fun hf => ?_
  have hwithin := hs.node hid f hf
  obtain ⟨name, shape⟩ := f
  cases shape with
  | value kind read =>
    constructor
    · intro h
      exact .inl ⟨kind, read, rfl, List.mem_singleton.1 h⟩
    · rintro (⟨_, _, hshape, rfl⟩ | ⟨_, _, _, hshape, -⟩)
      · cases hshape
        exact List.mem_singleton_self _
      · cases hshape
  | nested child step =>
    have hchild : child < s.nodes.length := hwithin
    simp only [Property.leaves, List.mem_map]
    constructor
    · rintro ⟨l', hl', rfl⟩
      split at hl'
      · next hopen => exact .inr ⟨child, step, l', rfl, hopen.1, hl', rfl⟩
      · exact absurd hl' List.not_mem_nil
    · rintro (⟨_, _, hshape, -⟩ | ⟨_, _, l', hshape, hopen, hl', rfl⟩)
      · cases hshape
      · cases hshape
        rw [dif_pos ⟨hopen, hchild⟩]
        exact ⟨l', hl', rfl⟩

/-- Segments lead from a table to a value, each the name of the field that it finds, and come to tables that
are different from each other and from those of `path`. -/
structure Takes (s : Schema) (written : String) (path : List Nat) (id : Nat) (segments : List String)
    (t : Selector) : Prop where
  resolves : s.follow written id segments = .ok t
  spelled : (s.trail id segments).map (·.name) = segments
  fresh : (s.visits id segments ++ path).Nodup

theorem takes_cons {written : String} {rest : List String} {t : Selector} :
    s.Takes written path id (segment :: rest) t ↔ segment ≠ "" ∧ path.Nodup ∧
      ∃ f, (s.node id).field? segment = some f ∧ f.name = segment ∧
        ((∃ kind read, f.shape = .value kind read ∧ rest = [] ∧ t = ⟨written, [], kind, read⟩) ∨
          ∃ child step t', f.shape = .nested child step ∧
            s.Takes written (child :: path) child rest t' ∧ t = t'.prepend step) := by
  constructor
  · rintro ⟨hfollow, hspelled, hfresh⟩
    obtain ⟨hempty, f, hfield, hshape⟩ := follow_cons_eq_ok.1 hfollow
    refine ⟨hempty, (List.nodup_append.1 hfresh).2.1, f, hfield, ?_⟩
    rcases hshape with ⟨kind, read, hshape, rfl, rfl⟩ | ⟨child, step, t', hshape, ht', rfl⟩
    · rw [trail_value [] hfield hshape] at hspelled
      exact ⟨(List.cons.inj hspelled).1, .inl ⟨kind, read, hshape, rfl, rfl⟩⟩
    · rw [trail_nested rest hfield hshape, List.map_cons] at hspelled
      obtain ⟨hname, hrest⟩ := List.cons.inj hspelled
      -- The table that is visited first joins those that were open before.
      rw [visits_nested rest hfield hshape, List.cons_append, ← List.perm_middle.nodup_iff] at hfresh
      exact ⟨hname, .inr ⟨child, step, t', hshape, ⟨ht', hrest, hfresh⟩, rfl⟩⟩
  · rintro ⟨hempty, hpath, f, hfield, hname, hshape⟩
    rcases hshape with ⟨kind, read, hshape, rfl, rfl⟩ | ⟨child, step, t', hshape, ht', rfl⟩
    · refine ⟨follow_cons_eq_ok.2 ⟨hempty, f, hfield, .inl ⟨kind, read, hshape, rfl, rfl⟩⟩,
        ?_, ?_⟩
      · rw [trail_value [] hfield hshape, List.map_singleton, hname]
      · rw [visits_value [] hfield hshape]
        exact hpath
    · refine ⟨follow_cons_eq_ok.2 ⟨hempty, f, hfield,
        .inr ⟨child, step, t', hshape, ht'.resolves, rfl⟩⟩, ?_, ?_⟩
      · rw [trail_nested rest hfield hshape, List.map_cons, hname, ht'.spelled]
      · rw [visits_nested rest hfield hshape, List.cons_append, ← List.perm_middle.nodup_iff]
        exact ht'.fresh

/-- Both descend through the same fields. The outline opens a nested table only if it is not on `path`, and a
path that takes one comes to it for the first time. -/
theorem leaves_iff_takes (hs : s.Closed) (hnames : s.WellNamed) (written : String) (hid : id < s.nodes.length)
    (hpath : path.Nodup) (segments : List String) (kind : Kind) :
    (∃ l ∈ leavesOfAll (s.propertiesOf path id), l.names = segments ∧ l.kind = kind) ↔
      ∃ t, s.Takes written path id segments t ∧ t.kind = kind := by
  -- The invariant is that the open tables are distinct; a table is then not open exactly if opening it
  -- keeps them so, which is the condition on either side.
  induction segments generalizing path id with
  | nil =>
    refine iff_of_false ?_ ?_
    · rintro ⟨l, -, hl, -⟩
      exact l.names_ne_nil hl
    · rintro ⟨t, ht, -⟩
      exact nomatch ht.resolves
  | cons segment rest ih =>
    constructor
    · rintro ⟨l, hl, hsegments, rfl⟩
      obtain ⟨f, hf, hshape⟩ := (mem_leaves_propertiesOf hs hid).1 hl
      have hnode := node_mem_nodes hf
      have hfield := SchemaNode.field?_of_mem (hnames.distinct _ hnode) hf
      rcases hshape with ⟨kind, read, hshape, rfl⟩ | ⟨child, step, l', hshape, hfresh, hl', rfl⟩
      · cases hsegments
        exact ⟨_, takes_cons.2 ⟨hnames.nonempty _ hnode f hf, hpath, f, hfield, rfl,
          .inl ⟨kind, read, hshape, rfl, rfl⟩⟩, rfl⟩
      · obtain ⟨rfl, hrest⟩ := List.cons.inj hsegments
        have hchild := hs.child_lt hid hf hshape
        obtain ⟨t, ht, hkind⟩ :=
          (ih hchild (List.nodup_cons.2 ⟨hfresh, hpath⟩)).1 ⟨l', hl', hrest, rfl⟩
        exact ⟨_, takes_cons.2 ⟨hnames.nonempty _ hnode f hf, hpath, f, hfield, rfl,
          .inr ⟨child, step, t, hshape, ht, rfl⟩⟩, hkind⟩
    · rintro ⟨t, ht, rfl⟩
      obtain ⟨-, -, f, hfield, rfl, hshape⟩ := takes_cons.1 ht
      have hf := SchemaNode.mem_of_field? hfield
      rcases hshape with ⟨kind, read, hshape, rfl, rfl⟩ | ⟨child, step, t', hshape, ht', rfl⟩
      · exact ⟨_, (mem_leaves_propertiesOf hs hid).2 ⟨f, hf, .inl ⟨kind, read, hshape, rfl⟩⟩, rfl, rfl⟩
      · have hchild := hs.child_lt hid hf hshape
        have hnodup : (child :: path).Nodup := (List.nodup_append.1 ht'.fresh).2.1
        obtain ⟨l, hl, hrest, hkind⟩ := (ih hchild hnodup).2 ⟨t', ht', rfl⟩
        refine ⟨l.under f.name, (mem_leaves_propertiesOf hs hid).2 ⟨f, hf, .inr
          ⟨child, step, l, hshape, (List.nodup_cons.1 hnodup).1, hl, rfl⟩⟩, ?_, hkind⟩
        exact congrArg (f.name :: ·) hrest

theorem takes_zero_iff {path : String} {t : Selector} :
    s.Takes path [0] 0 (Text.pieces '.' path) t ↔
      s.resolve path = .ok t ∧ s.SpelledExactly path ∧ s.VisitsOnce path := by
  have hvisits : s.VisitsOnce path ↔ (s.visits 0 (Text.pieces '.' path) ++ [0]).Nodup := by
    rw [VisitsOnce, List.perm_middle.nodup_iff, List.append_nil]
  rw [resolve, mapError_eq_ok, hvisits]
  constructor
  · rintro ⟨hfollow, hspelled, hfresh⟩
    exact ⟨hfollow, hspelled, hfresh⟩
  · rintro ⟨hfollow, hspelled, hfresh⟩
    exact ⟨hfollow, hspelled, hfresh⟩

theorem Takes.dotFree (hnames : s.WellNamed) {written : String} {segments : List String} {t : Selector}
    (h : s.Takes written path id segments t) : ∀ segment ∈ segments, '.' ∉ segment.toList := by
  intro segment hsegment
  rw [← h.spelled] at hsegment
  obtain ⟨f, hf, rfl⟩ := List.mem_map.1 hsegment
  obtain ⟨n, hn, hf⟩ := mem_trail hf
  exact hnames.dotFree n hn f hf

end Schema

namespace SchemaBuilder.Made

variable {b : SchemaBuilder}

theorem takes_of_leaf (h : b.Made) (hnames : b.build.WellNamed) {l : OutlineLeaf}
    (hl : l ∈ b.build.outline.leaves) : Text.pieces '.' l.path = l.names ∧
      ∃ t, b.build.Takes l.path [0] 0 l.names t ∧ t.kind = l.kind := by
  obtain ⟨t, ht, hkind⟩ := (Schema.leaves_iff_takes h.closed hnames l.path (Nat.succ_pos _)
    (List.nodup_singleton 0) l.names l.kind).1 ⟨l, hl, rfl, rfl⟩
  exact ⟨Text.pieces_intercalate l.names_ne_nil (ht.dotFree hnames), t, ht, hkind⟩

/-- The outline lists each path once. With its kind, and with one record above it for each step, it lists
every path that resolves, is spelled exactly and comes to no table twice, and it lists nothing else. -/
theorem leaf_iff_resolves (h : b.Made) (hnames : b.build.WellNamed) :
    (b.build.outline.leaves.map (·.path)).Nodup ∧ ∀ (path : String) (kind : Kind) (depth : Nat),
      (∃ l ∈ b.build.outline.leaves, l.path = path ∧ l.kind = kind ∧ l.depth = depth) ↔
        ∃ t, b.build.resolve path = .ok t ∧ t.kind = kind ∧ t.depth = depth ∧
          b.build.SpelledExactly path ∧ b.build.VisitsOnce path := by
  refine ⟨?_, fun path kind depth => ⟨?_, ?_⟩⟩
  · refine List.Nodup.of_map (Text.pieces '.') ?_
    have hpieces : (b.build.outline.leaves.map (·.path)).map (Text.pieces '.') =
        b.build.outline.leaves.map (·.names) := by
      rw [List.map_map]
      exact List.map_congr_left fun l hl => (takes_of_leaf h hnames hl).1
    rw [hpieces]
    exact Schema.nodup_leaves_propertiesOf hnames [0] 0
  · rintro ⟨l, hl, rfl, rfl, rfl⟩
    obtain ⟨hpieces, t, ht, hkind⟩ := takes_of_leaf h hnames hl
    have hdepth : t.depth + 1 = l.depth + 1 := by
      rw [← Schema.length_of_follow ht.resolves, l.length_names]
    rw [← hpieces, Schema.takes_zero_iff] at ht
    exact ⟨t, ht.1, hkind, Nat.succ.inj hdepth, ht.2⟩
  · rintro ⟨t, ht, rfl, rfl, hspelled, hvisits⟩
    have htakes := Schema.takes_zero_iff.2 ⟨ht, hspelled, hvisits⟩
    obtain ⟨l, hl, hsegments, hkind⟩ := (Schema.leaves_iff_takes h.closed hnames path (Nat.succ_pos _)
      (List.nodup_singleton 0) _ t.kind).2 ⟨t, htakes, rfl⟩
    have hpath : l.path = path := by
      rw [OutlineLeaf.path, hsegments, Text.intercalate_pieces]
    have hdepth : l.depth + 1 = t.depth + 1 := by
      rw [← l.length_names, hsegments, Schema.length_of_follow htakes.resolves]
    exact ⟨l, hl, hpath, hkind, Nat.succ.inj hdepth⟩

end SchemaBuilder.Made

theorem nodeOrders_leaves : nodeOrderBuilder.Made ∧ nodeOrderBuilder.build.WellNamed ∧
    (∃ l ∈ nodeOrderBuilder.build.outline.leaves,
      l.path = "Node.Tag.Label" ∧ l.kind = .text ∧ l.depth = 2) ∧
    (∃ t, nodeOrderBuilder.build.resolve "Node.Parent.Tag.Label" = .ok t) ∧
    ¬ ∃ l ∈ nodeOrderBuilder.build.outline.leaves,
      l.path = "Node.Parent.Tag.Label" ∧ l.kind = .text ∧ l.depth = 3 := by
  have hnames : nodeOrderBuilder.build.WellNamed := ⟨by decide, by decide, by decide⟩
  obtain ⟨-, hleaf⟩ := made_nodeOrderBuilder.leaf_iff_resolves hnames
  refine ⟨made_nodeOrderBuilder, hnames, ?_, ⟨_, rfl⟩, ?_⟩
  · exact (hleaf "Node.Tag.Label" .text 2).2 ⟨_, rfl, rfl, rfl, by decide, by decide⟩
  · rw [hleaf]
    rintro ⟨_, -, -, -, -, hvisits⟩
    revert hvisits
    decide

end RecordQuery
