import RecordQuery.Proofs.Nesting

/-! Paths as walks over the tables of a schema. Every segment but the last names a nested record and leads
to its table, the last one names a value, and a path that resolves does so along its only walk. Of any other
path the first segment that leads nowhere is reported, with the reason. -/

namespace RecordQuery

namespace SchemaNode

/-- The field that a segment names in a table: the first one spelled so or, where none is, the first one
that differs in nothing but the case of ASCII letters. -/
inductive Names (n : SchemaNode) (segment : String) (f : SchemaField) : Prop
  | exactly {before after : List SchemaField} (hfields : n.fields = before ++ f :: after)
      (hname : f.name = segment) (hfirst : ∀ g ∈ before, g.name ≠ segment)
  | caseless {before after : List SchemaField} (hnone : ∀ g ∈ n.fields, g.name ≠ segment)
      (hfields : n.fields = before ++ f :: after) (hname : Text.sameLetters f.name segment = true)
      (hfirst : ∀ g ∈ before, Text.sameLetters g.name segment = false)

theorem names_iff {n : SchemaNode} {segment : String} {f : SchemaField} :
    n.Names segment f ↔ n.field? segment = some f := by
  rw [field?_eq_or, Option.or_eq_some_iff, List.find?_eq_some_iff_append, List.find?_eq_some_iff_append,
    List.find?_eq_none]
  simp only [decide_eq_true_eq, Bool.not_eq_true', decide_eq_false_iff_not]
  constructor
  · intro h
    cases h with
    | exactly hfields hname hfirst => exact .inl ⟨hname, _, _, hfields, hfirst⟩
    | caseless hnone hfields hname hfirst => exact .inr ⟨hnone, hname, _, _, hfields, hfirst⟩
  · rintro (⟨hname, _, _, hfields, hfirst⟩ | ⟨hnone, hname, _, _, hfields, hfirst⟩)
    · exact .exactly hfields hname hfirst
    · exact .caseless hnone hfields hname hfirst

end SchemaNode

namespace Schema

inductive Leads (s : Schema) :
    SchemaNode → List String → List (Record → Option Record) → SchemaNode → Prop
  | stay (n : SchemaNode) : Leads s n [] [] n
  | into {n child last : SchemaNode} {segment name : String} {rest : List String} {id : Nat}
      {step : Record → Option Record} {steps : List (Record → Option Record)} (hsegment : segment ≠ "")
      (hfield : n.Names segment ⟨name, .nested id step⟩) (hchild : s.nodes[id]? = some child)
      (hrest : Leads s child rest steps last) : Leads s n (segment :: rest) (step :: steps) last

inductive Astray (s : Schema) (n : SchemaNode) : String → List String → SelectorFault → Prop
  | empty (rest : List String) : Astray s n "" rest .emptySegment
  | unknown {segment : String} (rest : List String) (hsegment : segment ≠ "")
      (hnone : ∀ f, ¬ n.Names segment f) : Astray s n segment rest (.noField segment n.typeName)
  | throughValue {segment name : String} {rest : List String} {kind : Kind}
      {read : Record → Option kind.Carrier} (hsegment : segment ≠ "")
      (hfield : n.Names segment ⟨name, .value kind read⟩) (hrest : rest ≠ []) :
      Astray s n segment rest (.valueHasNoFields segment)
  | atRecord {segment name : String} {id : Nat} {step : Record → Option Record} {child : SchemaNode}
      (hsegment : segment ≠ "") (hfield : n.Names segment ⟨name, .nested id step⟩)
      (hchild : s.nodes[id]? = some child) : Astray s n segment [] (.recordNeedsField segment child.typeName)

/-- A walk from a table, all of whose segments lead on but the last, which names a field. -/
inductive Reaches (s : Schema) (n : SchemaNode) :
    List String → List (Record → Option Record) → SchemaField → Prop
  | intro {before : List String} {segment : String} {steps : List (Record → Option Record)}
      {last : SchemaNode} {f : SchemaField} (hleads : s.Leads n before steps last)
      (hsegment : segment ≠ "") (hfield : last.Names segment f) : Reaches s n (before ++ [segment]) steps f

/-- A walk from a table that fails, and what is wrong with the first segment that leads nowhere. -/
inductive Breaks (s : Schema) (n : SchemaNode) : List String → SelectorFault → Prop
  | intro {before rest : List String} {segment : String} {steps : List (Record → Option Record)}
      {last : SchemaNode} {fault : SelectorFault} (hleads : s.Leads n before steps last)
      (hfault : s.Astray last segment rest fault) : Breaks s n (before ++ segment :: rest) fault

variable {s : Schema} {n child last : SchemaNode} {id : Nat} {path segment name : String}
  {rest segments before : List String} {step : Record → Option Record}
  {steps : List (Record → Option Record)} {f : SchemaField} {fault : SelectorFault}

theorem Reaches.behind (hsegment : segment ≠ "") (hfield : n.Names segment ⟨name, .nested id step⟩)
    (hchild : s.nodes[id]? = some child) (h : s.Reaches child rest steps f) :
    s.Reaches n (segment :: rest) (step :: steps) f := by
  obtain ⟨hleads, hlast, hf⟩ := h
  exact .intro (.into hsegment hfield hchild hleads) hlast hf

theorem Breaks.behind (hsegment : segment ≠ "") (hfield : n.Names segment ⟨name, .nested id step⟩)
    (hchild : s.nodes[id]? = some child) (h : s.Breaks child rest fault) :
    s.Breaks n (segment :: rest) fault := by
  obtain ⟨hleads, hfault⟩ := h
  exact .intro (.into hsegment hfield hchild hleads) hfault

/-- A walk over closed tables ends at a value or breaks off. -/
theorem reaches_or_breaks (hs : s.Closed) (hn : n ∈ s.nodes) (hne : segments ≠ []) :
    (∃ steps name kind read, s.Reaches n segments steps ⟨name, .value kind read⟩) ∨
      ∃ fault, s.Breaks n segments fault := by
  induction segments generalizing n with
  | nil => exact absurd rfl hne
  | cons segment rest ih =>
    by_cases hsegment : segment = ""
    · subst hsegment
      exact .inr ⟨_, .intro (.stay n) (.empty rest)⟩
    cases hfield : n.field? segment with
    | none =>
      have hnone : ∀ f, ¬ n.Names segment f := fun f hf =>
        nomatch hfield.symm.trans (SchemaNode.names_iff.1 hf)
      exact .inr ⟨_, .intro (.stay n) (.unknown rest hsegment hnone)⟩
    | some f =>
      have hwithin := hs n hn f (SchemaNode.mem_of_field? hfield)
      have hnames := SchemaNode.names_iff.2 hfield
      obtain ⟨name, shape⟩ := f
      cases shape with
      | value kind read =>
        cases rest with
        | nil => exact .inl ⟨_, _, _, _, .intro (.stay n) hsegment hnames⟩
        | cons next rest =>
          exact .inr ⟨_, .intro (.stay n) (.throughValue hsegment hnames (List.cons_ne_nil next rest))⟩
      | nested id step =>
        have hchild : s.nodes[id]? = some s.nodes[id] := List.getElem?_eq_getElem hwithin
        cases rest with
        | nil => exact .inr ⟨_, .intro (.stay n) (.atRecord hsegment hnames hchild)⟩
        | cons next rest =>
          rcases ih (List.getElem_mem hwithin) (List.cons_ne_nil next rest) with
            ⟨steps, name', kind, read, h⟩ | ⟨fault, h⟩
          · exact .inl ⟨_, name', kind, read, h.behind hsegment hnames hchild⟩
          · exact .inr ⟨fault, h.behind hsegment hnames hchild⟩

theorem follow_into {child : Nat} (hn : s.nodes[id]? = some n) (hsegment : segment ≠ "")
    (hfield : n.Names segment ⟨name, .nested child step⟩) (hrest : rest ≠ []) :
    s.follow path id (segment :: rest) = (s.follow path child rest).map (·.prepend step) := by
  rw [follow, if_neg (mt String.isEmpty_iff.1 hsegment), node_eq hn, SchemaNode.names_iff.1 hfield]
  cases rest with
  | nil => exact absurd rfl hrest
  | cons next rest => rfl

theorem Astray.follow (hn : s.nodes[id]? = some n) (h : s.Astray n segment rest fault) :
    s.follow path id (segment :: rest) = .error fault := by
  unfold Schema.follow
  cases h with
  | empty rest => rfl
  | unknown rest hsegment hnone =>
    have hfield : n.field? segment = none := Option.eq_none_iff_forall_ne_some.2 fun f hf =>
      hnone f (SchemaNode.names_iff.2 hf)
    rw [if_neg (mt String.isEmpty_iff.1 hsegment), node_eq hn, hfield]
  | throughValue hsegment hfield hrest =>
    rw [if_neg (mt String.isEmpty_iff.1 hsegment), node_eq hn, SchemaNode.names_iff.1 hfield]
    cases rest with
    | nil => exact absurd rfl hrest
    | cons next rest => rfl
  | atRecord hsegment hfield hchild =>
    rw [if_neg (mt String.isEmpty_iff.1 hsegment), node_eq hn, SchemaNode.names_iff.1 hfield]
    rw [← node_eq hchild]

theorem follow_of_leads (h : s.Leads n before steps last) (hn : s.nodes[id]? = some n) (path segment : String)
    (rest : List String) : ∃ target, s.nodes[target]? = some last ∧
      s.follow path id (before ++ segment :: rest) =
        (s.follow path target (segment :: rest)).map fun t => { t with steps := steps ++ t.steps } := by
  induction h generalizing id with
  | stay n =>
    refine ⟨id, hn, ?_⟩
    rw [List.nil_append]
    cases s.follow path id (segment :: rest) <;> rfl
  | @into _ _ _ _ _ inner _ _ _ hsegment hfield hchild hrest ih =>
    obtain ⟨target, hlast, hfollow⟩ := ih hchild
    refine ⟨target, hlast, ?_⟩
    have hne : inner ++ segment :: rest ≠ [] :=
      List.append_ne_nil_of_right_ne_nil inner (List.cons_ne_nil segment rest)
    rw [List.cons_append, follow_into hn hsegment hfield hne, hfollow]
    cases s.follow path target (segment :: rest) <;> rfl

theorem Reaches.follow {kind : Kind} {read : Record → Option kind.Carrier} (hn : s.nodes[id]? = some n)
    (h : s.Reaches n segments steps ⟨name, .value kind read⟩) :
    s.follow path id segments = .ok ⟨path, steps, kind, read⟩ := by
  cases h with
  | @intro before segment _ last _ hleads hsegment hfield =>
    obtain ⟨target, hlast, hfollow⟩ := follow_of_leads hleads hn path segment []
    have hvalue : s.follow path target [segment] = .ok ⟨path, [], kind, read⟩ := by
      rw [← node_eq hlast, SchemaNode.names_iff] at hfield
      exact follow_cons_eq_ok.2 ⟨hsegment, _, hfield, .inl ⟨kind, read, rfl, rfl, rfl⟩⟩
    rw [hfollow, hvalue]
    simp only [Except.map, List.append_nil]

theorem Breaks.follow (hn : s.nodes[id]? = some n) (h : s.Breaks n segments fault) :
    s.follow path id segments = .error fault := by
  cases h with
  | @intro before rest segment _ last _ hleads hfault =>
    obtain ⟨target, hlast, hfollow⟩ := follow_of_leads hleads hn path segment rest
    rw [hfollow, hfault.follow hlast]
    rfl

theorem follow_eq_ok_iff_reaches (hs : s.Closed) (hn : s.nodes[id]? = some n) {t : Selector} :
    s.follow path id segments = .ok t ↔ t.path = path ∧
      ∃ name, s.Reaches n segments t.steps ⟨name, .value t.kind t.readLast⟩ := by
  constructor
  · intro h
    have hne : segments ≠ [] := by
      rintro rfl
      exact nomatch h
    rcases reaches_or_breaks hs (List.mem_of_getElem? hn) hne with ⟨steps, name, kind, read, hr⟩ | ⟨fault, hb⟩
    · cases h.symm.trans (hr.follow hn)
      exact ⟨rfl, name, hr⟩
    · exact nomatch h.symm.trans (hb.follow hn)
  · rintro ⟨rfl, name, h⟩
    exact h.follow hn

theorem follow_eq_error_iff_breaks (hs : s.Closed) (hn : s.nodes[id]? = some n) (hne : segments ≠ []) :
    s.follow path id segments = .error fault ↔ s.Breaks n segments fault := by
  constructor
  · intro h
    rcases reaches_or_breaks hs (List.mem_of_getElem? hn) hne with ⟨steps, name, kind, read, hr⟩ | ⟨fault', hb⟩
    · exact nomatch h.symm.trans (hr.follow hn)
    · cases h.symm.trans (hb.follow hn)
      exact hb
  · intro h
    exact h.follow hn

theorem length_of_leads (h : s.Leads n before steps last) : before.length = steps.length := by
  induction h with
  | stay n => rfl
  | into _ _ _ _ ih => exact congrArg (· + 1) ih

theorem Reaches.length_eq (h : s.Reaches n segments steps f) : segments.length = steps.length + 1 := by
  cases h with
  | intro hleads _ _ => rw [List.length_append, length_of_leads hleads, List.length_singleton]

end Schema

inductive Arrives : List (Record → Option Record) → Record → Record → Prop
  | here (r : Record) : Arrives [] r r
  | onward {step : Record → Option Record} {steps : List (Record → Option Record)} {r next last : Record}
      (hstep : step r = some next) (hrest : Arrives steps next last) : Arrives (step :: steps) r last

/-- What a selector finds in an element: the value of the record that its steps come to, or null where a
record on the way is missing. -/
inductive Selector.Finds (t : Selector) (element : Record) : Value → Prop
  | present {last : Record} (h : Arrives t.steps element last) :
      Finds t element (Value.ofOption t.kind (t.readLast last))
  | missing {before after : List (Record → Option Record)} {step : Record → Option Record} {r : Record}
      (hsteps : t.steps = before ++ step :: after) (h : Arrives before element r) (hmissing : step r = none) :
      Finds t element .null

theorem arrives_or_missing (steps : List (Record → Option Record)) (element : Record) :
    (∃ last, Arrives steps element last) ∨ ∃ before step after r,
      steps = before ++ step :: after ∧ Arrives before element r ∧ step r = none := by
  induction steps generalizing element with
  | nil => exact .inl ⟨element, .here element⟩
  | cons step steps ih =>
    cases hstep : step element with
    | none => exact .inr ⟨[], step, steps, element, rfl, .here element, hstep⟩
    | some next =>
      rcases ih next with ⟨last, h⟩ | ⟨before, step', after, r, rfl, h, hmissing⟩
      · exact .inl ⟨last, .onward hstep h⟩
      · exact .inr ⟨step :: before, step', after, r, rfl, .onward hstep h, hmissing⟩

namespace Selector

theorem read_of_arrives {before : List (Record → Option Record)} {element r : Record}
    (h : Arrives before element r) (t : Selector) :
    read { t with steps := before ++ t.steps } element = t.read r := by
  induction h with
  | here r => rfl
  | @onward step steps r next last hstep hrest ih =>
    have hread := read_prepend { t with steps := steps ++ t.steps } step t.path r
    rw [hstep] at hread
    exact hread.trans ih

theorem read_eq_iff_finds {t : Selector} {element : Record} {v : Value} :
    t.read element = v ↔ t.Finds element v := by
  have hfinds : ∀ w, t.Finds element w → t.read element = w := by
    intro w h
    cases h with
    | @present last h =>
      have hread := read_of_arrives h { t with steps := [] }
      rw [List.append_nil] at hread
      exact hread
    | @missing before after step r hsteps h hmissing =>
      have hread := read_of_arrives h { t with steps := step :: after }
      have hnull := read_prepend { t with steps := after } step t.path r
      rw [hmissing] at hnull
      rw [← hsteps] at hread
      exact hread.trans hnull
  refine ⟨?_, hfinds v⟩
  rintro rfl
  rcases arrives_or_missing t.steps element with ⟨last, h⟩ | ⟨before, step, after, r, hsteps, h, hmissing⟩
  · rw [hfinds _ (.present h)]
    exact .present h
  · rw [hfinds _ (.missing hsteps h hmissing)]
    exact .missing hsteps h hmissing

end Selector

/-- A path resolves exactly when it is a walk from the schema's own table to a value. The selector is that
walk: it has one step for each dot and finds in an element what the steps come to. Every other path is
reported as a whole, with what is wrong with the first segment that leads nowhere. -/
theorem SchemaBuilder.Made.resolve_walks {b : SchemaBuilder} (h : b.Made) (path : String) :
    (∀ t, b.build.resolve path = .ok t ↔ t.path = path ∧ ∃ segments name, Text.Segments path segments ∧
      b.build.Reaches b.build.root segments t.steps ⟨name, .value t.kind t.readLast⟩) ∧
    (∀ t, b.build.resolve path = .ok t → t.depth = path.toList.count '.' ∧
      ∀ element v, t.read element = v ↔ t.Finds element v) ∧
    ∀ e, b.build.resolve path = .error e ↔ ∃ segments fault, Text.Segments path segments ∧
      b.build.Breaks b.build.root segments fault ∧ e = .badSelector path fault := by
  have hclosed : b.build.Closed := h.closed
  have hroot : b.build.nodes[0]? = some b.build.root := rfl
  have hok (t : Selector) : b.build.resolve path = .ok t ↔ t.path = path ∧
      ∃ name, b.build.Reaches b.build.root (Text.pieces '.' path) t.steps
        ⟨name, .value t.kind t.readLast⟩ := by
    rw [Schema.resolve, mapError_eq_ok]
    exact Schema.follow_eq_ok_iff_reaches hclosed hroot
  simp only [Text.segments_iff, exists_and_left, exists_eq_left']
  refine ⟨hok, fun t ht => ⟨?_, fun element v => Selector.read_eq_iff_finds⟩, fun e => ?_⟩
  · obtain ⟨-, name, hreaches⟩ := (hok t).1 ht
    have hlength := hreaches.length_eq
    rw [Text.length_pieces] at hlength
    exact (Nat.succ.inj hlength).symm
  · have hbreaks {fault : SelectorFault} : b.build.follow path 0 (Text.pieces '.' path) = .error fault ↔
        b.build.Breaks b.build.root (Text.pieces '.' path) fault :=
      Schema.follow_eq_error_iff_breaks hclosed hroot (Text.pieces_ne_nil '.' path)
    rw [Schema.resolve, mapError_eq_error]
    constructor
    · rintro ⟨fault, h, rfl⟩
      exact ⟨fault, hbreaks.1 h, rfl⟩
    · rintro ⟨fault, h, rfl⟩
      exact ⟨fault, hbreaks.2 h, rfl⟩

theorem nodeOrders_walked : nodeOrderBuilder.Made ∧
    (∃ t segments name, nodeOrderBuilder.build.resolve "node.PARENT.Tag.Label" = .ok t ∧ t.depth = 3 ∧
      Text.Segments "node.PARENT.Tag.Label" segments ∧ nodeOrderBuilder.build.Reaches
        nodeOrderBuilder.build.root segments t.steps ⟨name, .value t.kind t.readLast⟩) ∧
    ∃ segments, Text.Segments "Node..Tag" segments ∧
      nodeOrderBuilder.build.Breaks nodeOrderBuilder.build.root segments .emptySegment := by
  have hok : nodeOrderBuilder.build.resolve "node.PARENT.Tag.Label" = .ok _ := rfl
  have herror : nodeOrderBuilder.build.resolve "Node..Tag" = .error (.badSelector "Node..Tag" .emptySegment) :=
    rfl
  obtain ⟨hresolves, hreads, -⟩ := made_nodeOrderBuilder.resolve_walks "node.PARENT.Tag.Label"
  obtain ⟨-, -, hfails⟩ := made_nodeOrderBuilder.resolve_walks "Node..Tag"
  obtain ⟨-, segments, name, hsegments, hreaches⟩ := (hresolves _).1 hok
  obtain ⟨segments', fault, hsegments', hbreaks, hfault⟩ := (hfails _).1 herror
  cases hfault
  exact ⟨made_nodeOrderBuilder, ⟨_, segments, name, hok, (hreads _ hok).1, hsegments, hreaches⟩,
    segments', hsegments', hbreaks⟩

end RecordQuery
