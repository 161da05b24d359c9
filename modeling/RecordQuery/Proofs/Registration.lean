import RecordQuery.Proofs.Planning
import RecordQuery.Proofs.SelectorBounds

/-! Which registered sources can be queried. A registry takes every name that is not empty, a request
only names without control characters and of bounded length; a source under such a name answers for
each of its selectors that the limits admit. -/

namespace RecordQuery

inductive ProviderCall where
  | addSource (name : String) (schema : Schema) (elements : List Record)
  | addUnderSchemaName (schema : Schema) (elements : List Record)
  | removeSource (name : String)

namespace Limits

theorem check_eq_ok {l : Limits} : l.check = .ok () ↔ ∀ bound ∈ l.bounds, bound.2 ≠ 0 := by
  unfold check
  cases h : l.bounds.find? fun b => b.2 = 0 with
  | none => exact iff_of_true rfl fun b hb => by simpa using List.find?_eq_none.1 h b hb
  | some b =>
    refine iff_of_false (nomatch ·) fun hall => hall b (List.mem_of_find?_eq_some h) ?_
    simpa using List.find?_some h

theorem checkSourceName_eq_ok {name : String} : checkSourceName name = .ok () ↔
    (∃ c ∈ name.toList, Text.isBlank c = false) ∧ name.utf8ByteSize ≤ maxSourceNameLength ∧
      ∀ c ∈ name.toList, Text.isControl c = false := by
  unfold checkSourceName
  by_cases hblank : (Text.trim name).isEmpty = true
  · rw [if_pos hblank]
    refine iff_of_false (nomatch ·) fun ⟨⟨c, hc, h⟩, _⟩ => ?_
    exact ne_true_of_eq_false h (trim_isEmpty_iff.1 hblank c hc)
  rw [if_neg hblank]
  by_cases hlength : maxSourceNameLength < name.utf8ByteSize
  · rw [if_pos hlength]
    exact iff_of_false (nomatch ·) fun h => absurd h.2.1 (Nat.not_le.2 hlength)
  rw [if_neg hlength]
  by_cases hcontrol : name.toList.any Text.isControl = true
  · rw [if_pos hcontrol]
    refine iff_of_false (nomatch ·) fun h => ?_
    obtain ⟨c, hc, hcc⟩ := List.any_eq_true.1 hcontrol
    exact ne_true_of_eq_false (h.2.2 c hc) hcc
  · rw [if_neg hcontrol]
    refine iff_of_true rfl ⟨?_, Nat.not_lt.1 hlength, fun c hc => ?_⟩
    · by_contra hnone
      exact hblank (trim_isEmpty_iff.2 fun c hc => Bool.of_not_eq_false fun h => hnone ⟨c, hc, h⟩)
    · exact Bool.of_not_eq_true fun h => hcontrol (List.any_eq_true.2 ⟨c, hc, h⟩)

end Limits

namespace Provider

def after (p : Provider) : ProviderCall → Provider
  | .addSource name schema elements =>
    match p.addSource name schema elements with
    | .ok p' => p'
    | .error _ => p
  | .addUnderSchemaName schema elements =>
    match p.addUnderSchemaName schema elements with
    | .ok p' => p'
    | .error _ => p
  | .removeSource name => p.removeSource name

def Fresh (p : Provider) : Prop := p = new ∨ ∃ policy limits, withConfig policy limits = .ok p

def Reachable (p : Provider) : Prop :=
  ∃ start, Fresh start ∧ ∃ calls : List ProviderCall, p = calls.foldl after start

variable {p p' : Provider} {name : String}

theorem limits_addSource {schema : Schema} {elements : List Record}
    (h : p.addSource name schema elements = .ok p') : p'.limits = p.limits := by
  obtain ⟨registry, -, rfl⟩ := map_eq_ok.1 h
  rfl

theorem limits_after (p : Provider) (call : ProviderCall) : (p.after call).limits = p.limits := by
  cases call with
  | addSource name schema elements =>
    rw [after]
    split
    · next h => exact limits_addSource h
    · rfl
  | addUnderSchemaName schema elements =>
    rw [after]
    split
    · next h => exact limits_addSource h
    · rfl
  | removeSource name => rfl

theorem limits_foldl_after (calls : List ProviderCall) (p : Provider) :
    (calls.foldl after p).limits = p.limits := by
  induction calls generalizing p with
  | nil => rfl
  | cons call calls ih => rw [List.foldl_cons, ih, limits_after]

theorem check_limits (h : p.Reachable) : p.limits.check = .ok () := by
  obtain ⟨start, hfresh, calls, rfl⟩ := h
  rw [limits_foldl_after]
  rcases hfresh with rfl | ⟨policy, limits, hconfig⟩
  · rfl
  · obtain ⟨hcheck, hstart⟩ := seq_eq_ok.1 hconfig
    cases hstart
    exact hcheck

end Provider

def Request.single (name path : String) : Request := (Request.ofSource name).addColumn path

theorem Limits.checkRequest_single {l : Limits} (hl : l.check = .ok ()) (name : String)
    {path : String} (hpath : l.Admits path) :
    l.checkRequest (.single name path) = .ok () ↔ checkSourceName name = .ok () := by
  have hselect : 1 ≤ l.maxSelect :=
    Nat.one_le_iff_ne_zero.2 (check_eq_ok.1 hl (.select, l.maxSelect) List.mem_cons_self)
  rw [checkRequest_eq_ok]
  refine ⟨And.left, fun hname => ⟨hname, checkCount_eq_ok.2 hselect, ?_⟩⟩
  refine ⟨checkCount_eq_ok.2 (Nat.zero_le _), checkCount_eq_ok.2 (Nat.zero_le _), fun item hitem => ?_,
    List.forall_mem_nil _, List.forall_mem_nil _⟩
  rwa [List.mem_singleton.1 hitem]

theorem Registry.wellFormed_single {r : Registry} {source : Source} {name path : String}
    (hfind : r.find? name = some source) (hpath : source.schema.Resolves path) :
    r.WellFormed (.single name path) ↔ ∃ c ∈ name.toList, Text.isBlank c = false := by
  refine ⟨fun h => h.source_not_blank, fun hname => ⟨List.cons_ne_nil _ _, hname, nofun, source, hfind, ?_⟩⟩
  refine ⟨List.forall_mem_nil _, List.forall_mem_nil _, fun item hitem => ?_⟩
  rwa [List.mem_singleton.1 hitem]

theorem Registry.exists_find? {r : Registry} {name : String} (h : name ∈ r.names) :
    ∃ source, r.find? name = some source := by
  obtain ⟨source, hmem, hname⟩ := List.mem_map.1 h
  refine Option.isSome_iff_exists.1 (List.find?_isSome.2 ⟨source, hmem, ?_⟩)
  exact decide_eq_true hname

/-- A registered source whose name is not blank answers for every selector of its schema that the limits
admit, unless its name is too long for a request or holds control characters. -/
theorem Provider.registered_queryable {p : Provider} (h : p.Reachable) {name : String}
    (hname : name ∈ p.sources) (hblank : ∃ c ∈ name.toList, Text.isBlank c = false) :
    ∃ source, p.registry.get name = .ok source ∧
      ∀ path, source.schema.Resolves path → p.limits.Admits path →
        ((∃ plan, p.prepare (.single name path) = .ok plan) ↔
          name.utf8ByteSize ≤ 256 ∧ ∀ c ∈ name.toList, Text.isControl c = false) := by
  obtain ⟨source, hfind⟩ := Registry.exists_find? hname
  refine ⟨source, Registry.get_eq_ok.2 hfind, fun path hpath hadmits => ?_⟩
  have hplan : ∃ plan, p.registry.plan (.single name path) = .ok plan :=
    ((p.registry.runs_plan _).passes_iff.symm.trans Registry.passes_checks_iff).2
      ((Registry.wellFormed_single hfind hpath).2 hblank)
  have hlimits := Limits.checkRequest_single (check_limits h) name hadmits
  rw [Limits.checkSourceName_eq_ok, and_iff_right hblank] at hlimits
  simp only [prepare, seq_eq_ok, exists_and_left, hplan, and_true]
  exact hlimits

def nodeArchive : Provider :=
  [.addSource "entries" entrySchema [entry 1 none], .addUnderSchemaName quotedSchema [],
    .addSource "entries" entrySchema [], .addSource "" entrySchema [], .removeSource "entries"].foldl
    Provider.after ⟨.empty .replace, { Limits.standard with maxSelectorDepth := 2 }⟩

theorem nodeArchive_queryable : nodeArchive.Reachable ∧ "Node" ∈ nodeArchive.sources ∧
    ∃ plan, nodeArchive.prepare (.single "Node" "'p.Id") = .ok plan := by
  have hreachable : nodeArchive.Reachable :=
    ⟨_, .inr ⟨.replace, { Limits.standard with maxSelectorDepth := 2 }, rfl⟩, _, rfl⟩
  have hname : "Node" ∈ nodeArchive.sources := List.mem_cons_self
  refine ⟨hreachable, hname, ?_⟩
  obtain ⟨source, hget, hquery⟩ := Provider.registered_queryable hreachable hname ⟨'N', by decide, by decide⟩
  have hsource : nodeArchive.registry.get "Node" = .ok ⟨"Node", quotedSchema, []⟩ := rfl
  cases hsource.symm.trans hget
  have hcontrol : ∀ c ∈ "Node".toList, Text.isControl c = false :=
    List.forall_iff_forall_mem.1 ⟨rfl, rfl, rfl, rfl⟩
  exact (hquery "'p.Id" ⟨_, rfl⟩ ⟨by decide, by decide⟩).2 ⟨by decide, hcontrol⟩

/-- A name with a line break can be registered and not queried. -/
theorem not_registered_queryable : ¬ ∀ (p : Provider) (name path : String) (source : Source),
    p.Reachable → name ∈ p.sources → p.registry.get name = .ok source →
      source.schema.Resolves path → p.limits.Admits path →
        ∃ plan, p.prepare (.single name path) = .ok plan := by
  intro hall
  let p : Provider := Provider.new.after (.addSource "a\nb" entrySchema [])
  have hreachable : p.Reachable := ⟨.new, .inl rfl, [.addSource "a\nb" entrySchema []], rfl⟩
  obtain ⟨plan, hplan⟩ := hall p "a\nb" "Group" _ hreachable List.mem_cons_self rfl ⟨_, rfl⟩
    ⟨by decide, by decide⟩
  have hprepare : p.prepare (.single "a\nb" "Group") = .error (.sourceNameControl "a\nb") := rfl
  exact nomatch hprepare.symm.trans hplan

end RecordQuery
