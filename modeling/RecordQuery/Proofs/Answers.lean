import RecordQuery.Proofs.OrderKeys

/-! What a request asks for, said of its own texts: which elements satisfy its clauses, how its keys
order them, which page its limit cuts and what its selectors read. Running a prepared request gives
exactly that table. -/

namespace RecordQuery

variable {s : Schema} {clause : FilterClause}

namespace Schema

def cell (s : Schema) (path : String) (element : Record) : Value :=
  match s.resolve path with
  | .ok selector => selector.read element
  | .error _ => .null

theorem cell_eq {path : String} {selector : Selector} (h : s.resolve path = .ok selector)
    (element : Record) : s.cell path element = selector.read element := by
  rw [cell, h]

inductive Satisfies (s : Schema) (element : Record) (clause : FilterClause) : Prop
  | literal {left : Selector} {op : Operator} {text content : String} {v : Value}
      (hl : s.resolve clause.selector = .ok left) (ho : Operator.ofText? clause.operator = some op)
      (ht : clause.value = some text) (hq : unquote? text = some content)
      (hv : left.kind.coerce content = .ok v) (h : op.holds (left.read element) v = true)
  | field {left other : Selector} {op : Operator} {text : String}
      (hl : s.resolve clause.selector = .ok left) (ho : Operator.ofText? clause.operator = some op)
      (ht : clause.value = some text) (hq : unquote? text = none)
      (hr : s.resolve text = .ok other)
      (h : op.holds (left.read element) (other.read element) = true)
  | member {left : Selector} {entries : List String} {entry : String} {v : Value}
      (hl : s.resolve clause.selector = .ok left)
      (ho : Operator.ofText? clause.operator = some .among)
      (ht : clause.values = some entries) (hm : entry ∈ entries)
      (hv : left.kind.coerce ((unquote? entry).getD entry) = .ok v)
      (h : (left.read element).equals v = true)

def compareKeys (s : Schema) : List SortKey → Record → Record → Ordering
  | [], _, _ => .eq
  | key :: keys, x, y =>
    (key.direction.apply ((s.cell key.selector x).sortCompare (s.cell key.selector y))).then
      (s.compareKeys keys x y)

open Classical in
noncomputable def kept (s : Schema) (clauses : List FilterClause) (elements : List Record) :
    List Record :=
  elements.filter fun element => ∀ clause ∈ clauses, s.Satisfies element clause

end Schema

def page {α : Type} (limit : Option Limit) (xs : List α) : List α :=
  match limit with
  | none => xs
  | some l =>
    if l.take = 0 then xs.drop l.skip.toInt.toNat
    else (xs.drop l.skip.toInt.toNat).take l.take.toInt.toNat

/-- The table that a request asks of a source. Its sorted elements are the only stable sort of the
kept ones. -/
structure Answers (source : Source) (r : Request) (t : Table) : Prop where
  select_resolves : ∀ item ∈ r.select, ∃ selector, source.schema.resolve item.selector = .ok selector
  order_resolves : ∀ key ∈ r.order, ∃ selector, source.schema.resolve key.selector = .ok selector
  columns : t.columns = r.select.map fun item => ⟨item.label.getD item.selector, item.selector⟩
  rows : ∃ sorted,
    (∀ ys, StablySorted (source.schema.compareKeys r.order)
      (source.schema.kept r.filters source.elements) ys ↔ ys = sorted) ∧
    (r.order = [] → sorted = source.schema.kept r.filters source.elements) ∧
    t.rows = (page r.limit sorted).map fun element =>
      r.select.map fun item => source.schema.cell item.selector element

namespace Schema

theorem holds_of_compileValue {left : Selector} {op : Operator} {right : Operand} {text : String}
    (hl : s.resolve clause.selector = .ok left) (ho : Operator.ofText? clause.operator = some op)
    (ht : clause.value = some text) (hop : op ≠ .among) (hr : s.compileValue left text = .ok right)
    (element : Record) :
    Condition.holds ⟨left, op, right⟩ element = true ↔ s.Satisfies element clause := by
  rcases compileValue_eq_ok.1 hr with ⟨content, v, hq, hv, rfl⟩ | ⟨other, hq, hother, -, rfl⟩
  -- every look-up is a function, so that the other derivation reads the same parts
  · refine ⟨fun h => .literal hl ho ht hq hv h, fun h => ?_⟩
    cases h with
    | literal hl' ho' ht' hq' hv' h =>
      cases hl.symm.trans hl'
      cases ho.symm.trans ho'
      cases ht.symm.trans ht'
      cases hq.symm.trans hq'
      cases hv.symm.trans hv'
      exact h
    | field _ _ ht' hq' _ _ =>
      cases ht.symm.trans ht'
      exact nomatch hq.symm.trans hq'
    | member _ ho' _ _ _ _ => exact absurd (Option.some.inj (ho.symm.trans ho')) hop
  · refine ⟨fun h => .field hl ho ht hq hother h, fun h => ?_⟩
    cases h with
    | literal _ _ ht' hq' _ _ =>
      cases ht.symm.trans ht'
      exact nomatch hq.symm.trans hq'
    | field hl' ho' ht' _ hr' h =>
      cases hl.symm.trans hl'
      cases ho.symm.trans ho'
      cases ht.symm.trans ht'
      cases hother.symm.trans hr'
      exact h
    | member _ ho' _ _ _ _ => exact absurd (Option.some.inj (ho.symm.trans ho')) hop

theorem holds_of_compileSet {left : Selector} {right : Operand} {entries : List String}
    (hl : s.resolve clause.selector = .ok left)
    (ho : Operator.ofText? clause.operator = some .among) (ht : clause.values = some entries)
    (hr : compileSet left entries = .ok right) (element : Record) :
    Condition.holds ⟨left, .among, right⟩ element = true ↔ s.Satisfies element clause := by
  obtain ⟨vs, hvs, rfl⟩ := map_eq_ok.1 hr
  rw [mapM_eq_ok] at hvs
  refine Iff.trans List.any_eq_true ⟨fun ⟨v, hv, h⟩ => ?_, fun h => ?_⟩
  · obtain ⟨entry, hm, hv⟩ := forall₂_mem_right hvs hv
    exact .member hl ho ht hm hv h
  · cases h with
    | literal _ ho' _ _ _ h =>
      cases ho.symm.trans ho'
      exact nomatch h
    | field _ ho' _ _ _ h =>
      cases ho.symm.trans ho'
      exact nomatch h
    | member hl' _ ht' hm hv' h =>
      cases hl.symm.trans hl'
      cases ht.symm.trans ht'
      obtain ⟨_, hmem, hc⟩ := forall₂_mem_left hvs hm
      cases hc.symm.trans hv'
      exact ⟨_, hmem, h⟩

theorem holds_iff_satisfies {c : Condition} (h : s.compileClause clause = .ok c)
    (element : Record) : c.holds element = true ↔ s.Satisfies element clause := by
  obtain ⟨hl, ho, hr⟩ := compileClause_eq_ok.1 h
  obtain ⟨left, op, right⟩ := c
  rcases compileOperand_eq_ok hr with ⟨text, ht, hop, hr⟩ | ⟨entries, ht, -, rfl, hr⟩
  · exact holds_of_compileValue hl ho ht hop hr element
  · exact holds_of_compileSet hl ho ht hr element

theorem all_holds_iff {clauses : List FilterClause} {cs : List Condition}
    (h : List.Forall₂ (fun clause c => s.compileClause clause = .ok c) clauses cs)
    (element : Record) :
    (cs.all (·.holds element)) = true ↔ ∀ clause ∈ clauses, s.Satisfies element clause := by
  induction h with
  | nil => exact iff_of_true rfl (List.forall_mem_nil _)
  | cons hc _ ih =>
    rw [List.all_cons, Bool.and_eq_true, holds_iff_satisfies hc, ih, List.forall_mem_cons]

open Classical in
theorem filter_all_eq_kept {clauses : List FilterClause} {cs : List Condition}
    (h : List.Forall₂ (fun clause c => s.compileClause clause = .ok c) clauses cs)
    (elements : List Record) :
    (elements.filter fun element => cs.all (·.holds element)) = s.kept clauses elements := by
  refine List.filter_congr fun element _ => ?_
  rw [Bool.eq_iff_iff, all_holds_iff h, decide_eq_true_iff]

theorem compareBy_eq_compareKeys {keys : List SortKey} {ks : List OrderKey}
    (h : List.Forall₂ (fun key k => s.resolve key.selector = .ok k.selector ∧
      k.direction = key.direction) keys ks) :
    SortOrder.compareBy ks = s.compareKeys keys := by
  induction h with
  | nil => rfl
  | @cons key k keys ks hk _ ih =>
    obtain ⟨hs, hd⟩ := hk
    funext x y
    rw [SortOrder.compareBy, compareKeys, ih, OrderKey.compare, hd, cell_eq hs, cell_eq hs]

end Schema

theorem Window.apply_ofLimit {α : Type} {l : Limit} {w : Window} (h : ofLimit l = .ok w)
    (xs : List α) : w.apply xs = page (some l) xs := by
  unfold ofLimit at h
  split at h
  · exact nomatch h
  split at h
  · exact nomatch h
  cases h
  unfold apply page
  by_cases h0 : l.take = 0
  · simp only [if_pos h0]
  · simp only [if_neg h0]

namespace Plan

def kept (p : Plan) : List Record :=
  match p.filter with
  | none => p.elements
  | some predicate => p.elements.filter predicate.accepts

def sorted (p : Plan) : List Record :=
  match p.order with
  | none => p.kept
  | some order => order.sort p.kept

theorem kept_eq_filter (p : Plan) :
    p.kept = p.elements.filter fun element => p.conditions.all (·.holds element) := by
  unfold kept conditions
  cases p.filter with
  | none => exact (List.filter_eq_self.2 fun _ _ => rfl).symm
  | some predicate => rfl

theorem stablySorted_sorted (p : Plan) :
    StablySorted (SortOrder.compareBy p.orderKeys) p.kept p.sorted := by
  unfold sorted orderKeys
  cases p.order with
  | none => exact stablySorted_of_ascending (List.pairwise_of_forall fun _ _ => nofun)
  | some order =>
    have hsort := order.stablySorted_sortOn id p.kept
    rwa [order.compare_eq_compareBy] at hsort

end Plan

namespace Registry.Compiles

variable {r : Registry} {request : Request} {source : Source} {plan : Plan}

theorem kept_eq (h : r.Compiles request source plan) :
    plan.kept = source.schema.kept request.filters source.elements := by
  rw [plan.kept_eq_filter, h.elements_eq]
  exact Schema.filter_all_eq_kept h.conditions source.elements

theorem selected_eq_page (h : r.Compiles request source plan) :
    plan.selected = page request.limit plan.sorted := by
  unfold Plan.selected
  rcases option_mapM_eq_ok.1 h.window with ⟨hl, hw⟩ | ⟨l, w, hl, hw, hlw⟩
  · rw [hl, hw]
    rfl
  · rw [hl, hw]
    exact Window.apply_ofLimit hlw plan.sorted

theorem row_eq (h : r.Compiles request source plan) (element : Record) :
    plan.projection.row element =
      request.select.map fun item => source.schema.cell item.selector element :=
  (forall₂_map_eq h.entries fun _ _ he => Schema.cell_eq he.1 element).symm

/-- The plan's sorted elements are the stable sort of what the request keeps, and the only one. -/
theorem stablySorted_iff (h : r.Compiles request source plan) (ys : List Record) :
    StablySorted (source.schema.compareKeys request.order)
      (source.schema.kept request.filters source.elements) ys ↔ ys = plan.sorted := by
  have hsorted := plan.stablySorted_sorted
  rw [← Schema.compareBy_eq_compareKeys h.orderKeys, ← h.kept_eq]
  constructor
  · intro hys
    exact hys.unique hsorted
  · rintro rfl
    exact hsorted

theorem answers (h : r.Compiles request source plan) : Answers source request plan.run where
  select_resolves item hitem := by
    obtain ⟨e, -, he, -⟩ := forall₂_mem_left h.entries hitem
    exact ⟨e.selector, he⟩
  order_resolves key hkey := by
    obtain ⟨k, -, hk, -⟩ := forall₂_mem_left h.orderKeys hkey
    exact ⟨k.selector, hk⟩
  columns := (forall₂_map_eq h.entries fun _ _ he => he.2.symm).symm
  rows := by
    refine ⟨plan.sorted, h.stablySorted_iff, fun horder => ?_, ?_⟩
    · refine ((h.stablySorted_iff _).1 ?_).symm
      rw [horder]
      -- with no keys all elements are tied, so that the kept ones are their own stable sort
      exact stablySorted_of_ascending (List.pairwise_of_forall fun _ _ => nofun)
    · rw [← h.selected_eq_page]
      exact List.map_congr_left fun element _ => h.row_eq element

end Registry.Compiles

/-- Every request that can be prepared runs, and its table is what it asks of the source it names. -/
theorem Provider.executeQuery_answers {p : Provider} {request : Request} {plan : Plan}
    (h : p.prepare request = .ok plan) : ∃ source, p.registry.get request.source = .ok source ∧
      p.executeQuery request = .ok (p.executePlan plan) ∧
      Answers source request (p.executePlan plan) := by
  obtain ⟨-, source, hcompiles⟩ := prepare_eq_ok.1 h
  refine ⟨source, hcompiles.get_source, ?_, hcompiles.answers⟩
  rw [executeQuery, h]
  rfl

def entryProvider : Provider :=
  ⟨⟨.reject, [⟨"entries", entrySchema, [entry 1 (some .zero), entry 2 none, entry 0 none,
    entry 2 (some .negZero), entry 1 none]⟩]⟩, .standard⟩

def positiveGroups : Request :=
  ⟨[⟨"group", some "G"⟩, ⟨"Score", none⟩], "entries", [⟨"Group", ">", some "'0'", none⟩],
    [⟨"Group", .descending⟩], some ⟨1, 2⟩⟩

theorem positiveGroups_answered : ∃ source plan, entryProvider.prepare positiveGroups = .ok plan ∧
    entryProvider.executeQuery positiveGroups = .ok (entryProvider.executePlan plan) ∧
    Answers source positiveGroups (entryProvider.executePlan plan) := by
  have h : entryProvider.prepare positiveGroups = .ok _ := rfl
  obtain ⟨source, -, hrun, hanswers⟩ := Provider.executeQuery_answers h
  exact ⟨source, _, h, hrun, hanswers⟩

end RecordQuery
