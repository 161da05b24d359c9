import RecordQuery.Provider
import RecordQuery.Proofs.Traversal

/-! What a successful compilation says: which parts were compiled from which, for a clause, for the
lists of a request, for a plan against a registry and for a provider behind its limits. -/

namespace RecordQuery

theorem parse_eq_ok {text : String} {op : Operator} :
    Operator.parse text = .ok op ↔ Operator.ofText? text = some op := by
  unfold Operator.parse
  split
  · next h =>
    rw [h]
    exact ⟨fun h => congrArg _ (Except.ok.inj h), fun h => congrArg _ (Option.some.inj h)⟩
  · next h =>
    rw [h]
    exact ⟨(nomatch ·), (nomatch ·)⟩

namespace Schema

theorem compileValue_eq_ok {s : Schema} {left : Selector} {text : String} {right : Operand} :
    s.compileValue left text = .ok right ↔
      (∃ content v, unquote? text = some content ∧ left.kind.coerce content = .ok v ∧ right = .literal v) ∨
        ∃ other, unquote? text = none ∧ s.resolve text = .ok other ∧
          left.kind.comparableWith other.kind = true ∧ right = .field other := by
  unfold compileValue
  cases unquote? text with
  | some content =>
    constructor
    · intro h
      obtain ⟨v, hv, rfl⟩ := map_eq_ok.1 h
      exact .inl ⟨content, v, rfl, hv, rfl⟩
    · rintro (⟨content', v, hq, hv, rfl⟩ | ⟨_, hq, -⟩)
      · cases hq
        exact map_eq_ok.2 ⟨v, hv, rfl⟩
      · exact nomatch hq
  | none =>
    change (s.resolve text >>= _) = _ ↔ _
    rw [bind_eq_ok]
    constructor
    · rintro ⟨other, hother, h⟩
      split at h
      · next hkind => exact .inr ⟨other, rfl, hother, hkind, (Except.ok.inj h).symm⟩
      · exact nomatch h
    · rintro (⟨_, _, hq, -⟩ | ⟨other, -, hother, hkind, rfl⟩)
      · exact nomatch hq
      · exact ⟨other, hother, if_pos hkind⟩

theorem compileOperand_eq_ok {s : Schema} {clause : FilterClause} {left : Selector} {op : Operator}
    {right : Operand} (h : s.compileOperand clause left op = .ok right) :
    (∃ text, clause.value = some text ∧ op ≠ .among ∧ s.compileValue left text = .ok right) ∨
      ∃ values, clause.values = some values ∧ clause.value.filter (!·.isEmpty) = none ∧ op = .among ∧
        compileSet left values = .ok right := by
  unfold compileOperand at h
  split at h
  · exact nomatch h
  · exact nomatch h
  · next hvalue hvalues => exact .inr ⟨_, Option.eq_some_of_filter_eq_some hvalues, hvalue, rfl, h⟩
  · exact nomatch h
  · exact nomatch h
  · next hop hvalue _ => exact .inl ⟨_, Option.eq_some_of_filter_eq_some hvalue, hop, h⟩

theorem compileClause_eq_ok {s : Schema} {clause : FilterClause} {c : Condition} :
    s.compileClause clause = .ok c ↔ s.resolve clause.selector = .ok c.left ∧
      Operator.ofText? clause.operator = some c.operator ∧
      s.compileOperand clause c.left c.operator = .ok c.right := by
  rw [compileClause, bind_eq_ok]
  constructor
  · rintro ⟨left, hl, h⟩
    obtain ⟨op, ho, h⟩ := bind_eq_ok.1 h
    obtain ⟨right, hr, h⟩ := bind_eq_ok.1 h
    cases h
    exact ⟨hl, parse_eq_ok.1 ho, hr⟩
  · rintro ⟨hl, ho, hr⟩
    exact ⟨c.left, hl, bind_eq_ok.2 ⟨c.operator, parse_eq_ok.2 ho, bind_eq_ok.2 ⟨c.right, hr, rfl⟩⟩⟩

theorem compileFilters_eq_ok {s : Schema} {clauses : List FilterClause} {p : Predicate} :
    s.compileFilters clauses = .ok p ↔
      List.Forall₂ (fun clause c => s.compileClause clause = .ok c) clauses p.conditions := by
  rw [compileFilters, map_eq_ok]
  simp only [mapM_eq_ok]
  constructor
  · rintro ⟨cs, h, rfl⟩
    exact h
  · intro h
    exact ⟨p.conditions, h, rfl⟩

theorem compileOrder_eq_ok {s : Schema} {keys : List SortKey} {order : SortOrder} :
    s.compileOrder keys = .ok order ↔ List.Forall₂ (fun key k =>
      s.resolve key.selector = .ok k.selector ∧ k.direction = key.direction) keys order.keys := by
  have hkey (key : SortKey) (k : OrderKey) : s.compileKey key = .ok k ↔
      s.resolve key.selector = .ok k.selector ∧ k.direction = key.direction := by
    rw [compileKey, map_eq_ok]
    constructor
    · rintro ⟨selector, hs, rfl⟩
      exact ⟨hs, rfl⟩
    · rintro ⟨hs, hd⟩
      exact ⟨k.selector, hs, by rw [← hd]⟩
  simp only [compileOrder, map_eq_ok, mapM_eq_ok, hkey]
  constructor
  · rintro ⟨ks, h, rfl⟩
    exact h
  · intro h
    exact ⟨order.keys, h, rfl⟩

theorem compileSelect_eq_ok {s : Schema} {items : List SelectItem} {p : Projection} :
    s.compileSelect items = .ok p ↔ items ≠ [] ∧ List.Forall₂ (fun item e =>
      s.resolve item.selector = .ok e.selector ∧ e.column = ⟨item.outputName, item.selector⟩)
        items p.entries := by
  have hitem (item : SelectItem) (e : ProjectedColumn) : s.compileItem item = .ok e ↔
      s.resolve item.selector = .ok e.selector ∧ e.column = ⟨item.outputName, item.selector⟩ := by
    rw [compileItem, map_eq_ok]
    constructor
    · rintro ⟨selector, hs, rfl⟩
      exact ⟨hs, rfl⟩
    · rintro ⟨hs, hc⟩
      exact ⟨e.selector, hs, by rw [← hc]⟩
  unfold compileSelect
  cases items with
  | nil => exact iff_of_false (nomatch ·) fun h => h.1 rfl
  | cons item items =>
    simp only [List.isEmpty_cons, Bool.false_eq_true, if_false, map_eq_ok, mapM_eq_ok, hitem]
    constructor
    · rintro ⟨es, h, rfl⟩
      exact ⟨List.cons_ne_nil _ _, h⟩
    · rintro ⟨-, h⟩
      exact ⟨p.entries, h, rfl⟩

end Schema

namespace Registry

theorem get_eq_error {r : Registry} {name : String} {e : Error} :
    r.get name = .error e ↔ r.find? name = none ∧ e = .unknownSource name := by
  unfold get
  cases r.find? name with
  | none => exact ⟨fun h => ⟨rfl, (Except.error.inj h).symm⟩, fun h => congrArg _ h.2.symm⟩
  | some source => exact iff_of_false (nomatch ·) fun h => nomatch h.1

theorem get_eq_ok {r : Registry} {name : String} {source : Source} :
    r.get name = .ok source ↔ r.find? name = some source := by
  unfold get
  cases r.find? name with
  | none => exact iff_of_false (nomatch ·) (nomatch ·)
  | some source' => exact ⟨fun h => congrArg _ (Except.ok.inj h), fun h => congrArg _ (Option.some.inj h)⟩

end Registry

structure Registry.Compiles (r : Registry) (request : Request) (source : Source) (plan : Plan) :
    Prop where
  select_ne_nil : request.select ≠ []
  source_not_blank : (Text.trim request.source).isEmpty = false
  get_source : r.get request.source = .ok source
  window : request.limit.mapM Window.ofLimit = .ok plan.window
  filter : (nonempty? request.filters).mapM source.schema.compileFilters = .ok plan.filter
  order : (nonempty? request.order).mapM source.schema.compileOrder = .ok plan.order
  projection : source.schema.compileSelect request.select = .ok plan.projection
  source_eq : plan.source = source.name
  elements_eq : plan.elements = source.elements

theorem Registry.plan_eq_ok {r : Registry} {request : Request} {plan : Plan} :
    r.plan request = .ok plan ↔ ∃ source, r.Compiles request source plan := by
  unfold Registry.plan
  by_cases hs : request.select.isEmpty = true
  · rw [if_pos hs]
    exact iff_of_false (nomatch ·) fun ⟨_, h⟩ => h.select_ne_nil (List.isEmpty_iff.1 hs)
  by_cases hn : (Text.trim request.source).isEmpty = true
  · rw [if_neg hs, if_pos hn]
    exact iff_of_false (nomatch ·) fun ⟨_, h⟩ => absurd (h.source_not_blank.symm.trans hn) (by decide)
  rw [if_neg hs, if_neg hn, bind_eq_ok]
  constructor
  · rintro ⟨window, hw, h⟩
    obtain ⟨source, hsource, h⟩ := bind_eq_ok.1 h
    obtain ⟨filter, hf, h⟩ := bind_eq_ok.1 h
    obtain ⟨order, ho, h⟩ := bind_eq_ok.1 h
    obtain ⟨projection, hp, h⟩ := bind_eq_ok.1 h
    cases h
    exact ⟨source, fun h => hs (List.isEmpty_iff.2 h), Bool.eq_false_iff.2 hn, hsource, hw, hf, ho,
      hp, rfl, rfl⟩
  · rintro ⟨source, h⟩
    refine ⟨plan.window, h.window, bind_eq_ok.2 ⟨source, h.get_source, ?_⟩⟩
    refine bind_eq_ok.2 ⟨plan.filter, h.filter, bind_eq_ok.2 ⟨plan.order, h.order, ?_⟩⟩
    refine bind_eq_ok.2 ⟨plan.projection, h.projection, ?_⟩
    rw [← h.source_eq, ← h.elements_eq]
    rfl

theorem Provider.prepare_eq_ok {p : Provider} {request : Request} {plan : Plan} :
    p.prepare request = .ok plan ↔
      p.limits.checkRequest request = .ok () ∧ ∃ source, p.registry.Compiles request source plan := by
  rw [Provider.prepare, seq_eq_ok, Registry.plan_eq_ok]

def Plan.conditions (p : Plan) : List Condition := (p.filter.map (·.conditions)).getD []

def Plan.orderKeys (p : Plan) : List OrderKey := (p.order.map (·.keys)).getD []

theorem nonempty?_mapM_eq_ok {α β ε : Type} {f : List α → Except ε β} {xs : List α} {y : Option β}
    (h : (nonempty? xs).mapM f = .ok y) : (xs = [] ∧ y = none) ∨ ∃ b, y = some b ∧ f xs = .ok b := by
  unfold nonempty? at h
  split at h
  · next hx => exact .inl ⟨List.isEmpty_iff.1 hx, (Except.ok.inj h).symm⟩
  · rcases option_mapM_eq_ok.1 h with ⟨hx, -⟩ | ⟨_, b, hx, hy, hb⟩
    · exact nomatch hx
    · exact .inr ⟨b, hy, Option.some.inj hx ▸ hb⟩

namespace Registry.Compiles

variable {r : Registry} {request : Request} {source : Source} {plan : Plan}

theorem conditions (h : r.Compiles request source plan) :
    List.Forall₂ (fun clause c => source.schema.compileClause clause = .ok c) request.filters
      plan.conditions := by
  rcases nonempty?_mapM_eq_ok h.filter with ⟨hx, hy⟩ | ⟨p, hy, hp⟩
  · rw [Plan.conditions, hx, hy]
    exact .nil
  · rw [Plan.conditions, hy]
    exact Schema.compileFilters_eq_ok.1 hp

theorem orderKeys (h : r.Compiles request source plan) :
    List.Forall₂ (fun key k => source.schema.resolve key.selector = .ok k.selector ∧
      k.direction = key.direction) request.order plan.orderKeys := by
  rcases nonempty?_mapM_eq_ok h.order with ⟨hx, hy⟩ | ⟨order, hy, ho⟩
  · rw [Plan.orderKeys, hx, hy]
    exact .nil
  · rw [Plan.orderKeys, hy]
    exact Schema.compileOrder_eq_ok.1 ho

theorem entries (h : r.Compiles request source plan) :
    List.Forall₂ (fun item e => source.schema.resolve item.selector = .ok e.selector ∧
      e.column = ⟨item.outputName, item.selector⟩) request.select plan.projection.entries :=
  (Schema.compileSelect_eq_ok.1 h.projection).2

end Registry.Compiles

end RecordQuery
