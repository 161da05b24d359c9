import RecordQuery.Schema.Builder
import RecordQuery.Proofs.Compilation
import RecordQuery.Proofs.Segments

/-! The limits on selectors against the selectors that a plan holds. The check takes every value
that begins with a quote for a literal; compilation takes only a closed quotation for one. A plan
therefore keeps to the limits exactly when its unclosed quotations do. -/

namespace RecordQuery

namespace Limits

def Admits (l : Limits) (path : String) : Prop :=
  path.utf8ByteSize ≤ l.maxSelectorLength ∧ path.toList.count '.' + 1 ≤ l.maxSelectorDepth

theorem checkSelector_eq_ok {l : Limits} {path : String} :
    l.checkSelector path = .ok () ↔ l.Admits path := by
  unfold checkSelector Admits
  rw [Text.length_pieces]
  by_cases hbytes : l.maxSelectorLength < path.utf8ByteSize
  · rw [if_pos hbytes]
    exact iff_of_false (nomatch ·) fun h => absurd h.1 (Nat.not_le.2 hbytes)
  by_cases hdepth : l.maxSelectorDepth < path.toList.count '.' + 1
  · rw [if_neg hbytes, if_pos hdepth]
    exact iff_of_false (nomatch ·) fun h => absurd h.2 (Nat.not_le.2 hdepth)
  · rw [if_neg hbytes, if_neg hdepth]
    exact iff_of_true rfl ⟨Nat.not_lt.1 hbytes, Nat.not_lt.1 hdepth⟩

theorem checkCount_eq_ok {part : CountedPart} {count max : Nat} :
    checkCount part count max = .ok () ↔ count ≤ max := by
  unfold checkCount
  by_cases h : max < count
  · rw [if_pos h]
    exact iff_of_false (nomatch ·) (Nat.not_le.2 h)
  · rw [if_neg h]
    exact iff_of_true rfl (Nat.not_lt.1 h)

theorem checkClause_eq_ok {l : Limits} {clause : FilterClause} :
    l.checkClause clause = .ok () ↔ l.Admits clause.selector ∧
      (∀ text, otherSelector? clause = some text → l.Admits text) ∧
      (clause.values.forM fun vs => checkCount .values vs.length l.maxValues) = .ok () := by
  simp only [checkClause, seq_eq_ok, option_forM_eq_ok, checkSelector_eq_ok]

theorem checkRequest_eq_ok {l : Limits} {request : Request} :
    l.checkRequest request = .ok () ↔ checkSourceName request.source = .ok () ∧
      checkCount .select request.select.length l.maxSelect = .ok () ∧
      checkCount .filters request.filters.length l.maxFilters = .ok () ∧
      checkCount .order request.order.length l.maxOrder = .ok () ∧
      (∀ item ∈ request.select, l.Admits item.selector) ∧
      (∀ clause ∈ request.filters, l.checkClause clause = .ok ()) ∧
      ∀ key ∈ request.order, l.Admits key.selector := by
  simp only [checkRequest, seq_eq_ok, forM_eq_ok, checkSelector_eq_ok]

theorem checkClause_ok {l : Limits} {clause : FilterClause} (h : l.checkClause clause = .ok ()) :
    l.Admits clause.selector ∧
      ∀ text, clause.value = some text → text.toList.head? ≠ some '\'' → l.Admits text := by
  obtain ⟨hleft, hother, -⟩ := checkClause_eq_ok.1 h
  refine ⟨hleft, fun text ht hq => hother text ?_⟩
  rw [otherSelector?, ht, Option.filter_some, if_pos (decide_eq_true hq)]

theorem checkRequest_ok {l : Limits} {request : Request} (h : l.checkRequest request = .ok ()) :
    (∀ item ∈ request.select, l.Admits item.selector) ∧
      (∀ clause ∈ request.filters, l.checkClause clause = .ok ()) ∧
      ∀ key ∈ request.order, l.Admits key.selector := by
  obtain ⟨-, -, -, -, hadmits⟩ := checkRequest_eq_ok.1 h
  exact hadmits

end Limits

namespace Schema

theorem follow_path {s : Schema} {path : String} {id : Nat} {segments : List String}
    {selector : Selector} (h : s.follow path id segments = .ok selector) :
    selector.path = path := by
  induction segments generalizing id selector with
  | nil => exact nomatch h
  | cons segment rest ih =>
    unfold follow at h
    split at h
    · exact nomatch h
    split at h
    · exact nomatch h
    split at h
    · cases h
      rfl
    · exact nomatch h
    · exact nomatch h
    · obtain ⟨inner, hinner, rfl⟩ := map_eq_ok.1 h
      have hpath : inner.path = path := ih hinner
      exact hpath

theorem resolve_path {s : Schema} {path : String} {selector : Selector}
    (h : s.resolve path = .ok selector) : selector.path = path :=
  follow_path (mapError_eq_ok.1 h)

end Schema

/-- A text that a quote opens and no second one closes at its end. -/
def Unclosed (text : String) : Prop := ∃ cs, text.toList = '\'' :: cs ∧ cs.getLast? ≠ some '\''

theorem unquote?_eq_none {text : String} :
    unquote? text = none ↔ text.toList.head? ≠ some '\'' ∨ Unclosed text := by
  unfold unquote?
  split
  · next cs hcs =>
    rw [hcs]
    by_cases hlast : cs.getLast? = some '\''
    · rw [if_pos hlast]
      refine iff_of_false (nomatch ·) ?_
      rintro (h | ⟨cs', hcs', h⟩)
      · exact h rfl
      · obtain ⟨-, rfl⟩ := List.cons.inj (hcs.symm.trans hcs')
        exact h hlast
    · rw [if_neg hlast]
      exact iff_of_true rfl (.inr ⟨cs, hcs, hlast⟩)
  · next hno =>
    refine iff_of_true rfl (.inl fun h => ?_)
    obtain ⟨cs, hcs⟩ := List.head?_eq_some_iff.1 h
    exact hno cs hcs

def Condition.selectors (c : Condition) : List Selector :=
  match c.right with
  | .field other => [c.left, other]
  | _ => [c.left]

def Plan.selectors (p : Plan) : List Selector :=
  p.conditions.flatMap (·.selectors) ++ p.orderKeys.map (·.selector) ++
    p.projection.entries.map (·.selector)

theorem Condition.mem_selectors {c : Condition} {selector : Selector} :
    selector ∈ c.selectors ↔ selector = c.left ∨ c.right = .field selector := by
  unfold selectors
  split
  · next other h =>
    rw [h, List.mem_pair, Operand.field.injEq]
    exact or_congr_right eq_comm
  · next hno =>
    rw [List.mem_singleton]
    exact ⟨.inl, fun h => h.resolve_right (hno selector)⟩

namespace Schema

variable {s : Schema} {clause : FilterClause} {c : Condition}

theorem value_of_compileClause {other : Selector} (h : s.compileClause clause = .ok c)
    (hc : c.right = .field other) :
    clause.value = some other.path ∧ unquote? other.path = none := by
  obtain ⟨-, -, hright⟩ := compileClause_eq_ok.1 h
  rw [hc] at hright
  rcases compileOperand_eq_ok hright with ⟨text, ht, -, hvalue⟩ | ⟨values, -, -, -, hset⟩
  · rcases compileValue_eq_ok.1 hvalue with ⟨_, _, -, -, hv⟩ | ⟨other', hq, hother, -, hright⟩
    · exact nomatch hv
    · cases hright
      rw [resolve_path hother]
      exact ⟨ht, hq⟩
  · obtain ⟨vs, -, hvs⟩ := map_eq_ok.1 hset
    exact nomatch hvs

theorem compileClause_of_unclosed {text : String} (h : s.compileClause clause = .ok c)
    (ht : clause.value = some text) (hu : Unclosed text) :
    ∃ other, c.right = .field other ∧ other.path = text := by
  obtain ⟨-, -, hright⟩ := compileClause_eq_ok.1 h
  rcases compileOperand_eq_ok hright with ⟨text', ht', -, hvalue⟩ | ⟨values, -, hnone, -, -⟩
  · cases ht.symm.trans ht'
    rcases compileValue_eq_ok.1 hvalue with ⟨_, _, hq, -⟩ | ⟨other, -, hother, -, hright⟩
    · exact nomatch hq.symm.trans (unquote?_eq_none.2 (.inr hu))
    · exact ⟨other, hright, resolve_path hother⟩
  · obtain ⟨cs, hcs, -⟩ := hu
    have hempty : text.isEmpty = true := by
      rw [ht, Option.filter_some] at hnone
      by_contra hne
      rw [Bool.not_eq_true] at hne
      rw [hne] at hnone
      exact nomatch hnone
    rw [String.isEmpty_iff.1 hempty] at hcs
    exact nomatch hcs

end Schema

namespace Provider

variable {p : Provider} {request : Request} {plan : Plan}

/-- A selector of a plan is within the limits or the text of an unclosed quotation. -/
theorem admits_or_unclosed (h : p.prepare request = .ok plan) {selector : Selector}
    (hs : selector ∈ plan.selectors) : p.limits.Admits selector.path ∨
      ∃ clause ∈ request.filters, clause.value = some selector.path ∧ Unclosed selector.path := by
  obtain ⟨hcheck, source, hc⟩ := prepare_eq_ok.1 h
  obtain ⟨hselect, hfilters, horder⟩ := Limits.checkRequest_ok hcheck
  rcases List.mem_append.1 hs with hs | hs
  · rcases List.mem_append.1 hs with hs | hs
    · obtain ⟨c, hmem, hs⟩ := List.mem_flatMap.1 hs
      obtain ⟨clause, hclause, hcompile⟩ := forall₂_mem_right hc.conditions hmem
      obtain ⟨hleft, hother⟩ := Limits.checkClause_ok (hfilters clause hclause)
      rcases Condition.mem_selectors.1 hs with rfl | hright
      · rw [Schema.resolve_path (Schema.compileClause_eq_ok.1 hcompile).1]
        exact .inl hleft
      · -- the right side resolved, so it is no literal: it lacks a quote at its head or at its end
        obtain ⟨hvalue, hquote⟩ := Schema.value_of_compileClause hcompile hright
        rcases unquote?_eq_none.1 hquote with hhead | hunclosed
        · exact .inl (hother _ hvalue hhead)
        · exact .inr ⟨clause, hclause, hvalue, hunclosed⟩
    · obtain ⟨k, hmem, rfl⟩ := List.mem_map.1 hs
      obtain ⟨key, hkey, hresolve, -⟩ := forall₂_mem_right hc.orderKeys hmem
      rw [Schema.resolve_path hresolve]
      exact .inl (horder key hkey)
  · obtain ⟨e, hmem, rfl⟩ := List.mem_map.1 hs
    obtain ⟨item, hitem, hresolve, -⟩ := forall₂_mem_right hc.entries hmem
    rw [Schema.resolve_path hresolve]
    exact .inl (hselect item hitem)

theorem exists_selector_of_unclosed (h : p.prepare request = .ok plan) {clause : FilterClause}
    {text : String} (hclause : clause ∈ request.filters) (ht : clause.value = some text)
    (hu : Unclosed text) :
    ∃ selector ∈ plan.selectors, selector.path = text := by
  obtain ⟨-, source, hc⟩ := prepare_eq_ok.1 h
  obtain ⟨c, hmem, hcompile⟩ := forall₂_mem_left hc.conditions hclause
  obtain ⟨other, hright, hpath⟩ := Schema.compileClause_of_unclosed hcompile ht hu
  have hselector : other ∈ c.selectors := Condition.mem_selectors.2 (.inr hright)
  refine ⟨other, ?_, hpath⟩
  exact List.mem_append_left _ (List.mem_append_left _ (List.mem_flatMap.2 ⟨c, hmem, hselector⟩))

/-- The selectors of a plan keep to the limits exactly when the request's unclosed quotations do. -/
theorem prepare_admits_iff (h : p.prepare request = .ok plan) :
    (∀ selector ∈ plan.selectors, p.limits.Admits selector.path) ↔
      ∀ clause ∈ request.filters, ∀ text, clause.value = some text → Unclosed text →
        p.limits.Admits text := by
  constructor
  · intro hall clause hclause text ht hu
    obtain ⟨selector, hmem, rfl⟩ := exists_selector_of_unclosed h hclause ht hu
    exact hall selector hmem
  · intro hunclosed selector hs
    rcases admits_or_unclosed h hs with hadmits | ⟨clause, hclause, hvalue, hu⟩
    · exact hadmits
    · exact hunclosed clause hclause _ hvalue hu

end Provider

def quotedSchema : Schema :=
  (((SchemaBuilder.new "Node").fieldOpt "Id" .int32 (Record.value? 0 .int32)).recursive "'p"
    (Record.child? 1)).build

def shallowProvider : Provider :=
  ⟨⟨.reject, [⟨"nodes", quotedSchema, []⟩]⟩, { Limits.standard with maxSelectorDepth := 2 }⟩

def nodesEqualTo (value : String) : Request :=
  ((Request.ofSource "nodes").addColumn "Id").addFilter "Id" "=" value

theorem nodesEqualTo_admits : ∃ plan, shallowProvider.prepare (nodesEqualTo "'p.Id") = .ok plan ∧
    ∀ selector ∈ plan.selectors, shallowProvider.limits.Admits selector.path := by
  have h : shallowProvider.prepare (nodesEqualTo "'p.Id") = .ok _ := rfl
  refine ⟨_, h, (Provider.prepare_admits_iff h).2 fun clause hclause text ht _ => ?_⟩
  obtain rfl := List.mem_singleton.1 hclause
  obtain rfl := Option.some.inj ht
  exact ⟨by decide, by decide⟩

/-- Behind an unclosed quotation a path of three segments passes a limit of two. -/
theorem not_prepare_admits : ¬ ∀ (p : Provider) (request : Request) (plan : Plan),
    p.limits.check = .ok () → p.prepare request = .ok plan →
      ∀ selector ∈ plan.selectors, p.limits.Admits selector.path := by
  intro hall
  have h : shallowProvider.prepare (nodesEqualTo "'p.'p.Id") = .ok _ := rfl
  have hadmits := hall _ _ _ rfl h _ (List.mem_cons_of_mem _ List.mem_cons_self)
  exact absurd hadmits.2 (by decide)

end RecordQuery
