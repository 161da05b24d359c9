import RecordQuery.Proofs.Answers
import RecordQuery.Proofs.LetterCase
import RecordQuery.Proofs.Nesting
import RecordQuery.Proofs.Planning
import RecordQuery.Proofs.Rectangles
import RecordQuery.Proofs.SelectorBounds

/-! Selectors in another spelling. Where no table has two fields whose names differ in case alone, a path
means the same in any case, and a request whose selectors are spelled otherwise has the same rows. -/

namespace RecordQuery

theorem SchemaNode.field?_eq_find? {n : SchemaNode}
    (h : n.fields.Pairwise fun f g => Text.sameLetters f.name g.name = false) (name : String) :
    n.field? name = n.fields.find? fun f => Text.sameLetters f.name name := by
  rw [field?_eq_or]
  cases hexact : n.fields.find? (fun f => f.name = name) with
  | none => exact Option.none_or
  | some f =>
    obtain ⟨hname, before, after, hfields, -⟩ := List.find?_eq_some_iff_append.1 hexact
    have hname : f.name = name := of_decide_eq_true hname
    rw [hfields, List.pairwise_append] at h
    have hbefore : before.find? (fun g => Text.sameLetters g.name name) = none := by
      rw [List.find?_eq_none]
      intro g hg
      rw [← hname, h.2.2 g hg f List.mem_cons_self]
      exact Bool.false_ne_true
    have hfirst : (f :: after).find? (fun g => Text.sameLetters g.name name) = some f :=
      List.find?_cons_of_pos (hname ▸ Text.sameLetters_refl f.name)
    rw [hfields, List.find?_append, hbefore, hfirst]
    rfl

namespace Schema

variable {s : Schema} {p q : String}

/-- No table has two fields whose names differ at most in case. -/
def DistinctLetters (s : Schema) : Prop :=
  ∀ n ∈ s.nodes, n.fields.Pairwise fun f g => Text.sameLetters f.name g.name = false

instance (s : Schema) : Decidable s.DistinctLetters :=
  inferInstanceAs (Decidable (∀ n ∈ s.nodes, n.fields.Pairwise _))

namespace DistinctLetters

theorem field?_eq (hs : s.DistinctLetters) (id : Nat) (hpq : Text.lower p = Text.lower q) :
    (s.node id).field? p = (s.node id).field? q := by
  have hdistinct : (s.node id).fields.Pairwise fun f g => Text.sameLetters f.name g.name = false :=
    forall_node_fields .nil hs id
  rw [SchemaNode.field?_eq_find? hdistinct, SchemaNode.field?_eq_find? hdistinct]
  simp only [Text.sameLetters, hpq]

theorem follow (hs : s.DistinctLetters) {id : Nat} {segments segments' : List String} {t : Selector}
    (hsame : segments.map Text.lower = segments'.map Text.lower) (h : s.follow p id segments = .ok t) :
    s.follow q id segments' = .ok { t with path := q } := by
  induction segments generalizing id segments' t with
  | nil => exact nomatch h
  | cons segment rest ih =>
    cases segments' with
    | nil => exact nomatch hsame
    | cons segment' rest' =>
      obtain ⟨hsegment, hrest⟩ := List.cons.inj hsame
      obtain ⟨hempty, f, hfield, hshape⟩ := follow_cons_eq_ok.1 h
      have hempty' : segment' ≠ "" := by
        rwa [ne_eq, ← Text.lower_eq_empty, ← hsegment, Text.lower_eq_empty]
      rw [hs.field?_eq id hsegment] at hfield
      apply follow_cons_eq_ok.2
      refine ⟨hempty', f, hfield, ?_⟩
      rcases hshape with ⟨kind, read, hshape, rfl, rfl⟩ | ⟨child, step, t', hshape, ht', rfl⟩
      · obtain rfl := List.map_eq_nil_iff.1 hrest.symm
        exact .inl ⟨kind, read, hshape, rfl, rfl⟩
      · exact .inr ⟨child, step, _, hshape, ih hrest ht', rfl⟩

theorem resolve (hs : s.DistinctLetters) (hpq : Text.sameLetters p q = true) {t : Selector}
    (h : s.resolve p = .ok t) : s.resolve q = .ok { t with path := q } := by
  have hsame : (Text.pieces '.' p).map Text.lower = (Text.pieces '.' q).map Text.lower := by
    rw [← Text.pieces_lower Text.isAlpha_dot, ← Text.pieces_lower Text.isAlpha_dot, Text.sameLetters_iff.1 hpq]
  exact mapError_eq_ok.2 (hs.follow hsame (mapError_eq_ok.1 h))

theorem resolves (hs : s.DistinctLetters) (hpq : Text.sameLetters p q = true) (h : s.Resolves p) :
    s.Resolves q := by
  obtain ⟨t, ht⟩ := h
  exact ⟨_, hs.resolve hpq ht⟩

theorem cell_eq (hs : s.DistinctLetters) (hpq : Text.sameLetters p q = true) : s.cell p = s.cell q := by
  funext element
  cases hp : s.resolve p with
  | ok t =>
    rw [Schema.cell_eq hp, Schema.cell_eq (hs.resolve hpq hp)]
    rfl
  | error e =>
    cases hq : s.resolve q with
    | ok u => exact nomatch hp.symm.trans (hs.resolve (Text.sameLetters_symm hpq) hq)
    | error e' => rw [cell, cell, hp, hq]

end DistinctLetters

end Schema

theorem unquote?_lower (text : String) : unquote? (Text.lower text) = (unquote? text).map Text.lower := by
  by_cases hhead : text.toList.head? = some '\''
  · obtain ⟨cs, hcs⟩ := List.head?_eq_some_iff.1 hhead
    have hlower : (Text.lower text).toList = '\'' :: cs.map Char.toLower := by
      rw [Text.toList_lower, hcs]
      rfl
    have hlast : (cs.map Char.toLower).getLast? = some '\'' ↔ cs.getLast? = some '\'' := by
      rw [List.getLast?_map, Text.map_toLower_eq_some Text.isAlpha_quote]
    unfold unquote?
    rw [hlower, hcs]
    simp only [hlast]
    split
    · rw [Option.map_some, Text.lower, String.toList_ofList, List.map_dropLast]
    · rfl
  · have hhead' : (Text.lower text).toList.head? ≠ some '\'' :=
      mt (Text.head?_lower Text.isAlpha_quote text).1 hhead
    rw [unquote?_eq_none.2 (.inl hhead), unquote?_eq_none.2 (.inl hhead')]
    rfl

/-- Another spelling of a value: the same text, or a path that differs at most in case. -/
def SameValue (a b : String) : Prop := a = b ∨ unquote? a = none ∧ Text.sameLetters a b = true

theorem unquote?_of_sameLetters {a b : String} (h : Text.sameLetters a b = true) (ha : unquote? a = none) :
    unquote? b = none := by
  rw [← Option.map_eq_none_iff (f := Text.lower), ← unquote?_lower, ← Text.sameLetters_iff.1 h, unquote?_lower,
    ha, Option.map_none]

namespace SameValue

variable {a b : String}

theorem symm (h : SameValue a b) : SameValue b a := by
  rcases h with rfl | ⟨hnone, hsame⟩
  · exact .inl rfl
  · exact .inr ⟨unquote?_of_sameLetters hsame hnone, Text.sameLetters_symm hsame⟩

theorem sameLetters (h : SameValue a b) : Text.sameLetters a b = true := by
  rcases h with rfl | ⟨-, hsame⟩
  · exact Text.sameLetters_refl a
  · exact hsame

theorem eq_of_quoted (h : SameValue a b) {content : String} (ha : unquote? a = some content) : a = b := by
  rcases h with rfl | ⟨hnone, -⟩
  · rfl
  · exact nomatch ha.symm.trans hnone

end SameValue

structure FilterClause.Respelled (c d : FilterClause) : Prop where
  selector : Text.sameLetters c.selector d.selector = true
  operator : d.operator = c.operator
  value : Option.Rel SameValue c.value d.value
  values : d.values = c.values

structure Request.Respelled (r q : Request) : Prop where
  select : List.Forall₂ (fun i j => Text.sameLetters i.selector j.selector = true ∧ j.label = i.label)
    r.select q.select
  filters : List.Forall₂ FilterClause.Respelled r.filters q.filters
  order : List.Forall₂ (fun k l => Text.sameLetters k.selector l.selector = true ∧ l.direction = k.direction)
    r.order q.order
  source : q.source = r.source
  limit : q.limit = r.limit

theorem rel_flip {α β : Type} {R : α → β → Prop} {S : β → α → Prop} {x : Option α} {y : Option β}
    (h : Option.Rel R x y) (hRS : ∀ a b, R a b → S b a) : Option.Rel S y x := by
  cases h with
  | none => exact .none
  | some h => exact .some (hRS _ _ h)

theorem rel_filter {α β : Type} {R : α → β → Prop} {x : Option α} {y : Option β} {keep : α → Bool}
    {keep' : β → Bool} (h : Option.Rel R x y) (hkeep : ∀ a b, R a b → keep a = keep' b) :
    Option.Rel R (x.filter keep) (y.filter keep') := by
  cases h with
  | none => exact .none
  | some h =>
    rw [Option.filter_some, Option.filter_some, hkeep _ _ h]
    split
    · exact .some h
    · exact .none

theorem exists_of_rel {α β : Type} {R : α → β → Prop} {x : Option α} {y : Option β} (h : Option.Rel R x y)
    {a : α} (ha : x = some a) : ∃ b, y = some b ∧ R a b := by
  subst ha
  cases h with
  | some h => exact ⟨_, rfl, h⟩

namespace FilterClause.Respelled

variable {c d : FilterClause}

theorem refl (c : FilterClause) : c.Respelled c where
  selector := Text.sameLetters_refl c.selector
  operator := rfl
  value := by
    cases c.value with
    | none => exact .none
    | some text => exact .some (.inl rfl)
  values := rfl

theorem symm (h : c.Respelled d) : d.Respelled c where
  selector := Text.sameLetters_symm h.selector
  operator := h.operator.symm
  value := rel_flip h.value fun _ _ hab => hab.symm
  values := h.values.symm

theorem givenValue (h : c.Respelled d) : Option.Rel SameValue c.givenValue? d.givenValue? := by
  apply rel_filter h.value
  intro a b hab
  rw [Text.isEmpty_of_sameLetters hab.sameLetters]

theorem givenSet (h : c.Respelled d) : d.givenSet? = c.givenSet? := by
  rw [FilterClause.givenSet?, FilterClause.givenSet?, h.values]

theorem otherSelector (h : c.Respelled d) :
    Option.Rel SameValue (Limits.otherSelector? c) (Limits.otherSelector? d) := by
  apply rel_filter h.value
  intro a b hab
  rw [decide_eq_decide, not_iff_not, ← Text.head?_lower Text.isAlpha_quote a,
    Text.sameLetters_iff.1 hab.sameLetters, Text.head?_lower Text.isAlpha_quote b]

end FilterClause.Respelled

namespace Limits

variable {l : Limits}

theorem Admits.respell {p q : String} (h : l.Admits p) (hpq : Text.sameLetters p q = true) : l.Admits q := by
  unfold Admits
  rwa [← Text.utf8ByteSize_lower, ← Text.count_lower Text.isAlpha_dot, ← Text.sameLetters_iff.1 hpq,
    Text.utf8ByteSize_lower, Text.count_lower Text.isAlpha_dot]

theorem checkClause_respelled {c d : FilterClause} (hcd : c.Respelled d) (h : l.checkClause c = .ok ()) :
    l.checkClause d = .ok () := by
  obtain ⟨hleft, hother, hvalues⟩ := checkClause_eq_ok.1 h
  refine checkClause_eq_ok.2 ⟨hleft.respell hcd.selector, fun text htext => ?_, ?_⟩
  · obtain ⟨text', htext', hsame⟩ := exists_of_rel hcd.symm.otherSelector htext
    exact (hother text' htext').respell hsame.symm.sameLetters
  · rwa [hcd.values]

theorem checkRequest_respelled {r q : Request} (hrq : r.Respelled q) (h : l.checkRequest r = .ok ()) :
    l.checkRequest q = .ok () := by
  obtain ⟨hsource, hselect, hfilters, horder, hitems, hclauses, hkeys⟩ := checkRequest_eq_ok.1 h
  rw [checkRequest_eq_ok, hrq.source, ← hrq.select.length_eq, ← hrq.filters.length_eq, ← hrq.order.length_eq]
  refine ⟨hsource, hselect, hfilters, horder, fun item hitem => ?_, fun clause hclause => ?_, fun key hkey => ?_⟩
  · obtain ⟨item', hitem', hsame, -⟩ := forall₂_mem_right hrq.select hitem
    exact (hitems item' hitem').respell hsame
  · obtain ⟨clause', hclause', hsame⟩ := forall₂_mem_right hrq.filters hclause
    exact checkClause_respelled hsame (hclauses clause' hclause')
  · obtain ⟨key', hkey', hsame, -⟩ := forall₂_mem_right hrq.order hkey
    exact (hkeys key' hkey').respell hsame

end Limits

namespace Schema

variable {s : Schema} {c d : FilterClause} {left : Selector}

theorem AdmitsValue.respell {a b : String} (h : s.AdmitsValue left a) (hs : s.DistinctLetters)
    (hab : SameValue a b) : s.AdmitsValue left b := by
  rcases hab with rfl | ⟨hnone, hsame⟩
  · exact h
  · unfold AdmitsValue at h ⊢
    rw [hnone] at h
    rw [unquote?_of_sameLetters hsame hnone]
    obtain ⟨other, hother, hkind⟩ := h
    exact ⟨_, hs.resolve hsame hother, hkind⟩

theorem Admits.respell (h : s.Admits c) (hs : s.DistinctLetters) (hcd : c.Respelled d) : s.Admits d := by
  cases h with
  | value hleft hop hsingle hvalue hset hadmits =>
    obtain ⟨text, htext, hsame⟩ := exists_of_rel hcd.givenValue hvalue
    rw [← hcd.operator] at hop
    rw [← hcd.givenSet] at hset
    exact .value (hs.resolve hcd.selector hleft) hop hsingle htext hset (hadmits.respell hs hsame)
  | set hleft hop hvalue hset hentries =>
    have hnone : d.givenValue? = none := by
      apply Option.eq_none_iff_forall_ne_some.2
      intro text htext
      obtain ⟨_, hsome, -⟩ := exists_of_rel hcd.symm.givenValue htext
      exact nomatch hvalue.symm.trans hsome
    rw [← hcd.operator] at hop
    rw [← hcd.givenSet] at hset
    exact .set (hs.resolve hcd.selector hleft) hop hnone hset hentries

theorem Satisfies.respell {element : Record} (h : s.Satisfies element c) (hs : s.DistinctLetters)
    (hcd : c.Respelled d) : s.Satisfies element d := by
  cases h with
  | literal hl ho ht hq hv h =>
    obtain ⟨text, htext, hsame⟩ := exists_of_rel hcd.value ht
    obtain rfl := hsame.eq_of_quoted hq
    rw [← hcd.operator] at ho
    exact .literal (hs.resolve hcd.selector hl) ho htext hq hv h
  | field hl ho ht hq hr h =>
    obtain ⟨text, htext, hsame⟩ := exists_of_rel hcd.value ht
    have hsame := hsame.sameLetters
    rw [← hcd.operator] at ho
    exact .field (hs.resolve hcd.selector hl) ho htext (unquote?_of_sameLetters hsame hq)
      (hs.resolve hsame hr) h
  | member hl ho ht hm hv h =>
    rw [← hcd.operator] at ho
    rw [← hcd.values] at ht
    exact .member (hs.resolve hcd.selector hl) ho ht hm hv h

open Classical in
theorem kept_respelled (hs : s.DistinctLetters) {clauses clauses' : List FilterClause}
    (h : List.Forall₂ FilterClause.Respelled clauses clauses') (elements : List Record) :
    s.kept clauses elements = s.kept clauses' elements := by
  refine List.filter_congr fun element _ => ?_
  rw [decide_eq_decide]
  constructor
  · intro hall clause hclause
    obtain ⟨clause', hclause', hsame⟩ := forall₂_mem_right h hclause
    exact (hall clause' hclause').respell hs hsame
  · intro hall clause hclause
    obtain ⟨clause', hclause', hsame⟩ := forall₂_mem_left h hclause
    exact (hall clause' hclause').respell hs hsame.symm

theorem compareKeys_respelled (hs : s.DistinctLetters) {keys keys' : List SortKey}
    (h : List.Forall₂ (fun k l => Text.sameLetters k.selector l.selector = true ∧ l.direction = k.direction)
      keys keys') : s.compareKeys keys = s.compareKeys keys' := by
  induction h with
  | nil => rfl
  | cons hkey _ ih =>
    funext x y
    rw [compareKeys, compareKeys, ih, hs.cell_eq hkey.1, hkey.2]

end Schema

theorem Request.Respelled.refl (r : Request) : r.Respelled r where
  select := List.forall₂_same.2 fun item _ => ⟨Text.sameLetters_refl item.selector, rfl⟩
  filters := List.forall₂_same.2 fun clause _ => .refl clause
  order := List.forall₂_same.2 fun key _ => ⟨Text.sameLetters_refl key.selector, rfl⟩
  source := rfl
  limit := rfl

theorem Request.Respelled.symm {r q : Request} (h : r.Respelled q) : q.Respelled r where
  select := (h.select.imp fun _ _ hij => ⟨Text.sameLetters_symm hij.1, hij.2.symm⟩).flip
  filters := (h.filters.imp fun _ _ hcd => hcd.symm).flip
  order := (h.order.imp fun _ _ hkl => ⟨Text.sameLetters_symm hkl.1, hkl.2.symm⟩).flip
  source := h.source.symm
  limit := h.limit.symm

theorem Registry.WellFormed.respell {registry : Registry} {r q : Request} (h : registry.WellFormed r)
    (hs : ∀ source, registry.find? r.source = some source → source.schema.DistinctLetters)
    (hrq : r.Respelled q) : registry.WellFormed q := by
  obtain ⟨source, hsource, hfilters, horder, hselect⟩ := h.resolves
  have hdistinct := hs source hsource
  refine ⟨fun hnil => ?_, ?_, ?_, source, ?_, fun clause hclause => ?_, fun key hkey => ?_, fun item hitem => ?_⟩
  · have hempty := hrq.select
    rw [hnil, List.forall₂_nil_right_iff] at hempty
    exact h.select_ne_nil hempty
  · rw [hrq.source]
    exact h.source_not_blank
  · rw [hrq.limit]
    exact h.limit_nonneg
  · rwa [hrq.source]
  · obtain ⟨clause', hclause', hsame⟩ := forall₂_mem_right hrq.filters hclause
    exact (hfilters clause' hclause').respell hdistinct hsame
  · obtain ⟨key', hkey', hsame, -⟩ := forall₂_mem_right hrq.order hkey
    exact hdistinct.resolves hsame (horder key' hkey')
  · obtain ⟨item', hitem', hsame, -⟩ := forall₂_mem_right hrq.select hitem
    exact hdistinct.resolves hsame (hselect item' hitem')

/-- The kept elements, their order, the page and the cells are the same in either spelling. -/
theorem Answers.rows_respelled {source : Source} {r q : Request} {t u : Table} (ht : Answers source r t)
    (hu : Answers source q u) (hs : source.schema.DistinctLetters) (hrq : r.Respelled q) : u.rows = t.rows := by
  obtain ⟨sorted, hsorted, -, hrows⟩ := ht.rows
  obtain ⟨sorted', hsorted', -, hrows'⟩ := hu.rows
  rw [← Schema.kept_respelled hs hrq.filters, ← Schema.compareKeys_respelled hs hrq.order] at hsorted'
  have heq : sorted' = sorted := (hsorted sorted').1 ((hsorted' sorted').2 rfl)
  rw [hrows, hrows', heq, hrq.limit]
  apply List.map_congr_left
  intro element _
  exact (forall₂_map_eq hrq.select fun _ _ hij => congrFun (hs.cell_eq hij.1) element).symm

namespace Provider

variable {p : Provider} {r q : Request}

theorem prepare_respelled (hs : ∀ source, p.registry.find? r.source = some source →
      source.schema.DistinctLetters) (hrq : r.Respelled q) (h : ∃ plan, p.prepare r = .ok plan) :
    ∃ plan, p.prepare q = .ok plan := by
  rw [exists_prepare_iff] at h ⊢
  exact ⟨Limits.checkRequest_respelled hrq h.1, h.2.respell hs hrq⟩

theorem executeQuery_respelled (hs : ∀ source, p.registry.find? r.source = some source →
      source.schema.DistinctLetters) (hrq : r.Respelled q) {t : Table} (h : p.executeQuery r = .ok t) :
    p.executeQuery q = .ok ⟨q.select.map fun item => ⟨item.outputName, item.selector⟩, t.rows⟩ := by
  obtain ⟨plan, hplan, rfl⟩ := map_eq_ok.1 h
  obtain ⟨plan', hplan'⟩ := prepare_respelled hs hrq ⟨plan, hplan⟩
  obtain ⟨-, source, hsource⟩ := prepare_eq_ok.1 hplan
  obtain ⟨-, source', hsource'⟩ := prepare_eq_ok.1 hplan'
  have hfind := Registry.get_eq_ok.1 hsource.get_source
  have hfind' := Registry.get_eq_ok.1 hsource'.get_source
  rw [hrq.source, hfind] at hfind'
  cases hfind'
  have hrows := hsource.answers.rows_respelled hsource'.answers (hs source hfind) hrq
  have hcolumns := hsource'.answers.columns
  rw [executeQuery, hplan']
  exact congrArg Except.ok (congrArg₂ Table.mk hcolumns hrows)

end Provider

/-- Selectors are free in the case of their letters where no two names of a table differ in case alone.
Paths that differ in case alone mean the same, and a request whose selectors are spelled otherwise is
prepared like the other and has the same rows. Its columns have the new spellings, so that the table is the
same if only clauses and sort keys are spelled otherwise. -/
theorem Schema.DistinctLetters.spelling_free {s : Schema} (hs : s.DistinctLetters) :
    (∀ p q, Text.sameLetters p q = true → (s.Resolves p ↔ s.Resolves q) ∧
      ∀ t u, s.resolve p = .ok t → s.resolve q = .ok u →
        u.kind = t.kind ∧ u.depth = t.depth ∧ ∀ element, u.read element = t.read element) ∧
    ∀ (provider : Provider) (r q : Request), r.Respelled q →
      (∀ source, provider.registry.find? r.source = some source → source.schema = s) →
        ((∃ plan, provider.prepare r = .ok plan) ↔ ∃ plan, provider.prepare q = .ok plan) ∧
        ∀ t, provider.executeQuery r = .ok t →
          provider.executeQuery q =
            .ok ⟨q.select.map fun item => ⟨item.outputName, item.selector⟩, t.rows⟩ ∧
          (q.select = r.select → provider.executeQuery q = .ok t) := by
  refine ⟨fun p q hpq => ⟨?_, fun t u ht hu => ?_⟩, fun provider r q hrq hsource => ?_⟩
  · exact ⟨hs.resolves hpq, hs.resolves (Text.sameLetters_symm hpq)⟩
  · cases (hs.resolve hpq ht).symm.trans hu
    exact ⟨rfl, rfl, fun _ => rfl⟩
  · have hr : ∀ source, provider.registry.find? r.source = some source → source.schema.DistinctLetters := by
      intro source hfind
      rwa [hsource source hfind]
    have hq : ∀ source, provider.registry.find? q.source = some source → source.schema.DistinctLetters := by
      rwa [hrq.source]
    refine ⟨⟨Provider.prepare_respelled hr hrq, Provider.prepare_respelled hq hrq.symm⟩, fun t ht => ?_⟩
    have hrun := Provider.executeQuery_respelled hr hrq ht
    refine ⟨hrun, fun hselect => ?_⟩
    have hself := Provider.executeQuery_respelled hr (.refl r) ht
    rw [hrun, hselect, ← hself, ht]

def byLabel (label id : String) : Request :=
  ⟨[⟨label, some "n"⟩, ⟨id, none⟩], "orders", [⟨id, ">=", some "'1'", none⟩, ⟨label, "=", some label, none⟩],
    [⟨label, .descending⟩], none⟩

theorem byLabel_spelling_free : ∃ t,
    orderProvider.executeQuery (byLabel "Node.Tag.Label" "Id") = .ok t ∧
    orderProvider.executeQuery (byLabel "NODE.tag.LABEL" "id") =
      .ok ⟨[⟨"n", "NODE.tag.LABEL"⟩, ⟨"id", "id"⟩], t.rows⟩ := by
  have hdistinct : nodeOrderBuilder.build.DistinctLetters := by decide
  have hrespelled : (byLabel "Node.Tag.Label" "Id").Respelled (byLabel "NODE.tag.LABEL" "id") := by
    have hid : FilterClause.Respelled ⟨"Id", ">=", some "'1'", none⟩ ⟨"id", ">=", some "'1'", none⟩ :=
      ⟨rfl, rfl, .some (.inl rfl), rfl⟩
    have hlabel : FilterClause.Respelled ⟨"Node.Tag.Label", "=", some "Node.Tag.Label", none⟩
        ⟨"NODE.tag.LABEL", "=", some "NODE.tag.LABEL", none⟩ := ⟨rfl, rfl, .some (.inr ⟨rfl, rfl⟩), rfl⟩
    exact ⟨.cons ⟨rfl, rfl⟩ (.cons ⟨rfl, rfl⟩ .nil), .cons hid (.cons hlabel .nil), .cons ⟨rfl, rfl⟩ .nil,
      rfl, rfl⟩
  have hsource : ∀ source, orderProvider.registry.find? "orders" = some source →
      source.schema = nodeOrderBuilder.build := by
    intro source hfind
    cases hfind
    rfl
  have hrun : orderProvider.executeQuery (byLabel "Node.Tag.Label" "Id") = .ok _ := rfl
  exact ⟨_, hrun, ((hdistinct.spelling_free.2 orderProvider _ _ hrespelled hsource).2 _ hrun).1⟩

end RecordQuery
