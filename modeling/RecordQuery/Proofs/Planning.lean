import Mathlib.Data.List.DropRight
import Mathlib.Data.List.TakeWhile
import RecordQuery.Proofs.Compilation
import RecordQuery.Proofs.FirstFault
import RecordQuery.Proofs.OrderKeys

/-! Which requests can be planned, and what is said of the others. A request is well formed when each of its
parts is; planning checks the parts in a fixed order and reports the first fault, and nothing fails
after it. -/

namespace RecordQuery

def FilterClause.givenValue? (clause : FilterClause) : Option String := clause.value.filter (!·.isEmpty)

def FilterClause.givenSet? (clause : FilterClause) : Option (List String) :=
  clause.values.filter (!·.isEmpty)

def unquoted (entry : String) : String := (unquote? entry).getD entry

namespace Schema

def Resolves (s : Schema) (path : String) : Prop := ∃ selector, s.resolve path = .ok selector

def AdmitsValue (s : Schema) (left : Selector) (text : String) : Prop :=
  match unquote? text with
  | some content => ∃ v, left.kind.coerce content = .ok v
  | none => ∃ other, s.resolve text = .ok other ∧ left.kind.comparableWith other.kind = true

inductive Admits (s : Schema) (clause : FilterClause) : Prop
  | value {left : Selector} {op : Operator} {text : String}
      (hleft : s.resolve clause.selector = .ok left) (hop : Operator.ofText? clause.operator = some op)
      (hsingle : op ≠ .among) (hvalue : clause.givenValue? = some text) (hset : clause.givenSet? = none)
      (hadmits : s.AdmitsValue left text) : Admits s clause
  | set {left : Selector} {entries : List String}
      (hleft : s.resolve clause.selector = .ok left)
      (hop : Operator.ofText? clause.operator = some .among)
      (hvalue : clause.givenValue? = none) (hset : clause.givenSet? = some entries)
      (hentries : ∀ entry ∈ entries, ∃ v, left.kind.coerce (unquoted entry) = .ok v) : Admits s clause

end Schema

structure Registry.WellFormed (r : Registry) (request : Request) : Prop where
  select_ne_nil : request.select ≠ []
  source_not_blank : ∃ c ∈ request.source.toList, Text.isBlank c = false
  limit_nonneg : ∀ l, request.limit = some l → 0 ≤ l.skip ∧ 0 ≤ l.take
  resolves : ∃ source, r.find? request.source = some source ∧
    (∀ clause ∈ request.filters, source.schema.Admits clause) ∧
    (∀ key ∈ request.order, source.schema.Resolves key.selector) ∧
    ∀ item ∈ request.select, source.schema.Resolves item.selector

/-! The faults, in the order in which they are looked for. -/

def Schema.SelectorFault (s : Schema) (path : String) (e : Error) : Prop := s.resolve path = .error e

namespace FilterClause

def OperatorFault (clause : FilterClause) (e : Error) : Prop :=
  Operator.ofText? clause.operator = none ∧ e = .unknownOperator clause.operator

def ShapeFault (clause : FilterClause) (e : Error) : Prop :=
  match clause.givenValue?, clause.givenSet? with
  | some _, some _ => e = .valueAndValues clause
  | none, none => e = .noOperand clause
  | some _, none => Operator.ofText? clause.operator = some .among ∧ e = .membershipNeedsValues clause
  | none, some _ => ∃ op, Operator.ofText? clause.operator = some op ∧ op ≠ .among ∧
      e = .needsSingleValue clause op

end FilterClause

def EntryFault (left : Selector) (entry : String) (e : Error) : Prop :=
  left.kind.carrierOf? (unquoted entry) = none ∧ e = .badLiteral (unquoted entry) left.kind

namespace Schema

def ValueFault (s : Schema) (left : Selector) (text : String) (e : Error) : Prop :=
  match unquote? text with
  | some content => left.kind.carrierOf? content = none ∧ e = .badLiteral content left.kind
  | none => s.resolve text = .error e ∨ ∃ other, s.resolve text = .ok other ∧
      left.kind.comparableWith other.kind = false ∧ e = .badLiteral text left.kind

def operandChecks (s : Schema) (clause : FilterClause) (left : Selector) : List (Error → Prop) :=
  clause.givenValue?.toList.map (s.ValueFault left) ++ (clause.givenSet?.getD []).map (EntryFault left)

def clauseChecks (s : Schema) (clause : FilterClause) : List (Error → Prop) :=
  [s.SelectorFault clause.selector, clause.OperatorFault, clause.ShapeFault] ++
    match s.resolve clause.selector with
    | .ok left => s.operandChecks clause left
    | .error _ => []

def checks (s : Schema) (request : Request) : List (Error → Prop) :=
  request.filters.flatMap s.clauseChecks ++ ((request.order.map fun key => s.SelectorFault key.selector) ++
    request.select.map fun item => s.SelectorFault item.selector)

end Schema

def Registry.checks (r : Registry) (request : Request) : List (Error → Prop) :=
  [fun e => request.select = [] ∧ e = .selectEmpty,
    fun e => (∀ c ∈ request.source.toList, Text.isBlank c = true) ∧ e = .sourceRequired,
    fun e => ∃ l, request.limit = some l ∧ l.skip < 0 ∧ e = .negativeSkip l.skip,
    fun e => ∃ l, request.limit = some l ∧ l.take < 0 ∧ e = .negativeTake l.take,
    fun e => r.find? request.source = none ∧ e = .unknownSource request.source] ++
  match r.find? request.source with
  | some source => source.schema.checks request
  | none => []

theorem trim_isEmpty_iff {s : String} :
    (Text.trim s).isEmpty = true ↔ ∀ c ∈ s.toList, Text.isBlank c = true := by
  rw [Text.trim, String.isEmpty_iff, String.ofList_eq_empty_iff, Text.trimChars, List.reverse_eq_nil_iff,
    Text.skipBlanks, List.dropWhile_eq_nil_iff]
  simp only [List.mem_reverse]
  rw [← List.dropWhile_eq_nil_iff, Text.skipBlanks, List.dropWhile_idempotent, List.dropWhile_eq_nil_iff]

theorem coerce_eq_error {kind : Kind} {content : String} {e : Error} :
    kind.coerce content = .error e ↔ kind.carrierOf? content = none ∧ e = .badLiteral content kind := by
  unfold Kind.coerce
  cases kind.carrierOf? content with
  | none => exact ⟨fun h => ⟨rfl, (Except.error.inj h).symm⟩, fun h => congrArg _ h.2.symm⟩
  | some content => exact iff_of_false (nomatch ·) fun h => nomatch h.1

theorem parse_eq_error {text : String} {e : Error} :
    Operator.parse text = .error e ↔ Operator.ofText? text = none ∧ e = .unknownOperator text := by
  unfold Operator.parse
  cases Operator.ofText? text with
  | none => exact ⟨fun h => ⟨rfl, (Except.error.inj h).symm⟩, fun h => congrArg _ h.2.symm⟩
  | some op => exact iff_of_false (nomatch ·) fun h => nomatch h.1

namespace Schema

variable {s : Schema} {clause : FilterClause} {left : Selector}

theorem runs_compileSet (entries : List String) :
    Runs (entries.map (EntryFault left)) (compileSet left entries) :=
  .map (.mapM_single fun _ _ => coerce_eq_error) _

theorem runs_compileValue (text : String) : Runs [s.ValueFault left text] (s.compileValue left text) := by
  refine .single fun e => ?_
  unfold compileValue ValueFault
  cases unquote? text with
  | some content => exact map_eq_error.trans coerce_eq_error
  | none =>
    change (s.resolve text >>= _) = _ ↔ _
    rw [bind_eq_error]
    refine or_congr Iff.rfl (exists_congr fun other => and_congr_right fun _ => ?_)
    cases left.kind.comparableWith other.kind with
    | true => exact iff_of_false (nomatch ·) (nomatch ·.1)
    | false => exact ⟨fun h => ⟨rfl, (Except.error.inj h).symm⟩, fun h => congrArg Except.error h.2.symm⟩

theorem runs_compileOperand {op : Operator} (hop : Operator.ofText? clause.operator = some op) :
    Runs (clause.ShapeFault :: s.operandChecks clause left) (s.compileOperand clause left op) := by
  unfold compileOperand
  split
  all_goals unfold operandChecks FilterClause.ShapeFault FilterClause.givenValue? FilterClause.givenSet?
  · next hvalue hset =>
    simp only [hvalue, hset]
    exact .fail fun _ => Iff.rfl
  · next hvalue hset =>
    simp only [hvalue, hset]
    exact .fail fun _ => Iff.rfl
  · next entries hvalue hset =>
    simp only [hvalue, hset, hop]
    exact .skip (fun _ ⟨_, hop', hsingle, _⟩ => hsingle (Option.some.inj hop').symm) (runs_compileSet entries)
  · next hvalue hset =>
    simp only [hvalue, hset, hop, true_and]
    exact .fail fun _ => Iff.rfl
  · next op hsingle hvalue hset =>
    simp only [hvalue, hset, hop, Option.some.injEq, exists_eq_left']
    exact .fail fun _ => and_iff_right hsingle
  · next text hsingle hvalue hset =>
    simp only [hvalue, hset, hop]
    exact .skip (fun _ h => hsingle (Option.some.inj h.1)) (runs_compileValue text)

theorem runs_compileClause : Runs (s.clauseChecks clause) (s.compileClause clause) := by
  have hresolve : Runs [s.SelectorFault clause.selector] (s.resolve clause.selector) :=
    .single fun _ => Iff.rfl
  have hparse : Runs [clause.OperatorFault] (Operator.parse clause.operator) :=
    .single fun _ => parse_eq_error
  refine hresolve.bind fun left hleft => ?_
  rw [hleft]
  refine hparse.bind fun op hop => ?_
  exact (runs_compileOperand (parse_eq_ok.1 hop)).map (Condition.mk left op)

theorem runs_compileFilters (clauses : List FilterClause) :
    Runs (clauses.flatMap s.clauseChecks) (s.compileFilters clauses) :=
  .map (.mapM fun _ => runs_compileClause) _

theorem runs_compileOrder (keys : List SortKey) :
    Runs (keys.map fun key => s.SelectorFault key.selector) (s.compileOrder keys) :=
  .map (.mapM_single fun _ _ => map_eq_error) _

theorem runs_compileSelect {items : List SelectItem} (hitems : items ≠ []) :
    Runs (items.map fun item => s.SelectorFault item.selector) (s.compileSelect items) := by
  rw [compileSelect, if_neg fun h => hitems (List.isEmpty_iff.1 h)]
  exact .map (.mapM_single fun _ _ => map_eq_error) _

end Schema

namespace Schema

variable {s : Schema} {clause : FilterClause} {left : Selector}

theorem not_selectorFault_iff {path : String} : (∀ e, ¬ s.SelectorFault path e) ↔ s.Resolves path :=
  not_error_iff fun _ => Iff.rfl

theorem not_valueFault_iff {text : String} :
    (∀ e, ¬ s.ValueFault left text e) ↔ s.AdmitsValue left text := by
  unfold ValueFault AdmitsValue
  cases unquote? text with
  | some content => exact not_error_iff fun _ => coerce_eq_error
  | none =>
    cases s.resolve text with
    | error e => exact iff_of_false (fun h => h e (.inl rfl)) fun ⟨_, h, _⟩ => nomatch h
    | ok other =>
      constructor
      · intro h
        exact ⟨other, rfl, Bool.of_not_eq_false fun hkind => h _ (.inr ⟨other, rfl, hkind, rfl⟩)⟩
      · rintro ⟨other', hother, hkind⟩ e (h | ⟨other'', hother', hkind', -⟩)
        · exact nomatch h
        · cases hother.symm.trans hother'
          exact Bool.noConfusion (hkind.symm.trans hkind')

theorem passes_operandChecks_of_value {text : String} (hvalue : clause.givenValue? = some text)
    (hset : clause.givenSet? = none) :
    Passes (s.operandChecks clause left) ↔ s.AdmitsValue left text := by
  unfold operandChecks
  rw [hvalue, hset, ← not_valueFault_iff]
  exact List.forall_mem_singleton

theorem passes_operandChecks_of_set {entries : List String} (hvalue : clause.givenValue? = none)
    (hset : clause.givenSet? = some entries) : Passes (s.operandChecks clause left) ↔
      ∀ entry ∈ entries, ∃ v, left.kind.coerce (unquoted entry) = .ok v := by
  unfold operandChecks
  rw [hvalue, hset]
  exact passes_map.trans (forall₂_congr fun _ _ => not_error_iff fun _ => coerce_eq_error)

theorem passes_clauseChecks : Passes (s.clauseChecks clause) ↔ s.Admits clause := by
  constructor
  · intro h
    obtain ⟨hfront, hoperand⟩ := passes_append.1 h
    obtain ⟨hselector, hfront⟩ := passes_cons.1 hfront
    obtain ⟨hoperator, hfront⟩ := passes_cons.1 hfront
    have hshape := (passes_cons.1 hfront).1
    obtain ⟨left, hleft⟩ := not_selectorFault_iff.1 hselector
    obtain ⟨op, hop⟩ := (not_error_iff fun _ => parse_eq_error).1 hoperator
    have hop := parse_eq_ok.1 hop
    rw [hleft] at hoperand
    unfold FilterClause.ShapeFault at hshape
    cases hvalue : clause.givenValue? with
    | some text =>
      cases hset : clause.givenSet? with
      | some entries =>
        rw [hvalue, hset] at hshape
        exact absurd rfl (hshape _)
      | none =>
        rw [hvalue, hset] at hshape
        exact .value hleft hop (fun h => hshape _ ⟨h ▸ hop, rfl⟩) hvalue hset
          ((passes_operandChecks_of_value hvalue hset).1 hoperand)
    | none =>
      cases hset : clause.givenSet? with
      | some entries =>
        rw [hvalue, hset] at hshape
        have hamong : op = .among := Decidable.of_not_not fun h => hshape _ ⟨op, hop, h, rfl⟩
        exact .set hleft (hamong ▸ hop) hvalue hset ((passes_operandChecks_of_set hvalue hset).1 hoperand)
      | none =>
        rw [hvalue, hset] at hshape
        exact absurd rfl (hshape _)
  · intro h
    obtain ⟨left, op, hleft, hop, hshape, hoperand⟩ : ∃ left op, s.resolve clause.selector = .ok left ∧
        Operator.ofText? clause.operator = some op ∧ (∀ e, ¬ clause.ShapeFault e) ∧
        Passes (s.operandChecks clause left) := by
      cases h with
      | @value left op text hleft hop hsingle hvalue hset hadmits =>
        refine ⟨left, op, hleft, hop, fun e => ?_, (passes_operandChecks_of_value hvalue hset).2 hadmits⟩
        unfold FilterClause.ShapeFault
        rw [hvalue, hset]
        exact fun h => hsingle (Option.some.inj (hop.symm.trans h.1))
      | @set left entries hleft hop hvalue hset hentries =>
        refine ⟨left, _, hleft, hop, fun e => ?_, (passes_operandChecks_of_set hvalue hset).2 hentries⟩
        unfold FilterClause.ShapeFault
        rw [hvalue, hset]
        exact fun ⟨_, hop', hsingle, _⟩ => hsingle (Option.some.inj (hop'.symm.trans hop))
    have hselector := not_selectorFault_iff.2 ⟨left, hleft⟩
    have hoperator := (not_error_iff fun _ => parse_eq_error).2 ⟨op, parse_eq_ok.2 hop⟩
    unfold clauseChecks
    rw [hleft]
    exact passes_append.2 ⟨passes_cons.2 ⟨hselector, passes_cons.2 ⟨hoperator, passes_cons.2
      ⟨hshape, List.forall_mem_nil _⟩⟩⟩, hoperand⟩

end Schema

theorem runs_nonempty? {α β ε : Type} {f : List α → Except ε β} {checks : List α → List (ε → Prop)}
    (hf : ∀ xs, Runs (checks xs) (f xs)) (hnil : checks [] = []) (xs : List α) :
    Runs (checks xs) ((nonempty? xs).mapM f) := by
  cases xs with
  | nil =>
    rw [hnil]
    exact .ok none
  | cons x xs => exact (hf (x :: xs)).map some

theorem Window.runs_ofLimit (limit : Option Limit) :
    Runs [fun e => ∃ l, limit = some l ∧ l.skip < 0 ∧ e = .negativeSkip l.skip,
      fun e => ∃ l, limit = some l ∧ l.take < 0 ∧ e = .negativeTake l.take] (limit.mapM Window.ofLimit) := by
  cases limit with
  | none => exact .skip (fun _ ⟨_, h, _⟩ => nomatch h) (.skip (fun _ ⟨_, h, _⟩ => nomatch h) (.ok none))
  | some l =>
    change Runs _ ((Window.ofLimit l).map some)
    unfold Window.ofLimit
    simp only [Option.some.injEq, exists_eq_left']
    by_cases hskip : l.skip < 0
    · rw [if_pos hskip]
      exact .fail fun _ => and_iff_right hskip
    rw [if_neg hskip]
    refine .skip (fun _ h => hskip h.1) ?_
    by_cases htake : l.take < 0
    · rw [if_pos htake]
      exact .fail fun _ => and_iff_right htake
    rw [if_neg htake]
    exact .skip (fun _ h => htake h.1) (.ok _)

namespace Registry

theorem runs_plan (r : Registry) (request : Request) : Runs (r.checks request) (r.plan request) := by
  unfold plan checks
  by_cases hselect : request.select = []
  · rw [if_pos (List.isEmpty_iff.2 hselect)]
    exact .fail fun _ => and_iff_right hselect
  rw [if_neg fun h => hselect (List.isEmpty_iff.1 h)]
  refine .skip (fun _ h => hselect h.1) ?_
  by_cases hblank : ∀ c ∈ request.source.toList, Text.isBlank c = true
  · rw [if_pos (trim_isEmpty_iff.2 hblank)]
    exact .fail fun _ => and_iff_right hblank
  rw [if_neg fun h => hblank (trim_isEmpty_iff.1 h)]
  refine .skip (fun _ h => hblank h.1) ?_
  have hget : Runs [fun e => r.find? request.source = none ∧ e = .unknownSource request.source]
      (r.get request.source) := .single fun _ => get_eq_error
  refine (Window.runs_ofLimit request.limit).bind fun window _ => hget.bind fun source hsource => ?_
  rw [get_eq_ok.1 hsource]
  refine (runs_nonempty? Schema.runs_compileFilters rfl request.filters).bind fun filter _ => ?_
  refine (runs_nonempty? Schema.runs_compileOrder rfl request.order).bind fun order _ => ?_
  exact (Schema.runs_compileSelect hselect).map
    (Plan.mk source.name source.elements filter order window)

end Registry

/-- All checks pass just when each part of the request is as it should be. -/
theorem Registry.passes_checks_iff {r : Registry} {request : Request} :
    Passes (r.checks request) ↔ r.WellFormed request := by
  constructor
  · intro h
    obtain ⟨hfront, hschema⟩ := passes_append.1 h
    simp only [passes_cons] at hfront
    obtain ⟨hselect, hblank, hskip, htake, hfind, -⟩ := hfront
    cases hsource : r.find? request.source with
    | none => exact absurd ⟨hsource, rfl⟩ (hfind _)
    | some source =>
      rw [hsource] at hschema
      obtain ⟨hfilters, hschema⟩ := passes_append.1 hschema
      obtain ⟨horder, hitems⟩ := passes_append.1 hschema
      have hclauses : ∀ clause ∈ request.filters, source.schema.Admits clause := fun clause hclause =>
        Schema.passes_clauseChecks.1 (passes_flatMap.1 hfilters clause hclause)
      have hkeys : ∀ key ∈ request.order, source.schema.Resolves key.selector := fun key hkey =>
        Schema.not_selectorFault_iff.1 (passes_map.1 horder key hkey)
      have hcolumns : ∀ item ∈ request.select, source.schema.Resolves item.selector := fun item hitem =>
        Schema.not_selectorFault_iff.1 (passes_map.1 hitems item hitem)
      refine ⟨fun h => hselect _ ⟨h, rfl⟩, ?_, fun l hl => ⟨?_, ?_⟩, source, hsource, hclauses, hkeys,
        hcolumns⟩
      · by_contra hnone
        exact hblank _ ⟨fun c hc => Bool.of_not_eq_false fun h => hnone ⟨c, hc, h⟩, rfl⟩
      · exact Int64.not_lt.1 fun h => hskip _ ⟨l, hl, h, rfl⟩
      · exact Int64.not_lt.1 fun h => htake _ ⟨l, hl, h, rfl⟩
  · intro h
    obtain ⟨source, hsource, hfilters, horder, hitems⟩ := h.resolves
    unfold checks
    rw [hsource]
    refine passes_append.2 ⟨?_, passes_append.2 ⟨?_, passes_append.2 ⟨?_, ?_⟩⟩⟩
    · simp only [passes_cons]
      refine ⟨fun _ hfault => h.select_ne_nil hfault.1, fun _ hfault => ?_, ?_, ?_, ?_, List.forall_mem_nil _⟩
      · obtain ⟨c, hc, hblank⟩ := h.source_not_blank
        exact ne_true_of_eq_false hblank (hfault.1 c hc)
      · exact fun _ ⟨l, hl, hskip, _⟩ => Int64.not_lt.2 (h.limit_nonneg l hl).1 hskip
      · exact fun _ ⟨l, hl, htake, _⟩ => Int64.not_lt.2 (h.limit_nonneg l hl).2 htake
      · exact fun _ hfault => nomatch hfault.1
    · exact passes_flatMap.2 fun clause hclause => Schema.passes_clauseChecks.2 (hfilters clause hclause)
    · exact passes_map.2 fun key hkey => Schema.not_selectorFault_iff.2 (horder key hkey)
    · exact passes_map.2 fun item hitem => Schema.not_selectorFault_iff.2 (hitems item hitem)

theorem Provider.exists_prepare_iff {p : Provider} {request : Request} :
    (∃ plan, p.prepare request = .ok plan) ↔
      p.limits.checkRequest request = .ok () ∧ p.registry.WellFormed request := by
  simp only [prepare, seq_eq_ok, exists_and_left]
  rw [← Registry.passes_checks_iff, (p.registry.runs_plan request).passes_iff]

/-- Planning accepts exactly the well-formed requests and reports the first fault of the others. Behind
limits that let a request pass nothing else can fail, and a plan always runs. -/
theorem Registry.plan_reports_first_fault (r : Registry) (request : Request) :
    ((∃ plan, r.plan request = .ok plan) ↔ r.WellFormed request) ∧
      (∀ e, r.plan request = .error e ↔ FirstFault (r.checks request) e) ∧
      ∀ p : Provider, p.registry = r → p.limits.checkRequest request = .ok () →
        (∀ e, p.prepare request = .error e ↔ r.plan request = .error e) ∧
        (∀ e, p.explain request = .error e ↔ r.plan request = .error e) ∧
        (∀ e, p.executeQuery request = .error e ↔ r.plan request = .error e) ∧
        ∀ plan, r.plan request = .ok plan → p.executeQuery request = .ok (p.executePlan plan) := by
  refine ⟨(r.runs_plan request).passes_iff.symm.trans passes_checks_iff, r.runs_plan request, ?_⟩
  rintro p rfl hlimits
  have hprepare : p.prepare request = p.registry.plan request := by
    rw [Provider.prepare, hlimits]
    rfl
  rw [Provider.explain, Provider.executeQuery, hprepare]
  refine ⟨fun _ => Iff.rfl, fun _ => map_eq_error, fun _ => map_eq_error, ?_⟩
  intro plan hplan
  rw [hplan]
  rfl

def emptyEntries : Provider := ⟨⟨.reject, [⟨"entries", entrySchema, []⟩]⟩, .standard⟩

def faultyGroups : Request :=
  ⟨[⟨"Grp", none⟩], "entries", [⟨"Group", "=", some "'x'", none⟩, ⟨"Group", "~", some "'0'", none⟩],
    [⟨"Scor", .ascending⟩], none⟩

theorem faultyGroups_rejected : emptyEntries.limits.checkRequest faultyGroups = .ok () ∧
    FirstFault (emptyEntries.registry.checks faultyGroups) (.badLiteral "x" .integer) ∧
    emptyEntries.prepare faultyGroups = .error (.badLiteral "x" .integer) ∧
    emptyEntries.executeQuery faultyGroups = .error (.badLiteral "x" .integer) := by
  have hplan : emptyEntries.registry.plan faultyGroups = .error (.badLiteral "x" .integer) := rfl
  have hlimits : emptyEntries.limits.checkRequest faultyGroups = .ok () := rfl
  obtain ⟨-, hfault, hprovider⟩ := emptyEntries.registry.plan_reports_first_fault faultyGroups
  obtain ⟨hprepare, -, hexecute, -⟩ := hprovider emptyEntries rfl hlimits
  exact ⟨hlimits, (hfault _).1 hplan, (hprepare _).2 hplan, (hexecute _).2 hplan⟩

end RecordQuery
