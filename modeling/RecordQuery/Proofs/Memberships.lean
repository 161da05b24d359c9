import RecordQuery.Proofs.Nesting
import RecordQuery.Proofs.Planning
import RecordQuery.Proofs.Relations

/-! Membership in a set of literals. The clause with the set is the disjunction of the clauses that equate
the selector to one entry, put between quotes: all of them compile or the first fault among them is that of
the set, and an element is in the set when it satisfies one of them. -/

namespace RecordQuery

/-- The text that an entry of a set stands for: what is between its quotes, or the entry itself if it has
none. -/
inductive EntryContent : String → String → Prop
  | quoted (content : String) : EntryContent ("'" ++ content ++ "'") content
  | bare {entry : String} (h : ∀ content, entry ≠ "'" ++ content ++ "'") : EntryContent entry entry

theorem entryContent_iff {entry content : String} :
    EntryContent entry content ↔ unquoted entry = content := by
  unfold unquoted
  constructor
  · intro h
    cases h with
    | quoted content => rw [unquote?_eq_some.2 rfl, Option.getD_some]
    | bare h =>
      have hnone : unquote? entry = none :=
        Option.eq_none_iff_forall_ne_some.2 fun content hq => h content (unquote?_eq_some.1 hq)
      rw [hnone, Option.getD_none]
  · rintro rfl
    cases hq : unquote? entry with
    | some content =>
      rw [unquote?_eq_some.1 hq]
      exact .quoted content
    | none => exact .bare fun content h => nomatch hq.symm.trans (unquote?_eq_some.2 h)

theorem forall₂_entryContent_iff {entries contents : List String} :
    List.Forall₂ EntryContent entries contents ↔ entries.map unquoted = contents := by
  have hsame : List.Forall₂ EntryContent entries contents ↔
      List.Forall₂ (fun entry content => unquoted entry = content) entries contents :=
    ⟨fun h => h.imp fun _ _ => entryContent_iff.1, fun h => h.imp fun _ _ => entryContent_iff.2⟩
  rw [hsame, ← List.forall₂_map_left_iff, List.forall₂_eq_eq_eq]

def FilterClause.equating (path content : String) : FilterClause := .relating path .eq ("'" ++ content ++ "'")

theorem FilterClause.ne_nil_of_givenSet? {clause : FilterClause} {entries : List String}
    (h : clause.givenSet? = some entries) : entries ≠ [] := by
  rintro rfl
  exact nomatch (Option.filter_eq_some_iff.1 h).2

namespace Schema

variable {s : Schema} {clause : FilterClause} {entries contents : List String}

theorem compileClause_eq_bind {op : Operator} (hop : Operator.ofText? clause.operator = some op) :
    s.compileClause clause = s.resolve clause.selector >>= fun left =>
      (s.compileOperand clause left op).map (Condition.mk left op) := by
  unfold compileClause
  rw [parse_eq_ok.2 hop]
  rfl

theorem compileClause_equating (path content : String) : s.compileClause (.equating path content) =
    s.resolve path >>= fun left =>
      (left.kind.coerce content).map fun v => ⟨left, .eq, .literal v⟩ := by
  have hop : Operator.ofText? (FilterClause.equating path content).operator = some .eq :=
    Operator.ofText?_display .eq
  have hempty : ("'" ++ content ++ "'").isEmpty = false := by simp
  have hquoted : unquote? ("'" ++ content ++ "'") = some content := unquote?_eq_some.2 rfl
  rw [compileClause_eq_bind hop]
  apply bind_congr
  intro left
  have hoperand : s.compileOperand (.equating path content) left .eq =
      (left.kind.coerce content).map Operand.literal := by
    unfold compileOperand FilterClause.equating FilterClause.relating
    simp only [Option.filter_some, hempty, Bool.not_false, if_true, Option.filter_none]
    rw [compileValue, hquoted]
  rw [hoperand]
  cases left.kind.coerce content <;> rfl

theorem compileClause_among (hop : Operator.ofText? clause.operator = some .among)
    (hvalue : clause.givenValue? = none) (hset : clause.givenSet? = some entries) :
    s.compileClause clause = s.resolve clause.selector >>= fun left =>
      ((entries.map unquoted).mapM left.kind.coerce).map fun vs => ⟨left, .among, .set vs⟩ := by
  rw [compileClause_eq_bind hop]
  apply bind_congr
  intro left
  have hoperand : s.compileOperand clause left .among =
      ((entries.map unquoted).mapM left.kind.coerce).map Operand.set := by
    unfold FilterClause.givenValue? at hvalue
    unfold FilterClause.givenSet? at hset
    unfold compileOperand
    simp only [hvalue, hset]
    rw [compileSet, List.mapM_map]
    rfl
  rw [hoperand]
  cases (entries.map unquoted).mapM left.kind.coerce <;> rfl

theorem holds_set_iff (left : Selector) (vs : List Value) (element : Record) :
    Condition.holds ⟨left, .among, .set vs⟩ element = true ↔
      ∃ d ∈ vs.map fun v => (⟨left, .eq, .literal v⟩ : Condition), d.holds element = true := by
  have hany : Condition.holds ⟨left, .among, .set vs⟩ element =
      (vs.map fun v => (⟨left, .eq, .literal v⟩ : Condition)).any (·.holds element) := by
    rw [List.any_map]
    rfl
  rw [hany, List.any_eq_true]

theorem runs_equatings (hop : Operator.ofText? clause.operator = some .among)
    (hvalue : clause.givenValue? = none) (hset : clause.givenSet? = some entries) :
    Runs ((entries.map unquoted).map fun content e =>
      s.compileClause (.equating clause.selector content) = .error e) (s.compileClause clause) := by
  simp only [compileClause_among hop hvalue hset, compileClause_equating]
  cases s.resolve clause.selector with
  | error e =>
    cases entries with
    | nil => exact absurd rfl (FilterClause.ne_nil_of_givenSet? hset)
    | cons entry entries => exact .fail fun e' => ⟨fun h => (Except.error.inj h).symm, fun h => congrArg _ h.symm⟩
  | ok left =>
    refine Runs.map (.mapM_single fun content e => ?_) _
    exact map_eq_error.symm

/-- Membership in a set is the disjunction of equalities. The clause compiles when the equalities with all
its entries do, fails as the first of them that fails, and holds where at least one of them does. -/
theorem compileClause_disjoins (hop : Operator.ofText? clause.operator = some .among)
    (hvalue : clause.givenValue? = none) (hset : clause.givenSet? = some entries)
    (hcontents : List.Forall₂ EntryContent entries contents) :
    ((∃ c, s.compileClause clause = .ok c) ↔
        ∀ content ∈ contents, ∃ d, s.compileClause (.equating clause.selector content) = .ok d) ∧
      (∀ e, s.compileClause clause = .error e ↔ FirstFault (contents.map fun content e =>
        s.compileClause (.equating clause.selector content) = .error e) e) ∧
      ∀ c, s.compileClause clause = .ok c → ∃ ds,
        List.Forall₂ (fun content d => s.compileClause (.equating clause.selector content) = .ok d)
          contents ds ∧
        ∀ element, c.holds element = true ↔ ∃ d ∈ ds, d.holds element = true := by
  obtain rfl := forall₂_entryContent_iff.1 hcontents
  have hruns := runs_equatings (s := s) hop hvalue hset
  refine ⟨?_, hruns, fun c hc => ?_⟩
  · rw [← hruns.passes_iff, passes_map]
    exact forall₂_congr fun content _ => not_error_iff fun _ => Iff.rfl
  · rw [compileClause_among hop hvalue hset, bind_eq_ok] at hc
    obtain ⟨left, hleft, hc⟩ := hc
    obtain ⟨vs, hvs, rfl⟩ := map_eq_ok.1 hc
    refine ⟨vs.map fun v => ⟨left, .eq, .literal v⟩, ?_, holds_set_iff left vs⟩
    rw [List.forall₂_map_right_iff]
    refine (mapM_eq_ok.1 hvs).imp fun content v hv => ?_
    rw [compileClause_equating, hleft]
    exact map_eq_ok.2 ⟨v, hv, rfl⟩

end Schema

def labelsAmong : FilterClause := ⟨"Label", " in ", some "", some ["'north'", "'", ""]⟩

theorem labelsAmong_disjoins : ∃ c ds, tagBuilder.build.compileClause labelsAmong = .ok c ∧
    List.Forall₂ (fun content d => tagBuilder.build.compileClause (.equating "Label" content) = .ok d)
      ["north", "'", ""] ds ∧
    (∀ element, c.holds element = true ↔ ∃ d ∈ ds, d.holds element = true) ∧
    c.holds ⟨"Tag", [.value .text "'"]⟩ = true := by
  have h : tagBuilder.build.compileClause labelsAmong = .ok _ := rfl
  have hop : Operator.ofText? labelsAmong.operator = some .among := by decide
  have hcontents : List.Forall₂ EntryContent ["'north'", "'", ""] ["north", "'", ""] :=
    forall₂_entryContent_iff.2 (by decide)
  obtain ⟨-, -, hholds⟩ := Schema.compileClause_disjoins hop rfl rfl hcontents
  obtain ⟨ds, hds, hiff⟩ := hholds _ h
  exact ⟨_, ds, h, hds, hiff, by decide⟩

end RecordQuery
