import Mathlib.Algebra.Group.Nat.Defs
import RecordQuery.Proofs.SelectorBounds

/-! The sizes of a request against limits. Apart from the name of its source a request passes exactly when
its sizes fit, so wider limits refuse no request that narrower ones let through, and the widest leave
nothing to check but that name. -/

namespace RecordQuery

def FilterClause.selectorTexts (clause : FilterClause) : List String :=
  clause.selector :: (Limits.otherSelector? clause).toList

def Request.selectorTexts (r : Request) : List String :=
  r.select.map (·.selector) ++ r.filters.flatMap (·.selectorTexts) ++ r.order.map (·.selector)

theorem FilterClause.forall_mem_selectorTexts {clause : FilterClause} {p : String → Prop} :
    (∀ text ∈ clause.selectorTexts, p text) ↔
      p clause.selector ∧ ∀ text, Limits.otherSelector? clause = some text → p text := by
  simp only [selectorTexts, List.forall_mem_cons, Option.mem_toList]

theorem Request.forall_mem_selectorTexts {r : Request} {p : String → Prop} :
    (∀ text ∈ r.selectorTexts, p text) ↔ (∀ item ∈ r.select, p item.selector) ∧
      (∀ clause ∈ r.filters, ∀ text ∈ clause.selectorTexts, p text) ∧ ∀ key ∈ r.order, p key.selector := by
  rw [selectorTexts, List.forall_mem_append, List.forall_mem_append, List.forall_mem_map,
    List.forall_mem_flatMap, List.forall_mem_map, and_assoc]

structure Request.Fits (r : Request) (l : Limits) : Prop where
  select : r.select.length ≤ l.maxSelect
  filters : r.filters.length ≤ l.maxFilters
  order : r.order.length ≤ l.maxOrder
  values : ∀ clause ∈ r.filters, ∀ entries, clause.values = some entries → entries.length ≤ l.maxValues
  selectors : ∀ text ∈ r.selectorTexts, l.Admits text

/-- A request such as 64-bit counts can measure: its lists have fewer than 2^64 entries and its texts fewer
than 2^64 bytes. The segments into which a selector is cut are such a list as well. -/
structure Request.Countable (r : Request) : Prop where
  select : r.select.length < 2 ^ 64
  filters : r.filters.length < 2 ^ 64
  order : r.order.length < 2 ^ 64
  values : ∀ clause ∈ r.filters, ∀ entries, clause.values = some entries → entries.length < 2 ^ 64
  source : r.source.utf8ByteSize < 2 ^ 64
  selectors : ∀ text ∈ r.selectorTexts, text.utf8ByteSize < 2 ^ 64
  segments : ∀ text ∈ r.selectorTexts, (Text.pieces '.' text).length < 2 ^ 64

namespace Limits

structure Within (l m : Limits) : Prop where
  select : l.maxSelect ≤ m.maxSelect
  filters : l.maxFilters ≤ m.maxFilters
  order : l.maxOrder ≤ m.maxOrder
  values : l.maxValues ≤ m.maxValues
  selectorDepth : l.maxSelectorDepth ≤ m.maxSelectorDepth
  selectorLength : l.maxSelectorLength ≤ m.maxSelectorLength

variable {l m : Limits} {r : Request}

theorem checkClause_eq_ok_iff_fits {clause : FilterClause} : l.checkClause clause = .ok () ↔
    (∀ text ∈ clause.selectorTexts, l.Admits text) ∧
      ∀ entries, clause.values = some entries → entries.length ≤ l.maxValues := by
  rw [checkClause_eq_ok, clause.forall_mem_selectorTexts, and_assoc]
  simp only [option_forM_eq_ok, checkCount_eq_ok]

theorem checkRequest_eq_ok_iff_fits :
    l.checkRequest r = .ok () ↔ checkSourceName r.source = .ok () ∧ r.Fits l := by
  rw [checkRequest_eq_ok]
  simp only [checkCount_eq_ok, checkClause_eq_ok_iff_fits]
  constructor
  · rintro ⟨hsource, hselect, hfilters, horder, hitems, hclauses, hkeys⟩
    refine ⟨hsource, hselect, hfilters, horder, fun clause hclause => (hclauses clause hclause).2, ?_⟩
    exact r.forall_mem_selectorTexts.2 ⟨hitems, fun clause hclause => (hclauses clause hclause).1, hkeys⟩
  · rintro ⟨hsource, hfits⟩
    obtain ⟨hitems, hclauses, hkeys⟩ := r.forall_mem_selectorTexts.1 hfits.selectors
    exact ⟨hsource, hfits.select, hfits.filters, hfits.order, hitems,
      fun clause hclause => ⟨hclauses clause hclause, hfits.values clause hclause⟩, hkeys⟩

theorem Admits.mono {path : String} (h : l.Admits path) (hlm : l.Within m) : m.Admits path :=
  ⟨Nat.le_trans h.1 hlm.selectorLength, Nat.le_trans h.2 hlm.selectorDepth⟩

theorem fits_mono (h : r.Fits l) (hlm : l.Within m) : r.Fits m where
  select := Nat.le_trans h.select hlm.select
  filters := Nat.le_trans h.filters hlm.filters
  order := Nat.le_trans h.order hlm.order
  values clause hclause entries hentries :=
    Nat.le_trans (h.values clause hclause entries hentries) hlm.values
  selectors text htext := (h.selectors text htext).mono hlm

theorem fits_unlimited (h : r.Countable) : r.Fits unlimited where
  select := Nat.le_pred_of_lt h.select
  filters := Nat.le_pred_of_lt h.filters
  order := Nat.le_pred_of_lt h.order
  values clause hclause entries hentries := Nat.le_pred_of_lt (h.values clause hclause entries hentries)
  selectors text htext :=
    ⟨Nat.le_pred_of_lt (h.selectors text htext),
      Text.length_pieces '.' text ▸ Nat.le_pred_of_lt (h.segments text htext)⟩

theorem checkRequest_of_source_error {e : Error} (h : checkSourceName r.source = .error e) :
    l.checkRequest r = .error e := by
  rw [checkRequest, h]
  rfl

/-- A request passes when its source's name does and its sizes fit. Wider limits therefore let through all
that narrower ones do, and without limits it is the name of the source that decides. -/
theorem checkRequest_widens (r : Request) :
    (∀ l : Limits, l.checkRequest r = .ok () ↔ checkSourceName r.source = .ok () ∧ r.Fits l) ∧
      (∀ l m : Limits, l.Within m → l.checkRequest r = .ok () → m.checkRequest r = .ok ()) ∧
      (r.Countable → unlimited.checkRequest r = checkSourceName r.source) := by
  refine ⟨fun l => checkRequest_eq_ok_iff_fits, fun l m hlm hl => ?_, fun hcount => ?_⟩
  · obtain ⟨hsource, hfits⟩ := checkRequest_eq_ok_iff_fits.1 hl
    exact checkRequest_eq_ok_iff_fits.2 ⟨hsource, fits_mono hfits hlm⟩
  · cases hsource : checkSourceName r.source with
    | error e => exact checkRequest_of_source_error hsource
    | ok => exact checkRequest_eq_ok_iff_fits.2 ⟨hsource, fits_unlimited hcount⟩

end Limits

def ordersOfOwners : Request :=
  (((((Request.ofSource "orders").addColumn "Customer.Id").addFilter "Customer.Name" "=" "Owner.Name").addMembership
    "Id" ["1", "'2'"]).addSortKey "Id" .descending)

def narrowLimits : Limits := ⟨1, 2, 1, 2, 2, 13⟩

theorem countable_ordersOfOwners : ordersOfOwners.Countable where
  select := by decide
  filters := by decide
  order := by decide
  values :=
    have hvalues : ∀ clause ∈ ordersOfOwners.filters, ∀ entries ∈ clause.values, entries.length < 2 ^ 64 := by
      decide
    hvalues
  source := by decide
  selectors := by decide
  segments := by decide

theorem ordersOfOwners_widened : narrowLimits.Within .standard ∧
    narrowLimits.checkRequest ordersOfOwners = .ok () ∧ Limits.standard.checkRequest ordersOfOwners = .ok () ∧
      Limits.unlimited.checkRequest ordersOfOwners = Limits.checkSourceName "orders" := by
  have hwithin : narrowLimits.Within .standard := by constructor <;> decide
  have hnarrow : narrowLimits.checkRequest ordersOfOwners = .ok () := rfl
  obtain ⟨-, hmono, hunlimited⟩ := Limits.checkRequest_widens ordersOfOwners
  exact ⟨hwithin, hnarrow, hmono _ _ hwithin hnarrow, hunlimited countable_ordersOfOwners⟩

end RecordQuery
