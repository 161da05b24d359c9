import RecordQuery.Proofs.Answers

/-! Reading a result page by page. A limit changes nothing of a plan but its window, so that it cuts
the page out of the rows that the request has without it. The pages of one size, one behind the other,
are the whole result, each row once and in its place. -/

namespace RecordQuery

theorem flatMap_pages {α : Type} (xs : List α) (size count : Nat) :
    ((List.range count).flatMap fun i => (xs.drop (i * size)).take size) = xs.take (count * size) := by
  induction count with
  | zero => rw [Nat.zero_mul, List.take_zero, List.range_zero, List.flatMap_nil]
  | succ count ih =>
    rw [List.range_succ, List.flatMap_append, ih, List.flatMap_singleton, Nat.succ_mul, List.take_add]

def maxInt64 : Nat := 0x7FFFFFFFFFFFFFFF

theorem toInt_ofNat_of_le {n : Nat} (h : n ≤ maxInt64) : (Int64.ofNat n).toInt = n :=
  Int64.toInt_ofNat_of_lt (Nat.lt_succ_of_le h)

theorem ofNat_nonneg {n : Nat} (h : n ≤ maxInt64) : 0 ≤ Int64.ofNat n := by
  rw [Int64.le_iff_toInt_le, toInt_ofNat_of_le h]
  exact Int.natCast_nonneg n

namespace Window

theorem ofLimit_of_nonneg {skip take : Int64} (hskip : 0 ≤ skip) (htake : 0 ≤ take) :
    ofLimit ⟨skip, take⟩ =
      .ok ⟨skip.toInt.toNat, if take = 0 then none else some take.toInt.toNat⟩ := by
  unfold ofLimit
  rw [if_neg (Int64.not_lt.2 hskip), if_neg (Int64.not_lt.2 htake)]

theorem ofLimit_of_neg {skip take : Int64} (hskip : 0 ≤ skip) (htake : take < 0) :
    ofLimit ⟨skip, take⟩ = .error (.negativeTake take) := by
  unfold ofLimit
  rw [if_neg (Int64.not_lt.2 hskip), if_pos htake]

theorem ofLimit_page {size i : Nat} (hsize : 1 ≤ size) (hmax : size ≤ maxInt64)
    (hskip : i * size ≤ maxInt64) :
    ofLimit ⟨Int64.ofNat (i * size), Int64.ofNat size⟩ = .ok ⟨i * size, some size⟩ := by
  have hne : Int64.ofNat size ≠ 0 := by
    intro h
    have hzero := congrArg Int64.toInt h
    rw [toInt_ofNat_of_le hmax, Int64.toInt_zero] at hzero
    omega
  rw [ofLimit_of_nonneg (ofNat_nonneg hskip) (ofNat_nonneg hmax), if_neg hne, toInt_ofNat_of_le hskip,
    toInt_ofNat_of_le hmax, Int.toNat_natCast, Int.toNat_natCast]

theorem apply_map {α β : Type} (w : Window) (f : α → β) (xs : List α) :
    w.apply (xs.map f) = (w.apply xs).map f := by
  unfold apply
  split
  · exact List.map_drop.symm
  · rw [List.map_take, List.map_drop]

theorem apply_of_length_le {α : Type} (w : Window) {xs : List α} (h : xs.length ≤ w.skip) : w.apply xs = [] := by
  unfold apply
  rw [List.drop_eq_nil_of_le h]
  split
  · rfl
  · exact List.take_nil

end Window

namespace Plan

theorem selected_eq_sorted {plan : Plan} (h : plan.window = none) : plan.selected = plan.sorted := by
  unfold selected
  rw [h]
  rfl

theorem run_window {plan : Plan} (h : plan.window = none) (w : Window) :
    { plan with window := some w }.run = ⟨plan.run.columns, w.apply plan.run.rows⟩ := by
  unfold run
  rw [selected_eq_sorted h, Window.apply_map]
  rfl

theorem length_rows {plan : Plan} (h : plan.window = none) : plan.run.rows.length = plan.kept.length := by
  unfold run
  rw [List.length_map, selected_eq_sorted h]
  exact plan.stablySorted_sorted.perm.length_eq

end Plan

namespace Provider

variable {p : Provider} {request : Request} {plan : Plan} {skip take : Int64}

theorem prepare_withLimit (h : p.prepare request = .ok plan) {w : Window}
    (hw : Window.ofLimit ⟨skip, take⟩ = .ok w) :
    p.prepare (request.withLimit skip take) = .ok { plan with window := some w } := by
  obtain ⟨hcheck, source, hc⟩ := prepare_eq_ok.1 h
  refine prepare_eq_ok.2 ⟨hcheck, source, hc.select_ne_nil, hc.source_not_blank, hc.get_source, ?_,
    hc.filter, hc.order, hc.projection, hc.source_eq, hc.elements_eq⟩
  exact option_mapM_eq_ok.2 (.inr ⟨_, _, rfl, rfl, hw⟩)

theorem prepare_withLimit_error (h : p.prepare request = .ok plan) {e : Error}
    (he : Window.ofLimit ⟨skip, take⟩ = .error e) :
    p.prepare (request.withLimit skip take) = .error e := by
  obtain ⟨hcheck, source, hc⟩ := prepare_eq_ok.1 h
  have hselect : ¬ (request.withLimit skip take).select.isEmpty = true := fun hs =>
    hc.select_ne_nil (List.isEmpty_iff.1 hs)
  have hsource : ¬ (Text.trim (request.withLimit skip take).source).isEmpty = true :=
    ne_true_of_eq_false hc.source_not_blank
  have hcheck' : p.limits.checkRequest (request.withLimit skip take) = .ok () := hcheck
  rw [prepare, hcheck']
  change p.registry.plan (request.withLimit skip take) = .error e
  rw [Registry.plan, if_neg hselect, if_neg hsource]
  change ((Window.ofLimit ⟨skip, take⟩).map some >>= _) = _
  rw [he]
  rfl

theorem executeQuery_withLimit (h : p.prepare request = .ok plan) (hlimit : request.limit = none)
    {w : Window} (hw : Window.ofLimit ⟨skip, take⟩ = .ok w) :
    p.executeQuery (request.withLimit skip take) =
      .ok ⟨(p.executePlan plan).columns, w.apply (p.executePlan plan).rows⟩ := by
  obtain ⟨-, source, hc⟩ := prepare_eq_ok.1 h
  have hwindow : plan.window = none := by
    have hnone := hc.window
    rw [hlimit] at hnone
    exact (Except.ok.inj hnone).symm
  rw [executeQuery, prepare_withLimit h hw]
  exact congrArg Except.ok (Plan.run_window hwindow w)

end Provider

def Request.page (r : Request) (size i : Nat) : Request :=
  r.withLimit (Int64.ofNat (i * size)) (Int64.ofNat size)

/-- Pages that reach to the end of a result are together the result, and past the end there is nothing. -/
theorem Provider.pages_tile {p : Provider} {request : Request} {plan : Plan}
    (hlimit : request.limit = none) (h : p.prepare request = .ok plan) :
    ∃ t, p.executeQuery request = .ok t ∧
      (∀ size count : Nat, 1 ≤ size → size ≤ maxInt64 → t.rows.length ≤ count * size →
        (count - 1) * size ≤ maxInt64 → ∃ pages : List Table,
          ((List.range count).mapM fun i => p.executeQuery (request.page size i)) = .ok pages ∧
          (∀ page ∈ pages, page.columns = t.columns) ∧ pages.flatMap (·.rows) = t.rows) ∧
      ∀ skip take : Int64, (t.rows.length : Int) ≤ skip.toInt →
        p.executeQuery (request.withLimit skip take) =
          if take < 0 then .error (.negativeTake take) else .ok ⟨t.columns, []⟩ := by
  refine ⟨p.executePlan plan, by rw [executeQuery, h]; rfl, ?_, ?_⟩
  · intro size count hsize hmax hcover hlast
    let page (i : Nat) : Table :=
      ⟨(p.executePlan plan).columns, ((p.executePlan plan).rows.drop (i * size)).take size⟩
    have hpage : ∀ i ∈ List.range count, p.executeQuery (request.page size i) = .ok (page i) := by
      intro i hi
      have hle : i * size ≤ (count - 1) * size :=
        Nat.mul_le_mul_right size (Nat.le_sub_one_of_lt (List.mem_range.1 hi))
      exact executeQuery_withLimit h hlimit (Window.ofLimit_page hsize hmax (hle.trans hlast))
    refine ⟨(List.range count).map page, ?_, ?_, ?_⟩
    · rw [mapM_eq_ok, List.forall₂_map_right_iff, List.forall₂_same]
      exact hpage
    · rw [List.forall_mem_map]
      exact fun i _ => rfl
    · calc ((List.range count).map page).flatMap (·.rows)
          = (List.range count).flatMap fun i => (page i).rows := List.flatMap_map ..
        _ = (p.executePlan plan).rows.take (count * size) := flatMap_pages _ size count
        _ = (p.executePlan plan).rows := List.take_of_length_le hcover
  · intro skip take hskip
    have hnonneg : 0 ≤ skip := by
      rw [Int64.le_iff_toInt_le]
      exact (Int.natCast_nonneg _).trans hskip
    split
    · next htake =>
      rw [executeQuery, prepare_withLimit_error h (Window.ofLimit_of_neg hnonneg htake)]
      rfl
    · next htake =>
      have hle : (p.executePlan plan).rows.length ≤ skip.toInt.toNat := by omega
      rw [executeQuery_withLimit h hlimit (Window.ofLimit_of_nonneg hnonneg (Int64.not_lt.1 htake)),
        Window.apply_of_length_le _ hle]

def allGroups : Request :=
  ⟨[⟨"Group", none⟩, ⟨"Score", none⟩], "entries", [⟨"Group", ">=", some "'0'", none⟩],
    [⟨"Group", .descending⟩], none⟩

theorem allGroups_paged : ∃ t pages, entryProvider.executeQuery allGroups = .ok t ∧ t.rows.length = 5 ∧
    ((List.range 3).mapM fun i => entryProvider.executeQuery (allGroups.page 2 i)) = .ok pages ∧
    (∀ page ∈ pages, page.columns = t.columns) ∧ pages.flatMap (·.rows) = t.rows ∧
    entryProvider.executeQuery (allGroups.withLimit 5 1) = .ok ⟨t.columns, []⟩ := by
  have h : entryProvider.prepare allGroups = .ok _ := rfl
  obtain ⟨t, ht, htile, hpast⟩ := Provider.pages_tile rfl h
  have hrows : t.rows.length = 5 := by
    cases ht
    exact (Plan.length_rows rfl).trans rfl
  obtain ⟨pages, hpages, hcolumns, htiled⟩ :=
    htile 2 3 (by decide) (by decide) (by rw [hrows]; decide) (by decide)
  exact ⟨t, pages, ht, hrows, hpages, hcolumns, htiled, hpast 5 1 (by rw [hrows]; decide)⟩

end RecordQuery
