import RecordQuery.Proofs.OrderKeys

/-! Sorting key by key. Stable sorts by one key each, the last key first, come to the sort by all
the keys: ties of a later sort are still in the order of the earlier one. -/

namespace RecordQuery

namespace SortOrder

theorem compareBy_append_eq_then (first later : List OrderKey) (x y : Record) :
    compareBy (first ++ later) x y = (compareBy first x y).then (compareBy later x y) := by
  induction first with
  | nil => rfl
  | cons k ks ih => rw [List.cons_append, compareBy, compareBy, ih, Ordering.then_assoc]

variable {α : Type} (element : α → Record)

theorem sortOn_eq_iff (s : SortOrder) {xs ys : List α} : s.sortOn element xs = ys ↔
    StablySorted (fun a b => s.compare (element a) (element b)) xs ys := by
  have hsort := s.stablySorted_sortOn element xs
  have := transCmp_comap element s.compare
  constructor
  · rintro rfl
    exact hsort
  · intro h
    exact hsort.unique h

theorem sortOn_append (first later : List OrderKey) (xs : List α) :
    sortOn ⟨first ++ later⟩ element xs = sortOn ⟨first⟩ element (sortOn ⟨later⟩ element xs) := by
  have := transCmp_comap element (compare ⟨first⟩)
  have hlater := stablySorted_sortOn ⟨later⟩ element xs
  have hfirst := stablySorted_sortOn ⟨first⟩ element (sortOn ⟨later⟩ element xs)
  rw [sortOn_eq_iff]
  simpa only [compare_eq_compareBy, compareBy_append_eq_then] using hlater.lex hfirst

theorem sortOn_of_ascending (s : SortOrder) {xs : List α}
    (h : xs.Pairwise fun a b => s.compare (element a) (element b) ≠ .gt) :
    s.sortOn element xs = xs :=
  (s.sortOn_eq_iff element).2 (stablySorted_of_ascending h)

theorem sortOn_sortOn (s : SortOrder) (xs : List α) :
    s.sortOn element (s.sortOn element xs) = s.sortOn element xs :=
  s.sortOn_of_ascending element (s.stablySorted_sortOn element xs).ascending

theorem sortOn_nil (xs : List α) : sortOn ⟨[]⟩ element xs = xs :=
  sortOn_of_ascending element ⟨[]⟩ (List.pairwise_of_forall fun _ _ => nofun)

theorem sortOn_eq_foldr (keys : List OrderKey) (xs : List α) :
    sortOn ⟨keys⟩ element xs = keys.foldr (fun k ys => sortOn ⟨[k]⟩ element ys) xs := by
  induction keys with
  | nil => exact sortOn_nil element xs
  | cons k ks ih => rw [List.foldr_cons, ← ih, ← sortOn_append, List.singleton_append]

end SortOrder

theorem compare_single (k : OrderKey) (x y : Record) : SortOrder.compare ⟨[k]⟩ x y = k.compare x y := by
  rw [SortOrder.compare_eq_compareBy, SortOrder.compareBy, SortOrder.compareBy, Ordering.then_eq]

/-- A list of keys behind another one sorts first and the leading keys sort its outcome. Hence any sort
order is the stable sorts by its keys one by one, the last key first, and what is sorted already stays as
it is. -/
theorem compileOrder_sorts_successively {s : Schema} {first later : List SortKey}
    {leading trailing : SortOrder} (hfirst : s.compileOrder first = .ok leading)
    (hlater : s.compileOrder later = .ok trailing) :
    ∃ order singles, s.compileOrder (first ++ later) = .ok order ∧
      List.Forall₂ (fun key single => s.compileOrder [key] = .ok single ∧
        ∃ selector, s.resolve key.selector = .ok selector ∧ ∀ x y, single.compare x y =
          key.direction.apply ((selector.read x).sortCompare (selector.read y))) (first ++ later) singles ∧
      (∀ sorter ∈ order :: leading :: trailing :: singles,
        (∀ elements, StablySorted sorter.compare elements (sorter.sort elements)) ∧
        ∀ (α : Type) (element : α → Record) (xs : List α),
          StablySorted (fun a b => sorter.compare (element a) (element b)) xs (sorter.sortOn element xs)) ∧
      (∀ elements, order.sort elements = leading.sort (trailing.sort elements)) ∧
      ∀ (α : Type) (element : α → Record) (xs : List α),
        order.sortOn element xs = leading.sortOn element (trailing.sortOn element xs) ∧
        order.sortOn element xs = singles.foldr (fun single ys => single.sortOn element ys) xs ∧
        order.sortOn element (order.sortOn element xs) = order.sortOn element xs ∧
        ((xs.Pairwise fun a b => order.compare (element a) (element b) ≠ .gt) →
          order.sortOn element xs = xs) := by
  have hkeys := List.rel_append (Schema.compileOrder_eq_ok.1 hfirst) (Schema.compileOrder_eq_ok.1 hlater)
  refine ⟨⟨leading.keys ++ trailing.keys⟩, (leading.keys ++ trailing.keys).map fun k => ⟨[k]⟩,
    Schema.compileOrder_eq_ok.2 hkeys, ?_, fun sorter _ => ⟨sorter.stablySorted_sortOn id,
      fun α element => sorter.stablySorted_sortOn element⟩,
    SortOrder.sortOn_append id leading.keys trailing.keys,
    fun α element xs => ⟨SortOrder.sortOn_append element leading.keys trailing.keys xs, ?_,
      SortOrder.sortOn_sortOn element _ xs, SortOrder.sortOn_of_ascending element _⟩⟩
  · rw [List.forall₂_map_right_iff]
    refine hkeys.imp fun key k hk =>
      ⟨Schema.compileOrder_eq_ok.2 (.cons hk .nil), k.selector, hk.1, fun x y => ?_⟩
    rw [compare_single, OrderKey.compare, hk.2]
  · rw [SortOrder.sortOn_eq_foldr, List.foldr_map]

theorem entries_sort_successively : ∃ leading trailing order,
    entrySchema.compileOrder [⟨"Group", .descending⟩] = .ok leading ∧
      entrySchema.compileOrder [⟨"Score", .ascending⟩] = .ok trailing ∧
      entrySchema.compileOrder [⟨"Group", .descending⟩, ⟨"Score", .ascending⟩] = .ok order ∧
      (let entries := [entry 1 (some .zero), entry 2 (some ⟨0x7FF8000000000000⟩), ⟨"Other", []⟩,
        entry 2 none, entry 1 (some .negZero), entry 2 none]
      order.sort entries = leading.sort (trailing.sort entries)) := by
  have hfirst : entrySchema.compileOrder [⟨"Group", .descending⟩] = .ok _ := rfl
  have hlater : entrySchema.compileOrder [⟨"Score", .ascending⟩] = .ok _ := rfl
  obtain ⟨order, -, horder, -, -, hsort, -⟩ := compileOrder_sorts_successively hfirst hlater
  exact ⟨_, _, order, hfirst, hlater, horder, hsort _⟩

end RecordQuery
