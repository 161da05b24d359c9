import RecordQuery.Schema.Builder
import RecordQuery.Proofs.Compilation
import RecordQuery.Proofs.SortCompare
import RecordQuery.Proofs.StableSort

/-! Compiled sort orders. All values of one selector are of one kind or null, so that each key is a
total preorder on the elements; the keys combine lexicographically, and sorting by the extracted
keys is stable sorting by the combined comparison. -/

namespace RecordQuery

open Std (TransCmp OrientedCmp)

instance columnCompare_transCmp (s : Selector) :
    TransCmp fun x y : Record => (s.read x).sortCompare (s.read y) := by
  simp only [Selector.read, Value.sortCompare_ofOption]
  exact transCmp_comap s.content? s.kind.compareOption

namespace OrderKey

def compare (k : OrderKey) (x y : Record) : Ordering :=
  k.direction.apply ((k.selector.read x).sortCompare (k.selector.read y))

instance compare_transCmp (k : OrderKey) : TransCmp k.compare := by
  obtain ⟨s, d⟩ := k
  cases d with
  | ascending => exact columnCompare_transCmp s
  | descending =>
    have hs := columnCompare_transCmp s
    have hswap : OrderKey.compare ⟨s, .descending⟩ = fun x y => (s.read y).sortCompare (s.read x) :=
      funext₂ fun x y => hs.eq_swap.symm
    rw [hswap]
    exact TransCmp.opposite

end OrderKey

namespace SortOrder

def compareBy : List OrderKey → Record → Record → Ordering
  | [], _, _ => .eq
  | k :: ks, x, y => (k.compare x y).then (compareBy ks x y)

theorem compareValues_extract (keys : List OrderKey) (x y : Record) :
    compareValues (keys.map (·.direction)) (keys.map fun k => k.selector.read x)
      (keys.map fun k => k.selector.read y) = compareBy keys x y := by
  induction keys with
  | nil => rfl
  | cons k ks ih => exact congrArg (Ordering.then _) ih

theorem compare_eq_compareBy (s : SortOrder) : s.compare = compareBy s.keys :=
  funext₂ fun x y => compareValues_extract s.keys x y

instance compareBy_transCmp (keys : List OrderKey) : TransCmp (compareBy keys) := by
  induction keys with
  | nil => exact { eq_swap := rfl, isLE_trans := fun _ _ => rfl }
  | cons k ks ih => exact inferInstanceAs (TransCmp (compareLex k.compare (compareBy ks)))

instance compare_transCmp (s : SortOrder) : TransCmp s.compare :=
  s.compare_eq_compareBy ▸ compareBy_transCmp s.keys

theorem compareBy_eq_eq (keys : List OrderKey) (x y : Record) :
    compareBy keys x y = .eq ↔ ∀ k ∈ keys, k.compare x y = .eq := by
  induction keys with
  | nil => exact iff_of_true rfl (List.forall_mem_nil _)
  | cons k ks ih => rw [compareBy, Ordering.then_eq_eq, ih, List.forall_mem_cons]

theorem compareBy_append {earlier later : List OrderKey} {k : OrderKey} {x y : Record}
    (he : ∀ k' ∈ earlier, k'.compare x y = .eq) (hk : k.compare x y ≠ .eq) :
    compareBy (earlier ++ k :: later) x y = k.compare x y := by
  induction earlier with
  | nil =>
    rw [List.nil_append, compareBy]
    cases h : k.compare x y
    · rfl
    · exact absurd h hk
    · rfl
  | cons k' ks ih =>
    rw [List.cons_append, compareBy, he k' List.mem_cons_self, Ordering.eq_then]
    exact ih fun k hk => he k (List.mem_cons_of_mem _ hk)

theorem sortOn_eq_mergeSort {α : Type} (s : SortOrder) (element : α → Record) (xs : List α) :
    s.sortOn element xs = xs.mergeSort fun a b => s.compare (element a) (element b) != .gt := by
  unfold sortOn
  rw [← List.map_mergeSort (r := fun a b => s.compare (element a) (element b) != .gt)
    fun _ _ _ _ => rfl, List.map_map]
  exact List.map_id _

theorem stablySorted_sortOn {α : Type} (s : SortOrder) (element : α → Record) (xs : List α) :
    StablySorted (fun a b => s.compare (element a) (element b)) xs (s.sortOn element xs) := by
  have := transCmp_comap element s.compare
  rw [sortOn_eq_mergeSort]
  exact stablySorted_mergeSort xs

end SortOrder

/-- A compiled sort order is a total preorder in which each key is its selector's column in its own
direction and the first key that sees a difference decides; sorting by it is stable, of elements and
of anything that carries them. -/
theorem compileOrder_sorts_stably {s : Schema} {keys : List SortKey} {order : SortOrder}
    (h : s.compileOrder keys = .ok order) :
    List.Forall₂ (fun key k => s.resolve key.selector = .ok k.selector ∧ k.direction = key.direction)
        keys order.keys ∧
      (∀ x y, order.compare y x = (order.compare x y).swap) ∧
      (∀ x y z, order.compare x y ≠ .gt → order.compare y z ≠ .gt → order.compare x z ≠ .gt) ∧
      (∀ x y z, order.compare x y = .eq → order.compare y z = .eq → order.compare x z = .eq) ∧
      (∀ x y, order.compare x y = .eq ↔ ∀ k ∈ order.keys, k.compare x y = .eq) ∧
      (∀ earlier k later x y, order.keys = earlier ++ k :: later →
        (∀ k' ∈ earlier, k'.compare x y = .eq) → k.compare x y ≠ .eq →
        order.compare x y = k.compare x y) ∧
      (∀ elements, StablySorted order.compare elements (order.sort elements)) ∧
      ∀ (α : Type) (element : α → Record) (xs : List α),
        StablySorted (fun a b => order.compare (element a) (element b)) xs
          (order.sortOn element xs) := by
  have ht := order.compare_transCmp
  refine ⟨Schema.compileOrder_eq_ok.1 h, fun x y => ht.eq_swap, fun x y z hxy hyz => ?_,
    fun x y z => TransCmp.eq_trans, fun x y => ?_, fun earlier k later x y hk he hne => ?_,
    order.stablySorted_sortOn id, fun α => order.stablySorted_sortOn⟩
  · have hxz := ht.isLE_trans (Ordering.isLE_iff_ne_gt.2 hxy) (Ordering.isLE_iff_ne_gt.2 hyz)
    exact Ordering.isLE_iff_ne_gt.1 hxz
  · rw [order.compare_eq_compareBy]
    exact SortOrder.compareBy_eq_eq order.keys x y
  · rw [order.compare_eq_compareBy, hk]
    exact SortOrder.compareBy_append he hne

def entrySchema : Schema :=
  (((SchemaBuilder.new "Entry").fieldOpt "Group" .int32 (Record.value? 0 .int32)).fieldOpt
    "Score" .double (Record.value? 1 .double)).build

def entry (group : Int32) (score : Option Binary64) : Record :=
  ⟨"Entry", [.value .int32 group, (score.map (Cell.value .double)).getD .absent]⟩

theorem entries_sort_stably : ∃ order,
    entrySchema.compileOrder [⟨"Group", .descending⟩, ⟨"score", .ascending⟩] = .ok order ∧
      (let entries := [entry 1 (some .zero), entry 2 (some ⟨0x7FF8000000000000⟩), ⟨"Other", []⟩,
        entry 2 none, entry 1 (some .negZero), entry 2 none]
      StablySorted order.compare entries (order.sort entries)) := by
  have h : entrySchema.compileOrder [⟨"Group", .descending⟩, ⟨"score", .ascending⟩] = .ok _ := rfl
  obtain ⟨-, -, -, -, -, -, hsort, -⟩ := compileOrder_sorts_stably h
  exact ⟨_, h, hsort _⟩

end RecordQuery
