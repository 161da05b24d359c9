import Mathlib.Data.List.Basic
import Mathlib.Order.Basic

/-! Stable sorting by a comparison. The three conditions leave exactly one list, so that whatever
meets them is the sorted list. -/

namespace RecordQuery

open Std (TransCmp OrientedCmp ReflCmp)

variable {α β : Type} {cmp : α → α → Ordering} {xs ys zs : List α}

/-- `ys` holds the entries of `xs` in ascending order, and entries that compare equal stand in it
as they stand in `xs`. -/
structure StablySorted (cmp : α → α → Ordering) (xs ys : List α) : Prop where
  perm : ys.Perm xs
  ascending : ys.Pairwise fun a b => cmp a b ≠ .gt
  stable : ∀ a, (ys.filter fun b => cmp a b == .eq) = xs.filter fun b => cmp a b == .eq

theorem stablySorted_of_ascending (h : xs.Pairwise fun a b => cmp a b ≠ .gt) :
    StablySorted cmp xs xs :=
  ⟨.refl xs, h, fun _ => rfl⟩

theorem isLE_of_bne_gt {o : Ordering} : (o != .gt) = true ↔ o.isLE = true := by
  cases o <;> decide

section MergeSort
variable [TransCmp cmp]

theorem bne_gt_trans (a b c : α) (hab : (cmp a b != .gt) = true) (hbc : (cmp b c != .gt) = true) :
    (cmp a c != .gt) = true := by
  rw [isLE_of_bne_gt] at hab hbc ⊢
  exact TransCmp.isLE_trans hab hbc

theorem bne_gt_total (a b : α) : (cmp a b != .gt || cmp b a != .gt) = true := by
  have hswap : cmp b a = (cmp a b).swap := OrientedCmp.eq_swap
  rw [hswap]
  cases cmp a b <;> rfl

theorem stablySorted_mergeSort (xs : List α) :
    StablySorted cmp xs (xs.mergeSort fun a b => cmp a b != .gt) where
  perm := List.mergeSort_perm xs _
  ascending := (List.pairwise_mergeSort bne_gt_trans bne_gt_total xs).imp (by simp)
  stable a := by
    have hties : (xs.filter fun b => cmp a b == .eq).Pairwise fun b c => (cmp b c != .gt) = true := by
      refine List.pairwise_of_forall_mem_list fun b hb c hc => ?_
      have hab := beq_iff_eq.1 (List.mem_filter.1 hb).2
      have hac := beq_iff_eq.1 (List.mem_filter.1 hc).2
      rw [TransCmp.eq_trans (OrientedCmp.eq_symm hab) hac]
      rfl
    -- a class of ties is ascending as it stands, so that sorting keeps it as a sublist
    have hsub := (List.sublist_mergeSort bne_gt_trans bne_gt_total hties List.filter_sublist).filter
      fun b => cmp a b == .eq
    simp only [List.filter_filter, Bool.and_self] at hsub
    exact (hsub.eq_of_length ((List.mergeSort_perm xs _).filter _).length_eq.symm).symm

end MergeSort

section Unique
variable [TransCmp cmp]

theorem head_isLE {y z : α} (h : (y :: ys).Pairwise fun a b => cmp a b ≠ .gt) (hz : z ∈ y :: ys) :
    (cmp y z).isLE := by
  rcases List.mem_cons.1 hz with rfl | hz
  · exact ReflCmp.isLE_rfl
  · exact Ordering.isLE_iff_ne_gt.2 (List.rel_of_pairwise_cons h hz)

theorem eq_of_ascending (hp : ys.Perm zs) (hy : ys.Pairwise fun a b => cmp a b ≠ .gt)
    (hz : zs.Pairwise fun a b => cmp a b ≠ .gt)
    (ht : ∀ a, (ys.filter fun b => cmp a b == .eq) = zs.filter fun b => cmp a b == .eq) :
    ys = zs := by
  induction ys generalizing zs with
  | nil => exact hp.nil_eq
  | cons y ys ih =>
    cases zs with
    | nil => exact hp.eq_nil
    | cons z zs =>
      have hyz := head_isLE hy (hp.mem_iff.2 List.mem_cons_self)
      have hzy := head_isLE hz (hp.mem_iff.1 List.mem_cons_self)
      have heq : cmp y z = .eq := OrientedCmp.isLE_antisymm hyz hzy
      obtain rfl : y = z := by
        have hhead := ht y
        have hyy : cmp y y = .eq := ReflCmp.compare_self
        simp only [List.filter_cons, hyy, heq, beq_self_eq_true, if_true] at hhead
        exact (List.cons.inj hhead).1
      refine congrArg _ (ih hp.cons_inv hy.tail hz.tail fun a => ?_)
      have hta := ht a
      simp only [List.filter_cons] at hta
      split at hta
      · exact (List.cons.inj hta).2
      · exact hta

theorem StablySorted.unique (hy : StablySorted cmp xs ys) (hz : StablySorted cmp xs zs) : ys = zs :=
  eq_of_ascending (hy.perm.trans hz.perm.symm) hy.ascending hz.ascending
    fun a => (hy.stable a).trans (hz.stable a).symm

end Unique

section Successive
variable {first later : α → α → Ordering} [ReflCmp first]

theorem StablySorted.pairwise_ties {r : α → α → Prop} (h : StablySorted first xs ys)
    (hr : xs.Pairwise r) : ys.Pairwise fun a b => first a b = .eq → r a b := by
  rw [List.pairwise_iff_forall_sublist]
  intro a b hsub htie
  have hclass : ([a, b].filter fun c => first a c == .eq) = [a, b] := by
    simp [ReflCmp.compare_self, htie]
  have hties := hsub.filter fun c => first a c == .eq
  rw [hclass, h.stable a] at hties
  exact List.pairwise_iff_forall_sublist.1 hr (hties.trans List.filter_sublist)

/-- Sorting by the later comparison and then by the first one sorts by both, the first one leading. -/
theorem StablySorted.lex (hlater : StablySorted later xs ys) (hfirst : StablySorted first ys zs) :
    StablySorted (fun a b => (first a b).then (later a b)) xs zs where
  perm := hfirst.perm.trans hlater.perm
  ascending := by
    refine (hfirst.ascending.and (hfirst.pairwise_ties hlater.ascending)).imp ?_
    rintro a b ⟨hne, htie⟩
    cases h : first a b with
    | lt => simp
    | eq => simpa using htie h
    | gt => exact absurd h hne
  stable a := by
    have hboth (b : α) : ((first a b).then (later a b) == .eq) =
        ((first a b == .eq) && (later a b == .eq)) := by
      cases first a b <;> cases later a b <;> rfl
    simp only [hboth]
    -- what ties under both is the later tie within the class of the first one, in either order
    calc zs.filter (fun b => (first a b == .eq) && (later a b == .eq))
        = (zs.filter fun b => first a b == .eq).filter fun b => later a b == .eq := by
          simp only [List.filter_filter, Bool.and_comm]
      _ = (ys.filter fun b => later a b == .eq).filter fun b => first a b == .eq := by
          rw [hfirst.stable a]
          simp only [List.filter_filter, Bool.and_comm]
      _ = xs.filter fun b => (first a b == .eq) && (later a b == .eq) := by
          rw [hlater.stable a, List.filter_filter]

end Successive

end RecordQuery
