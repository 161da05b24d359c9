import RecordQuery.Proofs.Traversal

/-! Checks in a fixed order. A check is what errors it raises; a computation runs a list of checks when it
fails with exactly what the first of them that fails raises, and so succeeds when all of them pass. -/

namespace RecordQuery

variable {α β ε : Type}

def Passes (checks : List (ε → Prop)) : Prop := ∀ check ∈ checks, ∀ e, ¬ check e

theorem passes_cons {check : ε → Prop} {checks : List (ε → Prop)} :
    Passes (check :: checks) ↔ (∀ e, ¬ check e) ∧ Passes checks := List.forall_mem_cons

theorem passes_append {checks more : List (ε → Prop)} :
    Passes (checks ++ more) ↔ Passes checks ∧ Passes more := List.forall_mem_append

theorem passes_map {check : α → ε → Prop} {xs : List α} :
    Passes (xs.map check) ↔ ∀ x ∈ xs, ∀ e, ¬ check x e := List.forall_mem_map

theorem passes_flatMap {checks : α → List (ε → Prop)} {xs : List α} :
    Passes (xs.flatMap checks) ↔ ∀ x ∈ xs, Passes (checks x) := by
  induction xs with
  | nil => exact iff_of_true (List.forall_mem_nil _) (List.forall_mem_nil _)
  | cons x xs ih => rw [List.flatMap_cons, passes_append, ih, List.forall_mem_cons]

/-- An error that a check raises after all checks before it have passed. -/
inductive FirstFault : List (ε → Prop) → ε → Prop
  | here {check : ε → Prop} {checks : List (ε → Prop)} {e : ε} (h : check e) :
      FirstFault (check :: checks) e
  | later {check : ε → Prop} {checks : List (ε → Prop)} {e : ε} (hpass : ∀ e', ¬ check e')
      (h : FirstFault checks e) : FirstFault (check :: checks) e

theorem not_firstFault_nil (e : ε) : ¬ FirstFault [] e := nofun

theorem firstFault_cons {check : ε → Prop} {checks : List (ε → Prop)} {e : ε} :
    FirstFault (check :: checks) e ↔ check e ∨ (∀ e', ¬ check e') ∧ FirstFault checks e := by
  constructor
  · intro h
    cases h with
    | here h => exact .inl h
    | later hpass h => exact .inr ⟨hpass, h⟩
  · rintro (h | ⟨hpass, h⟩)
    · exact .here h
    · exact .later hpass h

theorem firstFault_append {checks more : List (ε → Prop)} {e : ε} :
    FirstFault (checks ++ more) e ↔ FirstFault checks e ∨ Passes checks ∧ FirstFault more e := by
  induction checks with
  | nil => exact ⟨fun h => .inr ⟨List.forall_mem_nil _, h⟩, fun h => (h.resolve_left nofun).2⟩
  | cons check checks ih =>
    rw [List.cons_append, firstFault_cons, firstFault_cons, ih, passes_cons, and_or_left, or_assoc, and_assoc]

theorem passes_iff {checks : List (ε → Prop)} : Passes checks ↔ ∀ e, ¬ FirstFault checks e := by
  induction checks with
  | nil => exact iff_of_true (List.forall_mem_nil _) not_firstFault_nil
  | cons check checks ih =>
    rw [passes_cons]
    constructor
    · rintro ⟨hpass, h⟩ e hfault
      rcases firstFault_cons.1 hfault with hcheck | ⟨-, hfault⟩
      · exact hpass e hcheck
      · exact ih.1 h e hfault
    · intro h
      have hpass : ∀ e, ¬ check e := fun e hcheck => h e (.here hcheck)
      exact ⟨hpass, ih.2 fun e hfault => h e (.later hpass hfault)⟩

theorem bind_eq_error {x : Except ε α} {f : α → Except ε β} {e : ε} :
    (x >>= f) = .error e ↔ x = .error e ∨ ∃ a, x = .ok a ∧ f a = .error e := by
  cases x with
  | error e' =>
    exact ⟨fun h => .inl (congrArg _ (Except.error.inj h)), fun h =>
      congrArg _ (Except.error.inj (h.resolve_right fun ⟨_, h, _⟩ => nomatch h))⟩
  | ok a =>
    refine ⟨fun h => .inr ⟨a, rfl, h⟩, ?_⟩
    rintro (h | ⟨_, h, hf⟩)
    · exact nomatch h
    · exact Except.ok.inj h ▸ hf

theorem seq_eq_error {x : Except ε Unit} {y : Except ε β} {e : ε} (h : (x >>= fun _ => y) = .error e) :
    x = .error e ∨ y = .error e :=
  (bind_eq_error.1 h).imp_right fun ⟨_, _, hy⟩ => hy

theorem forM_eq_error {f : α → Except ε Unit} {xs : List α} {e : ε} (h : xs.forM f = .error e) :
    ∃ x ∈ xs, f x = .error e := by
  induction xs with
  | nil => exact nomatch h
  | cons x xs ih =>
    change (f x >>= fun _ => xs.forM f) = _ at h
    rcases seq_eq_error h with hx | hxs
    · exact ⟨x, List.mem_cons_self, hx⟩
    · obtain ⟨y, hy, hf⟩ := ih hxs
      exact ⟨y, List.mem_cons_of_mem _ hy, hf⟩

theorem option_forM_eq_error {f : α → Except ε Unit} {x : Option α} {e : ε} (h : x.forM f = .error e) :
    ∃ a, x = some a ∧ f a = .error e := by
  cases x with
  | none => exact nomatch h
  | some a => exact ⟨a, rfl, h⟩

theorem map_eq_error {x : Except ε α} {f : α → β} {e : ε} : x.map f = .error e ↔ x = .error e := by
  cases x with
  | error e' => exact ⟨fun h => congrArg _ (Except.error.inj h), fun h => congrArg _ (Except.error.inj h)⟩
  | ok a => exact iff_of_false (nomatch ·) (nomatch ·)

/-- The computation fails with the first fault of the checks, and only then. -/
def Runs (checks : List (ε → Prop)) (x : Except ε α) : Prop := ∀ e, x = .error e ↔ FirstFault checks e

theorem Runs.passes_iff {checks : List (ε → Prop)} {x : Except ε α} (h : Runs checks x) :
    Passes checks ↔ ∃ a, x = .ok a := by
  rw [RecordQuery.passes_iff]
  constructor
  · intro hpass
    cases x with
    | ok a => exact ⟨a, rfl⟩
    | error e => exact absurd ((h e).1 rfl) (hpass e)
  · rintro ⟨a, rfl⟩ e hfault
    exact nomatch (h e).2 hfault

theorem Runs.ok (a : α) : Runs [] (.ok a : Except ε α) :=
  fun e => iff_of_false (nomatch ·) (not_firstFault_nil e)

theorem Runs.single {check : ε → Prop} {x : Except ε α} (h : ∀ e, x = .error e ↔ check e) :
    Runs [check] x := by
  intro e
  rw [h, firstFault_cons]
  exact ⟨.inl, fun h => h.resolve_right fun h => not_firstFault_nil e h.2⟩

theorem not_error_iff {check : ε → Prop} {x : Except ε α} (h : ∀ e, x = .error e ↔ check e) :
    (∀ e, ¬ check e) ↔ ∃ a, x = .ok a := by
  rw [← (Runs.single h).passes_iff, passes_cons]
  exact (and_iff_left (List.forall_mem_nil _)).symm

theorem Runs.fail {check : ε → Prop} {checks : List (ε → Prop)} {e : ε} (h : ∀ e', check e' ↔ e' = e) :
    Runs (check :: checks) (.error e : Except ε α) := by
  intro e'
  rw [firstFault_cons, h, Except.error.injEq, eq_comm]
  exact ⟨.inl, fun hfault => hfault.resolve_right fun hlater => hlater.1 e ((h e).2 rfl)⟩

theorem Runs.skip {check : ε → Prop} {checks : List (ε → Prop)} {x : Except ε α} (h : ∀ e, ¬ check e)
    (hx : Runs checks x) : Runs (check :: checks) x := by
  intro e
  rw [hx e, firstFault_cons]
  exact ⟨fun hfault => .inr ⟨h, hfault⟩, fun hfault => (hfault.resolve_left (h e)).2⟩

theorem Runs.bind {checks more : List (ε → Prop)} {x : Except ε α} {f : α → Except ε β}
    (hx : Runs checks x) (hf : ∀ a, x = .ok a → Runs more (f a)) : Runs (checks ++ more) (x >>= f) := by
  intro e
  rw [firstFault_append, ← hx e, hx.passes_iff, bind_eq_error]
  refine or_congr Iff.rfl ⟨?_, ?_⟩
  · rintro ⟨a, ha, hfault⟩
    exact ⟨⟨a, ha⟩, (hf a ha e).1 hfault⟩
  · rintro ⟨⟨a, ha⟩, hfault⟩
    exact ⟨a, ha, (hf a ha e).2 hfault⟩

theorem Runs.map {checks : List (ε → Prop)} {x : Except ε α} (h : Runs checks x) (f : α → β) :
    Runs checks (x.map f) := fun e => map_eq_error.trans (h e)

theorem Runs.mapM {checks : α → List (ε → Prop)} {f : α → Except ε β} {xs : List α}
    (h : ∀ x, Runs (checks x) (f x)) : Runs (xs.flatMap checks) (xs.mapM f) := by
  induction xs with
  | nil => exact .ok []
  | cons x xs ih =>
    rw [List.mapM_cons, List.flatMap_cons]
    exact (h x).bind fun y _ => ih.map (y :: ·)

theorem Runs.mapM_single {check : α → ε → Prop} {f : α → Except ε β} {xs : List α}
    (h : ∀ x e, f x = .error e ↔ check x e) : Runs (xs.map check) (xs.mapM f) := by
  rw [List.map_eq_flatMap]
  exact .mapM fun x => .single (h x)

end RecordQuery
