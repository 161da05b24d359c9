import Mathlib.Data.List.Induction
import RecordQuery.Proofs.ByteOrder
import RecordQuery.Proofs.Compilation

/-! Registries over whole runs of calls. A registry holds under each name what the last registration
that went through left there, unless the name was removed after it; a call touches no other name, and
the names stand in the order of their bytes. -/

namespace RecordQuery

theorem append_singleton_eq_append_cons {α : Type} {xs front back : List α} {x y : α} :
    xs ++ [x] = front ++ y :: back ↔
      (front = xs ∧ y = x ∧ back = []) ∨ ∃ back', back = back' ++ [x] ∧ xs = front ++ y :: back' := by
  constructor
  · intro h
    rcases List.eq_nil_or_concat' back with rfl | ⟨back', z, rfl⟩
    · obtain ⟨rfl, hy⟩ := List.append_inj' h rfl
      exact .inl ⟨rfl, (List.singleton_inj.1 hy).symm, rfl⟩
    · rw [← List.cons_append, ← List.append_assoc] at h
      obtain ⟨rfl, hz⟩ := List.append_inj' h rfl
      exact .inr ⟨back', by rw [List.singleton_inj.1 hz], rfl⟩
  · rintro (⟨rfl, rfl, rfl⟩ | ⟨back', rfl, rfl⟩)
    · rfl
    · rw [List.append_assoc, List.cons_append]

inductive RegistryCall where
  | register (source : Source)
  | remove (name : String)

def RegistryCall.name : RegistryCall → String
  | .register source => source.name
  | .remove name => name

namespace Registry

variable {r : Registry} {name : String} {source : Source} {call : RegistryCall}

def Accepts (r : Registry) (source : Source) : Prop := ∃ r', r.register source = .ok r'

def after (r : Registry) : RegistryCall → Registry
  | .register source =>
    match r.register source with
    | .ok r' => r'
    | .error _ => r
  | .remove name => (r.unregister name).2

def run (policy : DuplicatePolicy) (calls : List RegistryCall) : Registry :=
  calls.foldl after (.empty policy)

/-- The call decides what stands under a name: a registration that goes through, or a removal. -/
def Settles (r : Registry) (name : String) : RegistryCall → Prop
  | .register source => source.name = name ∧ r.Accepts source
  | .remove name' => name' = name

/-- The source was registered with success, and no call after that settled its name again. -/
def LastRegistered (policy : DuplicatePolicy) (calls : List RegistryCall) (source : Source) : Prop :=
  ∃ earlier later, calls = earlier ++ .register source :: later ∧ (run policy earlier).Accepts source ∧
    ∀ between call rest, later = between ++ call :: rest →
      ¬ (run policy (earlier ++ .register source :: between)).Settles source.name call

theorem register_eq_ok {r' : Registry} : r.register source = .ok r' ↔
    source.name ≠ "" ∧ ¬ (r.policy = .reject ∧ r.contains source.name = true) ∧
      r' = { r with sources := insertSource source r.sources } := by
  unfold register
  by_cases hempty : source.name = ""
  · rw [if_pos (String.isEmpty_iff.2 hempty)]
    exact iff_of_false (nomatch ·) fun h => h.1 hempty
  rw [if_neg fun h => hempty (String.isEmpty_iff.1 h)]
  by_cases hreject : r.policy = .reject ∧ r.contains source.name = true
  · rw [if_pos (by rw [hreject.1, hreject.2]; rfl)]
    exact iff_of_false (nomatch ·) fun h => h.2.1 hreject
  · rw [if_neg fun h => hreject (by simpa [and_comm] using h)]
    exact ⟨fun h => ⟨hempty, hreject, (Except.ok.inj h).symm⟩, fun h => congrArg _ h.2.2.symm⟩

theorem accepts_iff : r.Accepts source ↔
    source.name ≠ "" ∧ ¬ (r.policy = .reject ∧ r.contains source.name = true) := by
  unfold Accepts
  simp only [register_eq_ok, ← and_assoc, exists_eq_right]

theorem error_iff_not_accepts : (∃ e, r.register source = .error e) ↔ ¬ r.Accepts source := by
  unfold Accepts
  cases r.register source <;> simp

theorem after_register_of_accepts (h : r.Accepts source) :
    r.after (.register source) = { r with sources := insertSource source r.sources } := by
  obtain ⟨r', hr⟩ := h
  rw [after, hr]
  exact (register_eq_ok.1 hr).2.2

theorem after_register_of_not_accepts (h : ¬ r.Accepts source) : r.after (.register source) = r := by
  rw [after]
  split
  · next r' hr => exact absurd ⟨r', hr⟩ h
  · rfl

theorem find?_cons_source (s : Source) (rest : List Source) :
    (s :: rest).find? (fun s => s.name = name) =
      if s.name = name then some s else rest.find? fun s => s.name = name := by
  by_cases h : s.name = name
  · rw [List.find?_cons_of_pos (by simpa using h), if_pos h]
  · rw [List.find?_cons_of_neg (by simpa using h), if_neg h]

theorem find?_insertSource (sources : List Source) :
    (insertSource source sources).find? (fun s => s.name = name) =
      if source.name = name then some source else sources.find? fun s => s.name = name := by
  induction sources with
  | nil => exact find?_cons_source source []
  | cons s rest ih =>
    unfold insertSource
    split
    · exact find?_cons_source source (s :: rest)
    · split
      · next heq =>
        rw [find?_cons_source, find?_cons_source, ← heq]
        split <;> rfl
      · next hne =>
        rw [find?_cons_source, ih, find?_cons_source]
        by_cases h : source.name = name
        · rw [if_pos h, if_pos h, if_neg fun hs => hne (h.trans hs.symm)]
        · rw [if_neg h, if_neg h]

theorem find?_remove (r : Registry) (name' : String) :
    (r.remove name').find? name = if name' = name then none else r.find? name := by
  unfold remove find?
  rw [List.find?_filter]
  split
  · next h =>
    refine List.find?_eq_none.2 fun s _ => ?_
    simp [h]
  · next h =>
    congr 1
    funext s
    by_cases hs : s.name = name
    · simp [hs, Ne.symm h]
    · simp [hs]

theorem find?_after : (r.after call).find? name = some source ↔
    (call = .register source ∧ source.name = name ∧ r.Accepts source) ∨
      (r.find? name = some source ∧ ¬ r.Settles name call) := by
  cases call with
  | register new =>
    by_cases haccepts : r.Accepts new
    · rw [after_register_of_accepts haccepts, find?, find?_insertSource]
      by_cases hname : new.name = name
      · rw [if_pos hname, Option.some.injEq, RegistryCall.register.injEq]
        constructor
        · rintro rfl
          exact .inl ⟨rfl, hname, haccepts⟩
        · rintro (⟨h, -⟩ | ⟨-, h⟩)
          · exact h
          · exact absurd ⟨hname, haccepts⟩ h
      · rw [if_neg hname]
        constructor
        · intro h
          exact .inr ⟨h, fun hsettles => hname hsettles.1⟩
        · rintro (⟨h, hname', -⟩ | ⟨h, -⟩)
          · cases h
            exact absurd hname' hname
          · exact h
    · rw [after_register_of_not_accepts haccepts]
      constructor
      · intro h
        exact .inr ⟨h, fun hsettles => haccepts hsettles.2⟩
      · rintro (⟨h, -, haccepts'⟩ | ⟨h, -⟩)
        · cases h
          exact absurd haccepts' haccepts
        · exact h
  | remove name' =>
    rw [after, unregister, find?_remove]
    by_cases hname : name' = name
    · rw [if_pos hname]
      refine iff_of_false (nomatch ·) ?_
      rintro (⟨h, -⟩ | ⟨-, h⟩)
      · exact nomatch h
      · exact h hname
    · rw [if_neg hname]
      constructor
      · intro h
        exact .inr ⟨h, hname⟩
      · rintro (⟨h, -⟩ | ⟨h, -⟩)
        · exact nomatch h
        · exact h

section Run
variable {policy : DuplicatePolicy} {calls : List RegistryCall}

theorem run_append_singleton : run policy (calls ++ [call]) = (run policy calls).after call := by
  rw [run, List.foldl_append]
  rfl

theorem lastRegistered_append_singleton : LastRegistered policy (calls ++ [call]) source ↔
    (call = .register source ∧ (run policy calls).Accepts source) ∨
      (LastRegistered policy calls source ∧ ¬ (run policy calls).Settles source.name call) := by
  constructor
  · rintro ⟨earlier, later, hcalls, haccepts, hlater⟩
    rcases append_singleton_eq_append_cons.1 hcalls with ⟨rfl, hcall, -⟩ | ⟨later', rfl, rfl⟩
    · exact .inl ⟨hcall.symm, haccepts⟩
    · refine .inr ⟨⟨earlier, later', rfl, haccepts, fun between c rest h => ?_⟩, hlater later' call [] rfl⟩
      exact hlater between c (rest ++ [call]) (by rw [h, List.append_assoc, List.cons_append])
  · rintro (⟨rfl, haccepts⟩ | ⟨⟨earlier, later, rfl, haccepts, hlater⟩, hcall⟩)
    · exact ⟨calls, [], rfl, haccepts, fun between c rest h => by simp at h⟩
    · refine ⟨earlier, later ++ [call], by rw [List.append_assoc, List.cons_append], haccepts, ?_⟩
      intro between c rest h
      rcases append_singleton_eq_append_cons.1 h with ⟨rfl, rfl, -⟩ | ⟨rest', -, hbetween⟩
      · exact hcall
      · exact hlater between c rest' hbetween

theorem find?_run : (run policy calls).find? name = some source ↔
    source.name = name ∧ LastRegistered policy calls source := by
  induction calls using List.reverseRecOn generalizing name source with
  | nil =>
    refine iff_of_false (nomatch ·) ?_
    rintro ⟨-, earlier, later, h, -⟩
    simp at h
  | append_singleton calls call ih =>
    rw [run_append_singleton, find?_after, ih, lastRegistered_append_singleton]
    constructor
    · rintro (⟨hcall, hname, haccepts⟩ | ⟨⟨rfl, hlast⟩, hsettles⟩)
      · exact ⟨hname, .inl ⟨hcall, haccepts⟩⟩
      · exact ⟨rfl, .inr ⟨hlast, hsettles⟩⟩
    · rintro ⟨rfl, ⟨hcall, haccepts⟩ | ⟨hlast, hsettles⟩⟩
      · exact .inl ⟨hcall, rfl, haccepts⟩
      · exact .inr ⟨⟨rfl, hlast⟩, hsettles⟩

end Run

/-! The names, in their order. -/

def Ascending (r : Registry) : Prop := r.sources.Pairwise fun s t => s.name < t.name

theorem mem_insertSource {s : Source} {sources : List Source} (h : s ∈ insertSource source sources) :
    s = source ∨ s ∈ sources := by
  induction sources with
  | nil => exact .inl (List.mem_singleton.1 h)
  | cons t rest ih =>
    unfold insertSource at h
    split at h
    · exact List.mem_cons.1 h
    · split at h
      · exact (List.mem_cons.1 h).imp_right (List.mem_cons_of_mem t)
      · rcases List.mem_cons.1 h with rfl | h
        · exact .inr List.mem_cons_self
        · exact (ih h).imp_right (List.mem_cons_of_mem t)

theorem pairwise_insertSource {sources : List Source} (h : sources.Pairwise fun s t => s.name < t.name) :
    (insertSource source sources).Pairwise fun s t => s.name < t.name := by
  induction sources with
  | nil => exact List.pairwise_singleton _ _
  | cons t rest ih =>
    obtain ⟨hhead, htail⟩ := List.pairwise_cons.1 h
    unfold insertSource
    split
    · next hlt =>
      refine List.pairwise_cons.2 ⟨fun s hs => ?_, h⟩
      rcases List.mem_cons.1 hs with rfl | hs
      · exact hlt
      · exact hlt.trans (hhead s hs)
    · next hlt =>
      split
      · next heq => exact List.pairwise_cons.2 ⟨heq ▸ hhead, htail⟩
      · next hne =>
        -- the new source goes further in, and what it lands among is still above the head
        refine List.pairwise_cons.2 ⟨fun s hs => ?_, ih htail⟩
        rcases mem_insertSource hs with rfl | hs
        · exact lt_of_le_of_ne (not_lt.1 hlt) (Ne.symm hne)
        · exact hhead s hs

theorem ascending_after (h : r.Ascending) (call : RegistryCall) : (r.after call).Ascending := by
  cases call with
  | register source =>
    by_cases haccepts : r.Accepts source
    · rw [after_register_of_accepts haccepts]
      exact pairwise_insertSource h
    · rwa [after_register_of_not_accepts haccepts]
  | remove name => exact List.Pairwise.filter _ h

theorem ascending_run (policy : DuplicatePolicy) (calls : List RegistryCall) :
    (run policy calls).Ascending := by
  induction calls using List.reverseRecOn with
  | nil => exact .nil
  | append_singleton calls call ih =>
    rw [run_append_singleton]
    exact ascending_after ih call

theorem policy_after (r : Registry) (call : RegistryCall) : (r.after call).policy = r.policy := by
  cases call with
  | register source =>
    by_cases haccepts : r.Accepts source
    · rw [after_register_of_accepts haccepts]
    · rw [after_register_of_not_accepts haccepts]
  | remove name => rfl

theorem policy_run (policy : DuplicatePolicy) (calls : List RegistryCall) :
    (run policy calls).policy = policy := by
  induction calls using List.reverseRecOn with
  | nil => rfl
  | append_singleton calls call ih => rw [run_append_singleton, policy_after, ih]

theorem mem_names_iff : name ∈ r.names ↔ r.contains name = true := by
  rw [names, contains, find?, List.find?_isSome]
  simp

/-! Calls on one name and what stands under the others. -/

theorem find?_after_of_ne (h : call.name ≠ name) : (r.after call).find? name = r.find? name := by
  refine Option.ext fun source => ?_
  rw [find?_after]
  constructor
  · rintro (⟨rfl, hname, -⟩ | ⟨hfind, -⟩)
    · exact absurd hname h
    · exact hfind
  · intro hfind
    refine .inr ⟨hfind, fun hsettles => ?_⟩
    cases call with
    | register source => exact h hsettles.1
    | remove name' => exact h hsettles

theorem filter_insertSource (sources : List Source) :
    (insertSource source sources).filter (fun s => s.name ≠ source.name) =
      sources.filter fun s => s.name ≠ source.name := by
  have hskip (s : Source) (rest : List Source) (h : s.name = source.name) :
      (s :: rest).filter (fun s => s.name ≠ source.name) = rest.filter fun s => s.name ≠ source.name :=
    List.filter_cons_of_neg (by simp [h])
  induction sources with
  | nil => exact hskip source [] rfl
  | cons s rest ih =>
    unfold insertSource
    split
    · exact hskip source (s :: rest) rfl
    · split
      · next heq => rw [hskip source rest rfl, hskip s rest heq.symm]
      · rw [List.filter_cons, ih, List.filter_cons]

theorem filter_names_after (r : Registry) (call : RegistryCall) :
    (r.after call).names.filter (· ≠ call.name) = r.names.filter (· ≠ call.name) := by
  have hfilter : (r.after call).sources.filter (fun s => s.name ≠ call.name) =
      r.sources.filter fun s => s.name ≠ call.name := by
    cases call with
    | register source =>
      by_cases haccepts : r.Accepts source
      · rw [after_register_of_accepts haccepts]
        exact filter_insertSource r.sources
      · rw [after_register_of_not_accepts haccepts]
    | remove name =>
      refine List.filter_filter.trans (List.filter_congr fun s _ => ?_)
      exact Bool.and_self _
  have hmap (sources : List Source) : (sources.map (·.name)).filter (· ≠ call.name) =
      (sources.filter fun s => s.name ≠ call.name).map (·.name) := List.filter_map
  rw [names, names, hmap, hmap, hfilter]

/-- What a registry answers after a history of calls: under each name stands what was last registered
there and not removed, and nothing else can be seen of the history. -/
structure AnswersFor (policy : DuplicatePolicy) (calls : List RegistryCall) (r : Registry) : Prop where
  rejects_iff : ∀ source, (∃ e, r.register source = .error e) ↔
    source.name = "" ∨ policy = .reject ∧ r.contains source.name = true
  rejected_unchanged : ∀ source e, r.register source = .error e → r.after (.register source) = r
  get_ok_iff : ∀ name source, r.get name = .ok source ↔
    source.name = name ∧ LastRegistered policy calls source
  get_error_iff : ∀ name e, r.get name = .error e ↔
    (¬ ∃ source, source.name = name ∧ LastRegistered policy calls source) ∧ e = .unknownSource name
  contains_iff : ∀ name, r.contains name = true ↔
    ∃ source, source.name = name ∧ LastRegistered policy calls source
  unregister_iff : ∀ name, (r.unregister name).1 = true ↔
    ∃ source, source.name = name ∧ LastRegistered policy calls source
  others_unchanged : ∀ call name, call.name ≠ name → (r.after call).get name = r.get name ∧
    (r.after call).contains name = r.contains name ∧
    ((r.after call).unregister name).1 = (r.unregister name).1
  other_names_unchanged : ∀ call, (r.after call).names.filter (· ≠ call.name) =
    r.names.filter (· ≠ call.name)
  names_ascending : r.names.Pairwise fun a b => Text.bytes a < Text.bytes b
  mem_names_iff : ∀ name, name ∈ r.names ↔ r.contains name = true
  size_eq : r.size = r.names.length
  isEmpty_iff : r.isEmpty = true ↔ r.names = []

theorem contains_run_iff {policy : DuplicatePolicy} {calls : List RegistryCall} :
    (run policy calls).contains name = true ↔
      ∃ source, source.name = name ∧ LastRegistered policy calls source := by
  rw [contains, Option.isSome_iff_exists]
  exact exists_congr fun source => find?_run

/-- Every run of calls leaves a registry that answers for it. -/
theorem answersFor_run (policy : DuplicatePolicy) (calls : List RegistryCall) :
    AnswersFor policy calls (run policy calls) where
  rejects_iff source := by
    rw [error_iff_not_accepts, accepts_iff, policy_run, not_and_or, not_not, not_not]
  rejected_unchanged source e h := after_register_of_not_accepts fun ⟨_, h'⟩ => nomatch h.symm.trans h'
  get_ok_iff name source := get_eq_ok.trans find?_run
  get_error_iff name e := by
    rw [get_eq_error, ← contains_run_iff, contains, Bool.not_eq_true, Option.isSome_eq_false_iff,
      Option.isNone_iff_eq_none]
  contains_iff name := contains_run_iff
  unregister_iff name := contains_run_iff
  others_unchanged call name h := by
    have hfind := find?_after_of_ne (r := run policy calls) h
    simp only [get, unregister, contains, hfind, and_self]
  other_names_unchanged := filter_names_after _
  names_ascending := by
    rw [names, List.pairwise_map]
    exact (ascending_run policy calls).imp Text.bytes_lt
  mem_names_iff name := mem_names_iff
  size_eq := (List.length_map ..).symm
  isEmpty_iff := by rw [isEmpty, List.isEmpty_iff, names, List.map_eq_nil_iff]

end Registry

end RecordQuery
