import RecordQuery.Proofs.Answers
import RecordQuery.Proofs.Registration

/-! Sessions of a client that changes a provider, prepares requests and runs what it has prepared, in any
order. A plan shows the table that its request had when it was prepared, whatever has happened to the
provider since. -/

namespace RecordQuery

/-- What a client does next. Plans go by their numbers, in the order in which they were prepared. -/
inductive SessionStep where
  | call (call : ProviderCall)
  | prepare (request : Request)
  | runPlan (number : Nat)
  | execute (request : Request)

structure Session where
  provider : Provider
  plans : List Plan

namespace Session

variable {s : Session} {plan : Plan} {request : Request} {number : Nat}

def after (s : Session) : SessionStep → Session
  | .call call => { s with provider := s.provider.after call }
  | .prepare request =>
    match s.provider.prepare request with
    | .ok plan => { s with plans := s.plans ++ [plan] }
    | .error _ => s
  | .runPlan _ => s
  | .execute _ => s

def shows (s : Session) : SessionStep → Option (Except Error Table)
  | .call _ => none
  | .prepare _ => none
  | .runPlan number => s.plans[number]?.map fun plan => .ok (s.provider.executePlan plan)
  | .execute request => some (s.provider.executeQuery request)

def trace (s : Session) : List SessionStep → List (Option (Except Error Table))
  | [] => []
  | step :: steps => s.shows step :: (s.after step).trace steps

theorem plans_after_prepare (h : s.provider.prepare request = .ok plan) :
    (s.after (.prepare request)).plans = s.plans ++ [plan] := by
  rw [after, h]

theorem plans_prefix_after (s : Session) (step : SessionStep) : s.plans <+: (s.after step).plans := by
  cases step with
  | call call => exact List.prefix_rfl
  | prepare request =>
    cases h : s.provider.prepare request with
    | ok plan =>
      rw [plans_after_prepare h]
      exact List.prefix_append s.plans [plan]
    | error e =>
      have hsame : s.after (.prepare request) = s := by rw [after, h]
      exact hsame.symm ▸ List.prefix_rfl
  | runPlan number => exact List.prefix_rfl
  | execute request => exact List.prefix_rfl

theorem plans_prefix_foldl (s : Session) (steps : List SessionStep) :
    s.plans <+: (steps.foldl after s).plans := by
  induction steps generalizing s with
  | nil => exact List.prefix_rfl
  | cons step steps ih => exact (plans_prefix_after s step).trans (ih (s.after step))

theorem plans_getElem?_of_prepare (h : s.provider.prepare request = .ok plan) (later : List SessionStep) :
    (later.foldl after (s.after (.prepare request))).plans[s.plans.length]? = some plan := by
  obtain ⟨more, hmore⟩ := plans_prefix_foldl (s.after (.prepare request)) later
  rw [← hmore, plans_after_prepare h, List.append_assoc, List.getElem?_append_right (Nat.le_refl _),
    Nat.sub_self]
  rfl

theorem trace_runs (h : s.plans[number]? = some plan) (times : Nat) :
    s.trace (List.replicate times (.runPlan number)) = List.replicate times (some (.ok plan.run)) := by
  have hshows : s.shows (.runPlan number) = some (.ok plan.run) := by
    rw [shows, h]
    rfl
  induction times with
  | zero => rfl
  | succ times ih => exact congrArg₂ List.cons hshows ih

/-- A prepared plan is isolated from the registry. Whatever steps follow the preparation, each run of the
plan shows the table that the request had then: what it asks of the source that stood there. -/
theorem prepared_isolated (h : s.provider.prepare request = .ok plan) :
    ∃ source t, s.provider.registry.get request.source = .ok source ∧ Answers source request t ∧
      s.provider.executeQuery request = .ok t ∧ ∀ (later : List SessionStep) (times : Nat),
        (later.foldl after (s.after (.prepare request))).trace
          (List.replicate times (.runPlan s.plans.length)) = List.replicate times (some (.ok t)) := by
  obtain ⟨-, source, hcompiles⟩ := Provider.prepare_eq_ok.1 h
  have hquery : s.provider.executeQuery request = .ok plan.run := by
    rw [Provider.executeQuery, h]
    rfl
  exact ⟨source, plan.run, hcompiles.get_source, hcompiles.answers, hquery, fun later times =>
    trace_runs (plans_getElem?_of_prepare h later) times⟩

end Session

open Session

def entrySession : Session :=
  (⟨⟨⟨.replace, entryProvider.registry.sources⟩, .standard⟩, []⟩ : Session).after
    (.prepare (.single "entries" "Group"))

def entriesReplaced : List SessionStep :=
  [.call (.addSource "entries" quotedSchema [⟨"Node", []⟩]), .prepare (.single "entries" "'p.Id"), .runPlan 2,
    .execute positiveGroups, .runPlan 1, .call (.removeSource "entries")]

theorem positiveGroups_isolated : ∃ plan t, entrySession.provider.prepare positiveGroups = .ok plan ∧
    entrySession.provider.executeQuery positiveGroups = .ok t ∧
    (let later := entriesReplaced.foldl Session.after (entrySession.after (.prepare positiveGroups))
    later.provider.executeQuery positiveGroups = .error (.unknownSource "entries") ∧
      later.trace [.runPlan 1, .runPlan 1] = [some (.ok t), some (.ok t)]) := by
  have h : entrySession.provider.prepare positiveGroups = .ok _ := rfl
  obtain ⟨source, t, -, -, hquery, htrace⟩ := prepared_isolated h
  exact ⟨_, t, h, hquery, rfl, htrace entriesReplaced 2⟩

end RecordQuery
