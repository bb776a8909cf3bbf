import Vestrace.Run.Store

/-!
# Replaying the canonical log

`replay_run` rebuilds a run from its events and re-validates every one of them: status
changes against the transition tables *and* against the status reached so far, added steps
against the steps known so far.
-/

namespace Vestrace.Run

open Lib List RunDb

structure RunProjection where
  runId : AgentRunId
  workspaceId : WorkspaceId
  status : RunStatus
  version : RunVersion
  objective : String
  executionMode : RunExecutionMode
  coordinatorSnapshotId : AgentRuntimeSnapshotId
  parent : Option ParentRunLink
  rootRunId : AgentRunId
  activePlanRevisionId : Option PlanRevisionId
  currentStepId : Option RunStepId
  checkpointId : Option RunCheckpointId
  /-- Keyed by id: `addKnownSteps` never lets two steps share one. -/
  knownSteps : List RunStep
  result : Option RunTerminalResult
  createdAt : Timestamp
  updatedAt : Timestamp
  finishedAt : Option Timestamp
  deriving DecidableEq, Repr

variable {steps : List RunStep} {events : List RunEvent} {p q : RunProjection} {event : RunEvent}

def invalid (message : String) : ApplicationError := .domain (.invalidArgument message)

def addKnownSteps : List RunStep → List RunStep → AppResult (List RunStep)
  | known, [] => .ok known
  | known, step :: steps => do
    refuse (known.any fun row => row.id == step.id)
      (invalid "duplicate step id in StepsAdded event")
    addKnownSteps (known ++ [step]) steps

def moveKnownStep (step : RunStep) (to_ : RunStepStatus) (attempt : UInt32) (at_ : Timestamp) :
    RunStep :=
  { step with
    status := to_
    attempt := attempt
    startedAt := if to_ = .running ∧ step.startedAt.isNone then some at_ else step.startedAt
    finishedAt := if to_.isTerminal then some at_ else step.finishedAt }

def applyEvent (projection : RunProjection) (event : RunEvent) : AppResult RunProjection :=
  match event.payload with
  | .runCreated .. => .error (invalid "duplicate RunCreated event")
  | .runStatusChanged from_ to_ result => do
    refuse (projection.status ≠ from_) (invalid ("status change from " ++ from_.debug ++
      " does not match current status " ++ projection.status.debug))
    (from_.transitionTo to_).mapError .domain
    if to_.isTerminal then
      return { projection with
        status := to_, result := result, finishedAt := some event.occurredAt }
    else return { projection with status := to_ }
  | .planAttached previous current => do
    refuse (projection.activePlanRevisionId ≠ previous)
      (invalid "plan attached previous does not match current active plan")
    return { projection with activePlanRevisionId := some current }
  | .stepsAdded steps => do
    let known ← addKnownSteps projection.knownSteps steps
    return { projection with knownSteps := known }
  | .stepStatusChanged stepId from_ to_ attempt => do
    let step ← okOr (projection.knownSteps.find? fun step => step.id == stepId)
      (invalid "StepStatusChanged for unknown step")
    refuse (step.status ≠ from_) (invalid ("step status change from " ++ from_.debug ++
      " does not match current status " ++ step.status.debug))
    (from_.transitionTo to_).mapError .domain
    return { projection with knownSteps := projection.knownSteps.map fun row =>
      if row.id = stepId then moveKnownStep row to_ attempt event.occurredAt else row }
  | .currentStepChanged previous current => do
    refuse (projection.currentStepId ≠ previous)
      (invalid "CurrentStepChanged previous does not match current step")
    return { projection with currentStepId := current }
  | .checkpointCreated checkpointId _ =>
    .ok { projection with checkpointId := some checkpointId }
  | .approvalGranted _ => .ok projection

def startProjection (first : RunEvent) : AppResult (RunProjection × RunVersion) :=
  match first.payload with
  | .runCreated objective executionMode coordinatorSnapshotId parent => do
    refuse (first.runVersion ≠ .initial) (invalid "RunCreated must have version 1")
    let expected ← RunVersion.initial.next.mapError .domain
    return ({
      runId := first.runId
      workspaceId := first.workspaceId
      status := .created
      version := first.runVersion
      objective := objective
      executionMode := executionMode
      coordinatorSnapshotId := coordinatorSnapshotId
      parent := parent
      rootRunId := first.runId
      activePlanRevisionId := none
      currentStepId := none
      checkpointId := none
      knownSteps := []
      result := none
      createdAt := first.occurredAt
      updatedAt := first.occurredAt
      finishedAt := none }, expected)
  | _ => .error (invalid "first event must be RunCreated")

/-- The body of the loop: the projection so far and the version the next event must
carry. -/
def replayStep (state : RunProjection × RunVersion) (event : RunEvent) :
    AppResult (RunProjection × RunVersion) := do
  let (projection, expected) := state
  refuse (event.runId ≠ projection.runId) (invalid "all events must belong to the same run")
  refuse (event.workspaceId ≠ projection.workspaceId)
    (invalid "all events must belong to the same workspace")
  refuse (event.runVersion ≠ expected) (invalid ("event version " ++
    toString event.runVersion.toNat ++ " does not match expected version " ++
    toString expected.toNat))
  let projection ← applyEvent projection event
  let expected ← expected.next.mapError .domain
  return ({ projection with version := event.runVersion, updatedAt := event.occurredAt }, expected)

def replayState : List RunEvent → AppResult (RunProjection × RunVersion)
  | [] => .error (invalid "event stream is empty")
  | first :: rest => do
    let start ← startProjection first
    rest.foldlM replayStep start

def replayRun (events : List RunEvent) : AppResult RunProjection := do
  let (projection, _) ← replayState events
  return projection

/-! ## Splitting a replay -/

theorem replayRun_ok :
    replayRun events = .ok p ↔ ∃ expected, replayState events = .ok (p, expected) := by
  simp only [replayRun, bind_eq_ok, pure_eq_ok, Prod.exists]
  constructor
  · rintro ⟨_, expected, h, rfl⟩
    exact ⟨expected, h⟩
  · rintro ⟨expected, h⟩
    exact ⟨p, expected, h, rfl⟩

theorem replayState_append (hne : events ≠ []) (event : RunEvent) :
    replayState (events ++ [event]) =
      replayState events >>= fun state => replayStep state event := by
  cases events with
  | nil => exact absurd rfl hne
  | cons first rest =>
    show (startProjection first >>= fun start => (rest ++ [event]).foldlM replayStep start) =
      (startProjection first >>= fun start => rest.foldlM replayStep start) >>= _
    cases startProjection first with
    | error e => rfl
    | ok start =>
      show (rest ++ [event]).foldlM replayStep start = rest.foldlM replayStep start >>= _
      rw [foldlM_append]
      congr 1
      funext state
      show (replayStep state event >>= pure) = replayStep state event
      cases replayStep state event <;> rfl

/-- What every replay keeps about the run it started with. -/
structure Follows (first : RunEvent) (state : RunProjection × RunVersion) : Prop where
  run : state.1.runId = first.runId
  workspace : state.1.workspaceId = first.workspaceId
  next : state.1.version.next = .ok state.2

theorem applyEvent_owner (h : applyEvent p event = .ok q) :
    q.runId = p.runId ∧ q.workspaceId = p.workspaceId := by
  unfold applyEvent at h
  split at h
  · cases h
  · simp only [bind_eq_ok, refuse_eq_ok, exists_const, mapError_eq_ok] at h
    obtain ⟨-, _, -, h⟩ := h
    split at h <;> cases h <;> exact ⟨rfl, rfl⟩
  · simp only [bind_eq_ok, pure_eq_ok] at h
    obtain ⟨_, -, rfl⟩ := h
    exact ⟨rfl, rfl⟩
  · simp only [bind_eq_ok, pure_eq_ok] at h
    obtain ⟨_, -, rfl⟩ := h
    exact ⟨rfl, rfl⟩
  · simp only [bind_eq_ok, pure_eq_ok] at h
    obtain ⟨_, -, _, -, _, -, rfl⟩ := h
    exact ⟨rfl, rfl⟩
  · simp only [bind_eq_ok, pure_eq_ok] at h
    obtain ⟨_, -, rfl⟩ := h
    exact ⟨rfl, rfl⟩
  · cases h
    exact ⟨rfl, rfl⟩
  · cases h
    exact ⟨rfl, rfl⟩

theorem replayStep_ok {expected next : RunVersion} :
    replayStep (p, expected) event = .ok (q, next) ↔
      event.runId = p.runId ∧ event.workspaceId = p.workspaceId ∧ event.runVersion = expected ∧
      ∃ p', applyEvent p event = .ok p' ∧ expected.next = .ok next ∧
        { p' with version := event.runVersion, updatedAt := event.occurredAt } = q := by
  simp only [replayStep, bind_eq_ok, refuse_eq_ok, mapError_eq_ok, pure_eq_ok, exists_const,
    not_not, Prod.mk.injEq]
  constructor
  · rintro ⟨hrun, hws, hver, p', happly, n, hn, hq, rfl⟩
    exact ⟨hrun, hws, hver, p', happly, hn, hq⟩
  · rintro ⟨hrun, hws, hver, p', happly, hn, hq⟩
    exact ⟨hrun, hws, hver, p', happly, next, hn, hq, rfl⟩

theorem replayState_follows {first : RunEvent} {rest : List RunEvent}
    {state : RunProjection × RunVersion} (h : replayState (first :: rest) = .ok state) :
    Follows first state := by
  induction rest using List.reverseRecOn generalizing state with
  | nil =>
    simp only [replayState, bind_eq_ok, foldlM_nil, pure_eq_ok, exists_eq_right] at h
    unfold startProjection at h
    split at h
    next =>
      simp only [bind_eq_ok, refuse_eq_ok, exists_const, mapError_eq_ok, pure_eq_ok, not_not] at h
      obtain ⟨hver, next, hnext, rfl⟩ := h
      refine ⟨rfl, rfl, ?_⟩
      show first.runVersion.next = .ok next
      rw [hver]
      exact hnext
    next => cases h
  | append_singleton rest event ih =>
    rw [← cons_append, replayState_append (cons_ne_nil _ _), bind_eq_ok] at h
    obtain ⟨⟨p, expected⟩, hp, hstep⟩ := h
    obtain ⟨q, next⟩ := state
    obtain ⟨-, -, hver, p', happly, hnext, rfl⟩ := replayStep_ok.mp hstep
    have hfollows := ih hp
    obtain ⟨hrun, hws⟩ := applyEvent_owner happly
    refine ⟨hrun.trans hfollows.run, hws.trans hfollows.workspace, ?_⟩
    show event.runVersion.next = .ok next
    rw [hver]
    exact hnext

/-! ## The steps, seen by id -/

/-- The view of a step list on which the store and the projection have to agree. -/
def statusOf (steps : List RunStep) (id : RunStepId) : Option RunStepStatus :=
  (steps.find? fun step => step.id == id).map (·.status)

theorem statusOf_eq_none {id : RunStepId} :
    statusOf steps id = none ↔ ∀ step ∈ steps, step.id ≠ id := by
  simp [statusOf]

theorem statusOf_cons (step : RunStep) (steps : List RunStep) (id : RunStepId) :
    statusOf (step :: steps) id = if step.id = id then some step.status else statusOf steps id := by
  unfold statusOf
  rw [List.find?_cons]
  by_cases h : step.id = id
  · simp [h]
  · rw [beq_eq_false_iff_ne.mpr h, if_neg h]

/-- A list mapped over by a change that keeps ids and gives `target` a new status. -/
theorem statusOf_map {target : RunStepId} {f : RunStep → RunStep}
    {status : RunStepStatus} (hid : ∀ step, (f step).id = step.id)
    (hf : ∀ step ∈ steps, step.id = target → (f step).status = status)
    (hrest : ∀ step ∈ steps, step.id ≠ target → (f step).status = step.status) (id : RunStepId) :
    statusOf (steps.map f) id =
      if id = target then (statusOf steps id).map fun _ => status else statusOf steps id := by
  induction steps with
  | nil => simp [statusOf]
  | cons step steps ih =>
    have ih' := ih (fun s hs => hf s (mem_cons_of_mem _ hs))
      (fun s hs => hrest s (mem_cons_of_mem _ hs))
    rw [map_cons, statusOf_cons, statusOf_cons, ih', hid]
    by_cases hstep : step.id = id
    · subst hstep
      by_cases ht : step.id = target
      · simp [ht, hf step mem_cons_self ht]
      · simp [ht, hrest step mem_cons_self ht]
    · simp [hstep]

theorem statusOf_placeStep {step : RunStep}
    (hfresh : ∀ row ∈ steps, row.id ≠ step.id) (id : RunStepId) :
    statusOf (placeStep step steps) id =
      if step.id = id then some step.status else statusOf steps id := by
  induction steps with
  | nil => rw [placeStep, statusOf_cons]
  | cons row rows ih =>
    have hrow : row.id ≠ step.id := hfresh row mem_cons_self
    have ih' := ih fun r hr => hfresh r (mem_cons_of_mem _ hr)
    unfold placeStep
    split
    · rw [statusOf_cons, ih', statusOf_cons]
      by_cases hid : row.id = id
      · have hstep : step.id ≠ id := fun h => hrow (hid.trans h.symm)
        simp [hid, hstep]
      · simp [hid]
    · rw [statusOf_cons]

/-- **The upsert, seen by id.** Whether the row existed or not, the step now has the
status that was written, and no other step has changed. -/
theorem statusOf_insertStep (steps : List RunStep) (step : RunStep) (id : RunStepId) :
    statusOf (insertStep steps step) id =
      if step.id = id then some step.status else statusOf steps id := by
  unfold insertStep
  split
  next hany =>
    obtain ⟨row, hmem, hrow⟩ := any_eq_true.mp hany
    have hrow' : row.id = step.id := by simpa using hrow
    have hmap := @statusOf_map steps step.id
      (fun row => if row.id = step.id then progressStep row step else row) step.status
    rw [hmap]
    · by_cases hid : step.id = id
      · subst hid
        have hsome : statusOf steps step.id ≠ none :=
          fun hnone => statusOf_eq_none.mp hnone row hmem hrow'
        obtain ⟨status, hstatus⟩ := Option.ne_none_iff_exists'.mp hsome
        simp [hstatus]
      · simp [hid, Ne.symm hid]
    · intro row
      by_cases h : row.id = step.id <;> simp [h, progressStep]
    · intro row _ h
      simp [h, progressStep]
    · intro row _ h
      simp [h]
  next hany =>
    refine statusOf_placeStep ?_ id
    intro row hrow heq
    exact hany (any_eq_true.mpr ⟨row, hrow, by simp [heq]⟩)

theorem addKnownSteps_ok {known result : List RunStep} :
    addKnownSteps known steps = .ok result ↔
      (steps.map (·.id)).Nodup ∧ (∀ step ∈ steps, ∀ row ∈ known, row.id ≠ step.id) ∧
        result = known ++ steps := by
  induction steps generalizing known with
  | nil => simp [addKnownSteps, eq_comm]
  | cons step steps ih =>
    simp only [addKnownSteps, bind_eq_ok, refuse_eq_ok, exists_const, ih, map_cons,
      nodup_cons, append_assoc, singleton_append]
    constructor
    · rintro ⟨hfresh, hnodup, hrest, rfl⟩
      refine ⟨⟨?_, hnodup⟩, ?_, rfl⟩
      · intro hmem
        obtain ⟨other, hother, hid⟩ := mem_map.mp hmem
        exact hrest other hother step (by simp) hid.symm
      · intro s hs row hrow
        rcases mem_cons.mp hs with rfl | hs'
        · intro hid
          exact hfresh (any_eq_true.mpr ⟨row, hrow, by simp [hid]⟩)
        · exact hrest s hs' row (mem_append_left _ hrow)
    · rintro ⟨⟨hnotin, hnodup⟩, hfresh, rfl⟩
      refine ⟨?_, hnodup, ?_, rfl⟩
      · intro hany
        obtain ⟨row, hrow, hid⟩ := any_eq_true.mp hany
        exact hfresh step mem_cons_self row hrow (by simpa using hid)
      · intro s hs row hrow
        rcases mem_append.mp hrow with hk | hk
        · exact hfresh s (mem_cons_of_mem _ hs) row hk
        · rw [mem_singleton.mp hk]
          intro hid
          exact hnotin (mem_map.mpr ⟨s, hs, hid.symm⟩)

end Vestrace.Run
