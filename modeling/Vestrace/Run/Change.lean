import Vestrace.Run.Handlers

/-!
# What a commit changes

What commands and handlers build comes down to six kinds of change (`RunChange`), and for
each kind to one row, one event and one list of steps. `Makes` says that a commit is such a
change of a snapshot; there is one lemma per builder.
-/

namespace Vestrace.Run

open Lib List RunDb

variable {step found : RunStep} {runId : AgentRunId} {at_ : Timestamp} {plan : AdvancePlan}

/-- The kinds of change a commit can make. -/
inductive RunChange where
  | status (target : RunStatus) (result : Option RunTerminalResult)
  | stepsAdded (added : List RunStep)
  /-- A step moves on; the row's current step is set, to what it was or to this one. -/
  | stepMoved (found settled : RunStep) (current : Option RunStepId)
  /-- The event names a new current step; the row does not. -/
  | currentStep (current : Option RunStepId)
  | checkpoint (id : RunCheckpointId)
  | approval (approverId : PrincipalId)
  deriving DecidableEq, Repr

namespace RunChange

def apply (row : AgentRun) (version : RunVersion) (at_ : Timestamp) : RunChange → AgentRun
  | status target result =>
    { row.entered target result at_ with version := version, updatedAt := at_ }
  | stepMoved _ _ current =>
    { row with version := version, updatedAt := at_, currentStepId := current }
  | checkpoint id => { row with version := version, checkpointId := some id, updatedAt := at_ }
  | stepsAdded _ | currentStep _ | approval _ =>
    { row with version := version, updatedAt := at_ }

def payload (row : AgentRun) (version : RunVersion) : RunChange → RunEventPayload
  | status target result => .runStatusChanged row.status target result
  | stepsAdded added => .stepsAdded added
  | stepMoved found settled _ =>
    .stepStatusChanged found.id found.status settled.status settled.attempt
  | currentStep current => .currentStepChanged row.currentStepId current
  | checkpoint id => .checkpointCreated id (.fromVersion version)
  | approval approverId => .approvalGranted approverId

def steps : RunChange → List RunStep
  | stepsAdded added => added
  | stepMoved _ settled _ => [settled]
  | _ => []

def Valid (snapshot : RunSnapshot) : RunChange → Prop
  | status target result =>
    (target.isTerminal = true ↔ result.isSome = true) ∧
      snapshot.run.status.transitionTo target = .ok ()
  | stepsAdded added =>
    ∀ step ∈ added, step.status = .pending ∧ isAgentStep step.assignedActor = false
  | stepMoved found settled _ =>
    snapshot.steps.find? (fun step => step.id == found.id) = some found ∧
      settled = progressStep found settled
  | _ => True

variable (row : AgentRun) (version : RunVersion) (at_ : Timestamp) (change : RunChange)

@[simp] theorem apply_version : (change.apply row version at_).version = version := by
  cases change <;> rfl

/-- A change touches only the columns an update writes. -/
theorem writeRun_apply :
    writeRun row (change.apply row version at_) = change.apply row version at_ := by
  cases change with
  | status target result =>
    by_cases ht : target.isTerminal = true
    · simp [apply, AgentRun.entered, ht, writeRun]
    · simp [apply, AgentRun.entered, ht, writeRun]
  | _ => rfl

@[simp] theorem apply_id : (change.apply row version at_).id = row.id := by
  rw [← writeRun_apply]
  rfl

@[simp] theorem apply_workspaceId :
    (change.apply row version at_).workspaceId = row.workspaceId := by
  rw [← writeRun_apply]
  rfl

end RunChange

/-! ## Plain steps -/

def Plain (steps : List RunStep) : Prop := ∀ step ∈ steps, isAgentStep step.assignedActor = false

theorem placeStep_perm (step : RunStep) (rows : List RunStep) :
    (placeStep step rows).Perm (step :: rows) := by
  induction rows with
  | nil => exact .refl _
  | cons row rows ih =>
    unfold placeStep
    split
    · exact (ih.cons row).trans (.swap step row rows)
    · exact .refl _

theorem plain_insertStep {steps : List RunStep} (h : Plain steps)
    (hstep : isAgentStep step.assignedActor = false) : Plain (insertStep steps step) := by
  intro row hrow
  unfold insertStep at hrow
  split at hrow
  next =>
    obtain ⟨old, hold, rfl⟩ := mem_map.mp hrow
    by_cases hid : old.id = step.id
    · rw [if_pos hid]
      exact h old hold
    · rw [if_neg hid]
      exact h old hold
  next =>
    rcases mem_cons.mp ((placeStep_perm step steps).mem_iff.mp hrow) with rfl | hold
    · exact hstep
    · exact h row hold

theorem plain_foldl {steps added : List RunStep} (h : Plain steps) (hadded : Plain added) :
    Plain (added.foldl insertStep steps) := by
  induction added generalizing steps with
  | nil => exact h
  | cons step added ih =>
    obtain ⟨hstep, hrest⟩ := forall_mem_cons.mp hadded
    exact ih (plain_insertStep h hstep) hrest

variable {snapshot : RunSnapshot} {change : RunChange} {ctx : RequestContext}
  {version : RunVersion} {event : RunEvent}

theorem RunChange.plain_steps (hvalid : change.Valid snapshot) (h : Plain snapshot.steps) :
    Plain change.steps := by
  cases change with
  | stepsAdded added => exact fun step hstep => (hvalid step hstep).2
  | stepMoved found settled current =>
    intro step hstep
    rw [mem_singleton.mp hstep, hvalid.2]
    exact h found (mem_of_find?_eq_some hvalid.1)
  | _ => exact forall_mem_nil _

structure Makes (context : RequestContext) (snapshot : RunSnapshot) (change : RunChange)
    (at_ : Timestamp) (commit : CommitRun) : Prop where
  next : snapshot.run.version.next = .ok commit.run.version
  run : commit.run = change.apply snapshot.run commit.run.version at_
  steps : commit.newSteps = change.steps
  payload : commit.event.payload = change.payload snapshot.run commit.run.version
  runId : commit.event.runId = snapshot.run.id
  workspace : commit.event.workspaceId = context.workspaceId
  eventVersion : commit.event.runVersion = commit.run.version
  sequence : commit.event.sequence = .fromVersion commit.run.version
  occurredAt : commit.event.occurredAt = at_
  valid : change.Valid snapshot

def Addressed (snapshot : RunSnapshot) (commit : CommitRun) : Prop :=
  ∀ item ∈ commit.workItems,
    item.expectedRunVersion = commit.run.version ∧ item.runId = snapshot.run.id

theorem makes_of_event {correlationId : CorrelationId}
    (change : RunChange) {draw : Draw} {actor : RunActorRef}
    {causationEventId : Option RunEventId} {checkpoint : Option RunCheckpoint}
    {items : List WorkItem} (hid : snapshot.run.id = runId)
    (hnext : snapshot.run.version.next = .ok version)
    (hevent : draw.event runId ctx.workspaceId version actor
      (change.payload snapshot.run version) correlationId causationEventId = .ok event)
    (hvalid : change.Valid snapshot) : Makes ctx snapshot change draw.at_
      ⟨change.apply snapshot.run version draw.at_, event, change.steps, checkpoint, items⟩ := by
  have hversion := change.apply_version snapshot.run version draw.at_
  rw [Draw.event_ok hevent]
  refine ⟨?_, ?_, rfl, ?_, hid.symm, rfl, ?_, ?_, rfl, hvalid⟩
  · rw [hnext, hversion]
  · rw [hversion]
  · rw [hversion]
  · exact hversion.symm
  · rw [hversion]

/-- The row an accepted commit writes. -/
theorem Makes.writeRun {commit : CommitRun} (h : Makes ctx snapshot change at_ commit) :
    writeRun snapshot.run commit.run =
      change.apply snapshot.run commit.run.version at_ := by
  rw [h.run, RunChange.apply_version]
  exact RunChange.writeRun_apply ..

/-! ## The coordinator's commits -/

section

variable {draw : Draw} {commit : CommitRun}

theorem requireVersion_ok {expected : RunVersion} {u : Unit} :
    requireVersion snapshot expected = .ok u ↔ snapshot.run.version = expected := by
  rw [requireVersion, refuse_eq_ok, not_not]

theorem transitionRunCommit_makes {command : TransitionRun} {extra : List WorkItem}
    (h : transitionRunCommit ctx snapshot command extra draw = .ok commit)
    (hid : snapshot.run.id = command.runId) :
    Makes ctx snapshot (.status command.target command.result) draw.at_ commit ∧
      snapshot.run.version = command.expectedVersion ∧
      commit.workItems = extra ++ if command.target = .running ∧ snapshot.run.status ≠ .running
        then [draw.workItem extra.length command.runId .advanceRun commit.run.version] else [] := by
  unfold transitionRunCommit at h
  rcases htransition : snapshot.run.transition command.expectedVersion command.target
    command.result draw.at_ with ⟨run, change⟩
  rw [htransition] at h
  simp only [bind_eq_ok, requireVersion_ok, mapError_eq_ok, pure_eq_ok, exists_const] at h
  obtain ⟨hversion, _, rfl, next, hnext, event, hevent, rfl⟩ := h
  obtain ⟨haccepts, v, hv, rfl, -⟩ := AgentRun.transition_ok.mp htransition
  rw [hversion, hnext] at hv
  cases hv
  rw [← hversion] at hnext
  exact ⟨makes_of_event (.status command.target command.result) hid hnext hevent
    ⟨haccepts.result, haccepts.table⟩, hversion, rfl⟩

def createdStep (runId : AgentRunId) (at_ : Timestamp) (dto : NewRunStepDto) : RunStep where
  id := dto.id
  runId := runId
  planStepReference :=
    (dto.planStepReference.map Str.trim).filter fun reference => !reference.toList.isEmpty
  assignedActor := dto.assignedActor
  inputReferences := dto.inputReferences
  status := .pending
  attempt := 1
  outputReferences := []
  error := none
  createdAt := at_
  startedAt := none
  finishedAt := none

theorem newStep_ok {dto : NewRunStepDto} (h : newStep runId at_ dto = .ok step) :
    step = createdStep runId at_ dto ∧ isAgentStep dto.assignedActor = false := by
  simp only [newStep, RunStep.create, bind_eq_ok, refuse_eq_ok, exists_const, mapError_eq_ok,
    pure_eq_ok] at h
  obtain ⟨hinput, -, -, rfl⟩ := h
  refine ⟨rfl, ?_⟩
  cases hactor : dto.assignedActor with
  | agentSnapshot id =>
    rw [hactor] at hinput
    exact absurd rfl hinput
  | principal | worker | system => rfl

theorem newSteps_ok {dtos : List NewRunStepDto} {steps : List RunStep}
    (h : dtos.mapM (newStep runId at_) = .ok steps) :
    steps = dtos.map (createdStep runId at_) ∧
      ∀ dto ∈ dtos, isAgentStep dto.assignedActor = false := by
  induction dtos generalizing steps with
  | nil =>
    rw [mapM_nil, pure_eq_ok] at h
    exact ⟨h.symm, by simp⟩
  | cons dto dtos ih =>
    simp only [mapM_cons, bind_eq_ok, pure_eq_ok] at h
    obtain ⟨step, hstep, rest, hrest, rfl⟩ := h
    obtain ⟨rfl, hplain⟩ := newStep_ok hstep
    obtain ⟨rfl, hplains⟩ := ih hrest
    exact ⟨rfl, forall_mem_cons.mpr ⟨hplain, hplains⟩⟩

theorem addStepsCommit_makes {command : AddRunSteps}
    (h : addStepsCommit ctx snapshot command draw = .ok commit)
    (hid : snapshot.run.id = command.runId) :
    Makes ctx snapshot
        (.stepsAdded (command.steps.map (createdStep command.runId draw.at_))) draw.at_ commit ∧
      snapshot.run.version = command.expectedVersion ∧
      commit.workItems = executeItems draw command.runId commit.run.version
        (((command.steps.map (createdStep command.runId draw.at_)).filter
          fun step => step.inputReferences.isEmpty).map (·.id)) := by
  simp only [addStepsCommit, bind_eq_ok, requireVersion_ok, mapError_eq_ok, pure_eq_ok,
    exists_const] at h
  obtain ⟨hversion, next, hnext, steps, hsteps, event, hevent, rfl⟩ := h
  obtain ⟨rfl, hplain⟩ := newSteps_ok hsteps
  rw [← hversion] at hnext
  refine ⟨makes_of_event (.stepsAdded _) hid hnext hevent ?_, hversion, rfl⟩
  intro step hstep
  obtain ⟨dto, hdto, rfl⟩ := mem_map.mp hstep
  exact ⟨rfl, hplain dto hdto⟩

/-- A step that moved as the table allows, and in nothing but its progress. -/
def Settles (found settled : RunStep) : Prop :=
  found.status.transitionTo settled.status = .ok () ∧ settled = progressStep found settled

theorem stepTransitionTo_settles {target : RunStepStatus}
    (h : (found.transitionTo target at_).2 = .ok ()) :
    Settles found (found.transitionTo target at_).1 := by
  revert h
  unfold RunStep.transitionTo
  cases htable : found.status.transitionTo target with
  | error e => exact fun h => nomatch h
  | ok u => exact fun _ => ⟨htable, rfl⟩

theorem stepFail_settles {failure : RunFailure} (h : (found.fail failure at_).2 = .ok ()) :
    Settles found (found.fail failure at_).1 := by
  revert h
  unfold RunStep.fail
  dsimp only
  split
  next => exact fun h => nomatch h
  next =>
    split
    next => exact fun h => nomatch h
    next =>
      split
      next => exact fun h => nomatch h
      next =>
        cases htable : found.status.transitionTo .failed with
        | error e => exact fun h => nomatch h
        | ok u => exact fun _ => ⟨htable, rfl⟩

theorem transitionStepCommit_makes {command : TransitionRunStep}
    (h : transitionStepCommit ctx snapshot command draw = .ok commit)
    (hid : snapshot.run.id = command.runId) :
    ∃ found settled, Settles found settled ∧
      Makes ctx snapshot (.stepMoved found settled snapshot.run.currentStepId) draw.at_
        commit := by
  simp only [transitionStepCommit, bind_eq_ok, requireVersion_ok, okOr_eq_ok, mapError_eq_ok,
    pure_eq_ok, exists_const] at h
  obtain ⟨hversion, found, hfound, h⟩ := h
  have hstep := List.find?_some hfound
  rw [beq_iff_eq] at hstep
  rw [← hstep] at hfound h
  rw [← hversion] at h
  -- both ways of moving the step settle it; the rest is the same
  have hrest : ∀ moved : RunStep × Except DomainError Unit,
      (moved.2 = .ok () → Settles found moved.1) →
      (∃ _ : Unit, moved.2 = .ok () ∧ ∃ next, snapshot.run.version.next = .ok next ∧ ∃ event,
        draw.event command.runId ctx.workspaceId next command.actor
          (.stepStatusChanged found.id found.status moved.1.status moved.1.attempt)
          draw.correlationId none = .ok event ∧
        ⟨{ snapshot.run with version := next, updatedAt := draw.at_ }, event, [moved.1], none,
          []⟩ = commit) →
      ∃ found settled, Settles found settled ∧
        Makes ctx snapshot (.stepMoved found settled snapshot.run.currentStepId) draw.at_
          commit := by
    rintro ⟨settled, outcome⟩ hsettles ⟨-, hmoved, next, hnext, event, hevent, rfl⟩
    have hsettled := hsettles hmoved
    exact ⟨found, settled, hsettled, makes_of_event (.stepMoved found settled _) hid hnext
      hevent ⟨hfound, hsettled.2⟩⟩
  cases hfailure : command.failure with
  | some failure =>
    rw [hfailure] at h
    dsimp only at h
    exact hrest (found.fail failure draw.at_) stepFail_settles h
  | none =>
    rw [hfailure] at h
    dsimp only at h
    exact hrest (found.transitionTo command.target draw.at_) stepTransitionTo_settles h

theorem createCheckpointCommit_makes {command : CreateCheckpoint}
    (h : createCheckpointCommit ctx snapshot command draw = .ok commit)
    (hid : snapshot.run.id = command.runId) :
    Makes ctx snapshot (.checkpoint draw.checkpointId) draw.at_ commit := by
  simp only [createCheckpointCommit, bind_eq_ok, requireVersion_ok, mapError_eq_ok, pure_eq_ok,
    exists_const] at h
  obtain ⟨hversion, next, hnext, checkpoint, -, event, hevent, rfl⟩ := h
  rw [← hversion] at hnext
  exact makes_of_event (.checkpoint draw.checkpointId) hid hnext hevent trivial

theorem approvalCommit_makes {approved : RunSnapshot} {command : ApproveRun}
    (h : approvalCommit ctx approved.run command draw = .ok commit)
    (hid : approved.run.id = command.runId) :
    Makes ctx approved (.approval command.approverId) draw.at_ commit := by
  simp only [approvalCommit, bind_eq_ok, mapError_eq_ok, pure_eq_ok] at h
  obtain ⟨next, hnext, event, hevent, rfl⟩ := h
  exact makes_of_event (.approval command.approverId) hid hnext hevent trivial

end

/-! ## The handlers' commits -/

section

variable {item : WorkItem} {draw : Draw}
variable {next : RunVersion} {commit : CommitRun} {run : AgentRun}

section

variable (hnext : item.expectedRunVersion.next = .ok next)

include hnext

theorem systemTransition_makes {target : RunStatus} {result : Option RunTerminalResult}
    (h : systemTransition ctx snapshot item next draw target result = .ok (run, event))
    (items : List WorkItem) :
    Makes ctx snapshot (.status target result) draw.at_ ⟨run, event, [], none, items⟩ ∧
      run.version = next := by
  unfold systemTransition at h
  rcases htransition : snapshot.run.transition item.expectedRunVersion target result draw.at_ with
    ⟨moved, change⟩
  rw [htransition] at h
  simp only [bind_eq_ok, mapError_eq_ok, pure_eq_ok, Prod.mk.injEq] at h
  obtain ⟨_, rfl, _, hevent, rfl, rfl⟩ := h
  obtain ⟨haccepts, v, hv, rfl, -⟩ := AgentRun.transition_ok.mp htransition
  rw [haccepts.version] at hnext
  exact ⟨makes_of_event (.status target result) rfl hnext hevent
    ⟨haccepts.result, haccepts.table⟩, rfl⟩

theorem prepareRunCommit_makes (h : prepareRunCommit ctx snapshot item next draw = .ok commit) :
    Makes ctx snapshot (.status .preparing none) draw.at_ commit ∧
      commit.workItems = [draw.workItem 0 snapshot.run.id .advanceRun commit.run.version] := by
  simp only [prepareRunCommit, bind_eq_ok, pure_eq_ok, Prod.exists] at h
  obtain ⟨run, event, htransition, rfl⟩ := h
  obtain ⟨hmakes, hversion⟩ := systemTransition_makes hnext htransition _
  refine ⟨hmakes, ?_⟩
  rw [hversion]

theorem finalizeRunCommit_makes (h : finalizeRunCommit ctx snapshot item next draw = .ok commit) :
    Makes ctx snapshot (.status (finalOutcome snapshot.steps).1
      (some (finalOutcome snapshot.steps).2)) draw.at_ commit ∧ commit.workItems = [] := by
  simp only [finalizeRunCommit, bind_eq_ok, pure_eq_ok, Prod.exists] at h
  obtain ⟨run, event, htransition, rfl⟩ := h
  exact ⟨(systemTransition_makes hnext htransition _).1, rfl⟩

end

theorem executeItems_addressed {steps : List RunStepId} {built : WorkItem}
    (h : built ∈ executeItems draw runId version steps) :
    built.expectedRunVersion = version ∧ built.runId = runId := by
  obtain ⟨i, hi, rfl⟩ := mem_mapIdx.mp h
  exact ⟨rfl, rfl⟩

inductive Advances (context : RequestContext) (snapshot : RunSnapshot) (draw : Draw) :
    AdvancePlan → Prop where
  /-- The run is in a status that is not advanced, or runs with nothing to start. -/
  | idle (h : snapshot.run.status ≠ .created ∧ snapshot.run.status ≠ .preparing ∧
      (snapshot.run.status = .running → allStepsTerminal snapshot.steps = false ∧
        pendingReadySteps snapshot.steps = [])) :
    Advances context snapshot draw .done
  /-- The next status, with an item that goes on from there. -/
  | moved {target : RunStatus} {commit : CommitRun} {i : ℕ}
      (hstatus : snapshot.run.status ≠ .running)
      (hmakes : Makes context snapshot (.status target none) draw.at_ commit)
      (hitem : draw.workItem i snapshot.run.id .advanceRun commit.run.version ∈ commit.workItems)
      (haddressed : Addressed snapshot commit) :
    Advances context snapshot draw (.commit commit)
  /-- The steps that can start. -/
  | pointed {commit : CommitRun} (hstatus : snapshot.run.status = .running)
      (hsteps : allStepsTerminal snapshot.steps = false)
      (hready : pendingReadySteps snapshot.steps ≠ [])
      (hmakes : Makes context snapshot (.currentStep (pendingReadySteps snapshot.steps).head?)
        draw.at_ commit)
      (hitems : commit.workItems = executeItems draw snapshot.run.id commit.run.version
        (pendingReadySteps snapshot.steps)) :
    Advances context snapshot draw (.commit commit)
  | finalized {commit : CommitRun} (hsteps : allStepsTerminal snapshot.steps = true)
      (hmakes : Makes context snapshot (.status (finalOutcome snapshot.steps).1
        (some (finalOutcome snapshot.steps).2)) draw.at_ commit)
      (hitems : commit.workItems = []) :
    Advances context snapshot draw (.finalize commit)

theorem startRunPlan_advances (hpreparing : snapshot.run.status = .preparing)
    (hnext : item.expectedRunVersion.next = .ok next)
    (h : startRunPlan ctx snapshot item next draw = .ok plan) :
    Advances ctx snapshot draw plan := by
  simp only [startRunPlan, bind_eq_ok, Prod.exists] at h
  obtain ⟨run, event, htransition, h⟩ := h
  split at h
  next hterminal =>
    simp only [bind_eq_ok, pure_eq_ok] at h
    obtain ⟨commit, hcommit, rfl⟩ := h
    obtain ⟨hmakes, hitems⟩ := finalizeRunCommit_makes hnext hcommit
    exact .finalized hterminal hmakes hitems
  next =>
    rw [pure_eq_ok] at h
    subst h
    obtain ⟨hmakes, hversion⟩ := systemTransition_makes hnext htransition _
    refine .moved (by rw [hpreparing]; nofun) hmakes
      (i := (pendingReadySteps snapshot.steps).length) ?_ ?_
    · rw [hversion]
      exact mem_append_right _ mem_cons_self
    · intro built hbuilt
      rw [hversion]
      rcases mem_append.mp hbuilt with hexecute | hadvance
      · exact executeItems_addressed hexecute
      · rw [mem_singleton.mp hadvance]
        exact ⟨rfl, rfl⟩

theorem advanceRunningRunPlan_advances (hrunning : snapshot.run.status = .running)
    (hversion : item.expectedRunVersion = snapshot.run.version)
    (hnext : item.expectedRunVersion.next = .ok next)
    (h : advanceRunningRunPlan ctx snapshot item next draw = .ok plan) :
    Advances ctx snapshot draw plan := by
  unfold advanceRunningRunPlan at h
  split at h
  next hterminal =>
    simp only [bind_eq_ok, pure_eq_ok] at h
    obtain ⟨commit, hcommit, rfl⟩ := h
    obtain ⟨hmakes, hitems⟩ := finalizeRunCommit_makes hnext hcommit
    exact .finalized hterminal hmakes hitems
  next hterminal =>
    have hsteps : allStepsTerminal snapshot.steps = false := by simpa using hterminal
    dsimp only at h
    split at h
    next hready =>
      rw [pure_eq_ok] at h
      subst h
      have hnone : pendingReadySteps snapshot.steps = [] := isEmpty_iff.mp hready
      refine .idle ⟨?_, ?_, fun _ => ⟨hsteps, hnone⟩⟩ <;> rw [hrunning] <;> nofun
    next hready =>
      simp only [bind_eq_ok, pure_eq_ok] at h
      obtain ⟨event, hevent, rfl⟩ := h
      rw [hversion] at hnext
      exact .pointed hrunning hsteps (fun hnil => hready (by rw [hnil]; rfl))
        (makes_of_event (.currentStep _) rfl hnext hevent trivial) rfl

theorem advanceRunPlan_advances (hversion : item.expectedRunVersion = snapshot.run.version)
    (h : advanceRunPlan ctx snapshot item draw = .ok plan) :
    Advances ctx snapshot draw plan := by
  simp only [advanceRunPlan, bind_eq_ok, mapError_eq_ok] at h
  obtain ⟨next, hnext, h⟩ := h
  split at h
  next hcreated =>
    simp only [bind_eq_ok, pure_eq_ok] at h
    obtain ⟨commit, hcommit, rfl⟩ := h
    obtain ⟨hmakes, hitems⟩ := prepareRunCommit_makes hnext hcommit
    refine .moved (by rw [hcreated]; nofun) hmakes (i := 0) ?_ ?_
    · rw [hitems]
      exact mem_cons_self
    · intro built hbuilt
      rw [hitems, mem_singleton] at hbuilt
      rw [hbuilt]
      exact ⟨rfl, rfl⟩
  next hpreparing => exact startRunPlan_advances hpreparing hnext h
  next hrunning => exact advanceRunningRunPlan_advances hrunning hversion hnext h
  next hcreated hpreparing hrunning =>
    rw [pure_eq_ok] at h
    subst h
    exact .idle ⟨hcreated, hpreparing, fun h => absurd h hrunning⟩

/-- The step as the first commit of `ExecuteStepHandler` leaves it. -/
def startedStep (found : RunStep) (at_ : Timestamp) : RunStep :=
  { found with status := .running, startedAt := some at_ }

theorem startStepCommit_makes (hversion : item.expectedRunVersion = snapshot.run.version)
    (h : startStepCommit ctx snapshot item draw = .ok (some (commit, run, step))) :
    ∃ found, item.kind = .executeStep found.id ∧ found.status.isTerminal = false ∧
      step = startedStep found draw.at_ ∧ commit.run = run ∧
      Makes ctx snapshot (.stepMoved found step (some found.id)) draw.at_ commit ∧
      commit.workItems = [draw.workItem 0 snapshot.run.id .advanceRun run.version] := by
  unfold startStepCommit at h
  split at h
  next stepId hkind =>
    simp only [bind_eq_ok, okOr_eq_ok] at h
    obtain ⟨found, hfound, h⟩ := h
    have hstep := List.find?_some hfound
    rw [beq_iff_eq] at hstep
    split at h
    next => cases h
    next hterminal =>
      simp only [bind_eq_ok, mapError_eq_ok, pure_eq_ok, Option.some.injEq, Prod.mk.injEq] at h
      obtain ⟨next, hnext, event, hevent, rfl, rfl, rfl⟩ := h
      rw [hversion] at hnext
      subst hstep
      exact ⟨found, hkind, by simpa using hterminal, rfl, rfl,
        makes_of_event (.stepMoved found (startedStep found draw.at_) (some found.id))
          rfl hnext hevent ⟨hfound, rfl⟩, rfl⟩
  next => cases h

/-- The handler leaves a step alone only if it is over. -/
theorem startStepCommit_none {stepId : RunStepId} (hkind : item.kind = .executeStep stepId)
    (h : startStepCommit ctx snapshot item draw = .ok none)
    (hstep : snapshot.steps.find? (fun row => row.id == stepId) = some step) :
    step.status.isTerminal = true := by
  unfold startStepCommit at h
  rw [hkind] at h
  simp only [hstep, bind_eq_ok, okOr_eq_ok, Option.some.injEq, exists_eq_left'] at h
  split at h
  next hterminal => exact hterminal
  next =>
    simp only [bind_eq_ok, pure_eq_ok] at h
    obtain ⟨_, -, _, -, hnone⟩ := h
    cases hnone

theorem find?_insertStep {steps : List RunStep} {settled : RunStep}
    (hfound : steps.find? (fun step => step.id == found.id) = some found)
    (hsettled : settled = progressStep found settled) :
    (insertStep steps settled).find? (fun step => step.id == settled.id) = some settled := by
  have hid : settled.id = found.id := by
    rw [hsettled]
    rfl
  have hany : (steps.any fun step => step.id == settled.id) = true := by
    rw [hid]
    exact any_eq_true.mpr ⟨found, mem_of_find?_eq_some hfound, by simp⟩
  unfold insertStep
  rw [if_pos hany, List.find?_map]
  have hkeep : ((fun step : RunStep => step.id == settled.id) ∘ fun step =>
      if step.id = settled.id then progressStep step settled else step) =
      fun step => step.id == found.id := by
    funext step
    simp only [hid, Function.comp_apply]
    by_cases h : step.id = found.id
    · rw [if_pos h]
      rfl
    · rw [if_neg h]
  rw [hkeep, hfound]
  show some (if found.id = settled.id then progressStep found settled else found) = _
  rw [if_pos hid.symm, ← hsettled]

def completedStep (step : RunStep) (at_ : Timestamp) : RunStep :=
  { step with status := .succeeded, finishedAt := some at_ }

theorem completeStepCommit_makes
    (hstep : snapshot.steps.find? (fun row => row.id == step.id) = some step)
    (h : completeStepCommit ctx snapshot.run step draw = .ok commit) :
    Makes ctx snapshot (.stepMoved step (completedStep step draw.at_)
        snapshot.run.currentStepId) draw.at_ commit ∧
      commit.workItems = [draw.workItem 0 snapshot.run.id .advanceRun commit.run.version] := by
  have hsettled : completedStep step draw.at_ =
      progressStep step (completedStep step draw.at_) := rfl
  simp only [completeStepCommit, settleStepCommit, bind_eq_ok, mapError_eq_ok, pure_eq_ok] at h
  obtain ⟨next, hnext, event, hevent, rfl⟩ := h
  exact ⟨makes_of_event (.stepMoved step (completedStep step draw.at_) _) rfl hnext hevent
    ⟨hstep, hsettled⟩, rfl⟩

theorem resumeRunCommit_makes (h : resumeRunCommit ctx snapshot item draw = .ok (some commit)) :
    Makes ctx snapshot (.status .running none) draw.at_ commit ∧
      commit.workItems = [draw.workItem 0 snapshot.run.id .advanceRun commit.run.version] := by
  unfold resumeRunCommit at h
  split at h
  next =>
    simp only [bind_eq_ok, mapError_eq_ok, pure_eq_ok, Prod.exists, Option.some.injEq] at h
    obtain ⟨next, hnext, run, event, htransition, rfl⟩ := h
    obtain ⟨hmakes, hrun⟩ := systemTransition_makes hnext htransition _
    refine ⟨hmakes, ?_⟩
    rw [hrun]
  next => cases h

end

end Vestrace.Run
