import Vestrace.Run.AgentRun

/-!
# Canonical run events, checkpoints and work items

What a writer of a run hands to the store in one piece: the run row it wants, the
event that says so, the steps it persists, a checkpoint and the work it schedules.
Every event carries the version it leads to, twice — `RunEvent::new` refuses any
other sequence, and refuses a creation anywhere but at version 1.
-/

namespace Vestrace.Run

open Lib

structure ResumeCursor where
  value : UInt64
  deriving DecidableEq, Repr

def ResumeCursor.fromVersion (version : RunVersion) : ResumeCursor := ⟨version.value⟩

inductive RunEventPayload where
  | runCreated (objective : String) (executionMode : RunExecutionMode)
      (coordinatorSnapshotId : AgentRuntimeSnapshotId) (parent : Option ParentRunLink)
  | runStatusChanged (from_ to_ : RunStatus) (result : Option RunTerminalResult)
  | planAttached (previous : Option PlanRevisionId) (current : PlanRevisionId)
  | stepsAdded (steps : List RunStep)
  | stepStatusChanged (stepId : RunStepId) (from_ to_ : RunStepStatus) (attempt : UInt32)
  | currentStepChanged (previous current : Option RunStepId)
  | checkpointCreated (checkpointId : RunCheckpointId) (resumeCursor : ResumeCursor)
  | approvalGranted (approverId : PrincipalId)
  deriving DecidableEq, Repr

def RunEventPayload.isCreation : RunEventPayload → Bool
  | .runCreated .. => true
  | _ => false

structure RunEvent where
  id : RunEventId
  workspaceId : WorkspaceId
  runId : AgentRunId
  sequence : ResumeCursor
  runVersion : RunVersion
  actor : RunActorRef
  payload : RunEventPayload
  correlationId : CorrelationId
  causationEventId : Option RunEventId
  occurredAt : Timestamp
  deriving DecidableEq, Repr

def RunEvent.new (event : RunEvent) : Except DomainError RunEvent := do
  refuse (event.sequence ≠ .fromVersion event.runVersion) (.invalidArgument
    ("event sequence " ++ toString event.sequence.value.toNat ++ " must equal run version " ++
      toString event.runVersion.toNat))
  refuse (event.payload.isCreation ∧ event.runVersion ≠ .initial)
    (.invalidArgument "RunCreated event must have version 1")
  refuse (¬ event.payload.isCreation ∧ event.runVersion = .initial)
    (.invalidArgument "non-creation event must have version greater than 1")
  refuse (event.causationEventId = some event.id)
    (.invalidArgument "causation event id must not self-reference")
  return event

theorem RunEvent.new_ok {event e : RunEvent} (h : RunEvent.new event = .ok e) : e = event := by
  simp only [RunEvent.new, bind_eq_ok, refuse_eq_ok, exists_const, pure_eq_ok] at h
  exact h.2.2.2.2.symm

/-! ## Checkpoints -/

structure RunCheckpointPayloadV1 where
  completedSteps : List RunStepId
  readySteps : List RunStepId
  pendingWorkItems : List WorkItemId
  pendingToolCalls : List RunReferenceId
  pendingApprovals : List RunReferenceId
  activeSubruns : List AgentRunId
  contextReferences : List RunReference
  artifactReferences : List RunReference
  budgetSnapshotId : Option BudgetSnapshotId
  deriving DecidableEq, Repr

structure RunCheckpoint where
  id : RunCheckpointId
  workspaceId : WorkspaceId
  runId : AgentRunId
  runVersion : RunVersion
  activePlanRevisionId : Option PlanRevisionId
  resumeCursor : ResumeCursor
  payload : RunCheckpointPayloadV1
  createdAt : Timestamp
  deriving DecidableEq, Repr

def checkNoDuplicates {α : Type} [DecidableEq α] (fieldName : String) (items : List α) :
    Except DomainError Unit :=
  refuse (¬ items.Nodup)
    (.invalidArgument ("checkpoint " ++ fieldName ++ " contains duplicate IDs"))

def RunCheckpoint.new (id : RunCheckpointId) (workspaceId : WorkspaceId) (runId : AgentRunId)
    (runVersion : RunVersion) (activePlanRevisionId : Option PlanRevisionId)
    (payload : RunCheckpointPayloadV1) (createdAt : Timestamp) :
    Except DomainError RunCheckpoint := do
  checkNoDuplicates "completed_steps" payload.completedSteps
  checkNoDuplicates "ready_steps" payload.readySteps
  checkNoDuplicates "pending_work_items" payload.pendingWorkItems
  checkNoDuplicates "pending_tool_calls" payload.pendingToolCalls
  checkNoDuplicates "pending_approvals" payload.pendingApprovals
  checkNoDuplicates "active_subruns" payload.activeSubruns
  return ⟨id, workspaceId, runId, runVersion, activePlanRevisionId, .fromVersion runVersion,
    payload, createdAt⟩

/-! ## Work items and commits -/

inductive WorkItemKind where
  | advanceRun
  | resumeRun
  | executeStep (stepId : RunStepId)
  deriving DecidableEq, Repr

structure WorkItem where
  id : WorkItemId
  runId : AgentRunId
  kind : WorkItemKind
  expectedRunVersion : RunVersion
  availableAt : Timestamp
  idempotencyKey : String
  attempt : ℕ
  deriving DecidableEq, Repr

def deterministicIdempotencyKey (runId : AgentRunId) (version : RunVersion) (action : String) :
    String :=
  "run:" ++ runId.display ++ ":version:" ++ toString version.toNat ++ ":action:" ++ action

structure RunSnapshot where
  run : AgentRun
  steps : List RunStep
  deriving DecidableEq, Repr

structure CommitRun where
  run : AgentRun
  event : RunEvent
  newSteps : List RunStep
  checkpoint : Option RunCheckpoint
  workItems : List WorkItem
  deriving DecidableEq, Repr

/-- What building one commit takes from outside: a clock reading and fresh ids. -/
structure Draw where
  at_ : Timestamp
  eventId : RunEventId
  correlationId : CorrelationId
  checkpointId : RunCheckpointId
  workItemId : ℕ → WorkItemId

def WorkItemKind.action : WorkItemKind → String
  | advanceRun => "advance"
  | resumeRun => "resume"
  | executeStep stepId => "step:" ++ stepId.display

/-- The one shape every writer gives its work items: due at once, first attempt, keyed
by run, version and action. -/
def Draw.workItem (draw : Draw) (i : ℕ) (runId : AgentRunId) (kind : WorkItemKind)
    (version : RunVersion) : WorkItem where
  id := draw.workItemId i
  runId := runId
  kind := kind
  expectedRunVersion := version
  availableAt := draw.at_
  idempotencyKey := deterministicIdempotencyKey runId version kind.action
  attempt := 1

def Draw.event (draw : Draw) (runId : AgentRunId) (workspaceId : WorkspaceId)
    (version : RunVersion) (actor : RunActorRef) (payload : RunEventPayload)
    (correlationId : CorrelationId) (causationEventId : Option RunEventId) : AppResult RunEvent :=
  (RunEvent.new {
    id := draw.eventId
    workspaceId := workspaceId
    runId := runId
    sequence := .fromVersion version
    runVersion := version
    actor := actor
    payload := payload
    correlationId := correlationId
    causationEventId := causationEventId
    occurredAt := draw.at_ }).mapError .domain

/-- The event a writer gets is the one it asked for. -/
theorem Draw.event_ok {runId : AgentRunId} {workspaceId : WorkspaceId} {version : RunVersion}
    {payload : RunEventPayload} {draw : Draw} {actor : RunActorRef} {correlationId : CorrelationId}
    {causationEventId : Option RunEventId} {event : RunEvent}
    (h : draw.event runId workspaceId version actor payload correlationId causationEventId =
      .ok event) : event = {
      id := draw.eventId
      workspaceId := workspaceId
      runId := runId
      sequence := .fromVersion version
      runVersion := version
      actor := actor
      payload := payload
      correlationId := correlationId
      causationEventId := causationEventId
      occurredAt := draw.at_ } :=
  RunEvent.new_ok (mapError_eq_ok.mp h)

end Vestrace.Run
