import Vestrace.Run.Ports

/-!
# The coordinator — the commands on a run

Every command has the same three parts: load a snapshot, build a commit from it, and
hand the commit to the store, which accepts it only if the version has not moved. The
middle part is pure and may refuse; it is the `…Commit` function. The command itself is
a program over the ports, because what it has done before it fails stays done.
-/

namespace Vestrace.Run

open Lib

/-! ## Commands -/

/-- The DTO of `create_run`; the others follow by name. -/
structure CreateRun where
  correlationId : Option CorrelationId
  objective : String
  coordinatorSnapshotId : AgentRuntimeSnapshotId
  executionMode : RunExecutionMode
  parent : Option ParentRunLink
  deriving DecidableEq, Repr

structure TransitionRun where
  correlationId : Option CorrelationId
  runId : AgentRunId
  expectedVersion : RunVersion
  target : RunStatus
  result : Option RunTerminalResult
  actor : RunActorRef
  causationEventId : Option RunEventId
  deriving DecidableEq, Repr

inductive NewRunStepInput where
  | none
  | confidential (text : String)
  deriving DecidableEq, Repr

structure NewRunStepDto where
  id : RunStepId
  planStepReference : Option String
  assignedActor : RunActorRef
  inputReferences : List RunReference
  input : NewRunStepInput
  deriving DecidableEq, Repr

structure AddRunSteps where
  correlationId : Option CorrelationId
  runId : AgentRunId
  expectedVersion : RunVersion
  steps : List NewRunStepDto
  actor : RunActorRef
  deriving DecidableEq, Repr

structure TransitionRunStep where
  runId : AgentRunId
  stepId : RunStepId
  expectedVersion : RunVersion
  target : RunStepStatus
  failure : Option RunFailure
  actor : RunActorRef
  deriving DecidableEq, Repr

structure CreateCheckpoint where
  runId : AgentRunId
  expectedVersion : RunVersion
  payload : RunCheckpointPayloadV1
  actor : RunActorRef
  deriving DecidableEq, Repr

structure PauseOrResumeRun where
  correlationId : Option CorrelationId
  runId : AgentRunId
  expectedVersion : RunVersion
  actor : RunActorRef
  deriving DecidableEq, Repr

structure ApproveRun where
  correlationId : Option CorrelationId
  runId : AgentRunId
  expectedVersion : RunVersion
  approverId : PrincipalId
  actor : RunActorRef
  deriving DecidableEq, Repr

structure CancelRun where
  correlationId : Option CorrelationId
  runId : AgentRunId
  expectedVersion : RunVersion
  reason : Option String
  actor : RunActorRef
  deriving DecidableEq, Repr

/-! ## Building the commits -/

/-- The check of every command on the snapshot it loaded. -/
def requireVersion (snapshot : RunSnapshot) (expected : RunVersion) : AppResult Unit :=
  refuse (snapshot.run.version ≠ expected)
    (.domain (.revisionConflict expected.value snapshot.run.version.value))

section

variable (context : RequestContext) (snapshot : RunSnapshot)

/-- The run, its first event, and an item to advance it. -/
def createRunCommit (command : CreateRun) (runId : AgentRunId) (draw : Draw) :
    AppResult CommitRun := do
  let run ← (AgentRun.create {
    id := runId
    workspaceId := context.workspaceId
    objective := command.objective
    coordinatorSnapshotId := command.coordinatorSnapshotId
    executionMode := command.executionMode
    parent := command.parent
    budgetSnapshotId := none
    resourceUsageSnapshotId := none } draw.at_).mapError .domain
  -- the event carries the command's objective, the run its own
  let event ← draw.event runId context.workspaceId .initial (.principal context.principalId)
    (.runCreated command.objective command.executionMode run.coordinatorSnapshotId run.parent)
    (command.correlationId.getD draw.correlationId) none
  return ⟨run, event, [], none, [draw.workItem 0 runId .advanceRun .initial]⟩

/-- A run that is set going gets an item to advance it. -/
def transitionRunCommit (command : TransitionRun) (extra : List WorkItem) (draw : Draw) :
    AppResult CommitRun := do
  requireVersion snapshot command.expectedVersion
  let (run, change) :=
    snapshot.run.transition command.expectedVersion command.target command.result draw.at_
  let _ ← change.mapError .domain
  let nextVersion ← command.expectedVersion.next.mapError .domain
  let event ← draw.event command.runId context.workspaceId nextVersion command.actor
    (.runStatusChanged snapshot.run.status command.target command.result)
    (command.correlationId.getD draw.correlationId) command.causationEventId
  let advance := if command.target = .running ∧ snapshot.run.status ≠ .running
    then [draw.workItem extra.length command.runId .advanceRun nextVersion] else []
  return ⟨run, event, [], none, extra ++ advance⟩

/-- A step for an agent, or with a confidential input, would need a governed authority. -/
def newStep (runId : AgentRunId) (at_ : Timestamp) (dto : NewRunStepDto) : AppResult RunStep := do
  let legacyCoordinatorInput := match dto.assignedActor, dto.input with
    | .agentSnapshot _, _ => false
    | _, .none => true
    | _, .confidential _ => false
  refuse (legacyCoordinatorInput = false)
    (.unavailable "governed Run-step input authority is not configured")
  (RunStep.create ⟨dto.id, runId, dto.planStepReference, dto.assignedActor, dto.inputReferences⟩
    at_).mapError .domain

def executeItems (draw : Draw) (runId : AgentRunId) (version : RunVersion)
    (steps : List RunStepId) : List WorkItem :=
  steps.mapIdx fun i stepId => draw.workItem i runId (.executeStep stepId) version

/-- A step that needs no input is queued at once. -/
def addStepsCommit (command : AddRunSteps) (draw : Draw) : AppResult CommitRun := do
  requireVersion snapshot command.expectedVersion
  let nextVersion ← command.expectedVersion.next.mapError .domain
  let steps ← command.steps.mapM (newStep command.runId draw.at_)
  let event ← draw.event command.runId context.workspaceId nextVersion command.actor
    (.stepsAdded steps) (command.correlationId.getD draw.correlationId) none
  let run := { snapshot.run with version := nextVersion, updatedAt := draw.at_ }
  let ready := (steps.filter fun step => step.inputReferences.isEmpty).map (·.id)
  return ⟨run, event, steps, none, executeItems draw command.runId nextVersion ready⟩

/-- A failure that is given decides the target. -/
def transitionStepCommit (command : TransitionRunStep) (draw : Draw) : AppResult CommitRun := do
  requireVersion snapshot command.expectedVersion
  let found ← okOr (snapshot.steps.find? fun step => step.id == command.stepId)
    (.domain (.notFound "step not found"))
  let (step, outcome) := match command.failure with
    | some failure => found.fail failure draw.at_
    | none => found.transitionTo command.target draw.at_
  outcome.mapError .domain
  let nextVersion ← command.expectedVersion.next.mapError .domain
  let event ← draw.event command.runId context.workspaceId nextVersion command.actor
    (.stepStatusChanged command.stepId found.status step.status step.attempt)
    draw.correlationId none
  let run := { snapshot.run with version := nextVersion, updatedAt := draw.at_ }
  return ⟨run, event, [step], none, []⟩

/-- The checkpoint is taken at the version the commit leads to. -/
def createCheckpointCommit (command : CreateCheckpoint) (draw : Draw) : AppResult CommitRun := do
  requireVersion snapshot command.expectedVersion
  let nextVersion ← command.expectedVersion.next.mapError .domain
  let checkpoint ← (RunCheckpoint.new draw.checkpointId context.workspaceId command.runId
    nextVersion snapshot.run.activePlanRevisionId command.payload draw.at_).mapError .domain
  let event ← draw.event command.runId context.workspaceId nextVersion command.actor
    (.checkpointCreated draw.checkpointId (.fromVersion nextVersion)) draw.correlationId none
  let run := { snapshot.run with
    version := nextVersion, checkpointId := some draw.checkpointId, updatedAt := draw.at_ }
  return ⟨run, event, [], some checkpoint, []⟩

/-- The second commit of `approve_run`: the event that records the approval. -/
def approvalCommit (approved : AgentRun) (command : ApproveRun) (draw : Draw) :
    AppResult CommitRun := do
  let nextVersion ← approved.version.next.mapError .domain
  let event ← draw.event command.runId context.workspaceId nextVersion command.actor
    (.approvalGranted command.approverId) (command.correlationId.getD draw.correlationId) none
  return ⟨{ approved with version := nextVersion, updatedAt := draw.at_ }, event, [], none, []⟩

/-! ## The transitions the other commands ask for -/

variable (command : PauseOrResumeRun) (draw : Draw)

def pauseTransition : TransitionRun :=
  ⟨command.correlationId, command.runId, command.expectedVersion, .paused, none, command.actor,
    none⟩

def resumeTransition : TransitionRun :=
  ⟨command.correlationId, command.runId, command.expectedVersion, .running, none, command.actor,
    none⟩

def approveTransition (command : ApproveRun) : TransitionRun :=
  ⟨command.correlationId, command.runId, command.expectedVersion, .running, none, command.actor,
    none⟩

def cancelTransition (command : CancelRun) : TransitionRun :=
  ⟨command.correlationId, command.runId, command.expectedVersion, .cancelled,
    some (.cancelled command.reason), command.actor, none⟩

/-- It is drawn up before the run is loaded, for the version that is expected. -/
def resumeItem : AppResult WorkItem := do
  let nextVersion ← command.expectedVersion.next.mapError .domain
  return draw.workItem 0 command.runId .resumeRun nextVersion

def RunStatus.asStr : RunStatus → String
  | created => "created"
  | preparing => "preparing"
  | running => "running"
  | waitingForInput => "waiting_for_input"
  | waitingForApproval => "waiting_for_approval"
  | waitingForDependency => "waiting_for_dependency"
  | paused => "paused"
  | pausedPolicyChanged => "paused_policy_changed"
  | succeeded => "succeeded"
  | succeededWithWarnings => "succeeded_with_warnings"
  | partial_ => "partial"
  | failed => "failed"
  | cancelled => "cancelled"
  | expired => "expired"

/-- The guard `approve_run` has and `resume_run` has not. -/
def requireAwaitingApproval : AppResult Unit :=
  refuse (snapshot.run.status ≠ .waitingForApproval) (.domain (.invalidArgument
    ("run is " ++ snapshot.run.status.asStr ++ " and is not awaiting approval")))

/-! ## The commands as programs -/

def createRun (command : CreateRun) (runId : AgentRunId) (draw : Draw) :
    RunProg RunSnapshot := do
  let commit ← createRunCommit context command runId draw
  storeRun context commit

/-- The queue of a run that ends is cancelled before the commit, in its own transaction. -/
def transitionRunWith (command : TransitionRun) (extra : List WorkItem) (draw : Draw) :
    RunProg RunSnapshot := do
  let snapshot ← loadRun context command.runId
  let commit ← transitionRunCommit context snapshot command extra draw
  if command.target.isTerminal then cancelQueue context command.runId draw.at_
  commitRun context commit

def transitionRun (command : TransitionRun) (draw : Draw) :
    RunProg RunSnapshot :=
  transitionRunWith context command [] draw

def addSteps (command : AddRunSteps) (draw : Draw) : RunProg RunSnapshot := do
  let snapshot ← loadRun context command.runId
  let commit ← addStepsCommit context snapshot command draw
  commitRun context commit

def transitionStep (command : TransitionRunStep) (draw : Draw) :
    RunProg RunSnapshot := do
  let snapshot ← loadRun context command.runId
  let commit ← transitionStepCommit context snapshot command draw
  commitRun context commit

def createCheckpoint (command : CreateCheckpoint) (draw : Draw) :
    RunProg RunSnapshot := do
  let snapshot ← loadRun context command.runId
  let commit ← createCheckpointCommit context snapshot command draw
  commitRun context commit

def pauseRun : RunProg RunSnapshot :=
  transitionRun context (pauseTransition command) draw

def resumeRun (itemDraw draw : Draw) : RunProg RunSnapshot := do
  let item ← resumeItem command itemDraw
  transitionRunWith context (resumeTransition command) [item] draw

/-- Two commits: the transition, and the approval. -/
def approveRun (command : ApproveRun) (draw secondDraw : Draw) :
    RunProg RunSnapshot := do
  let snapshot ← loadRun context command.runId
  requireAwaitingApproval snapshot
  let approved ← transitionRun context (approveTransition command) draw
  let commit ← approvalCommit context approved.run command secondDraw
  commitRun context commit

def cancelRun (command : CancelRun) (draw : Draw) : RunProg RunSnapshot :=
  transitionRun context (cancelTransition command) draw

end

/-- The commands on a run that exists, with what each draws. -/
inductive RunCommand where
  | transitionRun (command : TransitionRun) (draw : Draw)
  | addSteps (command : AddRunSteps) (draw : Draw)
  | transitionStep (command : TransitionRunStep) (draw : Draw)
  | createCheckpoint (command : CreateCheckpoint) (draw : Draw)
  | pauseRun (command : PauseOrResumeRun) (draw : Draw)
  | resumeRun (command : PauseOrResumeRun) (itemDraw draw : Draw)
  | approveRun (command : ApproveRun) (draw secondDraw : Draw)
  | cancelRun (command : CancelRun) (draw : Draw)

def RunCommand.program (context : RequestContext) : RunCommand → RunProg RunSnapshot
  | transitionRun command draw => Run.transitionRun context command draw
  | addSteps command draw => Run.addSteps context command draw
  | transitionStep command draw => Run.transitionStep context command draw
  | createCheckpoint command draw => Run.createCheckpoint context command draw
  | pauseRun command draw => Run.pauseRun context command draw
  | resumeRun command itemDraw draw => Run.resumeRun context command itemDraw draw
  | approveRun command draw secondDraw => Run.approveRun context command draw secondDraw
  | cancelRun command draw => Run.cancelRun context command draw

/-! ## A created run -/

/-- What a creation that succeeds leaves in empty tables. -/
theorem createRun_ok
    {context : RequestContext} {runId : AgentRunId} {draw : Draw} {snapshot : RunSnapshot}
    {command : CreateRun} {db : RunDb}
    (h : (createRun context command runId draw).run .empty = (.ok snapshot, db)) :
    ∃ run event, (AgentRun.create {
          id := runId
          workspaceId := context.workspaceId
          objective := command.objective
          coordinatorSnapshotId := command.coordinatorSnapshotId
          executionMode := command.executionMode
          parent := command.parent
          budgetSnapshotId := none
          resourceUsageSnapshotId := none } draw.at_) = .ok run ∧
      draw.event runId context.workspaceId .initial (.principal context.principalId)
        (.runCreated command.objective command.executionMode run.coordinatorSnapshotId run.parent)
        (command.correlationId.getD draw.correlationId) none = .ok event ∧
      db = RunDb.empty.written (RunDb.insertedRun context run)
        ⟨run, event, [], none, [draw.workItem 0 runId .advanceRun .initial]⟩ := by
  simp only [createRun, Prog.run_bind_ok, Prog.run_lift_ok, storeRun_ok] at h
  obtain ⟨commit, _, ⟨hcommit, rfl⟩, hcreate⟩ := h
  simp only [createRunCommit, bind_eq_ok, mapError_eq_ok, pure_eq_ok] at hcommit
  obtain ⟨run, hrun, event, hevent, rfl⟩ := hcommit
  obtain ⟨-, hdb⟩ := RunDb.create_ok hcreate
  exact ⟨run, event, hrun, hevent, hdb⟩

/-! A run to try things on. -/

def reportContext : RequestContext := ⟨⟨1⟩, ⟨1⟩, ⟨1⟩, ⟨1⟩⟩

def createReport : CreateRun := ⟨none, "write the report", ⟨1⟩, .autopilot, none⟩

/-- The clock at `n`, and ids that differ from those of any other `n` below 1000. -/
def drawAt (n : ℕ) : Draw where
  at_ := n
  eventId := ⟨n⟩
  correlationId := ⟨1⟩
  checkpointId := ⟨n⟩
  workItemId i := ⟨n + 1000 * i⟩

/-- The creation of the run, what it returns and the tables it leaves. -/
abbrev ReportCreated (created : RunSnapshot) (db : RunDb) : Prop :=
  (createRun reportContext createReport ⟨1⟩ (drawAt 1)).run .empty = (.ok created, db)

example : ∃ created db, ReportCreated created db ∧ db.streamVersion = some .initial :=
  ⟨_, _, rfl, rfl⟩

end Vestrace.Run
