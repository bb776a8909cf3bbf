import Vestrace.Run.Coordinator

/-!
# The worker's handlers — advance, execute, resume

The three handlers work from the snapshot the worker loaded. Unlike the commands, they write the
step's status and the run's current step by assignment, not through `RunStep::transition_to` and
`AgentRun::select_current_step`.
-/

namespace Vestrace.Run

open Lib

inductive RunWorkOutcome where
  | completed
  | retry (availableAt : Timestamp) (error : RunFailure)
  | deadLetter (error : RunFailure)
  | noopStaleVersion
  deriving DecidableEq, Repr

def isAgentStep : RunActorRef → Bool
  | .agentSnapshot _ => true
  | _ => false

/-- A step nobody has started and nothing is missing for. -/
def RunStep.pendingReady (step : RunStep) : Bool :=
  !isAgentStep step.assignedActor && step.inputReferences.isEmpty && step.status == .pending

def pendingReadySteps (steps : List RunStep) : List RunStepId :=
  (steps.filter RunStep.pendingReady).map (·.id)

def allStepsTerminal (steps : List RunStep) : Bool :=
  !steps.isEmpty && steps.all fun step => step.status.isTerminal

/-! ## `AdvanceRunHandler` -/

variable (context : RequestContext) (snapshot : RunSnapshot) (item : WorkItem)
variable (nextVersion : RunVersion) (draw : Draw)

/-- A status change the system makes: the checked transition, the version it was told,
and the event that says so. -/
def systemTransition (target : RunStatus) (result : Option RunTerminalResult) :
    AppResult (AgentRun × RunEvent) := do
  let (run, change) :=
    snapshot.run.transition item.expectedRunVersion target result draw.at_
  let _ ← change.mapError .domain
  let event ← draw.event snapshot.run.id context.workspaceId nextVersion .system
    (.runStatusChanged snapshot.run.status target result) draw.correlationId none
  return ({ run with version := nextVersion, updatedAt := draw.at_ }, event)

def prepareRunCommit : AppResult CommitRun := do
  let (run, event) ← systemTransition context snapshot item nextVersion draw .preparing none
  return ⟨run, event, [], none, [draw.workItem 0 snapshot.run.id .advanceRun nextVersion]⟩

def finalOutcome (steps : List RunStep) : RunStatus × RunTerminalResult :=
  if steps.all fun step => step.status == .succeeded then (.succeeded, .succeeded none)
  else if steps.any fun step => step.status == .failed then
    (.failed, .failed "step_failure" "one or more steps failed" false)
  else (.partial_, .partial_ "some steps did not complete successfully" [])

def finalizeRunCommit : AppResult CommitRun := do
  let (target, result) := finalOutcome snapshot.steps
  let (run, event) ← systemTransition context snapshot item nextVersion draw target (some result)
  return ⟨run, event, [], none, []⟩

/-- What advancing comes to: nothing, a commit, or a last commit after which the queue
is cancelled. -/
inductive AdvancePlan where
  | done
  | commit (commit : CommitRun)
  | finalize (commit : CommitRun)
  deriving DecidableEq, Repr

/-- `start_run`, up to the store. The transition to `Running` is tried even where the
run is finalised instead. -/
def startRunPlan : AppResult AdvancePlan := do
  let (run, event) ← systemTransition context snapshot item nextVersion draw .running none
  if allStepsTerminal snapshot.steps then
    return .finalize (← finalizeRunCommit context snapshot item nextVersion draw)
  let ready := pendingReadySteps snapshot.steps
  return .commit ⟨run, event, [], none,
    executeItems draw snapshot.run.id nextVersion ready ++
      [draw.workItem ready.length snapshot.run.id .advanceRun nextVersion]⟩

/-- `advance_running_run`, up to the store. The event names a new current step; the run
row keeps the old one. -/
def advanceRunningRunPlan : AppResult AdvancePlan := do
  if allStepsTerminal snapshot.steps then
    return .finalize (← finalizeRunCommit context snapshot item nextVersion draw)
  let ready := pendingReadySteps snapshot.steps
  if ready.isEmpty then return .done
  let event ← draw.event snapshot.run.id context.workspaceId nextVersion .system
    (.currentStepChanged snapshot.run.currentStepId ready.head?) draw.correlationId none
  return .commit ⟨{ snapshot.run with version := nextVersion, updatedAt := draw.at_ }, event, [],
    none, executeItems draw snapshot.run.id nextVersion ready⟩

def advanceRunPlan : AppResult AdvancePlan := do
  let nextVersion ← item.expectedRunVersion.next.mapError .domain
  match snapshot.run.status with
  | .created => return .commit (← prepareRunCommit context snapshot item nextVersion draw)
  | .preparing => startRunPlan context snapshot item nextVersion draw
  | .running => advanceRunningRunPlan context snapshot item nextVersion draw
  | _ => return .done

/-- `AdvanceRunHandler::handle`. -/
def advanceRun : RunProg RunWorkOutcome := do
  let plan ← advanceRunPlan context snapshot item draw
  match plan with
  | .done => return .completed
  | .commit commit =>
    let _ ← commitRun context commit
    return .completed
  | .finalize commit =>
    let _ ← commitRun context commit
    cancelQueue context snapshot.run.id draw.at_
    return .completed

/-! ## `ExecuteStepHandler` -/

inductive StepModelOutcome where
  | published
  | denied (authorizationId : PolicyDecisionId)
  | conflict (retryAfterSeconds : Option UInt32)
  | recoveredUnknown
  deriving DecidableEq, Repr

def contendedDispatchRetrySeconds : UInt32 := 5

/-- The first commit of the handler, with the run and the step it leaves; nothing for
an item of another kind or a step that has ended. -/
def startStepCommit : AppResult (Option (CommitRun × AgentRun × RunStep)) :=
  match item.kind with
  | .executeStep stepId => do
    let found ← okOr (snapshot.steps.find? fun step => step.id == stepId)
      (.internal ("step " ++ stepId.display ++ " not found in snapshot"))
    if found.status.isTerminal then return none
    let runVersion ← item.expectedRunVersion.next.mapError .domain
    let step := { found with status := .running, startedAt := some draw.at_ }
    let run := { snapshot.run with
      version := runVersion, updatedAt := draw.at_, currentStepId := some stepId }
    let event ← draw.event run.id context.workspaceId runVersion .system
      (.stepStatusChanged stepId found.status .running step.attempt) draw.correlationId none
    return some (⟨run, event, [step], none, [draw.workItem 0 run.id .advanceRun runVersion]⟩,
      run, step)
  | _ => return none

/-- The second commit, from the run and the step the first one left: `complete_step` and
`fail_step` differ in what they write on the step. -/
def settleStepCommit (run : AgentRun) (step settled : RunStep) (draw : Draw) :
    AppResult CommitRun := do
  let runVersion ← run.version.next.mapError .domain
  let event ← draw.event run.id context.workspaceId runVersion .system
    (.stepStatusChanged step.id step.status settled.status step.attempt) draw.correlationId none
  return ⟨{ run with version := runVersion, updatedAt := draw.at_ }, event, [settled], none,
    [draw.workItem 0 run.id .advanceRun runVersion]⟩

def completeStepCommit (run : AgentRun) (step : RunStep) (draw : Draw) : AppResult CommitRun :=
  settleStepCommit context run step
    { step with status := .succeeded, finishedAt := some draw.at_ } draw

def failStepCommit (run : AgentRun) (step : RunStep) (failure : RunFailure) (draw : Draw) :
    AppResult CommitRun :=
  settleStepCommit context run step
    { step with status := .failed, finishedAt := some draw.at_, error := some failure } draw

inductive StepEnding where
  | completed
  | retry (availableAt : Timestamp) (error : RunFailure)
  | fail (failure : RunFailure)
  deriving DecidableEq, Repr

def modelExecutorUnconfigured : RunFailure where
  code := "model_executor_unconfigured"
  message := "the step is assigned to an agent but no model executor is " ++
    "configured, so it was not performed"
  retryable := false

/-- The match on the executor's answer; `at_` is the clock at the first commit. -/
def modelEnding (at_ : Timestamp) : AppResult StepModelOutcome → StepEnding
  | .ok .published => .completed
  | .ok (.denied authorizationId) => .fail {
      code := "provider_dispatch_denied"
      message := "policy refused this step's provider dispatch; " ++
        "the decision is recorded as " ++ authorizationId.display
      retryable := false }
  | .ok (.conflict retryAfterSeconds) =>
    .retry (at_ + (retryAfterSeconds.getD contendedDispatchRetrySeconds).toNat * 1000000000) {
      code := "provider_dispatch_contended"
      message := "this step's provider dispatch could not be admitted yet; " ++
        "nothing was called and it will be attempted again"
      retryable := true }
  | .ok .recoveredUnknown => .fail {
      code := "provider_dispatch_unknown"
      message := "a provider dispatch for this step left the process and its " ++
        "outcome could not be established; it was adopted as unknown " ++
        "and will not be called again"
      retryable := false }
  | .error error => .fail {
      code := "model_invocation_failed"
      message := error.display
      retryable := match error with
        | .unavailable _ => true
        | _ => false }

/-- The executor of agent steps: it is called between the two commits and may write to
the database itself. -/
abbrev StepModelExecutor := AgentRunId → RunStepId → RunProg StepModelOutcome

variable (model : Option StepModelExecutor)

def finishStep (run : AgentRun) (step : RunStep) (at_ : Timestamp) (draw : Draw) :
    RunProg RunWorkOutcome := do
  if isAgentStep step.assignedActor then
    let ending ← match model with
      | none => pure (.fail modelExecutorUnconfigured)
      | some executor => do
        let outcome ← (executor run.id step.id).attempt
        pure (modelEnding at_ outcome)
    match ending with
    | .completed => return .completed
    | .retry availableAt error => return .retry availableAt error
    | .fail failure => do
      let commit ← failStepCommit context run step failure draw
      let _ ← commitRun context commit
      return .completed
  else
    let commit ← completeStepCommit context run step draw
    let _ ← commitRun context commit
    return .completed

/-- `ExecuteStepHandler::handle`: the step is started, then settled. -/
def executeStep (snapshot : RunSnapshot) (item : WorkItem) (draw secondDraw : Draw) :
    RunProg RunWorkOutcome := do
  let first ← startStepCommit context snapshot item draw
  match first with
  | none => return .completed
  | some (commit, run, step) => do
    let _ ← commitRun context commit
    finishStep context model run step draw.at_ secondDraw

/-! ## `ResumeRunHandler` -/

def resumeRunCommit : AppResult (Option CommitRun) := do
  if snapshot.run.status.canResume then
    let nextVersion ← item.expectedRunVersion.next.mapError .domain
    let (run, event) ← systemTransition context snapshot item nextVersion draw .running none
    return some ⟨run, event, [], none, [draw.workItem 0 snapshot.run.id .advanceRun nextVersion]⟩
  else return none

/-- `ResumeRunHandler::handle`. -/
def resumeRunHandler : RunProg RunWorkOutcome := do
  let plan ← resumeRunCommit context snapshot item draw
  match plan with
  | none => return .completed
  | some commit => do
    let _ ← commitRun context commit
    return .completed

def handle (snapshot : RunSnapshot) (item : WorkItem) (draw secondDraw : Draw) :
    RunProg RunWorkOutcome :=
  match item.kind with
  | .advanceRun => advanceRun context snapshot item draw
  | .resumeRun => resumeRunHandler context snapshot item draw
  | .executeStep _ => executeStep context model snapshot item draw secondDraw

/-- A handler's turn: on the snapshot the worker has just loaded, at the item's version, of
a run that is neither over nor paused. -/
def handleLoaded (item : WorkItem) (draw secondDraw : Draw) : RunProg RunWorkOutcome := do
  let snapshot ← loadRun context item.runId
  if snapshot.run.version ≠ item.expectedRunVersion then return .noopStaleVersion
  if snapshot.run.status.isTerminal ∨ snapshot.run.status = .paused then return .completed
  handle context model snapshot item draw secondDraw

end Vestrace.Run
