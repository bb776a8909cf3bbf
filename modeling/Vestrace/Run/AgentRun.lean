import Vestrace.Lib.Str
import Vestrace.Run.Status

/-!
# The run aggregate — `AgentRun` and `RunStep`

The stored run and its steps. A mutator takes `&mut self` and returns a `Result`, so each is
modelled as the record it leaves behind *and* what it returns: at the last version `transition`,
`attach_plan` and `select_current_step` leave their writes behind while returning the error.

`transition` does not ask which result a terminal target has, and the equal-status shortcut of
`transition_to` admits a second terminal transition (`terminal_run_final_iff`).
-/

namespace Vestrace.Run

open Lib RunStepStatus

variable {at_ : Timestamp} {α : Type} {target : RunStatus}

structure RunFailure where
  code : String
  message : String
  retryable : Bool
  deriving DecidableEq, Repr

inductive RunTerminalResult where
  | succeeded (summary : Option String)
  | succeededWithWarnings (summary : String) (warnings : List String)
  | partial_ (summary : String) (remainingWork : List String)
  | failed (code message : String) (retryable : Bool)
  | cancelled (reason : Option String)
  | expired
  deriving DecidableEq, Repr

def RunTerminalResult.outcome : RunTerminalResult → RunStatus
  | .succeeded _ => .succeeded
  | .succeededWithWarnings .. => .succeededWithWarnings
  | .partial_ .. => .partial_
  | .failed .. => .failed
  | .cancelled _ => .cancelled
  | .expired => .expired

inductive RunActorRef where
  | principal (id : PrincipalId)
  | agentSnapshot (id : AgentRuntimeSnapshotId)
  | worker (id : WorkerId)
  | system
  deriving DecidableEq, Repr

inductive RunReferenceKind where
  | context
  | artifact
  | approval
  | modelInvocation
  | toolInvocation
  | subRun
  | external
  deriving DecidableEq, Repr

structure RunReference where
  id : RunReferenceId
  kind : RunReferenceKind
  deriving DecidableEq, Repr

structure ParentRunLink where
  parentRunId : AgentRunId
  parentStepId : RunStepId
  deriving DecidableEq, Repr

structure NewAgentRun where
  id : AgentRunId
  workspaceId : WorkspaceId
  objective : String
  coordinatorSnapshotId : AgentRuntimeSnapshotId
  executionMode : RunExecutionMode
  parent : Option ParentRunLink
  budgetSnapshotId : Option BudgetSnapshotId
  resourceUsageSnapshotId : Option ResourceUsageSnapshotId
  deriving DecidableEq, Repr

structure AgentRun where
  id : AgentRunId
  workspaceId : WorkspaceId
  objective : String
  coordinatorSnapshotId : AgentRuntimeSnapshotId
  activePlanRevisionId : Option PlanRevisionId
  executionMode : RunExecutionMode
  status : RunStatus
  currentStepId : Option RunStepId
  checkpointId : Option RunCheckpointId
  parent : Option ParentRunLink
  rootRunId : AgentRunId
  budgetSnapshotId : Option BudgetSnapshotId
  resourceUsageSnapshotId : Option ResourceUsageSnapshotId
  version : RunVersion
  result : Option RunTerminalResult
  createdAt : Timestamp
  updatedAt : Timestamp
  finishedAt : Option Timestamp
  deriving DecidableEq, Repr

variable {run run' : AgentRun} {input : NewAgentRun}

structure RunStatusChange where
  from_ : RunStatus
  to_ : RunStatus
  newVersion : RunVersion
  deriving DecidableEq, Repr

def maxFieldLen : ℕ := 32 * 1024

def maxPlanRefLen : ℕ := 256

namespace AgentRun

def create (input : NewAgentRun) (at_ : Timestamp) : Except DomainError AgentRun := do
  let objective := Str.trim input.objective
  refuse (objective.toList.isEmpty) (.invalidArgument "objective must not be blank")
  refuse (maxFieldLen < objective.utf8ByteSize)
    (.invalidArgument "objective exceeds 32768 bytes")
  refuse (input.parent.any fun parent => parent.parentRunId == input.id)
    (.invalidArgument "parent run id must differ from run id")
  return {
    id := input.id
    workspaceId := input.workspaceId
    objective := objective
    coordinatorSnapshotId := input.coordinatorSnapshotId
    activePlanRevisionId := none
    executionMode := input.executionMode
    status := .created
    currentStepId := none
    checkpointId := none
    parent := input.parent
    rootRunId := input.id
    budgetSnapshotId := input.budgetSnapshotId
    resourceUsageSnapshotId := input.resourceUsageSnapshotId
    version := .initial
    result := none
    createdAt := at_
    updatedAt := at_
    finishedAt := none }

variable (run : AgentRun) (expected : RunVersion)

/-- What `transition` has written by the time it advances the version. -/
def entered (target : RunStatus) (result : Option RunTerminalResult) (at_ : Timestamp) : AgentRun :=
  if target.isTerminal then
    { run with status := target, result := result, finishedAt := some at_ }
  else { run with status := target }

/-- The shared tail of the mutators: `self.version = self.version.next()?` and
`self.updated_at = at`, on what has been written so far. -/
def advanceVersion {α : Type} (run : AgentRun) (at_ : Timestamp) (value : RunVersion → α) :
    AgentRun × Except DomainError α :=
  match run.version.next with
  | .error e => (run, .error e)
  | .ok version => ({ run with version := version, updatedAt := at_ }, .ok (value version))

def transition (target : RunStatus) (result : Option RunTerminalResult) (at_ : Timestamp) :
    AgentRun × Except DomainError RunStatusChange :=
  if expected ≠ run.version then
    (run, .error (.revisionConflict expected.value run.version.value))
  else if target.isTerminal ∧ result.isNone then
    (run, .error (.invalidArgument ("terminal target " ++ target.debug ++ " requires a result")))
  else if ¬ target.isTerminal ∧ result.isSome then
    (run, .error (.invalidArgument ("non-terminal target " ++ target.debug ++ " rejects a result")))
  else match run.status.transitionTo target with
    | .error e => (run, .error e)
    | .ok () =>
      (run.entered target result at_).advanceVersion at_ fun version =>
        { from_ := run.status, to_ := target, newVersion := version }

def attachPlan (plan : PlanRevisionId) (at_ : Timestamp) :
    AgentRun × Except DomainError (PlanRevisionId × RunVersion) :=
  if expected ≠ run.version then
    (run, .error (.revisionConflict expected.value run.version.value))
  else { run with activePlanRevisionId := some plan }.advanceVersion at_ fun version =>
    (plan, version)

def selectCurrentStep (step : Option RunStepId) (at_ : Timestamp) :
    AgentRun × Except DomainError (Option RunStepId × RunVersion) :=
  if expected ≠ run.version then
    (run, .error (.revisionConflict expected.value run.version.value))
  else { run with currentStepId := step }.advanceVersion at_ fun version => (step, version)

end AgentRun

open AgentRun

/-! ## Steps -/

structure NewRunStep where
  id : RunStepId
  runId : AgentRunId
  planStepReference : Option String
  assignedActor : RunActorRef
  inputReferences : List RunReference
  deriving DecidableEq, Repr

structure RunStep where
  id : RunStepId
  runId : AgentRunId
  planStepReference : Option String
  assignedActor : RunActorRef
  inputReferences : List RunReference
  status : RunStepStatus
  attempt : UInt32
  outputReferences : List RunReference
  error : Option RunFailure
  createdAt : Timestamp
  startedAt : Option Timestamp
  finishedAt : Option Timestamp
  deriving DecidableEq, Repr

namespace RunStep

def create (input : NewRunStep) (at_ : Timestamp) : Except DomainError RunStep := do
  refuse (input.planStepReference.any fun reference => Str.isBlank reference)
    (.invalidArgument "plan_step_reference must not be blank if present")
  refuse (input.planStepReference.any fun reference =>
      decide (maxPlanRefLen < (Str.trim reference).utf8ByteSize))
    (.invalidArgument "plan_step_reference exceeds 256 bytes")
  return {
    id := input.id
    runId := input.runId
    planStepReference :=
      (input.planStepReference.map Str.trim).filter fun reference => !reference.toList.isEmpty
    assignedActor := input.assignedActor
    inputReferences := input.inputReferences
    status := .pending
    attempt := 1
    outputReferences := []
    error := none
    createdAt := at_
    startedAt := none
    finishedAt := none }

def transitionTo (step : RunStep) (next : RunStepStatus) (at_ : Timestamp) :
    RunStep × Except DomainError Unit :=
  match step.status.transitionTo next with
  | .error e => (step, .error e)
  | .ok () =>
    ({ step with
        status := next
        startedAt := if next = .running ∧ step.startedAt.isNone then some at_ else step.startedAt
        finishedAt := if next.isTerminal ∧ ¬ step.status.isTerminal then some at_
          else step.finishedAt
        error := if next.isTerminal then none else step.error }, .ok ())

def fail (step : RunStep) (failure : RunFailure) (at_ : Timestamp) :
    RunStep × Except DomainError Unit :=
  let code := Str.trim failure.code
  let message := Str.trim failure.message
  if code.toList.isEmpty then
    (step, .error (.invalidArgument "failure code must not be blank"))
  else if maxFieldLen < code.utf8ByteSize then
    (step, .error (.invalidArgument "failure code exceeds 32768 bytes"))
  else if maxFieldLen < message.utf8ByteSize then
    (step, .error (.invalidArgument "failure message exceeds 32768 bytes"))
  else match step.status.transitionTo .failed with
    | .error e => (step, .error e)
    | .ok () =>
      ({ step with
          status := .failed
          error := some ⟨code, message, failure.retryable⟩
          finishedAt := some at_ }, .ok ())

def retry (step : RunStep) : RunStep × Except DomainError Unit :=
  if step.status ≠ .failed then
    (step, .error (.invalidArgument "retry is only allowed from Failed status"))
  else if step.attempt.toNat + 1 < 2 ^ 32 then
    ({ step with
        attempt := step.attempt + 1
        status := .ready
        startedAt := none
        finishedAt := none
        error := none }, .ok ())
  else (step, .error (.invalidArgument "attempt counter overflow"))

end RunStep

/-! ## What a mutator can do -/

namespace AgentRun

structure Accepts (run : AgentRun) (expected : RunVersion) (target : RunStatus)
    (result : Option RunTerminalResult) : Prop where
  version : expected = run.version
  result : target.isTerminal = true ↔ result.isSome = true
  table : run.status.transitionTo target = .ok ()

theorem transition_cases (run : AgentRun) (expected : RunVersion) (target : RunStatus)
    (result : Option RunTerminalResult) (at_ : Timestamp) :
    (¬ run.Accepts expected target result ∧
      ∃ e, run.transition expected target result at_ = (run, .error e)) ∨
    (run.Accepts expected target result ∧
      run.transition expected target result at_ =
        (run.entered target result at_).advanceVersion at_ fun version =>
          { from_ := run.status, to_ := target, newVersion := version }) := by
  unfold transition
  split
  next h => exact .inl ⟨fun ha => h ha.version, _, rfl⟩
  next hv =>
    split
    next h =>
      refine .inl ⟨fun ha => ?_, _, rfl⟩
      have hsome := ha.result.mp h.1
      rw [Option.isNone_iff_eq_none.mp h.2] at hsome
      cases hsome
    next hnone =>
      split
      next h => exact .inl ⟨fun ha => h.1 (ha.result.mpr h.2), _, rfl⟩
      next hsome =>
        cases ht : run.status.transitionTo target with
        | error e =>
          refine .inl ⟨fun ha => ?_, e, rfl⟩
          rw [ha.table] at ht
          cases ht
        | ok u =>
          refine .inr ⟨⟨not_not.mp hv, ⟨fun htt => ?_, fun hr => ?_⟩, ht⟩, rfl⟩
          · by_contra hr
            exact hnone ⟨htt, by simpa using hr⟩
          · by_contra htt
            exact hsome ⟨htt, hr⟩

theorem advanceVersion_cases (run : AgentRun) (at_ : Timestamp) (value : RunVersion → α) :
    (∃ v, run.version.next = .ok v ∧
      run.advanceVersion at_ value = ({ run with version := v, updatedAt := at_ }, .ok (value v))) ∨
    ∃ e, run.version.next = .error e ∧ run.advanceVersion at_ value = (run, .error e) := by
  unfold advanceVersion
  cases hn : run.version.next with
  | ok v => exact .inl ⟨v, rfl, rfl⟩
  | error e => exact .inr ⟨e, rfl, rfl⟩

/-- **When `transition` succeeds and what it leaves.** -/
theorem transition_ok {change : RunStatusChange}
    {expected : RunVersion} {result : Option RunTerminalResult} :
    run.transition expected target result at_ = (run', .ok change) ↔
      run.Accepts expected target result ∧ ∃ v, run.version.next = .ok v ∧
        run' = { run.entered target result at_ with version := v, updatedAt := at_ } ∧
        change = ⟨run.status, target, v⟩ := by
  rcases run.transition_cases expected target result at_ with ⟨hrefused, e, heq⟩ | ⟨haccepts, heq⟩
  · rw [heq]
    refine ⟨nofun, fun h => absurd h.1 hrefused⟩
  · rw [heq]
    have hversion : (run.entered target result at_).version = run.version := by
      unfold entered
      split <;> rfl
    rcases (run.entered target result at_).advanceVersion_cases at_ fun version =>
      (⟨run.status, target, version⟩ : RunStatusChange) with ⟨v, hv, hadv⟩ | ⟨e, he, hadv⟩
    · rw [hadv, Prod.mk.injEq, Except.ok.injEq]
      rw [hversion] at hv
      constructor
      · rintro ⟨rfl, rfl⟩
        exact ⟨haccepts, v, hv, rfl, rfl⟩
      · rintro ⟨-, w, hw, rfl, rfl⟩
        rw [hv] at hw
        cases hw
        exact ⟨rfl, rfl⟩
    · rw [hadv]
      rw [hversion] at he
      refine ⟨nofun, ?_⟩
      rintro ⟨-, v, hv, -⟩
      rw [he] at hv
      cases hv

end AgentRun

/-! ## Sequences of calls -/

inductive AgentRunCall where
  | transition (expected : RunVersion) (target : RunStatus) (result : Option RunTerminalResult)
      (at_ : Timestamp)
  | attachPlan (expected : RunVersion) (plan : PlanRevisionId) (at_ : Timestamp)
  | selectCurrentStep (expected : RunVersion) (step : Option RunStepId) (at_ : Timestamp)
  deriving DecidableEq, Repr

/-- The run a call leaves behind, and whether it succeeded. -/
def AgentRunCall.apply (run : AgentRun) : AgentRunCall → AgentRun × Except DomainError Unit
  | .transition expected target result at_ =>
    let (run', r) := run.transition expected target result at_
    (run', r.map fun _ => ())
  | .attachPlan expected plan at_ =>
    let (run', r) := run.attachPlan expected plan at_
    (run', r.map fun _ => ())
  | .selectCurrentStep expected step at_ =>
    let (run', r) := run.selectCurrentStep expected step at_
    (run', r.map fun _ => ())

def AgentRun.ending (run : AgentRun) : RunStatus × Option RunTerminalResult × Option Timestamp :=
  (run.status, run.result, run.finishedAt)

structure TerminalAgrees (run : AgentRun) : Prop where
  result : run.status.isTerminal = true ↔ run.result.isSome = true
  finished : run.result.isSome = true ↔ run.finishedAt.isSome = true
  names : ∀ r, run.result = some r → r.outcome = run.status

/-- Over a whole sequence of calls: every run on the way agrees with itself, and no
successful call changes the ending of a terminal one. -/
def Final (run : AgentRun) : List AgentRunCall → Prop
  | [] => TerminalAgrees run
  | call :: calls =>
    TerminalAgrees run ∧
    (run.status.isTerminal = true → (call.apply run).2 = .ok () →
      (call.apply run).1.ending = run.ending) ∧
    Final (call.apply run).1 calls

/-- What a transition into a terminal status that is let through must bring: a result that names
the status, and on a run that has ended (and can still count) nothing new. -/
def AgentRunCall.Sound (run : AgentRun) : AgentRunCall → Prop
  | .transition expected target result at_ =>
    expected = run.version → target.isTerminal = true →
      run.status.transitionTo target = .ok () → ∀ r, result = some r →
        r.outcome = target ∧
        (run.status.isTerminal = true → run.version.toNat + 1 < 2 ^ 64 →
          run.result = some r ∧ run.finishedAt = some at_)
  | _ => True

def AllSound (run : AgentRun) : List AgentRunCall → Prop
  | [] => True
  | call :: calls => call.Sound run ∧ AllSound (call.apply run).1 calls

theorem advanceVersion_ending (run : AgentRun) (at_ : Timestamp) (value : RunVersion → α) :
    (run.advanceVersion at_ value).1.ending = run.ending := by
  rcases run.advanceVersion_cases at_ value with ⟨v, -, heq⟩ | ⟨e, -, heq⟩
  · rw [heq]
    rfl
  · rw [heq]

theorem TerminalAgrees.of_ending (h : TerminalAgrees run) (he : run'.ending = run.ending) :
    TerminalAgrees run' := by
  simp only [ending, Prod.mk.injEq] at he
  obtain ⟨hs, hr, hf⟩ := he
  exact ⟨by rw [hs, hr]; exact h.result, by rw [hr, hf]; exact h.finished,
    by rw [hs, hr]; exact h.names⟩

theorem callApply_ending (run : AgentRun) (call : AgentRunCall) :
    (call.Sound run ∧ (call.apply run).1.ending = run.ending) ∨
    ∃ expected target result at_, call = .transition expected target result at_ ∧
      run.Accepts expected target result ∧
      (call.apply run).1.ending = (run.entered target result at_).ending ∧
      ((call.apply run).2 = .ok () ↔ run.version.toNat + 1 < 2 ^ 64) := by
  cases call with
  | transition expected target result at_ =>
    rcases run.transition_cases expected target result at_ with ⟨hnot, e, heq⟩ | ⟨hacc, heq⟩
    · refine .inl ⟨fun hv ht htab r hr => ?_, by rw [AgentRunCall.apply, heq]⟩
      exact absurd ⟨hv, iff_of_true ht (by rw [hr]; rfl), htab⟩ hnot
    · refine .inr ⟨expected, target, result, at_, rfl, hacc, ?_, ?_⟩
      · rw [AgentRunCall.apply, heq]
        exact advanceVersion_ending ..
      · have hver : (run.entered target result at_).version = run.version := by
          unfold entered
          split <;> rfl
        rw [AgentRunCall.apply, heq]
        rcases (run.entered target result at_).advanceVersion_cases at_ (fun version =>
          ({ from_ := run.status, to_ := target, newVersion := version } : RunStatusChange)) with
          ⟨v, hn, hadv⟩ | ⟨e, hn, hadv⟩
        · rw [hadv]
          rw [hver, RunVersion.next_eq_ok] at hn
          have hv := v.toNat_lt
          exact iff_of_true rfl (by omega)
        · rw [hadv]
          rw [hver, RunVersion.next_eq_error] at hn
          exact iff_of_false (by simp [Except.map]) (by omega)
  | attachPlan expected plan at_ =>
    refine .inl ⟨trivial, ?_⟩
    simp only [AgentRunCall.apply, attachPlan]
    split
    next => rfl
    next => exact advanceVersion_ending ..
  | selectCurrentStep expected step at_ =>
    refine .inl ⟨trivial, ?_⟩
    simp only [AgentRunCall.apply, selectCurrentStep]
    split
    next => rfl
    next => exact advanceVersion_ending ..

theorem terminalAgrees_of_entered {r : RunTerminalResult} (ht : target.isTerminal = true)
    (he : run'.ending = (run.entered target (some r) at_).ending) :
    TerminalAgrees run' ↔ r.outcome = target := by
  have hend : run'.ending = (target, some r, some at_) := by
    rw [he, entered, if_pos ht]
    rfl
  simp only [ending, Prod.mk.injEq] at hend
  obtain ⟨hs, hr, hf⟩ := hend
  constructor
  · intro h
    rw [← hs]
    exact h.names r hr
  · intro h
    refine ⟨?_, ?_, ?_⟩
    · rw [hs, hr]
      exact iff_of_true ht rfl
    · rw [hr, hf]
      exact iff_of_true rfl rfl
    · intro r' hr'
      rw [hr, Option.some_inj] at hr'
      rw [← hr', hs]
      exact h

/-- **One call.** From a run that agrees with itself, a call keeps that, and keeps a
terminal run's ending, exactly when it is sound. -/
theorem callApply_final_iff (h : TerminalAgrees run) (call : AgentRunCall) :
    call.Sound run ↔ TerminalAgrees (call.apply run).1 ∧
      (run.status.isTerminal = true → (call.apply run).2 = .ok () →
        (call.apply run).1.ending = run.ending) := by
  rcases callApply_ending run call with
    ⟨hsound, he⟩ | ⟨expected, target, result, at_, rfl, hacc, he, hok⟩
  · exact iff_of_true hsound ⟨h.of_ending he, fun _ _ => he⟩
  · by_cases ht : target.isTerminal = true
    · obtain ⟨r, hr⟩ := Option.isSome_iff_exists.mp (hacc.result.mp ht)
      subst hr
      rw [terminalAgrees_of_entered ht he, hok]
      have hend : (run.entered target (some r) at_).ending = (target, some r, some at_) := by
        rw [entered, if_pos ht]
        rfl
      rw [he, hend]
      constructor
      · intro hs
        obtain ⟨hname, hkeep⟩ := hs hacc.version ht hacc.table r rfl
        refine ⟨hname, fun hterm hlt => ?_⟩
        obtain ⟨hres, hfin⟩ := hkeep hterm hlt
        rw [ending, hres, hfin, RunStatus.transitionTo_of_terminal hterm hacc.table]
      · rintro ⟨hname, hkeep⟩ - - - r' hr'
        rw [Option.some_inj] at hr'
        subst hr'
        refine ⟨hname, fun hterm hlt => ?_⟩
        have hsame := hkeep hterm hlt
        simp only [ending, Prod.mk.injEq] at hsame
        exact ⟨hsame.2.1.symm, hsame.2.2.symm⟩
    · -- a non-terminal target: the run was not terminal either, and stays without an ending
      have hnot : run.status.isTerminal = false := by
        by_contra hterm
        rw [Bool.not_eq_false] at hterm
        exact ht (RunStatus.transitionTo_of_terminal hterm hacc.table ▸ hterm)
      have hres : run.result = none := by
        have := h.result.not.mp (by simp [hnot])
        simpa using this
      have hfin : run.finishedAt = none := by
        have := h.finished.not.mp (by simp [hres])
        simpa using this
      refine iff_of_true (fun _ ht' => absurd ht' ht) ⟨?_, fun hterm => ?_⟩
      · rw [entered, if_neg ht] at he
        simp only [ending, Prod.mk.injEq] at he
        obtain ⟨hs, hr, hf⟩ := he
        refine ⟨?_, ?_, ?_⟩
        · rw [hs, hr, hres]
          exact iff_of_false ht (by simp)
        · rw [hr, hf, hres, hfin]
          exact iff_of_false nofun nofun
        · intro r' hr'
          rw [hr, hres] at hr'
          cases hr'
      · rw [hnot] at hterm
        cases hterm

theorem create_fields (h : create input at_ = .ok run) :
    run.id = input.id ∧ run.status = .created ∧ run.version = .initial := by
  simp only [create, bind_eq_ok, refuse_eq_ok, exists_const, pure_eq_ok] at h
  obtain ⟨-, -, -, rfl⟩ := h
  exact ⟨rfl, rfl, rfl⟩

theorem create_agrees (h : create input at_ = .ok run) : TerminalAgrees run := by
  simp only [create, bind_eq_ok, refuse_eq_ok, exists_const, pure_eq_ok] at h
  obtain ⟨-, -, -, rfl⟩ := h
  have hnone : ¬ false = true := Bool.false_ne_true
  refine ⟨iff_of_false hnone hnone, iff_of_false hnone hnone, fun r hr => ?_⟩
  cases hr

theorem final_iff_allSound (h : TerminalAgrees run) (calls : List AgentRunCall) :
    Final run calls ↔ AllSound run calls := by
  induction calls generalizing run with
  | nil => exact iff_of_true h trivial
  | cons call calls ih =>
    rw [Final, AllSound, callApply_final_iff h call]
    constructor
    · rintro ⟨-, hkeep, hrest⟩
      have hnext : TerminalAgrees (call.apply run).1 := by
        cases calls with
        | nil => exact hrest
        | cons call' calls' => exact hrest.1
      exact ⟨⟨hnext, hkeep⟩, (ih hnext).mp hrest⟩
    · rintro ⟨⟨hnext, hkeep⟩, hrest⟩
      exact ⟨h, hkeep, (ih hnext).mpr hrest⟩

/-- **When a terminal run is final.** All along a sequence of calls on a created run the ending
agrees with the status and no successful call changes it, if and only if every transition into a
terminal status carried a result that names it, and brought nothing new to a run that had ended.
-/
theorem terminal_run_final_iff {input : NewAgentRun} {at_ : Timestamp} {run : AgentRun}
    (hcreate : create input at_ = .ok run) (calls : List AgentRunCall) :
    Final run calls ↔ AllSound run calls :=
  final_iff_allSound (create_agrees hcreate) calls

/-! Two cancellations, the second at the version the first left behind. -/

def reportInput : NewAgentRun where
  id := ⟨1⟩
  workspaceId := ⟨1⟩
  objective := "write the report"
  coordinatorSnapshotId := ⟨1⟩
  executionMode := .autopilot
  parent := none
  budgetSnapshotId := none
  resourceUsageSnapshotId := none

def cancelAt (version : UInt64) (reason : String) (at_ : Timestamp) : AgentRunCall :=
  .transition ⟨version⟩ .cancelled (some (.cancelled (some reason))) at_

/-- The second cancellation succeeds and rewrites why and when the run ended. -/
theorem second_cancel_rewrites_ending :
    ∃ run, create reportInput 0 = .ok run ∧
      ¬ Final run [cancelAt 1 "operator" 10, cancelAt 2 "timeout" 20] := by
  refine ⟨_, rfl, fun hfinal => ?_⟩
  obtain ⟨-, -, -, hkeep, -⟩ := hfinal
  exact absurd (hkeep rfl rfl) (by decide)

/-- One cancellation is sound, so it is final. -/
theorem terminal_run_final_iff_one_cancel :
    ∃ run, create reportInput 0 = .ok run ∧
      Final run [cancelAt 1 "operator" 10] := by
  have hcreate : ∃ run, create reportInput 0 = .ok run := ⟨_, rfl⟩
  obtain ⟨run, hrun⟩ := hcreate
  refine ⟨run, hrun, (terminal_run_final_iff hrun _).mpr ⟨?_, trivial⟩⟩
  cases hrun
  intro _ _ _ r hr
  cases hr
  refine ⟨rfl, fun hterminal => ?_⟩
  cases hterminal

/-! ## What a step records -/

inductive StepCall where
  | transitionTo (next : RunStepStatus) (at_ : Timestamp)
  | fail (failure : RunFailure) (at_ : Timestamp)
  | retry

def StepCall.apply (step : RunStep) : StepCall → RunStep × Except DomainError Unit
  | .transitionTo next at_ => step.transitionTo next at_
  | .fail failure at_ => step.fail failure at_
  | .retry => step.retry

/-- A step with what its calls have said: the failure and the end the current attempt
reported first, and the retries that succeeded. -/
structure StepHistory where
  step : RunStep
  failure : Option RunFailure := none
  ended : Option Timestamp := none
  retries : ℕ := 0

def StepHistory.after (h : StepHistory) (call : StepCall) : StepHistory :=
  let step := (call.apply h.step).1
  if (call.apply h.step).2 = .ok () then match call with
    | .transitionTo next at_ =>
      { h with step, ended := h.ended.or (if next.isTerminal then some at_ else none) }
    | .fail _ at_ =>
      { h with step, failure := h.failure.or step.error, ended := h.ended.or (some at_) }
    | .retry => { step, retries := h.retries + 1 }
  else { h with step }

@[mk_iff] structure StepHistory.Recorded (h : StepHistory) : Prop where
  error : h.step.error = h.failure
  cause : h.step.status ≠ .failed → h.step.error = none
  finished : h.step.finishedAt = h.ended
  terminal : h.step.finishedAt.isSome = h.step.status.isTerminal
  attempt : h.step.attempt.toNat = 1 + h.retries

/-- All along the calls the step records its history; a refused call leaves it alone. -/
def StepHistory.AllRecorded (h : StepHistory) : List StepCall → Prop
  | [] => h.Recorded
  | call :: calls => h.Recorded ∧
    ((call.apply h.step).2 ≠ .ok () → (call.apply h.step).1 = h.step) ∧
    (h.after call).AllRecorded calls

/-- What `fail` records of a failure. -/
def RunFailure.trimmed (failure : RunFailure) : RunFailure :=
  ⟨Str.trim failure.code, Str.trim failure.message, failure.retryable⟩

/-- What `fail` asks of a failure. -/
def RunFailure.Admissible (failure : RunFailure) : Prop :=
  (Str.trim failure.code).toList.isEmpty = false ∧
    (Str.trim failure.code).utf8ByteSize ≤ maxFieldLen ∧
    (Str.trim failure.message).utf8ByteSize ≤ maxFieldLen

/-- A step that has failed is told so again only if it has no error to lose, and by a further
`fail` only at the time it failed at and with the failure it has, if any. -/
def StepCall.Keeps (step : RunStep) : StepCall → Prop
  | .transitionTo next _ => step.status = .failed → next = .failed → step.error = none
  | .fail failure at_ => step.status = .failed → failure.Admissible →
      step.finishedAt = some at_ ∧ (step.error = none ∨ step.error = some failure.trimmed)
  | .retry => True

def AllKeep (step : RunStep) : List StepCall → Prop
  | [] => True
  | call :: calls => call.Keeps step ∧ AllKeep (call.apply step).1 calls

variable {step : RunStep} {h : StepHistory}

theorem stepTransition_of_terminal {s next : RunStepStatus} (hs : s.isTerminal = true)
    (h : s.transitionTo next = .ok ()) : next = s := by
  by_contra hne
  rw [transitionTo, if_neg (Ne.symm hne), if_pos hs] at h
  cases h

theorem RunStep.fail_ok {failure : RunFailure} (h : (step.fail failure at_).2 = .ok ()) :
    step.status.transitionTo .failed = .ok () ∧ ∃ r, step.fail failure at_ =
      ({ step with status := .failed, error := some r, finishedAt := some at_ }, .ok ()) := by
  unfold fail at h ⊢
  dsimp only at h ⊢
  split_ifs at h ⊢
  cases hnext : step.status.transitionTo .failed with
  | error e =>
    rw [hnext] at h
    cases h
  | ok u => exact ⟨rfl, _, rfl⟩

theorem StepCall.apply_error {call : StepCall} (h : (call.apply step).2 ≠ .ok ()) :
    (call.apply step).1 = step := by
  cases call <;>
    simp only [apply, RunStep.transitionTo, RunStep.fail, RunStep.retry] at h ⊢ <;>
    (repeat' split) <;> simp_all

theorem StepHistory.after_step (h : StepHistory) (call : StepCall) :
    (h.after call).step = (call.apply h.step).1 := by
  unfold after
  split
  · cases call <;> rfl
  · rfl

/-- The condition in terms of what the call leaves. -/
theorem StepCall.keeps_iff (step : RunStep) (call : StepCall) :
    call.Keeps step ↔ (step.status = .failed → call ≠ .retry →
      (call.apply step).1.finishedAt = step.finishedAt ∧
        (step.error = none ∨ (call.apply step).1.error = step.error)) := by
  cases call with
  | retry => exact iff_of_true trivial fun _ hne => absurd rfl hne
  | transitionTo next at_ =>
    refine forall_congr' fun hfailed => ?_
    by_cases hnext : next = .failed
    · simp [apply, RunStep.transitionTo, RunStepStatus.transitionTo, hnext, hfailed, isTerminal,
        eq_comm (a := none)]
    · have hrefused : (step.transitionTo next at_).1 = step := by
        simp [RunStep.transitionTo, RunStepStatus.transitionTo, hfailed, isTerminal, Ne.symm hnext]
      simp [apply, hrefused, hnext]
  | fail failure at_ =>
    refine forall_congr' fun hfailed => ?_
    by_cases hadmissible : failure.Admissible
    · obtain ⟨hcode, hsize, hmessage⟩ := id hadmissible
      have hfails : step.fail failure at_ = ({ step with
          status := .failed, error := some failure.trimmed, finishedAt := some at_ }, .ok ()) := by
        rw [RunStep.fail, if_neg (Bool.eq_false_iff.mp hcode), if_neg (not_lt.mpr hsize),
          if_neg (not_lt.mpr hmessage), hfailed]
        rfl
      simp [apply, hfails, hadmissible, eq_comm (a := some _)]
    · have hrefused : (step.fail failure at_).1 = step := by
        rw [RunStep.fail]
        split_ifs with hcode hsize hmessage
        · rfl
        · rfl
        · rfl
        · exact absurd ⟨Bool.eq_false_iff.mpr hcode, not_lt.mp hsize, not_lt.mp hmessage⟩
            hadmissible
      simp [apply, hrefused, hadmissible]

theorem StepHistory.Recorded.after_iff (hrec : h.Recorded) (call : StepCall) :
    (h.after call).Recorded ↔ call.Keeps h.step := by
  rw [StepCall.keeps_iff]
  unfold after
  split
  next hok =>
    obtain ⟨step, failure, ended, retries⟩ := h
    rw [recorded_iff] at hrec ⊢
    dsimp only at hrec hok ⊢
    obtain ⟨rfl, hcause, rfl, hterminal, hattempt⟩ := hrec
    -- a step without a finish time has not failed
    have hopen : step.finishedAt = none → step.error = none ∧ step.status ≠ .failed := by
      intro hnone
      have hne : step.status ≠ .failed := by
        intro heq
        rw [hnone, heq] at hterminal
        cases hterminal
      exact ⟨hcause hne, hne⟩
    cases call with
    | transitionTo next at_ =>
      rw [StepCall.apply, RunStep.transitionTo] at hok ⊢
      cases hnext : step.status.transitionTo next with
      | error e =>
        rw [hnext] at hok
        cases hok
      | ok u =>
        have hstay : step.status.isTerminal = true → next = step.status :=
          fun hs => stepTransition_of_terminal hs hnext
        cases hfin : step.finishedAt with
        | none =>
          simp_all
          split <;> simp_all
        | some t =>
          simp_all
          -- only a failed step has an error to lose
          by_cases hfailed : step.status = .failed
          · simp [hfailed, isTerminal, eq_comm]
          · simp [hfailed, hcause hfailed]
    | fail failure at_ =>
      rw [StepCall.apply] at hok ⊢
      obtain ⟨hnext, r, heq⟩ := RunStep.fail_ok hok
      rw [heq]
      cases hfin : step.finishedAt with
      | none =>
        simp_all
        rfl
      | some t =>
        rw [hfin] at hterminal
        have hstay := stepTransition_of_terminal hterminal.symm hnext
        cases step.error <;> simp [and_comm, hattempt, ← hstay, isTerminal]
    | retry =>
      rw [StepCall.apply, RunStep.retry] at hok ⊢
      split at hok
      · cases hok
      next hfailed =>
        split at hok
        next hlt =>
          rw [if_neg hfailed, if_pos hlt]
          refine iff_of_true ⟨rfl, fun _ => rfl, rfl, rfl, ?_⟩ fun _ hne => absurd rfl hne
          show (step.attempt + 1).toNat = 1 + (retries + 1)
          rw [UInt32.toNat_add]
          show (step.attempt.toNat + 1) % 2 ^ 32 = _
          omega
        · cases hok
  next herr =>
    rw [StepCall.apply_error herr]
    exact iff_of_true hrec fun _ _ => ⟨rfl, .inr rfl⟩

theorem allRecorded_iff (hrec : h.Recorded) (calls : List StepCall) :
    h.AllRecorded calls ↔ AllKeep h.step calls := by
  induction calls generalizing h with
  | nil => exact iff_of_true hrec trivial
  | cons call calls ih =>
    rw [StepHistory.AllRecorded, AllKeep, ← hrec.after_iff call, ← h.after_step call]
    constructor
    · rintro ⟨-, -, hrest⟩
      have hnext : (h.after call).Recorded := by
        cases calls with
        | nil => exact hrest
        | cons call' calls' => exact hrest.1
      exact ⟨hnext, (ih hnext).mp hrest⟩
    · rintro ⟨hnext, hrest⟩
      refine ⟨hrec, fun herr => ?_, (ih hnext).mpr hrest⟩
      rw [h.after_step call, StepCall.apply_error herr]

/-- **When a step keeps the record of its calls.** All along a sequence of calls error, finish
time and attempts are those of the calls, and a refused call changes nothing, if and only if no
call tells a failed step of another failure than the one it has. -/
theorem step_record_iff {input : NewRunStep} {at_ : Timestamp} {step : RunStep}
    (hcreate : RunStep.create input at_ = .ok step) (calls : List StepCall) :
    StepHistory.AllRecorded { step } calls ↔ AllKeep step calls := by
  replace hcreate := of_unit_bind (of_unit_bind hcreate)
  obtain rfl := pure_eq_ok.mp hcreate
  exact allRecorded_iff ⟨rfl, fun _ => rfl, rfl, rfl, rfl⟩ calls

def indexing : NewRunStep := ⟨⟨1⟩, ⟨1⟩, none, .system, []⟩

def timingOut : List StepCall :=
  [.transitionTo .ready 1, .transitionTo .running 2, .fail ⟨"timeout", "", true⟩ 3]

/-- A step that has failed is told once more that it has, and forgets why. -/
theorem second_failure_erases_error : ∃ step, RunStep.create indexing 0 = .ok step ∧
    ¬ StepHistory.AllRecorded { step } (timingOut ++ [.transitionTo .failed 4]) :=
  ⟨_, rfl, fun h => absurd h.2.2.2.2.2.2.2.2.error (by decide)⟩

theorem step_record_iff_one_failure : ∃ step, RunStep.create indexing 0 = .ok step ∧
    StepHistory.AllRecorded { step } timingOut :=
  have created : RunStep.create indexing 0 = .ok _ := rfl
  ⟨_, created, (step_record_iff created _).mpr ⟨nofun, nofun, nofun, trivial⟩⟩

end Vestrace.Run
