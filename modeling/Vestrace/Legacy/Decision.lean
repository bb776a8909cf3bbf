import Vestrace.Legacy.Reducer

/-!
# Decisions — every decided event is one the reducer accepts

`decide` and `apply` are two match tables written apart: `decide` guards a command, `apply`
guards the event the command becomes, and `RunCommandService::execute` wraps the one into an
envelope for the other. `decideEvent_react` runs the two tables against each other, arm by arm.
-/

namespace Vestrace.Legacy

open Lib Vestrace.Run

inductive RunCommand where
  | create (principalId : PrincipalId) (title : String)
  | prepare
  | start
  | startStep (stepId : RunStepId) (kind : String) (label : Option String)
  | completeStep (stepId : RunStepId) (outputReferences : List String)
  | failStep (stepId : RunStepId) (code message : String) (retryable : Bool)
  | waitForInput (requestId : RequestId) (prompt : String)
  | waitForApproval (approvalId : ApprovalRecordId)
  | waitForDependency (dependencyRunId : AgentRunId)
  | approve (approverId : PrincipalId)
  | resume
  | succeed (summary : Option String)
  | succeedWithWarnings (summary : String) (warnings : List String)
  | partialComplete (summary : String) (remainingWork : List String)
  | fail (code message : String) (retryable : Bool)
  | cancel (reason : Option String)
  | pause
  | expire
  deriving DecidableEq, Repr

structure RunCommandEnvelope where
  commandId : OperationId
  idempotencyKey : Option String
  workspaceId : WorkspaceId
  runId : AgentRunId
  actor : RunActor
  expectedVersion : RunVersion
  correlationId : CorrelationId
  issuedAt : Timestamp
  command : RunCommand
  deriving DecidableEq, Repr

structure PendingRunEvent where
  event : LegacyRunEvent
  occurredAt : Timestamp
  deriving DecidableEq, Repr

inductive RunDecisionError where
  | alreadyExists
  | missingState
  | versionConflict (expected actual : RunVersion)
  | invalidCommand (message : String)
  | invalidTransition (status : RunStatus)
  deriving DecidableEq, Repr

def requiredText (value field : String) : Except RunDecisionError String :=
  if (Str.trim value).toList.isEmpty then .error (.invalidCommand (field ++ " is required"))
  else .ok (Str.trim value)

def optionalText (value : Option String) : Option String :=
  (value.map Str.trim).filter fun text => !text.toList.isEmpty

def requireActiveStep (state : RunState) (requestedStep : RunStepId) :
    Except RunDecisionError Unit := do
  let activeStep ← okOr state.activeStep (.invalidTransition state.status)
  refuse (activeStep.id ≠ requestedStep)
    (.invalidCommand "step id does not match the active step")

/-- A match arm with a guard; the last arm of the match answers when it fails. -/
def whenGuard (state : RunState) (c : Prop) [Decidable c]
    (event : Except RunDecisionError LegacyRunEvent) : Except RunDecisionError LegacyRunEvent :=
  if c then event else .error (.invalidTransition state.status)

def decideEvent (state : RunState) (command : RunCommand) :
    Except RunDecisionError LegacyRunEvent :=
  match command with
  | .prepare => whenGuard state (state.status = .created) (.ok .prepared)
  | .start => whenGuard state (state.status = .preparing) (.ok .started)
  | .startStep stepId kind label => whenGuard state state.Idle do
    return .stepStarted stepId (← requiredText kind "step kind") (optionalText label)
  | .completeStep stepId outputReferences => whenGuard state (state.status = .running) do
    requireActiveStep state stepId
    return .stepSucceeded stepId outputReferences
  | .failStep stepId code message retryable => whenGuard state (state.status = .running) do
    requireActiveStep state stepId
    return .stepFailed stepId (← requiredText code "step failure code")
      (← requiredText message "step failure message") retryable
  | .waitForInput requestId prompt => whenGuard state state.Idle do
    return .waitingForInput requestId (← requiredText prompt "input prompt")
  | .waitForApproval approvalId => whenGuard state state.Idle (.ok (.waitingForApproval approvalId))
  | .waitForDependency dependencyRunId =>
    whenGuard state state.Idle (.ok (.waitingForDependency dependencyRunId))
  | .approve approverId =>
    whenGuard state (state.status = .waitingForApproval) (.ok (.approvalGranted approverId))
  | .resume =>
    whenGuard state (state.status.isWaiting = true ∨ state.status.canResume = true) (.ok .resumed)
  | .succeed summary => whenGuard state state.Idle (.ok (.succeeded (optionalText summary)))
  | .succeedWithWarnings summary warnings => whenGuard state state.Idle do
    return .succeededWithWarnings (← requiredText summary "summary") warnings
  | .partialComplete summary remainingWork => whenGuard state state.Idle do
    return .partialCompleted (← requiredText summary "summary") remainingWork
  | .fail code message retryable => do
    return .failed (← requiredText code "run failure code")
      (← requiredText message "run failure message") retryable
  | .cancel reason => .ok (.cancelled (optionalText reason))
  | .pause => whenGuard state (state.status.canPause = true) (.ok .paused)
  | .expire => whenGuard state (state.status.isWaiting = true) (.ok .expired)
  | .create .. => .error .alreadyExists

def one (event : LegacyRunEvent) (command : RunCommandEnvelope) : List PendingRunEvent :=
  [⟨event, command.issuedAt⟩]

def decideExisting (state : RunState) (envelope : RunCommandEnvelope) :
    Except RunDecisionError (List PendingRunEvent) := do
  refuse (state.workspaceId ≠ envelope.workspaceId)
    (.invalidCommand "command workspace does not match run")
  refuse (state.id ≠ envelope.runId) (.invalidCommand "command run id does not match aggregate")
  refuse (state.status.isTerminal) (.invalidTransition state.status)
  let event ← decideEvent state envelope.command
  return one event envelope

def decide (state : Option RunState) (command : RunCommandEnvelope) :
    Except RunDecisionError (List PendingRunEvent) :=
  match command.command with
  | .create principalId title => do
    refuse (state.isSome) .alreadyExists
    refuse (command.expectedVersion ≠ .zero) (.versionConflict command.expectedVersion .zero)
    return one (.created principalId (← requiredText title "run title")) command
  | _ => do
    let actualVersion := (state.map (·.version)).getD .zero
    refuse (command.expectedVersion ≠ actualVersion)
      (.versionConflict command.expectedVersion actualVersion)
    match state with
    | none => throw .missingState
    | some state => decideExisting state command

/-! ## How `execute` wraps a decision -/

def databaseTimestamp (t : Timestamp) : Timestamp := t - t % 1000000000 % 1000

/-- The wrapping loop of `RunCommandService::execute`: sequences are counted up from the command's
expected version; event ids and `recordedAt` are the environment's. -/
def wrapEvents (command : RunCommandEnvelope) (freshId : RunVersion → RunEventId)
    (recordedAt : Timestamp) : RunVersion → List PendingRunEvent →
      Except DomainError (List LegacyRunEventEnvelope)
  | _, [] => .ok []
  | sequence, pending :: rest => do
    let sequence ← sequence.next
    let envelopes ← wrapEvents command freshId recordedAt sequence rest
    return {
      eventId := freshId sequence
      workspaceId := command.workspaceId
      runId := command.runId
      sequence := sequence
      eventType := pending.event.eventType
      eventVersion := pending.event.eventVersion
      actor := command.actor
      causationId := command.commandId
      correlationId := command.correlationId
      payload := pending.event
      occurredAt := databaseTimestamp pending.occurredAt
      recordedAt := databaseTimestamp recordedAt } :: envelopes

/-! ## The two tables against each other -/

variable {state : RunState} {c : Prop}

@[simp] theorem whenGuard_eq_ok [Decidable c] {event : Except RunDecisionError LegacyRunEvent}
    {e : LegacyRunEvent} : whenGuard state c event = .ok e ↔ c ∧ event = .ok e := by
  by_cases h : c <;> simp [whenGuard, h]

theorem requireActiveStep_ok {stepId : RunStepId}
    {u : Unit} (h : requireActiveStep state stepId = .ok u) :
    activeStepMatches state stepId = true := by
  simp only [requireActiveStep, bind_eq_ok, okOr_eq_ok, refuse_eq_ok, not_not] at h
  obtain ⟨active, hactive, hid⟩ := h
  simp [activeStepMatches, hactive, hid]

theorem guarded_pos {next : RunState} [Decidable c] (h : c) :
    ∃ t, guarded state c next = .ok t := ⟨next, guarded_eq_ok.mpr ⟨h, rfl⟩⟩

/-- **The reducer has an arm for every decision.** Whatever a command is decided to
become, the reducer's own guard for that event holds in the same state. -/
theorem decideEvent_react {command : RunCommand} {event : LegacyRunEvent}
    (h : decideEvent state command = .ok event) (at_ : Timestamp) :
    ∃ next, react state event at_ = .ok next := by
  cases command with
  | create => cases h
  | prepare | start | waitForApproval | waitForDependency | approve | resume | succeed | pause
  | expire =>
    obtain ⟨hs, he⟩ := whenGuard_eq_ok.mp h
    cases he
    exact guarded_pos hs
  | startStep | waitForInput | succeedWithWarnings | partialComplete =>
    obtain ⟨hs, he⟩ := whenGuard_eq_ok.mp h
    obtain ⟨_, -, hev⟩ := bind_eq_ok.mp he
    cases hev
    exact guarded_pos hs
  | completeStep stepId outputReferences =>
    obtain ⟨hs, he⟩ := whenGuard_eq_ok.mp h
    obtain ⟨_, hactive, hev⟩ := bind_eq_ok.mp he
    cases hev
    exact guarded_pos ⟨hs, requireActiveStep_ok hactive⟩
  | failStep stepId code message retryable =>
    obtain ⟨hs, he⟩ := whenGuard_eq_ok.mp h
    obtain ⟨_, hactive, he⟩ := bind_eq_ok.mp he
    obtain ⟨_, -, he⟩ := bind_eq_ok.mp he
    obtain ⟨_, -, hev⟩ := bind_eq_ok.mp he
    cases hev
    exact guarded_pos ⟨hs, requireActiveStep_ok hactive⟩
  | fail code message retryable =>
    obtain ⟨_, -, he⟩ := bind_eq_ok.mp h
    obtain ⟨_, -, hev⟩ := bind_eq_ok.mp he
    cases hev
    exact ⟨_, rfl⟩
  | cancel reason =>
    cases h
    exact ⟨_, rfl⟩

theorem decide_ok {state : Option RunState} {command : RunCommandEnvelope}
    {pending : List PendingRunEvent} (h : decide state command = .ok pending) :
    ∃ event, pending = one event command ∧
      ((state = none ∧ command.expectedVersion = .zero ∧
        ∃ principal title, event = .created principal title) ∨
      ∃ s, state = some s ∧ command.expectedVersion = s.version ∧
        s.workspaceId = command.workspaceId ∧ s.id = command.runId ∧
        s.status.isTerminal = false ∧ decideEvent s command.command = .ok event) := by
  unfold decide at h
  split at h
  next principal title hcmd =>
    simp only [bind_eq_ok, refuse_eq_ok, exists_const, pure_eq_ok, not_not] at h
    obtain ⟨hnone, hzero, text, -, rfl⟩ := h
    refine ⟨_, rfl, Or.inl ⟨?_, hzero, principal, text, rfl⟩⟩
    simpa using hnone
  next hcmd =>
    simp only [bind_eq_ok, refuse_eq_ok, exists_const, not_not] at h
    obtain ⟨hver, h⟩ := h
    cases state with
    | none => cases h
    | some s =>
      simp only [decideExisting, bind_eq_ok, refuse_eq_ok, exists_const, pure_eq_ok, not_not] at h
      obtain ⟨hws, hid, hterm, event, hevent, rfl⟩ := h
      exact ⟨event, rfl, Or.inr ⟨s, rfl, hver, hws, hid, by simpa using hterm, hevent⟩⟩

/-- **Every decision is applicable**: what `execute` wraps for a command that `decide` accepts,
short of the last version, `apply` accepts one after another, and the extended stream replays to
that. -/
theorem decided_events_apply {events : List LegacyRunEventEnvelope} {state : Option RunState}
    {command : RunCommandEnvelope} {pending : List PendingRunEvent}
    (hreplay : replay events = .ok state) (hdecide : decide state command = .ok pending)
    (hroom : command.expectedVersion.toNat + 1 < 2 ^ 64) (freshId : RunVersion → RunEventId)
    (recordedAt : Timestamp) :
    ∃ envelopes final,
      wrapEvents command freshId recordedAt command.expectedVersion pending = .ok envelopes ∧
      envelopes ≠ [] ∧
      replayFrom apply state envelopes = .ok (some final) ∧
      replay (events ++ envelopes) = .ok (some final) := by
  obtain ⟨event, rfl, hcase⟩ := decide_ok hdecide
  obtain ⟨sequence, hseq⟩ : ∃ v, command.expectedVersion.next = .ok v := by
    refine ⟨⟨command.expectedVersion.value + 1⟩, ?_⟩
    rw [RunVersion.next, if_pos hroom]
  have hwrap : ∃ envelope,
      wrapEvents command freshId recordedAt command.expectedVersion (one event command) =
        .ok [envelope] ∧ envelope.payload = event ∧ envelope.eventType = event.eventType ∧
      envelope.eventVersion = event.eventVersion ∧ envelope.sequence = sequence ∧
      envelope.workspaceId = command.workspaceId ∧ envelope.runId = command.runId := by
    simp only [one, wrapEvents, hseq, ok_bind, pure_eq_ok]
    exact ⟨_, rfl, rfl, rfl, rfl, rfl, rfl, rfl⟩
  obtain ⟨envelope, hwrap, hpay, htype, hversion, hsequence, hws, hrun⟩ := hwrap
  have happly : ∃ final, apply state envelope = .ok final := by
    rcases hcase with ⟨rfl, hzero, principal, title, rfl⟩ | ⟨s, rfl, hver, hsw, hsr, hterm, hdec⟩
    · have hfirst : ∃ final, applyFirst envelope = .ok final := by
        rw [applyFirst, hpay]
        exact ⟨_, rfl⟩
      obtain ⟨final, hfinal⟩ := hfirst
      have hinitial : sequence = .initial := by
        rw [hzero] at hseq
        cases hseq
        rfl
      refine ⟨final, apply_none.mpr ⟨?_, ?_, hsequence.trans hinitial, hfinal⟩⟩
      · rw [htype, hpay]
      · rw [hversion, hpay]
    · obtain ⟨next, hnext⟩ := decideEvent_react hdec envelope.occurredAt
      rw [← hpay] at hnext
      refine ⟨_, apply_some.mpr ⟨⟨?_, ?_, ?_, ?_, ?_⟩, hterm, next, hnext, rfl⟩⟩
      · rw [htype, hpay]
      · rw [hversion, hpay]
      · rw [hsw, hws]
      · rw [hsr, hrun]
      · rw [hsequence, ← hver]
        exact hseq
  obtain ⟨final, hfinal⟩ := happly
  have hone : replayFrom apply state [envelope] = .ok (some final) :=
    replayFrom_singleton.mpr ⟨final, hfinal, rfl⟩
  refine ⟨[envelope], final, hwrap, nofun, hone, ?_⟩
  rw [replay, replayFrom_append hreplay]
  exact hone

def resumeCommand : RunCommandEnvelope where
  commandId := ⟨3⟩
  idempotencyKey := none
  workspaceId := ⟨1⟩
  runId := ⟨2⟩
  actor := .system "scheduler"
  expectedVersion := ⟨5⟩
  correlationId := ⟨4⟩
  issuedAt := 60
  command := .resume

/-- The run paused in its step is resumed. -/
theorem decided_events_apply_resume :
    ∃ s envelopes final, replay pausedInStep = .ok (some s) ∧
      wrapEvents resumeCommand (fun _ => ⟨0⟩) 61 ⟨5⟩ [⟨.resumed, 60⟩] = .ok envelopes ∧
      replay (pausedInStep ++ envelopes) = .ok (some final) := by
  have hreplay : ∃ s, replay pausedInStep = .ok (some s) := ⟨_, rfl⟩
  obtain ⟨s, hs⟩ := hreplay
  have hdecide : decide (some s) resumeCommand = .ok [⟨.resumed, 60⟩] := by
    cases hs
    rfl
  obtain ⟨envelopes, final, hwrap, -, -, hall⟩ :=
    decided_events_apply hs hdecide (by decide) (fun _ => ⟨0⟩) 61
  exact ⟨s, envelopes, final, hs, hwrap, hall⟩

end Vestrace.Legacy
