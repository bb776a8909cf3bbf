import Vestrace.Lib.Replay
import Vestrace.Run.AgentRun

/-!
# The event-sourced run — states, events and the reducer

The aggregate behind `RunCommandService` and `RunRecoveryService`: a `RunState` is
what replaying its `LegacyRunEvent`s gives. `apply` is the envelope check
(`validateEnvelope`) followed by one arm per event. `ExternalEffectSettled` has an unguarded arm so
that a late answer is accepted in every status, but the envelope check in front of it refuses every
event after a terminal one.
-/

namespace Vestrace.Legacy

open Lib Vestrace.Run RunStatus

/-! ## States and events -/

inductive RunActor where
  | principal (id : PrincipalId)
  | system (component : String)
  deriving DecidableEq, Repr

inductive RunCompletion where
  | succeeded (summary : Option String)
  | succeededWithWarnings (summary : String) (warnings : List String)
  | partial_ (summary : String) (remainingWork : List String)
  | failed (code message : String) (retryable : Bool)
  | cancelled (reason : Option String)
  | expired
  deriving DecidableEq, Repr

def RunCompletion.outcome : RunCompletion → RunStatus
  | .succeeded _ => .succeeded
  | .succeededWithWarnings .. => .succeededWithWarnings
  | .partial_ .. => .partial_
  | .failed .. => .failed
  | .cancelled _ => .cancelled
  | .expired => .expired

inductive RunWait where
  | input (requestId : RequestId) (prompt : String)
  | approval (approvalId : ApprovalRecordId)
  | job (jobId : JobId)
  | event (eventType : String) (correlationId : CorrelationId)
  | timer (resumeAt : Timestamp)
  deriving DecidableEq, Repr

structure RunStepState where
  id : RunStepId
  kind : String
  label : Option String
  status : RunStepStatus
  startedAt : Timestamp
  finishedAt : Option Timestamp
  deriving DecidableEq, Repr

structure RunState where
  id : AgentRunId
  workspaceId : WorkspaceId
  principalId : PrincipalId
  title : String
  status : RunStatus
  version : RunVersion
  activeStep : Option RunStepState
  wait : Option RunWait
  completion : Option RunCompletion
  createdAt : Timestamp
  startedAt : Option Timestamp
  updatedAt : Timestamp
  finishedAt : Option Timestamp
  deriving DecidableEq, Repr

inductive ReconciliationOutcome where
  | confirmed
  | notApplied
  | inconclusive
  | humanRequired
  deriving DecidableEq, Repr

inductive EvidenceStrength where
  | responseDigest
  | markerSearch
  | contentHash
  | etagVersion
  | operationStatus
  | externalResourceReadBack
  | providerIdempotencyLookup
  deriving DecidableEq, Repr

inductive LegacyRunEvent where
  | created (principalId : PrincipalId) (title : String)
  | prepared
  | started
  | stepStarted (stepId : RunStepId) (kind : String) (label : Option String)
  | stepSucceeded (stepId : RunStepId) (outputReferences : List String)
  | stepFailed (stepId : RunStepId) (code message : String) (retryable : Bool)
  | waitingForInput (requestId : RequestId) (prompt : String)
  | waitingForApproval (approvalId : ApprovalRecordId)
  | waitingForDependency (dependencyRunId : AgentRunId)
  | approvalGranted (approverId : PrincipalId)
  | resumed
  | succeeded (summary : Option String)
  | succeededWithWarnings (summary : String) (warnings : List String)
  | partialCompleted (summary : String) (remainingWork : List String)
  | failed (code message : String) (retryable : Bool)
  | cancelled (reason : Option String)
  | paused
  | expired
  | externalEffectSettled (effectId : ExternalEffectId)
      (receiptId : Option ExternalEffectReceiptId) (outcome : ReconciliationOutcome)
      (evidenceStrength : EvidenceStrength)
  deriving DecidableEq, Repr

def LegacyRunEvent.eventType : LegacyRunEvent → String
  | .created .. => "run.created"
  | .prepared => "run.prepared"
  | .started => "run.started"
  | .stepStarted .. => "step.started"
  | .stepSucceeded .. => "step.succeeded"
  | .stepFailed .. => "step.failed"
  | .waitingForInput .. => "run.waiting_for_input"
  | .waitingForApproval .. => "run.waiting_for_approval"
  | .waitingForDependency .. => "run.waiting_for_dependency"
  | .approvalGranted .. => "run.approval_granted"
  | .resumed => "run.resumed"
  | .succeeded .. => "run.succeeded"
  | .succeededWithWarnings .. => "run.succeeded_with_warnings"
  | .partialCompleted .. => "run.partial_completed"
  | .failed .. => "run.failed"
  | .cancelled .. => "run.cancelled"
  | .paused => "run.paused"
  | .expired => "run.expired"
  | .externalEffectSettled .. => "run.external_effect_settled"

def LegacyRunEvent.eventVersion (_ : LegacyRunEvent) : UInt16 := 1

structure LegacyRunEventEnvelope where
  eventId : RunEventId
  workspaceId : WorkspaceId
  runId : AgentRunId
  sequence : RunVersion
  eventType : String
  eventVersion : UInt16
  actor : RunActor
  causationId : OperationId
  correlationId : CorrelationId
  payload : LegacyRunEvent
  occurredAt : Timestamp
  recordedAt : Timestamp
  deriving DecidableEq, Repr

variable {s t state : RunState} {event : LegacyRunEventEnvelope} {at_ : Timestamp}
  {events : List LegacyRunEventEnvelope}

inductive RunReduceError where
  | missingCreatedEvent
  | duplicateCreatedEvent
  | versionOverflow
  | sequenceMismatch (expected actual : RunVersion)
  | workspaceMismatch (expected actual : WorkspaceId)
  | runMismatch (expected actual : AgentRunId)
  | eventTypeMismatch (expected actual : String)
  | unsupportedEventVersion (eventType : String) (version : UInt16)
  | eventAfterTerminal (status : RunStatus)
  | invalidTransition (status : RunStatus)
  deriving DecidableEq, Repr

/-! ## The reducer -/

def validateEnvelope (state : Option RunState) (event : LegacyRunEventEnvelope) :
    Except RunReduceError Unit := do
  refuse (event.eventType ≠ event.payload.eventType)
    (.eventTypeMismatch event.payload.eventType event.eventType)
  refuse (event.eventVersion ≠ event.payload.eventVersion)
    (.unsupportedEventVersion event.eventType event.eventVersion)
  match state with
  | none =>
    refuse (event.sequence ≠ .initial) (.sequenceMismatch .initial event.sequence)
  | some state => do
    refuse (state.workspaceId ≠ event.workspaceId)
      (.workspaceMismatch state.workspaceId event.workspaceId)
    refuse (state.id ≠ event.runId) (.runMismatch state.id event.runId)
    refuse (state.status.isTerminal) (.eventAfterTerminal state.status)
    let expected ← state.version.next.mapError fun _ => .versionOverflow
    refuse (event.sequence ≠ expected) (.sequenceMismatch expected event.sequence)

def applyFirst (event : LegacyRunEventEnvelope) : Except RunReduceError RunState :=
  match event.payload with
  | .created principalId title => .ok {
      id := event.runId
      workspaceId := event.workspaceId
      principalId := principalId
      title := title
      status := .created
      version := event.sequence
      activeStep := none
      wait := none
      completion := none
      createdAt := event.occurredAt
      startedAt := none
      updatedAt := event.occurredAt
      finishedAt := none }
  | _ => .error .missingCreatedEvent

section

variable (state : RunState)

def finish (status : RunStatus) (completion : RunCompletion) (at_ : Timestamp) : RunState :=
  { state with
    status := status, activeStep := none, wait := none, completion := some completion,
    finishedAt := some at_ }

def activeStepMatches (stepId : RunStepId) : Bool :=
  state.activeStep.any fun active => active.id == stepId

def RunState.Idle : Prop :=
  state.status = .running ∧ state.activeStep.isNone = true

instance : Decidable state.Idle := inferInstanceAs (Decidable (_ ∧ _))

/-- A match arm with a guard; the last arm of the match answers when it fails. -/
def guarded (c : Prop) [Decidable c] (state' : RunState) : Except RunReduceError RunState :=
  if c then .ok state' else .error (.invalidTransition state.status)

/-- The match of `apply_existing`; what it writes for every event afterwards is added by
`applyExisting`. -/
def react (event : LegacyRunEvent) (at_ : Timestamp) : Except RunReduceError RunState :=
  match event with
  | .created .. => .error .duplicateCreatedEvent
  | .prepared => guarded state (state.status = .created) { state with status := .preparing }
  | .started =>
    guarded state (state.status = .preparing)
      { state with status := .running, startedAt := some at_ }
  | .stepStarted stepId kind label =>
    guarded state state.Idle
      { state with activeStep := some ⟨stepId, kind, label, .running, at_, none⟩ }
  | .stepSucceeded stepId _ =>
    guarded state (state.status = .running ∧ activeStepMatches state stepId = true)
      { state with activeStep := none }
  | .stepFailed stepId _ _ _ =>
    guarded state (state.status = .running ∧ activeStepMatches state stepId = true)
      { state with activeStep := none }
  | .waitingForInput requestId prompt =>
    guarded state state.Idle
      { state with status := .waitingForInput, wait := some (.input requestId prompt) }
  | .waitingForApproval approvalId =>
    guarded state state.Idle
      { state with status := .waitingForApproval, wait := some (.approval approvalId) }
  | .waitingForDependency dependencyRunId =>
    guarded state state.Idle
      { state with
        status := .waitingForDependency
        wait := some (.event "run.succeeded" ⟨dependencyRunId.asUuid⟩) }
  | .approvalGranted _ =>
    guarded state (state.status = .waitingForApproval)
      { state with status := .running, wait := none }
  | .resumed =>
    guarded state (state.status.isWaiting = true ∨ state.status.canResume = true)
      { state with status := .running, wait := none }
  | .succeeded summary =>
    guarded state state.Idle (finish state .succeeded (.succeeded summary) at_)
  | .succeededWithWarnings summary warnings =>
    guarded state state.Idle
      (finish state .succeededWithWarnings (.succeededWithWarnings summary warnings) at_)
  | .partialCompleted summary remainingWork =>
    guarded state state.Idle (finish state .partial_ (.partial_ summary remainingWork) at_)
  | .failed code message retryable =>
    .ok (finish state .failed (.failed code message retryable) at_)
  | .cancelled reason => .ok (finish state .cancelled (.cancelled reason) at_)
  | .paused => guarded state (state.status.canPause = true) { state with status := .paused }
  | .expired =>
    guarded state (state.status.isWaiting = true) (finish state .expired .expired at_)
  | .externalEffectSettled .. => .ok state

def applyExisting (event : LegacyRunEventEnvelope) : Except RunReduceError RunState := do
  let state' ← react state event.payload event.occurredAt
  return { state' with version := event.sequence, updatedAt := event.occurredAt }

end

def apply (state : Option RunState) (event : LegacyRunEventEnvelope) :
    Except RunReduceError RunState := do
  validateEnvelope state event
  match state with
  | none => applyFirst event
  | some state => applyExisting state event

def replay (events : List LegacyRunEventEnvelope) : Except RunReduceError (Option RunState) :=
  replayFrom apply none events

/-! ## What an accepted event looks like -/

@[simp] theorem guarded_eq_ok {c : Prop} [Decidable c] : guarded state c s = .ok t ↔ c ∧ s = t := by
  by_cases h : c <;> simp [guarded, h]

/-- The type, version, identity and sequence an envelope must carry to extend `state`. -/
structure Fits (state : RunState) (event : LegacyRunEventEnvelope) : Prop where
  type : event.eventType = event.payload.eventType
  version : event.eventVersion = event.payload.eventVersion
  workspace : state.workspaceId = event.workspaceId
  run : state.id = event.runId
  sequence : state.version.next = .ok event.sequence

theorem validateEnvelope_some :
    validateEnvelope (some state) event = .ok () ↔
      Fits state event ∧ state.status.isTerminal = false := by
  simp only [validateEnvelope, bind_eq_ok, refuse_eq_ok, exists_const, not_not]
  constructor
  · rintro ⟨ht, hv, hw, hr, hterm, expected, hnext, hseq⟩
    rw [mapError_eq_ok] at hnext
    exact ⟨⟨ht, hv, hw, hr, hseq ▸ hnext⟩, by simpa using hterm⟩
  · rintro ⟨⟨ht, hv, hw, hr, hnext⟩, hterm⟩
    refine ⟨ht, hv, hw, hr, by simp [hterm], event.sequence, ?_, rfl⟩
    rw [mapError_eq_ok]
    exact hnext

theorem apply_some {state' : RunState} :
    apply (some state) event = .ok state' ↔
      Fits state event ∧ state.status.isTerminal = false ∧
        ∃ next, react state event.payload event.occurredAt = .ok next ∧
          { next with version := event.sequence, updatedAt := event.occurredAt } = state' := by
  simp only [apply, applyExisting, bind_eq_ok, pure_eq_ok]
  constructor
  · rintro ⟨_, henv, hrest⟩
    obtain ⟨hfits, hterm⟩ := validateEnvelope_some.mp henv
    exact ⟨hfits, hterm, hrest⟩
  · rintro ⟨hfits, hterm, hrest⟩
    exact ⟨(), validateEnvelope_some.mpr ⟨hfits, hterm⟩, hrest⟩

theorem apply_none :
    apply none event = .ok state ↔
      event.eventType = event.payload.eventType ∧
      event.eventVersion = event.payload.eventVersion ∧ event.sequence = .initial ∧
      applyFirst event = .ok state := by
  simp only [apply, validateEnvelope, bind_eq_ok, refuse_eq_ok, exists_const, not_not]
  constructor
  · rintro ⟨⟨ht, hv, hs⟩, hf⟩
    exact ⟨ht, hv, hs, hf⟩
  · rintro ⟨ht, hv, hs, hf⟩
    exact ⟨⟨ht, hv, hs⟩, hf⟩

/-! ## The representation invariant -/

/-- How a run ended: completion, finish time and terminal status come together, and
the completion names the status. -/
structure EndingInv (s : RunState) : Prop where
  terminal : s.completion.isSome = true ↔ s.status.isTerminal = true
  finished : s.completion.isSome = true ↔ s.finishedAt.isSome = true
  outcome : ∀ c, s.completion = some c → c.outcome = s.status

structure ActivityInv (s : RunState) : Prop where
  input : s.status = .waitingForInput → ∃ request prompt, s.wait = some (.input request prompt)
  approval : s.status = .waitingForApproval → ∃ approval, s.wait = some (.approval approval)
  dependency : s.status = .waitingForDependency → ∃ type id, s.wait = some (.event type id)
  waits : s.wait.isSome = true → s.status.isWaiting = true ∨ s.status = .paused
  step : ∀ step, s.activeStep = some step →
    (s.status = .running ∨ s.status = .paused) ∧ s.wait = none ∧ step.status = .running
  started : s.status = .running ∨ s.status.isWaiting = true ∨ s.status = .paused →
    s.startedAt.isSome = true
  /-- No event leads to `PausedPolicyChanged`. -/
  policy : s.status ≠ .pausedPolicyChanged

structure RunStateInv (s : RunState) : Prop extends EndingInv s, ActivityInv s

theorem EndingInv.none_of_open (h : EndingInv s) (hopen : s.status.isTerminal = false) :
    s.completion = none ∧ s.finishedAt = none := by
  have hc : ¬ s.completion.isSome = true := by
    rw [h.terminal, hopen]
    exact Bool.false_ne_true
  have hf : ¬ s.finishedAt.isSome = true := fun hf => hc (h.finished.mpr hf)
  exact ⟨by simpa using hc, by simpa using hf⟩

theorem endingInv_of_open (hc : s.completion = none) (hf : s.finishedAt = none)
    (hopen : s.status.isTerminal = false) : EndingInv s where
  terminal := by
    rw [hc, hopen]
    exact iff_of_false nofun nofun
  finished := by
    rw [hc, hf]
    exact iff_of_false nofun nofun
  outcome := by
    intro c hsome
    rw [hc] at hsome
    cases hsome

theorem finish_inv {status : RunStatus} {completion : RunCompletion}
    (hterm : status.isTerminal = true) (hout : completion.outcome = status) :
    RunStateInv (finish s status completion at_) := by
  have hne : ∀ {t : RunStatus}, t.isTerminal = false → status ≠ t := by
    intro t ht heq
    rw [heq, ht] at hterm
    cases hterm
  have hwait : ¬ status.isWaiting = true := by
    intro hw
    rw [isTerminal_of_isWaiting hw] at hterm
    cases hterm
  refine ⟨⟨iff_of_true rfl hterm, iff_of_true rfl rfl, ?_⟩, ?_⟩
  · intro c hc
    cases hc
    exact hout
  · refine ⟨fun h => absurd h (hne rfl), fun h => absurd h (hne rfl), fun h => absurd h (hne rfl),
      nofun, nofun, ?_, hne rfl⟩
    rintro (h | h | h)
    · exact absurd h (hne rfl)
    · exact absurd h hwait
    · exact absurd h (hne rfl)

theorem ActivityInv.wait_none (h : ActivityInv s) (hw : s.status.isWaiting = false)
    (hp : s.status ≠ .paused) : s.wait = none := by
  by_contra hsome
  rcases h.waits (by simpa [Option.isSome_iff_ne_none] using hsome) with hwait | hpaused
  · rw [hw] at hwait
    cases hwait
  · exact hp hpaused

theorem ActivityInv.step_none (h : ActivityInv s) (hr : s.status ≠ .running)
    (hp : s.status ≠ .paused) : s.activeStep = none := by
  cases hs : s.activeStep with
  | none => rfl
  | some step =>
    rcases (h.step step hs).1 with hrun | hpaused
    · exact absurd hrun hr
    · exact absurd hpaused hp

theorem activityInv_of_running (hs : s.status = .running) (hw : s.wait = none)
    (hstep : ∀ step, s.activeStep = some step → step.status = .running)
    (hstarted : s.startedAt.isSome = true) : ActivityInv s where
  input := by simp [hs]
  approval := by simp [hs]
  dependency := by simp [hs]
  waits := by simp [hw]
  step := fun step h => ⟨Or.inl hs, hw, hstep step h⟩
  started := fun _ => hstarted
  policy := by simp [hs]

/-- **One arm.** Every arm of the reducer keeps the invariant. -/
theorem react_inv {event : LegacyRunEvent} (h : RunStateInv s) (hr : react s event at_ = .ok t) :
    RunStateInv t := by
  have hopen : s.status.isTerminal = false → s.completion = none ∧ s.finishedAt = none :=
    h.toEndingInv.none_of_open
  -- what the arms guarded by `Running` start from
  have hrunning : s.status = .running → s.completion = none ∧ s.finishedAt = none ∧
      s.wait = none ∧ s.startedAt.isSome = true := by
    intro hs
    obtain ⟨hc, hf⟩ := hopen (by rw [hs]; rfl)
    exact ⟨hc, hf, h.toActivityInv.wait_none (by rw [hs]; rfl) (by simp [hs]), h.started (.inl hs)⟩
  cases event with
  | created => cases hr
  | prepared =>
    obtain ⟨hs, rfl⟩ := guarded_eq_ok.mp hr
    obtain ⟨hc, hf⟩ := hopen (by rw [hs]; rfl)
    have hw := h.toActivityInv.wait_none (by rw [hs]; rfl) (by simp [hs])
    have ha := h.toActivityInv.step_none (by simp [hs]) (by simp [hs])
    refine ⟨endingInv_of_open hc hf rfl, ⟨nofun, nofun, nofun, ?_, ?_, ?_, nofun⟩⟩
    · simp [hw]
    · simp [ha]
    · rintro (h | h | h) <;> cases h
  | started =>
    obtain ⟨hs, rfl⟩ := guarded_eq_ok.mp hr
    obtain ⟨hc, hf⟩ := hopen (by rw [hs]; rfl)
    have hw := h.toActivityInv.wait_none (by rw [hs]; rfl) (by simp [hs])
    have ha := h.toActivityInv.step_none (by simp [hs]) (by simp [hs])
    exact ⟨endingInv_of_open hc hf rfl, activityInv_of_running rfl hw (by simp [ha]) rfl⟩
  | stepStarted stepId kind label =>
    obtain ⟨⟨hs, -⟩, rfl⟩ := guarded_eq_ok.mp hr
    obtain ⟨hc, hf, hw, hst⟩ := hrunning hs
    refine ⟨endingInv_of_open hc hf (by rw [hs]; rfl), activityInv_of_running hs hw ?_ hst⟩
    intro step hstep
    cases hstep
    rfl
  | stepSucceeded | stepFailed =>
    obtain ⟨⟨hs, -⟩, rfl⟩ := guarded_eq_ok.mp hr
    obtain ⟨hc, hf, hw, hst⟩ := hrunning hs
    exact ⟨endingInv_of_open hc hf (by rw [hs]; rfl), activityInv_of_running hs hw nofun hst⟩
  | waitingForInput requestId prompt =>
    obtain ⟨⟨hs, ha⟩, rfl⟩ := guarded_eq_ok.mp hr
    obtain ⟨hc, hf, -, hst⟩ := hrunning hs
    rw [Option.isNone_iff_eq_none] at ha
    refine ⟨endingInv_of_open hc hf rfl, ⟨fun _ => ⟨requestId, prompt, rfl⟩, nofun, nofun,
      fun _ => .inl rfl, ?_, fun _ => hst, nofun⟩⟩
    simp [ha]
  | waitingForApproval approvalId =>
    obtain ⟨⟨hs, ha⟩, rfl⟩ := guarded_eq_ok.mp hr
    obtain ⟨hc, hf, -, hst⟩ := hrunning hs
    rw [Option.isNone_iff_eq_none] at ha
    refine ⟨endingInv_of_open hc hf rfl, ⟨nofun, fun _ => ⟨approvalId, rfl⟩, nofun,
      fun _ => .inl rfl, ?_, fun _ => hst, nofun⟩⟩
    simp [ha]
  | waitingForDependency dependencyRunId =>
    obtain ⟨⟨hs, ha⟩, rfl⟩ := guarded_eq_ok.mp hr
    obtain ⟨hc, hf, -, hst⟩ := hrunning hs
    rw [Option.isNone_iff_eq_none] at ha
    refine ⟨endingInv_of_open hc hf rfl, ⟨nofun, nofun, fun _ => ⟨_, _, rfl⟩,
      fun _ => .inl rfl, ?_, fun _ => hst, nofun⟩⟩
    simp [ha]
  | approvalGranted _ =>
    obtain ⟨hs, rfl⟩ := guarded_eq_ok.mp hr
    obtain ⟨hc, hf⟩ := hopen (by rw [hs]; rfl)
    have ha := h.toActivityInv.step_none (by simp [hs]) (by simp [hs])
    have hst := h.started (.inr (.inl (by rw [hs]; rfl)))
    exact ⟨endingInv_of_open hc hf rfl, activityInv_of_running rfl rfl (by simp [ha]) hst⟩
  | resumed =>
    obtain ⟨hs, rfl⟩ := guarded_eq_ok.mp hr
    -- `can_resume` also admits `PausedPolicyChanged`, which no state is in
    have hs' : s.status.isWaiting = true ∨ s.status = .paused :=
      hs.imp_right fun hres => (canResume_iff.mp hres).resolve_right h.policy
    have hterm : s.status.isTerminal = false := by
      rcases hs' with hw | hp
      · exact isTerminal_of_isWaiting hw
      · rw [hp]
        rfl
    obtain ⟨hc, hf⟩ := hopen hterm
    exact ⟨endingInv_of_open hc hf rfl, activityInv_of_running rfl rfl
      (fun step hstep => (h.step step hstep).2.2) (h.started (.inr hs'))⟩
  | succeeded | succeededWithWarnings | partialCompleted | expired =>
    obtain ⟨-, rfl⟩ := guarded_eq_ok.mp hr
    exact finish_inv rfl rfl
  | failed | cancelled =>
    cases hr
    exact finish_inv rfl rfl
  | paused =>
    obtain ⟨hs, rfl⟩ := guarded_eq_ok.mp hr
    obtain ⟨hc, hf⟩ := hopen (isTerminal_of_canPause hs)
    have hst := h.started ((canPause_iff.mp hs).imp_right .inl)
    refine ⟨endingInv_of_open hc hf rfl, ⟨nofun, nofun, nofun, fun _ => .inr rfl, ?_,
      fun _ => hst, nofun⟩⟩
    exact fun step hstep => ⟨.inr rfl, (h.step step hstep).2⟩
  | externalEffectSettled =>
    cases hr
    exact h

def RunState.identity (s : RunState) :
    AgentRunId × WorkspaceId × PrincipalId × String × Timestamp :=
  (s.id, s.workspaceId, s.principalId, s.title, s.createdAt)

theorem react_identity {event : LegacyRunEvent} (hr : react s event at_ = .ok t) :
    t.identity = s.identity := by
  cases event with
  | created => cases hr
  | failed | cancelled | externalEffectSettled => cases hr; rfl
  | _ =>
    -- every guarded arm writes other fields
    obtain ⟨-, rfl⟩ := guarded_eq_ok.mp hr
    rfl

theorem apply_identity {s' : RunState} (h : apply (some s) event = .ok s') :
    s'.identity = s.identity := by
  obtain ⟨-, -, next, hreact, rfl⟩ := apply_some.mp h
  show next.identity = s.identity
  exact react_identity hreact

private def Counted (events : List LegacyRunEventEnvelope) : Option RunState → Prop
  | none => events = []
  | some s => s.version.toNat = events.length ∧ RunStateInv s

private theorem apply_counted {state : Option RunState} {state' : RunState}
    (h : Counted events state) (ha : apply state event = .ok state') :
    Counted (events ++ [event]) (some state') := by
  cases state with
  | none =>
    have hnil : events = [] := h
    subst hnil
    obtain ⟨-, -, hseq, hfirst⟩ := apply_none.mp ha
    unfold applyFirst at hfirst
    split at hfirst
    next =>
      cases hfirst
      refine ⟨?_, endingInv_of_open rfl rfl rfl, ⟨nofun, nofun, nofun, nofun, nofun, ?_, nofun⟩⟩
      · rw [hseq]
        rfl
      · rintro (h | h | h) <;> cases h
    next => cases hfirst
  | some s =>
    obtain ⟨hver, hinv⟩ := h
    obtain ⟨hfits, -, next, hreact, rfl⟩ := apply_some.mp ha
    have hnext := RunVersion.next_eq_ok.mp hfits.sequence
    obtain ⟨⟨hterminal, hfinished, houtcome⟩, hactivity⟩ := react_inv hinv hreact
    refine ⟨?_, ⟨hterminal, hfinished, houtcome⟩, { hactivity with }⟩
    rw [List.length_append, List.length_singleton]
    show event.sequence.toNat = _
    omega

private theorem replay_counted {state : Option RunState} (h : replay events = .ok state) :
    Counted events state :=
  replayFrom_induction (motive := Counted) rfl (fun _ _ _ _ _ hm ha => apply_counted hm ha) h

theorem replay_version (h : replay events = .ok (some s)) : s.version.toNat = events.length :=
  (replay_counted h).1

/-- **The representation invariant** of every state an accepted stream replays to, the version
being the number of events; and no further accepted event changes what the run is. -/
theorem runState_inv {events : List LegacyRunEventEnvelope} {s : RunState}
    (h : replay events = .ok (some s)) :
    s.version.toNat = events.length ∧ RunStateInv s ∧
      ∀ event s', apply (some s) event = .ok s' → s'.identity = s.identity :=
  ⟨(replay_counted h).1, (replay_counted h).2, fun _ _ ha => apply_identity ha⟩

/-! A run that starts, starts a step and is paused in it. -/

def sampleEvent (sequence : UInt64) (payload : LegacyRunEvent) : LegacyRunEventEnvelope where
  eventId := ⟨0⟩
  workspaceId := ⟨1⟩
  runId := ⟨2⟩
  sequence := ⟨sequence⟩
  eventType := payload.eventType
  eventVersion := 1
  actor := .system "scheduler"
  causationId := ⟨3⟩
  correlationId := ⟨4⟩
  payload := payload
  occurredAt := 10 * sequence.toNat
  recordedAt := 10 * sequence.toNat

def pausedInStep : List LegacyRunEventEnvelope :=
  [sampleEvent 1 (.created ⟨7⟩ "report"), sampleEvent 2 .prepared, sampleEvent 3 .started,
    sampleEvent 4 (.stepStarted ⟨8⟩ "fetch" none), sampleEvent 5 .paused]

theorem runState_inv_paused :
    ∃ s, replay pausedInStep = .ok (some s) ∧ s.version.toNat = 5 ∧ RunStateInv s := by
  have hreplay : ∃ s, replay pausedInStep = .ok (some s) := ⟨_, rfl⟩
  obtain ⟨s, hs⟩ := hreplay
  obtain ⟨hversion, hinv, -⟩ := runState_inv hs
  exact ⟨s, hs, hversion, hinv⟩

/-! ## Late answers -/

def LegacyRunEvent.IsSettlement (event : LegacyRunEvent) : Prop :=
  ∃ effect receipt outcome evidence, event = .externalEffectSettled effect receipt outcome evidence

/-- **A late answer is recorded exactly while the run has not ended**: with it the stream replays,
to the same state but for version and update time, if and only if the state it is appended to is
not terminal. -/
theorem settled_accepted_iff {events : List LegacyRunEventEnvelope} {s : RunState}
    {event : LegacyRunEventEnvelope} (hreplay : replay events = .ok (some s))
    (hpayload : event.payload.IsSettlement) (hfits : Fits s event) :
    (∃ s', replay (events ++ [event]) = .ok (some s') ∧
      s' = { s with version := s'.version, updatedAt := s'.updatedAt }) ↔
    s.status.isTerminal = false := by
  obtain ⟨effect, receipt, outcome, evidence, hpay⟩ := hpayload
  have hreact : react s event.payload event.occurredAt = .ok s := by
    rw [hpay]
    rfl
  have hext : ∀ s', replay (events ++ [event]) = .ok (some s') ↔
      apply (some s) event = .ok s' := by
    intro s'
    rw [replay, replayFrom_append hreplay, replayFrom_singleton]
    constructor
    · rintro ⟨t, ht, heq⟩
      cases heq
      exact ht
    · exact fun ht => ⟨s', ht, rfl⟩
  constructor
  · rintro ⟨s', hs', -⟩
    exact (apply_some.mp ((hext s').mp hs')).2.1
  · intro hopen
    refine ⟨{ s with version := event.sequence, updatedAt := event.occurredAt }, ?_, rfl⟩
    exact (hext _).mpr (apply_some.mpr ⟨hfits, hopen, s, hreact, rfl⟩)

def settlement (sequence : UInt64) : LegacyRunEventEnvelope :=
  sampleEvent sequence (.externalEffectSettled ⟨9⟩ none .notApplied .operationStatus)

/-- A settlement of a run in progress is recorded. -/
theorem settled_accepted_iff_paused :
    ∃ s s', replay pausedInStep = .ok (some s) ∧
      replay (pausedInStep ++ [settlement 6]) = .ok (some s') ∧
      s' = { s with version := s'.version, updatedAt := s'.updatedAt } := by
  have hreplay : ∃ s, replay pausedInStep = .ok (some s) := ⟨_, rfl⟩
  obtain ⟨s, hs⟩ := hreplay
  have hsettle : (settlement 6).payload.IsSettlement := ⟨_, _, _, _, rfl⟩
  have hfits : Fits s (settlement 6) := by
    cases hs
    exact ⟨rfl, rfl, rfl, rfl, rfl⟩
  have hopen : s.status.isTerminal = false := by
    cases hs
    rfl
  obtain ⟨s', hs', hsame⟩ := (settled_accepted_iff hs hsettle hfits).mpr hopen
  exact ⟨s, s', hs, hs', hsame⟩

def cancelledRun : List LegacyRunEventEnvelope :=
  [sampleEvent 1 (.created ⟨7⟩ "report"), sampleEvent 2 (.cancelled none)]

/-- A run was cancelled while an effect was in flight; the answer that arrives
afterwards makes its history unreadable. -/
theorem settled_after_cancel_refused :
    (∃ s, replay cancelledRun = .ok (some s) ∧ Fits s (settlement 3) ∧
      (settlement 3).payload.IsSettlement) ∧
    replay (cancelledRun ++ [settlement 3]) = .error (.eventAfterTerminal .cancelled) :=
  ⟨⟨_, rfl, ⟨rfl, rfl, rfl, rfl, rfl⟩, ⟨_, _, _, _, rfl⟩⟩, rfl⟩

end Vestrace.Legacy
