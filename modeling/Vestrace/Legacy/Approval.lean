import Vestrace.Legacy.Decision

/-!
# Approvals in the event-sourced run

`Approve` is decided from `WaitingForApproval` only, but it is not the only command that leaves
that status: `Resume` is decided from every waiting status, and pausing forgets which wait it was
that was paused.
-/

namespace Vestrace.Legacy

open Lib Vestrace.Run

/-- An approval has been asked for and not been granted since. -/
def awaitsApproval (events : List LegacyRunEventEnvelope) : Bool :=
  events.foldl (fun awaits event =>
    match event.payload with
    | .waitingForApproval _ => true
    | .approvalGranted _ => false
    | _ => awaits) false

theorem awaitsApproval_snoc (events : List LegacyRunEventEnvelope)
    (event : LegacyRunEventEnvelope) :
    awaitsApproval (events ++ [event]) =
      match event.payload with
      | .waitingForApproval _ => true
      | .approvalGranted _ => false
      | _ => awaitsApproval events := by
  rw [awaitsApproval, List.foldl_append]
  rfl

/-! ## `RunCommandService::execute` -/

inductive ExecuteError where
  | workspaceMismatch
  | principalMismatch
  | replay (error : RunReduceError)
  | decision (error : RunDecisionError)
  | noEvents
  | domain (error : DomainError)
  | reduce (error : RunReduceError)
  | commit
  deriving DecidableEq, Repr

/-- A command, the caller, and what the environment adds: ids, the clock, and whether the
committer stores the events. -/
structure IssuedCommand where
  context : RequestContext
  command : RunCommandEnvelope
  freshId : RunVersion → RunEventId
  recordedAt : Timestamp
  stored : Bool

def validateCommandContext (context : RequestContext) (command : RunCommandEnvelope) :
    Except ExecuteError Unit := do
  refuse (command.workspaceId ≠ context.workspaceId) .workspaceMismatch
  match command.actor with
  | .principal principalId => refuse (principalId ≠ context.principalId) .principalMismatch
  | .system _ => return ()

def execute (events : List LegacyRunEventEnvelope) (issued : IssuedCommand) :
    Except ExecuteError (List LegacyRunEventEnvelope) := do
  let command := issued.command
  validateCommandContext issued.context command
  let state ← (replay events).mapError .replay
  let pending ← (decide state command).mapError .decision
  refuse (pending.isEmpty) .noEvents
  let envelopes ← (wrapEvents command issued.freshId issued.recordedAt command.expectedVersion
    pending).mapError .domain
  let _ ← (replayFrom apply state envelopes).mapError .reduce
  refuse (issued.stored = false) .commit
  return events ++ envelopes

/-- The stream after a sequence of commands; one that is refused leaves it as it is. -/
def executeAll (events : List LegacyRunEventEnvelope) (commands : List IssuedCommand) :
    List LegacyRunEventEnvelope :=
  commands.foldl (fun events issued => (execute events issued).toOption.getD events) events

variable {events events' : List LegacyRunEventEnvelope} {issued : IssuedCommand} {s : RunState}
  {commands : List IssuedCommand}

theorem execute_ok (h : execute events issued = .ok events') :
    ∃ state event final, replay events = .ok state ∧ events' = events ++ [event] ∧
      apply state event = .ok final ∧ replay events' = .ok (some final) ∧
      ∀ s, state = some s → decideEvent s issued.command.command = .ok event.payload := by
  simp only [execute, bind_eq_ok, mapError_eq_ok, refuse_eq_ok, exists_const, pure_eq_ok] at h
  obtain ⟨_, -, state, hreplay, pending, hdecide, -, envelopes, hwrap, next, happly, -, rfl⟩ := h
  obtain ⟨decided, rfl, hcase⟩ := decide_ok hdecide
  simp only [one, wrapEvents, bind_eq_ok, pure_eq_ok] at hwrap
  obtain ⟨sequence, -, rest, hrest, rfl⟩ := hwrap
  cases hrest
  obtain ⟨final, hfinal, rfl⟩ := replayFrom_singleton.mp happly
  refine ⟨state, _, final, hreplay, rfl, hfinal, ?_, ?_⟩
  · rw [replay, replayFrom_append hreplay]
    exact replayFrom_singleton.mpr ⟨final, hfinal, rfl⟩
  · intro s hs
    rcases hcase with ⟨hnone, -⟩ | ⟨s', hs', -, -, -, -, hevent⟩
    · rw [hnone] at hs
      cases hs
    · rw [hs] at hs'
      cases hs'
      exact hevent

/-! ## Nothing but `Resume` -/

def Withheld (status : RunStatus) : Prop :=
  status = .waitingForApproval ∨ status = .paused ∨ status.isTerminal = true

theorem Withheld.not_running {status : RunStatus} (h : Withheld status) : status ≠ .running := by
  intro hrunning
  rw [hrunning] at h
  rcases h with h | h | h <;> cases h

theorem decideEvent_resumed {command : RunCommand}
    (h : decideEvent s command = .ok .resumed) : command = .resume := by
  cases command with
  | resume => rfl
  | create | cancel => cases h
  | fail code message retryable =>
    obtain ⟨_, -, h⟩ := bind_eq_ok.mp h
    obtain ⟨_, -, h⟩ := bind_eq_ok.mp h
    cases h
  | startStep | completeStep | waitForInput | succeedWithWarnings | partialComplete =>
    obtain ⟨_, -, h⟩ := bind_eq_ok.mp (whenGuard_eq_ok.mp h).2
    cases h
  | failStep =>
    obtain ⟨_, -, h⟩ := bind_eq_ok.mp (whenGuard_eq_ok.mp h).2
    obtain ⟨_, -, h⟩ := bind_eq_ok.mp h
    obtain ⟨_, -, h⟩ := bind_eq_ok.mp h
    cases h
  | _ => cases (whenGuard_eq_ok.mp h).2

theorem react_withheld {event : LegacyRunEvent}
    {s' : RunState} {at_ : Timestamp} (h : react s event at_ = .ok s')
    (hstatus : s.status = .waitingForApproval ∨ s.status = .paused)
    (happroved : ∀ approverId, event ≠ .approvalGranted approverId) (hresumed : event ≠ .resumed) :
    Withheld s'.status := by
  have hidle : ¬ s.Idle := by
    rintro ⟨hrunning, -⟩
    rw [hrunning] at hstatus
    rcases hstatus with hstatus | hstatus <;> cases hstatus
  have hstays : Withheld s.status := hstatus.imp_right .inl
  cases event with
  | created => cases h
  | prepared | started =>
    rw [(guarded_eq_ok.mp h).1] at hstatus
    rcases hstatus with hstatus | hstatus <;> cases hstatus
  | stepSucceeded | stepFailed =>
    rw [(guarded_eq_ok.mp h).1.1] at hstatus
    rcases hstatus with hstatus | hstatus <;> cases hstatus
  | approvalGranted approverId => exact absurd rfl (happroved approverId)
  | resumed => exact absurd rfl hresumed
  | failed | cancelled =>
    cases h
    exact .inr (.inr rfl)
  | paused =>
    obtain ⟨-, rfl⟩ := guarded_eq_ok.mp h
    exact .inr (.inl rfl)
  | expired =>
    obtain ⟨-, rfl⟩ := guarded_eq_ok.mp h
    exact .inr (.inr rfl)
  | externalEffectSettled =>
    cases h
    exact hstays
  | _ => exact absurd (guarded_eq_ok.mp h).1 hidle

def ApprovalKept (events : List LegacyRunEventEnvelope) : Prop :=
  ∃ state, replay events = .ok state ∧
    ∀ s, state = some s → awaitsApproval events = true → Withheld s.status

theorem approvalKept_nil : ApprovalKept [] := by
  refine ⟨none, rfl, fun s hs => ?_⟩
  cases hs

theorem ApprovalKept.execute (h : ApprovalKept events)
    (hresume : issued.command.command = .resume → awaitsApproval events = false)
    (hok : execute events issued = .ok events') : ApprovalKept events' := by
  obtain ⟨state, hreplay, hwithheld⟩ := h
  obtain ⟨state', event, final, hreplay', rfl, happly, hfinal, hdecided⟩ := execute_ok hok
  rw [hreplay] at hreplay'
  cases hreplay'
  refine ⟨some final, hfinal, fun s hs hawaits => ?_⟩
  cases hs
  rw [awaitsApproval_snoc] at hawaits
  cases state with
  | none =>
    have hnil : events = [] := replayFrom_none_eq_none hreplay
    obtain ⟨-, -, -, hfirst⟩ := apply_none.mp happly
    unfold applyFirst at hfirst
    split at hfirst
    next hpayload =>
      rw [hpayload, hnil] at hawaits
      cases hawaits
    next => cases hfirst
  | some s =>
    obtain ⟨-, hopen, next, hreact, rfl⟩ := apply_some.mp happly
    have hstays : awaitsApproval events = true →
        (∀ approverId, event.payload ≠ .approvalGranted approverId) → Withheld next.status := by
      intro hawaits' happroved
      refine react_withheld hreact ?_ happroved fun hresumed => ?_
      · rcases hwithheld s rfl hawaits' with hstatus | hstatus | hterminal
        · exact .inl hstatus
        · exact .inr hstatus
        · rw [hopen] at hterminal
          cases hterminal
      · have hcommand := decideEvent_resumed ((hdecided s rfl).trans (congrArg Except.ok hresumed))
        rw [hresume hcommand] at hawaits'
        cases hawaits'
    cases hpayload : event.payload with
    | waitingForApproval approvalId =>
      rw [hpayload] at hreact
      obtain ⟨-, rfl⟩ := guarded_eq_ok.mp hreact
      exact .inl rfl
    | approvalGranted approverId =>
      rw [hpayload] at hawaits
      cases hawaits
    | _ =>
      rw [hpayload] at hawaits
      refine hstays hawaits fun approverId => ?_
      rw [hpayload]
      nofun

def NoResume (events : List LegacyRunEventEnvelope) : List IssuedCommand → Prop
  | [] => True
  | issued :: commands =>
    (issued.command.command = .resume → awaitsApproval events = false) ∧
      NoResume ((execute events issued).toOption.getD events) commands

theorem approvalKept_executeAll (h : ApprovalKept events) (hresume : NoResume events commands) :
    ApprovalKept (executeAll events commands) := by
  induction commands generalizing events with
  | nil => exact h
  | cons issued commands ih =>
    refine ih ?_ hresume.2
    show ApprovalKept ((execute events issued).toOption.getD events)
    cases hok : execute events issued with
    | error e => exact h
    | ok events' => exact h.execute hresume.1 hok

/-- **Nothing but `Resume` gets round an approval**: as long as it is not issued while one is
pending, a run that is running has none pending. -/
theorem approval_kept (hresume : NoResume [] commands)
    (hreplay : replay (executeAll [] commands) = .ok (some s)) (hrunning : s.status = .running) :
    awaitsApproval (executeAll [] commands) = false := by
  obtain ⟨state, hstate, hwithheld⟩ := approvalKept_executeAll approvalKept_nil hresume
  rw [hreplay] at hstate
  cases hstate
  by_contra hawaits
  rw [Bool.not_eq_false] at hawaits
  exact (hwithheld s rfl hawaits).not_running hrunning

end Vestrace.Legacy
