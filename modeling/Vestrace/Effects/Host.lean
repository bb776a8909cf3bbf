import Vestrace.Effects.Candidates
import Vestrace.Run.Streams

/-!
# The calls of the effect services

Everything the services of external effects do outside their own process is a call: to the
repository, the streams of runs, the policy engine, an adapter, a read-back. What the calls meet
is the `Weather` of their moment. It is given in advance as a function of the number of calls
made so far and nothing is assumed of it, so a statement for every host is one for every
placement of a failure and every answer.
-/

namespace Vestrace.Effects

open Lib Vestrace.Legacy Vestrace.Security Function

/-- What a repository call can meet: it fails, or it commits and the caller is told that
it failed. -/
inductive Fault where
  | refused (message : String)
  | unacknowledged (message : String)
  deriving DecidableEq, Repr

variable {fault : Option Fault} {ctx : RequestContext} {runId : AgentRunId}

/-- Whether the database is there and its commit acknowledged, what is answered, which id is
drawn, what time it is. `preconditionDigest` is the digest of the preconditions as they are
then; no call asks for it. -/
structure Weather where
  fault : Option Fault
  uuid : Uuid
  now : Timestamp
  decision : AppResult PolicyDecision
  dispatched : Except AdapterError AdapterDispatchResult
  observed : AppResult (List ObservedEffectState)
  preconditionDigest : String

structure EffectsHost where
  tables : EffectTables
  /-- The streams of the runs of each workspace. -/
  runs : WorkspaceId → AgentRunId → Run.RunDb
  /-- What was sent out, in order. -/
  dispatched : List ExternalEffectIntent
  weather : ℕ → Weather
  /-- How many calls have been made. -/
  tick : ℕ

inductive EffectCall where
  | newId
  | evaluate (context : RequestContext) (request : AuthorizationRequest)
  | dispatch (intent : ExternalEffectIntent)
  | observe (intent : ExternalEffectIntent) (receipt : Option ExternalEffectReceipt)
  | insertIntent (context : RequestContext) (intent : ExternalEffectIntent)
  | recordAuthorization (context : RequestContext) (effectId : ExternalEffectId)
      (decision : PolicyDecision)
  | recordDispatchStarted (context : RequestContext) (effectId : ExternalEffectId)
      (owner : WorkerId) (expiresAt recordedAt : Timestamp)
  | insertReceipt (context : RequestContext) (receipt : ExternalEffectReceipt)
  | findReconciliationCandidates (context : RequestContext) (cutoffs : Cutoffs) (limit : UInt32)
  | adoptLostDispatch (context : RequestContext) (effectId : ExternalEffectId)
      (dispatchId : ExternalEffectLifecycleTransitionId) (recordedAt : Timestamp)
  | recordFailedRecoveryAttempt (context : RequestContext) (effectId : ExternalEffectId)
      (attemptedAt : Timestamp) (failureReason : String)
  | insertReconciliation (context : RequestContext) (reconciliation : ExternalReconciliation)
  | findUndeliveredOutcomes (context : RequestContext) (limit : UInt32)
  | markOutcomeDelivered (context : RequestContext) (reconciliationId : ExternalReconciliationId)
      (at_ : Timestamp)
  | loadStreamHead (context : RequestContext) (runId : AgentRunId)
  | appendEvents (context : RequestContext) (runId : AgentRunId) (head : Run.RunVersion)
      (events : List LegacyRunEventEnvelope)
  | recordWorkerPresence (context : RequestContext) (workerId : WorkerId)
      (startedAt lastReportedAt : Timestamp)
  | clearWorkerPresence (context : RequestContext) (workerId : WorkerId) (stoppedAt : Timestamp)

def EffectCall.Answer : EffectCall → Type
  | .newId => Uuid
  | .evaluate .. => AppResult PolicyDecision
  | .dispatch .. => Except AdapterError AdapterDispatchResult
  | .observe .. => AppResult (List ObservedEffectState)
  | .insertIntent .. | .recordAuthorization .. | .insertReceipt .. => AppResult Unit
  | .recordDispatchStarted .. => AppResult ExternalEffectLifecycleTransitionId
  | .findReconciliationCandidates .. =>
    AppResult (List ExternalEffectRecoveryCandidate)
  | .adoptLostDispatch .. => AppResult LostDispatchAdoption
  | .recordFailedRecoveryAttempt .. | .insertReconciliation .. => AppResult Unit
  | .findUndeliveredOutcomes .. => AppResult (List UndeliveredOutcome)
  | .markOutcomeDelivered .. => AppResult Unit
  | .loadStreamHead .. => AppResult (Option Run.RunVersion)
  | .appendEvents .. => AppResult Run.RunVersion
  | .recordWorkerPresence .. | .clearWorkerPresence .. => AppResult Unit

namespace EffectsHost

variable {α : Type}

def commit (host : EffectsHost) (t : EffectsHost → AppResult (α × EffectsHost))
    (fault : Option Fault) : AppResult α × EffectsHost :=
  match fault with
  | none => transact t host
  | some (.refused message) => (.error (.storage message), host)
  | some (.unacknowledged message) => (.error (.storage message), (transact t host).2)

def onTables (host : EffectsHost) (t : EffectTables → AppResult (α × EffectTables))
    (fault : Option Fault) : AppResult α × EffectsHost :=
  host.commit (fun host => do
    let (a, tables) ← t host.tables
    return (a, { host with tables })) fault

def onRun (host : EffectsHost) (context : RequestContext) (runId : AgentRunId)
    (t : Run.RunDb → AppResult (α × Run.RunDb)) (fault : Option Fault) :
    AppResult α × EffectsHost :=
  host.commit (fun host => do
    let (a, db) ← t (host.runs context.workspaceId runId)
    let runs := Function.update host.runs context.workspaceId
      (Function.update (host.runs context.workspaceId) runId db)
    return (a, { host with runs })) fault

def execIn (weather : Weather) : (call : EffectCall) → EffectsHost → call.Answer × EffectsHost
  | .newId, host => (weather.uuid, host)
  | .evaluate .., host => (weather.decision, host)
  | .dispatch intent, host =>
    (weather.dispatched, { host with dispatched := host.dispatched ++ [intent] })
  | .observe .., host => (weather.observed, host)
  | .insertIntent context intent, host =>
    host.onTables (fun t => t.insertIntent context intent weather.uuid) weather.fault
  | .recordAuthorization context effectId decision, host =>
    host.onTables (fun t => t.recordAuthorization context effectId decision weather.uuid)
      weather.fault
  | .recordDispatchStarted context effectId owner expiresAt recordedAt, host =>
    host.onTables (fun t => t.recordDispatchStarted context effectId owner expiresAt recordedAt
      weather.uuid) weather.fault
  | .insertReceipt context receipt, host =>
    host.onTables (fun t => t.insertReceipt context receipt weather.now weather.uuid) weather.fault
  | .findReconciliationCandidates context cutoffs limit, host =>
    host.onTables (fun t => .ok (t.findReconciliationCandidates cutoffs context limit, t))
      weather.fault
  | .adoptLostDispatch context effectId dispatchId recordedAt, host =>
    host.onTables (fun t => t.adoptLostDispatch context effectId dispatchId recordedAt
      weather.uuid) weather.fault
  | .recordFailedRecoveryAttempt context effectId attemptedAt failureReason, host =>
    host.onTables (fun t => t.recordFailedRecoveryAttempt context effectId attemptedAt
      failureReason weather.uuid) weather.fault
  | .insertReconciliation context reconciliation, host =>
    host.onTables (fun t => t.insertReconciliation context reconciliation weather.uuid)
      weather.fault
  | .findUndeliveredOutcomes context limit, host =>
    host.onTables (fun t => .ok (t.findUndeliveredOutcomes context limit, t)) weather.fault
  | .markOutcomeDelivered context reconciliationId at_, host =>
    host.onTables (fun t => t.markOutcomeDelivered context reconciliationId at_ weather.uuid)
      weather.fault
  | .loadStreamHead context runId, host =>
    host.onRun context runId (fun db => .ok (db.streamVersion, db)) weather.fault
  | .appendEvents context runId head events, host =>
    host.onRun context runId (fun db => db.append context runId head events) weather.fault
  | .recordWorkerPresence context workerId startedAt lastReportedAt, host =>
    host.onTables (fun t => t.recordWorkerPresence context workerId startedAt lastReportedAt)
      weather.fault
  | .clearWorkerPresence context workerId stoppedAt, host =>
    host.onTables (fun t => t.clearWorkerPresence context workerId stoppedAt) weather.fault

def exec (call : EffectCall) (host : EffectsHost) : call.Answer × EffectsHost :=
  execIn (host.weather host.tick) call { host with tick := host.tick + 1 }

end EffectsHost

@[reducible] def effectPorts : Ports EffectsHost :=
  ⟨EffectCall, EffectCall.Answer, EffectsHost.exec⟩

abbrev EffectProg := Prog effectPorts

def ask {ε : Type} (call : EffectCall) : EffectProg ε call.Answer :=
  Prog.perform (P := effectPorts) call

/-! ## What a call can do to the tables -/

namespace EffectsHost

variable {α : Type} {host : EffectsHost}
  {t : EffectTables → AppResult (α × EffectTables)} {Q : EffectsHost → Prop}

theorem commit_state {t : EffectsHost → AppResult (α × EffectsHost)} (h : Q host)
    (hok : ∀ a next, t host = .ok (a, next) → Q next) : Q (host.commit t fault).2 := by
  unfold commit
  split
  · exact transact_state h hok
  · exact h
  · exact transact_state h hok

theorem onTables_state (h : Q host)
    (hok : ∀ a tables, t host.tables = .ok (a, tables) → Q { host with tables }) :
    Q (host.onTables t fault).2 := by
  refine commit_state h fun a next hnext => ?_
  obtain ⟨_, ht, hret⟩ := bind_eq_ok.mp hnext
  cases pure_eq_ok.mp hret
  exact hok _ _ ht

theorem onTables_tables {Q : EffectTables → Prop} (h : Q host.tables)
    (hok : ∀ a tables, t host.tables = .ok (a, tables) → Q tables) :
    Q (host.onTables t fault).2.tables :=
  onTables_state (Q := fun next => Q next.tables) h hok

/-- A transaction sends nothing out. -/
theorem onTables_dispatched : (host.onTables t fault).2.dispatched = host.dispatched :=
  onTables_state (Q := fun next => next.dispatched = host.dispatched) rfl fun _ _ _ => rfl

theorem onTables_runs : (host.onTables t fault).2.runs = host.runs :=
  onTables_state (Q := fun next => next.runs = host.runs) rfl fun _ _ _ => rfl

/-- An acknowledged transaction has been committed. -/
theorem onTables_ok {a : α} (h : (host.onTables t fault).1 = .ok a) :
    t host.tables = .ok (a, (host.onTables t fault).2.tables) := by
  match fault with
  | some (.refused _) => cases h
  | some (.unacknowledged _) => cases h
  | none =>
    have hpair : transact (fun host : EffectsHost => do
        let (a, tables) ← t host.tables
        return (a, { host with tables })) host = (.ok a, (host.onTables t none).2) :=
      Prod.ext h rfl
    obtain ⟨⟨a', tables⟩, ht, hret⟩ := bind_eq_ok.mp (transact_ok.mp hpair)
    have hsame := pure_eq_ok.mp hret
    rw [Prod.mk.injEq] at hsame
    obtain ⟨rfl, hhost⟩ := hsame
    rw [ht, ← hhost]

section

variable {t : Run.RunDb → AppResult (α × Run.RunDb)}

theorem onRun_state {Q : EffectsHost → Prop} (h : Q host)
    (hok : ∀ a db, t (host.runs ctx.workspaceId runId) = .ok (a, db) →
      Q { host with
        runs := update host.runs ctx.workspaceId
          (update (host.runs ctx.workspaceId) runId db) }) :
    Q (host.onRun ctx runId t fault).2 := by
  refine commit_state h fun a next hnext => ?_
  obtain ⟨_, ht, hret⟩ := bind_eq_ok.mp hnext
  cases pure_eq_ok.mp hret
  exact hok _ _ ht

theorem onRun_dispatched : (host.onRun ctx runId t fault).2.dispatched = host.dispatched :=
  onRun_state (Q := fun next => next.dispatched = host.dispatched) rfl fun _ _ _ => rfl

theorem onRun_tables : (host.onRun ctx runId t fault).2.tables = host.tables :=
  onRun_state (Q := fun next => next.tables = host.tables) rfl fun _ _ _ => rfl

theorem onRun_runs {ws : WorkspaceId}
    {run : AgentRunId} {Q : Run.RunDb → Prop} (h : Q (host.runs ws run))
    (hok : ctx.workspaceId = ws → runId = run → ∀ a db, t (host.runs ws run) = .ok (a, db) →
      Q db) : Q ((host.onRun ctx runId t fault).2.runs ws run) := by
  refine onRun_state (Q := fun next => Q (next.runs ws run)) h fun a db ht => ?_
  show Q (update host.runs ctx.workspaceId
    (update (host.runs ctx.workspaceId) runId db) ws run)
  by_cases hws : ctx.workspaceId = ws
  · subst hws
    rw [update_self]
    by_cases hrun : runId = run
    · subst hrun
      rw [update_self]
      exact hok rfl rfl _ db ht
    · rw [update_of_ne (Ne.symm hrun)]
      exact h
  · rw [update_of_ne (Ne.symm hws)]
    exact h

end

theorem onTables_failsWith
    {E : ApplicationError → Prop} (hstorage : ∀ message, E (.storage message))
    (ht : FailsWith E (t host.tables)) : FailsWith E (host.onTables t fault).1 := by
  match fault with
  | some (.refused message) | some (.unacknowledged message) =>
    intro e he
    cases he
    exact hstorage message
  | none =>
    intro e he
    refine ht e ?_
    cases htables : t host.tables <;>
      simp only [onTables, commit, transact, htables, bind, Except.bind, pure, Except.pure] at he
    · exact congrArg Except.error (Except.error.inj he)
    · cases he

end EffectsHost

end Vestrace.Effects
