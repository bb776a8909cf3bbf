import Mathlib.Data.List.MinMax
import Mathlib.Data.List.Sort
import Mathlib.Data.Prod.Lex
import Vestrace.Effects.Effect

/-!
# The tables of external effects

`PgExternalEffectRepository`: what each of its calls does to the tables of migrations
0127, 0144, 0151–0156, 0158 and 0159. A call is one transaction, so it is a function from
tables to tables that may fail. A row is the payload it carries; the indexed columns are read off
it, so the checks that compare the two on every read have nothing to find.

Row level security hides the rows of other workspaces from every `SELECT` and `UPDATE`, not from
the conflict check of an `INSERT`.
-/

namespace Vestrace.Effects

open Lib Vestrace.Legacy Vestrace.Security List

variable {effectId : ExternalEffectId} {recordedAt : Timestamp}

/-! ## Instants and texts as the database has them -/

/-- `TIMESTAMPTZ` keeps microseconds: an instant that is bound or stored is cut. -/
def pgTime (t : ℤ) : ℤ := t / 1000 * 1000

theorem pgTime_mono {t u : ℤ} (h : t ≤ u) : pgTime t ≤ pgTime u := by
  unfold pgTime
  omega

/-- A microsecond apart is apart. -/
theorem pgTime_lt {t u : ℤ} (h : t + 1000 ≤ u) : pgTime t < pgTime u := by
  unfold pgTime
  omega

def pgBlank (text : String) : Bool := text.toList.all (· == ' ')

/-! ## Rows -/

structure AuthorizationRow where
  effectId : ExternalEffectId
  workspaceId : WorkspaceId
  decision : PolicyDecision
  deriving DecidableEq, Repr

/-- Status, cause and reference, as `external_effect_lifecycle_cause_qualified` admits them.
Only rows older than migration 0154 lack an owner and a deadline. -/
inductive LifecycleEvent where
  | intentRecorded
  | authorizationRecorded (decision : PolicyDecisionId)
  | dispatchStarted (owner : Option WorkerId) (expiresAt : Option Timestamp)
  | receiptRecorded (status : EffectLifecycleStatus) (receipt : ExternalEffectReceiptId)
  | dispatchLost (dispatch : ExternalEffectLifecycleTransitionId)
  | outcomeSettled (reconciliation : ExternalReconciliationId)
  | outcomeDelivered (status : EffectLifecycleStatus) (reconciliation : ExternalReconciliationId)
  deriving DecidableEq, Repr

/-- `ordinal` is the position in `transitions`, newest last. -/
structure Transition where
  id : ExternalEffectLifecycleTransitionId
  effectId : ExternalEffectId
  workspaceId : WorkspaceId
  event : LifecycleEvent
  recordedAt : Timestamp
  deriving DecidableEq, Repr

structure ReceiptRow where
  receipt : ExternalEffectReceipt
  workspaceId : WorkspaceId
  createdAt : Timestamp
  deriving DecidableEq, Repr

structure ReconciliationRow where
  reconciliation : ExternalReconciliation
  workspaceId : WorkspaceId
  notifiedAt : Option Timestamp
  deriving DecidableEq, Repr

def ReconciliationRow.reconciledAt (row : ReconciliationRow) : Timestamp :=
  pgTime row.reconciliation.reconciledAt

def ReconciliationRow.settled (row : ReconciliationRow) : Bool :=
  isSettled row.reconciliation.outcome

structure RecoveryAttemptRow where
  id : Uuid
  effectId : ExternalEffectId
  workspaceId : WorkspaceId
  attemptedAt : Timestamp
  failureReason : String
  deriving DecidableEq, Repr

structure WorkerPresenceRow where
  workspaceId : WorkspaceId
  workerId : WorkerId
  startedAt : Timestamp
  lastReportedAt : Timestamp
  stoppedAt : Option Timestamp
  deriving DecidableEq, Repr

structure EffectTables where
  intents : List ExternalEffectIntent
  authorizations : List AuthorizationRow
  transitions : List Transition
  receipts : List ReceiptRow
  reconciliations : List ReconciliationRow
  attempts : List RecoveryAttemptRow
  presence : List WorkerPresenceRow
  deriving DecidableEq, Repr

/-- A settled outcome its run has not been told about. -/
structure UndeliveredOutcome where
  reconciliation : ExternalReconciliation
  intent : ExternalEffectIntent
  deriving DecidableEq, Repr

inductive LostDispatchAdoption where
  | adopted
  | alreadyAdopted
  deriving DecidableEq, Repr

def violated (constraint : String) : ApplicationError := .storage constraint

def verifyInsert {α : Type} [DecidableEq α] (existing : Option α) (expected : α)
    (message : String) : AppResult Unit :=
  match existing with
  | some existing => refuse (existing ≠ expected) (.conflict message)
  | none => .error (.storage "external-effect conflict row disappeared before verification")

namespace EffectTables

variable (tables : EffectTables) (context : RequestContext)

def findIntent (id : ExternalEffectId) : Option ExternalEffectIntent :=
  tables.intents.find? fun intent =>
    intent.id == id && intent.workspaceId == context.workspaceId

/-! The tables with one more row. -/

def addIntent (row : ExternalEffectIntent) : EffectTables :=
  { tables with intents := tables.intents ++ [row] }

def addAuthorization (row : AuthorizationRow) : EffectTables :=
  { tables with authorizations := tables.authorizations ++ [row] }

def push (row : Transition) : EffectTables :=
  { tables with transitions := tables.transitions ++ [row] }

def addReceipt (row : ReceiptRow) : EffectTables :=
  { tables with receipts := tables.receipts ++ [row] }

def addReconciliation (row : ReconciliationRow) : EffectTables :=
  { tables with reconciliations := tables.reconciliations ++ [row] }

def addAttempt (row : RecoveryAttemptRow) : EffectTables :=
  { tables with attempts := tables.attempts ++ [row] }

section

variable (effectId : ExternalEffectId)

def addTransition (event : LifecycleEvent) (recordedAt : Timestamp) (id : Uuid) :
    AppResult EffectTables := do
  refuse (tables.transitions.any fun row => row.id == ⟨id⟩)
    (violated "external_effect_lifecycle_transitions_pkey")
  return tables.push ⟨⟨id⟩, effectId, context.workspaceId, event, pgTime recordedAt⟩

def insertIntent (intent : ExternalEffectIntent) (transitionId : Uuid) :
    AppResult (Unit × EffectTables) := do
  refuse (intent.workspaceId ≠ context.workspaceId)
    (.policy "an external effect intent cannot be recorded into another workspace")
  refuse (pgBlank intent.adapter) (violated "external_effect_intents_adapter_not_blank")
  if tables.intents.any fun row => row.id == intent.id then
    verifyInsert (tables.findIntent context intent.id) intent
      ("external effect intent id " ++ intent.id.display ++ " already contains different evidence")
    return ((), tables)
  else
    let tables ← (tables.addIntent intent).addTransition context intent.id .intentRecorded
      intent.createdAt transitionId
    return ((), tables)

def recordAuthorization (decision : PolicyDecision) (transitionId : Uuid) :
    AppResult (Unit × EffectTables) := do
  refuse (decision.workspaceId ≠ context.workspaceId)
    (.policy "an external effect authorization cannot be recorded into another workspace")
  refuse ((tables.findIntent context effectId).isNone)
    (.storage "external effect authorization could not be recorded")
  refuse (tables.authorizations.any fun row => row.decision.id == decision.id)
    (violated "external_effect_authorizations_pkey")
  refuse (pgBlank decision.policyVersion)
    (violated "external_effect_authorizations_policy_version_not_blank")
  refuse (pgBlank decision.operation)
    (violated "external_effect_authorizations_operation_not_blank")
  refuse (pgBlank decision.resourceScope)
    (violated "external_effect_authorizations_scope_not_blank")
  let tables := tables.addAuthorization ⟨effectId, context.workspaceId, decision⟩
  if decision.isAllowed then
    let tables ← tables.addTransition context effectId (.authorizationRecorded decision.id)
      decision.decidedAt transitionId
    return ((), tables)
  else return ((), tables)

def recordDispatchStarted (owner : WorkerId) (expiresAt recordedAt : Timestamp)
    (transitionId : Uuid) : AppResult (ExternalEffectLifecycleTransitionId × EffectTables) := do
  refuse ((tables.findIntent context effectId).isNone)
    (.storage "external effect dispatch could not be recorded")
  let tables ← tables.addTransition context effectId
    (.dispatchStarted (some owner) (some (pgTime expiresAt))) recordedAt transitionId
  return (⟨transitionId⟩, tables)

def receiptStatus (status : EffectLifecycleStatus) : Bool :=
  status == .acknowledged || status == .failed || status == .unknown

def insertReceipt (receipt : ExternalEffectReceipt) (createdAt : Timestamp)
    (transitionId : Uuid) : AppResult (Unit × EffectTables) := do
  match tables.receipts.find? fun row => row.receipt.id == receipt.id with
  | some row =>
    verifyInsert (if row.workspaceId = context.workspaceId then some row.receipt else none) receipt
      ("external effect receipt id " ++ receipt.id.display ++
        " already contains different evidence")
    return ((), tables)
  | none =>
    refuse ((tables.findIntent context receipt.effectId).isNone)
      (violated "external_effect_receipts_effect_workspace_fk")
    refuse (receiptStatus receipt.outcomeStatus = false)
      (violated "external_effect_lifecycle_cause_qualified")
    let tables ← (tables.addReceipt ⟨receipt, context.workspaceId, pgTime createdAt⟩).addTransition
      context receipt.effectId (.receiptRecorded receipt.outcomeStatus receipt.id)
      receipt.recordedAt transitionId
    return ((), tables)

def adoptedAsLost (dispatchId : ExternalEffectLifecycleTransitionId) : Bool :=
  tables.transitions.any fun row => row.workspaceId == context.workspaceId &&
    row.effectId == effectId && row.event == .dispatchLost dispatchId

def isDispatching : LifecycleEvent → Bool
  | .dispatchStarted .. => true
  | _ => false

def adoptLostDispatch (dispatchId : ExternalEffectLifecycleTransitionId) (recordedAt : Timestamp)
    (transitionId : Uuid) : AppResult (LostDispatchAdoption × EffectTables) := do
  if tables.adoptedAsLost context effectId dispatchId then return (.alreadyAdopted, tables)
  let started := tables.transitions.any fun row => row.id == dispatchId &&
    row.effectId == effectId && row.workspaceId == context.workspaceId && isDispatching row.event
  refuse (started = false) (.storage "external effect dispatch could not be adopted")
  let tables ← tables.addTransition context effectId (.dispatchLost dispatchId) recordedAt
    transitionId
  return (.adopted, tables)

def recordFailedRecoveryAttempt (attemptedAt : Timestamp) (failureReason : String)
    (attemptId : Uuid) : AppResult (Unit × EffectTables) := do
  refuse ((tables.findIntent context effectId).isNone) (.storage "effect evidence not found")
  refuse (pgBlank failureReason) (violated "external_effect_recovery_attempt_reason_not_blank")
  refuse (tables.attempts.any fun row => row.id == attemptId)
    (violated "external_effect_recovery_attempts_pkey")
  return ((), tables.addAttempt
    ⟨attemptId, effectId, context.workspaceId, pgTime attemptedAt, failureReason⟩)

def insertReconciliation (reconciliation : ExternalReconciliation) (transitionId : Uuid) :
    AppResult (Unit × EffectTables) := do
  match tables.reconciliations.find? fun row => row.reconciliation.id == reconciliation.id with
  | some row =>
    verifyInsert (if row.workspaceId = context.workspaceId then some row.reconciliation else none)
      reconciliation ("external reconciliation id " ++ reconciliation.id.display ++
        " already contains different evidence")
    return ((), tables)
  | none =>
    refuse ((tables.findIntent context reconciliation.effectId).isNone)
      (violated "external_reconciliations_effect_workspace_fk")
    refuse (reconciliation.receiptId.any fun id => !tables.receipts.any fun row =>
        row.receipt.id == id && row.workspaceId == context.workspaceId)
      (violated "external_reconciliations_receipt_workspace_fk")
    let tables := tables.addReconciliation ⟨reconciliation, context.workspaceId, none⟩
    if isSettled reconciliation.outcome then
      let tables ← tables.addTransition context reconciliation.effectId
        (.outcomeSettled reconciliation.id) reconciliation.reconciledAt transitionId
      return ((), tables)
    else return ((), tables)

def findUndeliveredOutcomes (limit : UInt32) : List UndeliveredOutcome :=
  let owed := tables.reconciliations.filter fun row =>
    row.workspaceId == context.workspaceId && row.notifiedAt.isNone && row.settled
  let joined := (owed.insertionSort fun a b =>
      (toLex (a.reconciledAt, a.reconciliation.id.asUuid.toNat) : ℤ ×ₗ ℕ) ≤
        toLex (b.reconciledAt, b.reconciliation.id.asUuid.toNat)).filterMap fun row =>
    (tables.findIntent context row.reconciliation.effectId).map fun intent =>
      ⟨row.reconciliation, intent⟩
  joined.take limit.toNat

def deliveredStatus : ReconciliationOutcome → Option EffectLifecycleStatus
  | .confirmed => some .confirmed
  | .notApplied => some .failed
  | .inconclusive | .humanRequired => none

variable (reconciliationId : ExternalReconciliationId)

/-- The debt a mark pays: under this id, and not yet paid. -/
def owedUnder (row : ReconciliationRow) : Bool :=
  row.reconciliation.id == reconciliationId && row.workspaceId == context.workspaceId &&
    row.notifiedAt.isNone

def notify (at_ : Timestamp) : EffectTables :=
  let rows := tables.reconciliations.map fun row =>
    if owedUnder context reconciliationId row then { row with notifiedAt := some (pgTime at_) }
    else row
  { tables with reconciliations := rows }

def markOutcomeDelivered (at_ : Timestamp) (transitionId : Uuid) :
    AppResult (Unit × EffectTables) := do
  match tables.reconciliations.find? (owedUnder context reconciliationId) with
  | none => return ((), tables)
  | some row =>
    let status ← okOr (deliveredStatus row.reconciliation.outcome)
      (.storage "only a settled external effect outcome can be delivered")
    let tables ← (tables.notify context reconciliationId at_).addTransition context
      row.reconciliation.effectId (.outcomeDelivered status reconciliationId) at_ transitionId
    return ((), tables)

def recordWorkerPresence (workerId : WorkerId) (startedAt lastReportedAt : Timestamp) :
    AppResult (Unit × EffectTables) := do
  refuse (pgTime lastReportedAt < pgTime startedAt)
    (violated "external_effect_worker_presence_report_not_before_start")
  let mine := fun row : WorkerPresenceRow =>
    row.workspaceId == context.workspaceId && row.workerId == workerId
  let row := ⟨context.workspaceId, workerId, pgTime startedAt, pgTime lastReportedAt, none⟩
  let rows :=
    if tables.presence.any mine then tables.presence.map fun old => if mine old then row else old
    else tables.presence ++ [row]
  return ((), { tables with presence := rows })

def clearWorkerPresence (workerId : WorkerId) (stoppedAt : Timestamp) :
    AppResult (Unit × EffectTables) := do
  let mine := fun row : WorkerPresenceRow =>
    row.workspaceId == context.workspaceId && row.workerId == workerId
  refuse (!tables.presence.any mine)
    (.storage "external effect worker presence could not be cleared")
  refuse (tables.presence.any fun row => mine row && decide (pgTime stoppedAt < row.startedAt))
    (violated "external_effect_worker_presence_stop_not_before_start")
  let rows := tables.presence.map fun row =>
    if mine row then { row with stoppedAt := some (pgTime stoppedAt) } else row
  return ((), { tables with presence := rows })

end

/-! ## What each call writes -/

section

variable {tables tables' : EffectTables} {context : RequestContext} {id : Uuid}
  {workerId : WorkerId}

def FreshTransition (tables : EffectTables) (id : Uuid) : Prop :=
  ∀ row ∈ tables.transitions, row.id ≠ ⟨id⟩

theorem addTransition_ok {event : LifecycleEvent}
    (h : tables.addTransition context effectId event recordedAt id = .ok tables') :
    tables.FreshTransition id ∧ tables' = tables.push
        ⟨⟨id⟩, effectId, context.workspaceId, event, pgTime recordedAt⟩ := by
  obtain ⟨hpk, h⟩ := unit_bind_eq_ok.mp h
  refine ⟨?_, (pure_eq_ok.mp h).symm⟩
  intro row hrow hsame
  exact refuse_eq_ok.mp hpk (any_eq_true.mpr ⟨row, hrow, beq_iff_eq.mpr hsame⟩)

theorem insertIntent_ok {intent : ExternalEffectIntent}
    (h : tables.insertIntent context intent id = .ok ((), tables')) :
    intent.workspaceId = context.workspaceId ∧
      ((tables.findIntent context intent.id = some intent ∧ tables' = tables) ∨
        (∀ row ∈ tables.intents, row.id ≠ intent.id) ∧ tables.FreshTransition id ∧
          tables' = (tables.addIntent intent).push
            ⟨⟨id⟩, intent.id, context.workspaceId, .intentRecorded, pgTime intent.createdAt⟩) := by
  obtain ⟨hws, h⟩ := unit_bind_eq_ok.mp h
  rw [refuse_eq_ok, not_not] at hws
  replace h := of_unit_bind h
  refine ⟨hws, ?_⟩
  split at h
  · obtain ⟨hverify, h⟩ := unit_bind_eq_ok.mp h
    cases pure_eq_ok.mp h
    left
    unfold verifyInsert at hverify
    split at hverify
    next existing hfind =>
      rw [refuse_eq_ok, not_not] at hverify
      exact ⟨hfind.trans (congrArg some hverify), rfl⟩
    next => cases hverify
  · next hnew =>
    right
    obtain ⟨tables'', hadd, h⟩ := bind_eq_ok.mp h
    cases pure_eq_ok.mp h
    refine ⟨?_, addTransition_ok hadd⟩
    intro row hrow heq
    exact hnew (any_eq_true.mpr ⟨row, hrow, beq_iff_eq.mpr heq⟩)

theorem recordAuthorization_ok {decision : PolicyDecision}
    (h : tables.recordAuthorization context effectId decision id = .ok ((), tables')) :
    decision.workspaceId = context.workspaceId ∧
      (decision.isAllowed = true → tables.FreshTransition id) ∧
      tables' = if decision.isAllowed then
          (tables.addAuthorization ⟨effectId, context.workspaceId, decision⟩).push
            ⟨⟨id⟩, effectId, context.workspaceId, .authorizationRecorded decision.id,
              pgTime decision.decidedAt⟩
        else tables.addAuthorization ⟨effectId, context.workspaceId, decision⟩ := by
  simp only [recordAuthorization, unit_bind_eq_ok, refuse_eq_ok, not_not] at h
  obtain ⟨hws, -, -, -, -, -, h⟩ := h
  refine ⟨hws, ?_⟩
  split at h
  · next hallowed =>
    obtain ⟨tables'', hadd, h⟩ := bind_eq_ok.mp h
    cases pure_eq_ok.mp h
    rw [if_pos hallowed]
    exact ⟨fun _ => (addTransition_ok hadd).1, (addTransition_ok hadd).2⟩
  · next hdenied =>
    cases pure_eq_ok.mp h
    rw [if_neg hdenied]
    exact ⟨fun hallowed => absurd hallowed hdenied, rfl⟩

theorem recordDispatchStarted_ok {owner : WorkerId} {expiresAt : Timestamp}
    {transition : ExternalEffectLifecycleTransitionId}
    (h : tables.recordDispatchStarted context effectId owner expiresAt recordedAt id =
      .ok (transition, tables')) :
    tables.FreshTransition id ∧ tables' = tables.push ⟨⟨id⟩, effectId, context.workspaceId,
        .dispatchStarted (some owner) (some (pgTime expiresAt)), pgTime recordedAt⟩ := by
  replace h := of_unit_bind h
  obtain ⟨tables'', hadd, h⟩ := bind_eq_ok.mp h
  cases pure_eq_ok.mp h
  exact addTransition_ok hadd

theorem insertReceipt_ok {receipt : ExternalEffectReceipt} {createdAt : Timestamp}
    (h : tables.insertReceipt context receipt createdAt id = .ok ((), tables')) : tables' = tables ∨
      (∀ row ∈ tables.receipts, row.receipt.id ≠ receipt.id) ∧ tables.FreshTransition id ∧
        tables' = (tables.addReceipt ⟨receipt, context.workspaceId, pgTime createdAt⟩).push
          ⟨⟨id⟩, receipt.effectId, context.workspaceId,
            .receiptRecorded receipt.outcomeStatus receipt.id, pgTime receipt.recordedAt⟩ := by
  unfold insertReceipt at h
  split at h
  · replace h := of_unit_bind h
    cases pure_eq_ok.mp h
    exact .inl rfl
  · next hnew =>
    simp only [unit_bind_eq_ok, refuse_eq_ok] at h
    obtain ⟨-, -, h⟩ := h
    obtain ⟨tables'', hadd, h⟩ := bind_eq_ok.mp h
    cases pure_eq_ok.mp h
    refine .inr ⟨?_, addTransition_ok hadd⟩
    intro row hrow
    have hne := find?_eq_none.mp hnew row hrow
    simpa using hne

theorem adoptLostDispatch_ok {adoption : LostDispatchAdoption}
    {dispatchId : ExternalEffectLifecycleTransitionId}
    (h : tables.adoptLostDispatch context effectId dispatchId recordedAt id =
      .ok (adoption, tables')) :
    tables' = tables ∨
    tables.FreshTransition id ∧ (∃ row ∈ tables.transitions, row.id = dispatchId) ∧
      tables' = tables.push ⟨⟨id⟩, effectId, context.workspaceId, .dispatchLost dispatchId,
        pgTime recordedAt⟩ := by
  unfold adoptLostDispatch at h
  split at h
  · cases pure_eq_ok.mp h
    exact .inl rfl
  · obtain ⟨hstarted, h⟩ := unit_bind_eq_ok.mp h
    obtain ⟨tables'', hadd, h⟩ := bind_eq_ok.mp h
    cases pure_eq_ok.mp h
    obtain ⟨hfresh, hpush⟩ := addTransition_ok hadd
    rw [refuse_eq_ok, Bool.not_eq_false] at hstarted
    obtain ⟨row, hrow, hsame⟩ := any_eq_true.mp hstarted
    simp only [Bool.and_eq_true, beq_iff_eq] at hsame
    exact .inr ⟨hfresh, ⟨row, hrow, hsame.1.1.1⟩, hpush⟩

theorem recordFailedRecoveryAttempt_ok {attemptedAt : Timestamp} {failureReason : String}
    (h : tables.recordFailedRecoveryAttempt context effectId attemptedAt failureReason id =
      .ok ((), tables')) :
    tables' = tables.addAttempt
      ⟨id, effectId, context.workspaceId, pgTime attemptedAt, failureReason⟩ := by
  simp only [recordFailedRecoveryAttempt, unit_bind_eq_ok] at h
  obtain ⟨-, -, -, h⟩ := h
  cases pure_eq_ok.mp h
  rfl

theorem insertReconciliation_ok {reconciliation : ExternalReconciliation}
    (h : tables.insertReconciliation context reconciliation id = .ok ((), tables')) :
    tables' = tables ∨ (∀ row ∈ tables.reconciliations, row.reconciliation.id ≠ reconciliation.id) ∧
      (isSettled reconciliation.outcome = true → tables.FreshTransition id) ∧
      tables' = if isSettled reconciliation.outcome then
          (tables.addReconciliation ⟨reconciliation, context.workspaceId, none⟩).push
            ⟨⟨id⟩, reconciliation.effectId, context.workspaceId,
              .outcomeSettled reconciliation.id, pgTime reconciliation.reconciledAt⟩
        else tables.addReconciliation ⟨reconciliation, context.workspaceId, none⟩ := by
  unfold insertReconciliation at h
  split at h
  · replace h := of_unit_bind h
    cases pure_eq_ok.mp h
    exact .inl rfl
  · next hnew =>
    have hfresh : ∀ row ∈ tables.reconciliations,
        row.reconciliation.id ≠ reconciliation.id := by
      intro row hrow
      have hne := find?_eq_none.mp hnew row hrow
      simpa using hne
    simp only [unit_bind_eq_ok, refuse_eq_ok] at h
    obtain ⟨-, -, h⟩ := h
    refine .inr ⟨hfresh, ?_⟩
    split at h
    · next hsettled =>
      obtain ⟨tables'', hadd, h⟩ := bind_eq_ok.mp h
      cases pure_eq_ok.mp h
      rw [if_pos hsettled]
      exact ⟨fun _ => (addTransition_ok hadd).1, (addTransition_ok hadd).2⟩
    · next hopen =>
      cases pure_eq_ok.mp h
      rw [if_neg hopen]
      exact ⟨fun hsettled => absurd hsettled hopen, rfl⟩

theorem markOutcomeDelivered_ok {reconciliationId : ExternalReconciliationId} {at_ : Timestamp}
    (h : tables.markOutcomeDelivered context reconciliationId at_ id = .ok ((), tables')) :
    tables' = tables ∨
    ∃ row ∈ tables.reconciliations, ∃ status, owedUnder context reconciliationId row = true ∧
      row.settled = true ∧ tables.FreshTransition id ∧
      tables' = (tables.notify context reconciliationId at_).push ⟨⟨id⟩,
        row.reconciliation.effectId, context.workspaceId,
        .outcomeDelivered status reconciliationId, pgTime at_⟩ := by
  unfold markOutcomeDelivered at h
  split at h
  · cases pure_eq_ok.mp h
    exact .inl rfl
  · next row hfind =>
    obtain ⟨status, hstatus, h⟩ := bind_eq_ok.mp h
    obtain ⟨tables'', hadd, h⟩ := bind_eq_ok.mp h
    cases pure_eq_ok.mp h
    refine .inr ⟨row, mem_of_find?_eq_some hfind, status, find?_some hfind, ?_,
      addTransition_ok hadd⟩
    rw [okOr_eq_ok] at hstatus
    unfold ReconciliationRow.settled
    cases houtcome : row.reconciliation.outcome <;>
      simp [houtcome, deliveredStatus, isSettled] at hstatus ⊢

theorem recordWorkerPresence_ok {startedAt lastReportedAt : Timestamp}
    (h : tables.recordWorkerPresence context workerId startedAt lastReportedAt =
      .ok ((), tables')) : ∃ presence, tables' = { tables with presence } := by
  replace h := of_unit_bind h
  cases pure_eq_ok.mp h
  exact ⟨_, rfl⟩

theorem clearWorkerPresence_ok {stoppedAt : Timestamp}
    (h : tables.clearWorkerPresence context workerId stoppedAt = .ok ((), tables')) :
    ∃ presence, tables' = { tables with presence } := by
  replace h := of_unit_bind (of_unit_bind h)
  cases pure_eq_ok.mp h
  exact ⟨_, rfl⟩

end

end EffectTables

end Vestrace.Effects
