import Vestrace.Effects.Tables

/-!
# Who is worth asking about

`RECONCILIATION_CANDIDATES_SQL`: the effects of a workspace whose outcome nobody knows. A
receipt that does not settle is a candidate until a settled reconciliation of it is its latest.
A dispatch without any receipt is one if nothing newer was recorded of its effect and it is
overdue, its owner is gone, or it was adopted as lost a while ago.
-/

namespace Vestrace.Effects

open Lib Vestrace.Legacy List

variable {effectId : ExternalEffectId} {receiptId : Option ExternalEffectReceiptId}

inductive LostDispatchRecovery where
  | needsAdoption (dispatch : ExternalEffectLifecycleTransitionId)
  | adopted (dispatch : ExternalEffectLifecycleTransitionId)
  deriving DecidableEq, Repr

structure ExternalEffectRecoveryCandidate where
  intent : ExternalEffectIntent
  receipt : Option ExternalEffectReceipt
  lostDispatch : Option LostDispatchRecovery
  deriving DecidableEq, Repr

/-- The three instants a search is bound to. -/
structure Cutoffs where
  retryUnsettledBefore : Timestamp
  retryFailedBefore : Timestamp
  dispatchExpiredBefore : Timestamp
  deriving DecidableEq, Repr

def workerPresenceLapseAfter : ℤ := 60 * 1000000000

/-- What the decoding of a row checks again repeats the join and the filter, so a row is its
candidate. -/
structure CandidateRow where
  candidate : ExternalEffectRecoveryCandidate
  candidateAt : Timestamp
  deriving DecidableEq, Repr

/-- `ORDER BY candidate_at ASC, intent_id ASC, receipt_id ASC NULLS FIRST`. -/
def CandidateRow.key (row : CandidateRow) : ℤ ×ₗ ℕ ×ₗ ℕ :=
  toLex (row.candidateAt, toLex (row.candidate.intent.id.asUuid.toNat,
    row.candidate.receipt.elim 0 fun receipt => receipt.id.asUuid.toNat + 1))

def newest : List Transition → List Transition
  | [] => []
  | row :: rest =>
    if rest.any fun newer => newer.effectId == row.effectId && newer.workspaceId == row.workspaceId
    then newest rest
    else row :: newest rest

/-- The library's own order. With all of Mathlib in scope a noncomputable one is found first. -/
instance rowPreorder : Preorder (ℤ ×ₗ ℕ) :=
  @Prod.Lex.instPreorder ℤ ℕ Int.instLinearOrder.toPreorder Nat.instPreorder

namespace EffectTables

variable (tables : EffectTables) (workspaceId : WorkspaceId) (cutoffs : Cutoffs)

variable (effectId : ExternalEffectId) (receiptId : Option ExternalEffectReceiptId)

def lastReconciliation : Option ReconciliationRow :=
  (tables.reconciliations.filter fun row => row.reconciliation.effectId == effectId &&
    row.reconciliation.receiptId == receiptId && row.workspaceId == workspaceId).argmax
      fun row => (toLex (row.reconciledAt, row.reconciliation.id.asUuid.toNat) : ℤ ×ₗ ℕ)

/-- The latest failed attempt to ask about an effect. -/
def lastAttempt : Option RecoveryAttemptRow :=
  (tables.attempts.filter fun row => row.effectId == effectId &&
    row.workspaceId == workspaceId).argmax
      fun row => (toLex (row.attemptedAt, row.id.toNat) : ℤ ×ₗ ℕ)

/-- The two retry conditions: what was last answered settles nothing and is old, and what
failed last is old, or older than the answer. -/
def mayAsk : Bool :=
  let last := tables.lastReconciliation workspaceId effectId receiptId
  (last.all fun row => !row.settled && decide (row.reconciledAt <
      pgTime cutoffs.retryUnsettledBefore)) &&
    (tables.lastAttempt workspaceId effectId).all fun failed =>
      (last.any fun row => decide (failed.attemptedAt < row.reconciledAt)) ||
        decide (failed.attemptedAt < pgTime cutoffs.retryFailedBefore)

def receiptRow (row : ReceiptRow) : Option CandidateRow :=
  (tables.intents.find? fun intent =>
      intent.id == row.receipt.effectId && intent.workspaceId == row.workspaceId).bind
    fun intent =>
      if row.workspaceId = workspaceId ∧ row.receipt.requiresReconciliation = true ∧
          tables.mayAsk workspaceId cutoffs intent.id (some row.receipt.id) = true then
        some ⟨⟨intent, some row.receipt, none⟩, row.createdAt⟩
      else none

def ownerGone (owner : WorkerId) : Bool :=
  tables.presence.any fun row => row.workspaceId == workspaceId && row.workerId == owner &&
    (row.stoppedAt.isSome || decide (row.lastReportedAt <
      pgTime (cutoffs.dispatchExpiredBefore - workerPresenceLapseAfter)))

/-- A dispatch that is overdue or abandoned, or was adopted a while ago: how to recover it. -/
def lostDispatch (row : Transition) : Option LostDispatchRecovery :=
  match row.event with
  | .dispatchStarted owner expiresAt =>
    if expiresAt.any fun expiresAt => decide (expiresAt < pgTime cutoffs.dispatchExpiredBefore) ||
        owner.any (tables.ownerGone workspaceId cutoffs)
    then some (.needsAdoption row.id)
    else none
  | .dispatchLost dispatch =>
    if row.recordedAt < pgTime cutoffs.retryUnsettledBefore then some (.adopted dispatch) else none
  | _ => none

def hasReceipt : Bool :=
  tables.receipts.any fun row =>
    row.receipt.effectId == effectId && row.workspaceId == workspaceId

def lostDispatchRow (row : Transition) : Option CandidateRow :=
  (tables.intents.find? fun intent =>
      intent.id == row.effectId && intent.workspaceId == row.workspaceId).bind fun intent =>
    (tables.lostDispatch workspaceId cutoffs row).bind fun lost =>
      if row.workspaceId = workspaceId ∧ tables.hasReceipt workspaceId intent.id = false ∧
          tables.mayAsk workspaceId cutoffs intent.id none = true then
        some ⟨⟨intent, none, some lost⟩, row.recordedAt⟩
      else none

def candidateRows : List CandidateRow :=
  tables.receipts.filterMap (tables.receiptRow workspaceId cutoffs) ++
    (newest tables.transitions).filterMap (tables.lostDispatchRow workspaceId cutoffs)

def findReconciliationCandidates (context : RequestContext) (limit : UInt32) :
    List ExternalEffectRecoveryCandidate :=
  (((tables.candidateRows context.workspaceId cutoffs).insertionSort
    fun a b => a.key ≤ b.key).take limit.toNat).map (·.candidate)

end EffectTables

/-! ## The newest transition -/

section

variable {l : List Transition} {row : Transition}

theorem mem_of_mem_newest (h : row ∈ newest l) : row ∈ l := by
  induction l with
  | nil => exact h
  | cons first rest ih =>
    rw [newest] at h
    split at h
    · exact mem_cons_of_mem _ (ih h)
    · rcases mem_cons.mp h with rfl | h
      · exact mem_cons_self
      · exact mem_cons_of_mem _ (ih h)

theorem mem_newest_of_append {before after : List Transition}
    (h : ∀ newer ∈ after, newer.effectId = row.effectId → newer.workspaceId ≠ row.workspaceId) :
    row ∈ newest (before ++ row :: after) := by
  induction before with
  | nil =>
    have hnone : ¬ (after.any fun newer => newer.effectId == row.effectId &&
        newer.workspaceId == row.workspaceId) = true := by
      intro hany
      obtain ⟨newer, hmem, hsame⟩ := any_eq_true.mp hany
      rw [Bool.and_eq_true, beq_iff_eq, beq_iff_eq] at hsame
      exact h newer hmem hsame.1 hsame.2
    rw [nil_append, newest, if_neg hnone]
    exact mem_cons_self
  | cons first rest ih =>
    rw [cons_append, newest]
    split
    · exact ih
    · exact mem_cons_of_mem _ ih

end

/-! ## What it takes to be a candidate -/

namespace EffectTables

variable {tables : EffectTables} {workspaceId : WorkspaceId} {cutoffs : Cutoffs}

theorem lastReconciliation_mem {row : ReconciliationRow}
    (h : tables.lastReconciliation workspaceId effectId receiptId = some row) :
    row ∈ tables.reconciliations ∧ row.reconciliation.effectId = effectId ∧
      row.reconciliation.receiptId = receiptId ∧ row.workspaceId = workspaceId := by
  have hmem := argmax_mem (Option.mem_def.mpr h)
  simp only [mem_filter, Bool.and_eq_true, beq_iff_eq] at hmem
  exact ⟨hmem.1, hmem.2.1.1, hmem.2.1.2, hmem.2.2⟩

structure CutoffsPassed (tables : EffectTables) (workspaceId : WorkspaceId) (cutoffs : Cutoffs)
    (effectId : ExternalEffectId) : Prop where
  adopted : ∀ row ∈ tables.transitions, row.effectId = effectId → row.workspaceId = workspaceId →
    ∀ dispatch, row.event = .dispatchLost dispatch →
      row.recordedAt < pgTime cutoffs.retryUnsettledBefore
  unsettled : ∀ row ∈ tables.reconciliations, row.reconciliation.effectId = effectId →
    row.workspaceId = workspaceId → row.reconciledAt < pgTime cutoffs.retryUnsettledBefore
  failed : ∀ row ∈ tables.attempts, row.effectId = effectId → row.workspaceId = workspaceId →
    row.attemptedAt < pgTime cutoffs.retryFailedBefore

def Settled (tables : EffectTables) (workspaceId : WorkspaceId) (effectId : ExternalEffectId) :
    Prop :=
  ∃ row ∈ tables.reconciliations, row.reconciliation.effectId = effectId ∧
    row.workspaceId = workspaceId ∧ row.settled = true

theorem CutoffsPassed.mayAsk (h : CutoffsPassed tables workspaceId cutoffs effectId)
    (hopen : ¬ tables.Settled workspaceId effectId) :
    tables.mayAsk workspaceId cutoffs effectId receiptId = true := by
  rw [EffectTables.mayAsk, Bool.and_eq_true]
  refine ⟨?_, ?_⟩
  · cases hlast : tables.lastReconciliation workspaceId effectId receiptId with
    | none => rfl
    | some row =>
      obtain ⟨hmem, heffect, -, hws⟩ := lastReconciliation_mem hlast
      have hunsettled : row.settled = false := by
        by_contra hsettled
        exact hopen ⟨row, hmem, heffect, hws, Bool.not_eq_false _ ▸ hsettled⟩
      simp [hunsettled, h.unsettled row hmem heffect hws]
  · cases hfailed : tables.lastAttempt workspaceId effectId with
    | none => rfl
    | some row =>
      have hmem := argmax_mem (Option.mem_def.mpr hfailed)
      simp only [mem_filter, Bool.and_eq_true, beq_iff_eq] at hmem
      simp [h.failed row hmem.1 hmem.2.1 hmem.2.2]

theorem mem_candidateRows {row : CandidateRow} : row ∈ tables.candidateRows workspaceId cutoffs ↔
      (∃ receipt ∈ tables.receipts, tables.receiptRow workspaceId cutoffs receipt = some row) ∨
        ∃ transition ∈ newest tables.transitions,
          tables.lostDispatchRow workspaceId cutoffs transition = some row := by
  rw [candidateRows, mem_append, mem_filterMap, mem_filterMap]

theorem length_findReconciliationCandidates_le (tables : EffectTables) (cutoffs : Cutoffs)
    (ctx : RequestContext) (limit : UInt32) :
    (tables.findReconciliationCandidates cutoffs ctx limit).length ≤ limit.toNat := by
  rw [findReconciliationCandidates, length_map]
  exact length_take_le _ _

theorem mem_findReconciliationCandidates
    {ctx : RequestContext} {candidate : ExternalEffectRecoveryCandidate}
    {limit : UInt32}
    (hlimit : (tables.candidateRows ctx.workspaceId cutoffs).length ≤ limit.toNat) :
    candidate ∈ tables.findReconciliationCandidates cutoffs ctx limit ↔
      ∃ row ∈ tables.candidateRows ctx.workspaceId cutoffs, row.candidate = candidate := by
  have hlength : ((tables.candidateRows ctx.workspaceId cutoffs).insertionSort
      fun a b => a.key ≤ b.key).length ≤ limit.toNat := by
    rw [length_insertionSort]
    exact hlimit
  rw [findReconciliationCandidates, take_of_length_le hlength, mem_map]
  simp only [mem_insertionSort]

end EffectTables

end Vestrace.Effects
