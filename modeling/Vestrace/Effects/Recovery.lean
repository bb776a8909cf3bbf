import Vestrace.Effects.Perform

/-!
# Recovering effects nobody knows the outcome of

`ExternalEffectRecoveryService`: find the candidates, adopt a lost dispatch, ask the
read-back, record what it says. A failure to ask about one candidate is recorded as an attempt,
a failure of the repository ends the run.
-/

namespace Vestrace.Effects

open Lib Vestrace.Legacy Vestrace.Security List Bool Prog EffectTables EffectsHost

variable {effectId : ExternalEffectId}

/-! ## The service -/

inductive RecoveryError where
  | missingReadBackRoute (adapter : String)
  | readBackUnsupported (adapter : String)
  | readBack (e : ApplicationError)
  | reconciliation (e : ApplicationError)
  | application (e : ApplicationError)
  deriving DecidableEq, Repr

def RecoveryError.display : RecoveryError → String
  | .missingReadBackRoute adapter =>
    "no external effect read-back route is registered for adapter `" ++ adapter ++ "`"
  | .readBackUnsupported adapter =>
    "external effect read-back route for adapter `" ++ adapter ++ "` does not support read-back"
  | .readBack e | .reconciliation e | .application e => e.display

/-- The list of its descriptors, which has each name once. -/
abbrev ReadBackRegistry := List ExternalEffectAdapterDescriptor

def ReadBackRegistry.resolve (routes : ReadBackRegistry) (adapter : String) :
    Except RecoveryError Unit := do
  let route ← okOr (routes.find? fun route => route.name == adapter) (.missingReadBackRoute adapter)
  refuse (route.supportsReadBack = false) (.readBackUnsupported adapter)

section

variable (routes : ReadBackRegistry) (context : RequestContext) (reconciledAt : Timestamp)
variable (candidate : ExternalEffectRecoveryCandidate)

def claimDispatch : EffectProg RecoveryError Bool :=
  match candidate.lostDispatch with
  | some (.needsAdoption dispatch) => do
    let answer ← ask (.adoptLostDispatch context candidate.intent.id dispatch reconciledAt)
    let adoption ← liftM (answer.mapError RecoveryError.application)
    return adoption != .alreadyAdopted
  | _ => return true

def askReadBack : EffectProg RecoveryError ExternalReconciliation := do
  liftM (routes.resolve candidate.intent.adapter)
  let answer ← ask (.observe candidate.intent candidate.receipt)
  let observations ← liftM (answer.mapError RecoveryError.readBack)
  let id ← ask .newId
  let reconciliation ← liftM ((reconcile context ⟨id⟩ candidate.intent candidate.receipt
    observations reconciledAt).mapError
      (if observations.isEmpty then RecoveryError.readBack else RecoveryError.reconciliation))
  let recorded ← ask (.insertReconciliation context reconciliation)
  liftM (recorded.mapError RecoveryError.application)
  return reconciliation

def reconcileCandidate : EffectProg RecoveryError (Option ExternalReconciliation) := do
  let mine ← claimDispatch context reconciledAt candidate
  if mine then
    let reconciliation ← askReadBack routes context reconciledAt candidate
    return some reconciliation
  else return none

structure ExternalEffectRecoveryReport where
  reconciliations : List ExternalReconciliation
  runs : List (Option AgentRunId)
  unreachable : List (ExternalEffectId × String)
  saturated : Bool
  deriving DecidableEq, Repr

def ExternalEffectRecoveryReport.cannotAsk (report : ExternalEffectRecoveryReport)
    (candidate : ExternalEffectRecoveryCandidate) (reason : String) :
    ExternalEffectRecoveryReport :=
  { report with unreachable := report.unreachable ++ [(candidate.intent.id, reason)] }

def noteOutcome (report : ExternalEffectRecoveryReport) : Except RecoveryError
    (Option ExternalReconciliation) → EffectProg ApplicationError ExternalEffectRecoveryReport
  | .ok (some reconciliation) => return { report with
      reconciliations := report.reconciliations ++ [reconciliation]
      runs := report.runs ++ [candidate.intent.executionRunId] }
  | .ok none => return report
  | .error (.application e) => liftM (Except.error e)
  | .error (.reconciliation e) => return report.cannotAsk candidate e.display
  | .error error => do
    let recorded ← ask (.recordFailedRecoveryAttempt context candidate.intent.id reconciledAt
      error.display)
    liftM recorded
    return report.cannotAsk candidate error.display

def recoverOne (report : ExternalEffectRecoveryReport) :
    EffectProg ApplicationError ExternalEffectRecoveryReport := do
  let result ← (reconcileCandidate routes context reconciledAt candidate).attempt
  noteOutcome context reconciledAt candidate report result

def recoverEach : List ExternalEffectRecoveryCandidate → ExternalEffectRecoveryReport →
    EffectProg ApplicationError ExternalEffectRecoveryReport
  | [], report => return report
  | candidate :: candidates, report => do
    let report ← recoverOne routes context reconciledAt candidate report
    recoverEach candidates report

/-- `ExternalEffectRecoveryService::run`. -/
def recoveryRun (cutoffs : Cutoffs) (limit : UInt32) :
    EffectProg ApplicationError ExternalEffectRecoveryReport := do
  let answer ← ask (.findReconciliationCandidates context cutoffs limit)
  let candidates ← liftM answer
  recoverEach routes context reconciledAt candidates
    ⟨[], [], [], candidates.length == limit.toNat⟩

/-- `RECONCILIATION_RETRY_AFTER` and `FAILED_RECOVERY_ATTEMPT_RETRY_AFTER`. -/
def retryAfter : ℤ := 60 * 1000000000

def sweepCutoffs (at_ : Timestamp) : Cutoffs := ⟨at_ - retryAfter, at_ - retryAfter, at_⟩

def sweepWith (limit : UInt32) : EffectProg ApplicationError ExternalEffectRecoveryReport :=
  recoveryRun routes context reconciledAt (sweepCutoffs reconciledAt) limit

def sweep : EffectProg ApplicationError ExternalEffectRecoveryReport :=
  sweepWith routes context reconciledAt 8

end

/-! ## What a candidate is about -/

abbrev Subject := ExternalEffectId × Option ExternalEffectReceiptId

def ExternalEffectRecoveryCandidate.subject (candidate : ExternalEffectRecoveryCandidate) :
    Subject :=
  (candidate.intent.id, candidate.receipt.map (·.id))

def ExternalEffectRecoveryReport.Covers (report : ExternalEffectRecoveryReport)
    (candidate : ExternalEffectRecoveryCandidate) : Prop :=
  (∃ row ∈ report.reconciliations, (row.effectId, row.receiptId) = candidate.subject) ∨
    ∃ reason, (candidate.intent.id, reason) ∈ report.unreachable

structure ExternalEffectRecoveryReport.Extends
    (report report' : ExternalEffectRecoveryReport) : Prop where
  reconciliations : report.reconciliations ⊆ report'.reconciliations
  unreachable : report.unreachable ⊆ report'.unreachable

theorem ExternalEffectRecoveryReport.Covers.extends {candidate : ExternalEffectRecoveryCandidate}
    {report report' : ExternalEffectRecoveryReport} (h : report.Covers candidate)
    (hext : report.Extends report') : report'.Covers candidate := by
  rcases h with ⟨row, hrow, hsubject⟩ | ⟨reason, hreason⟩
  · exact .inl ⟨row, hext.reconciliations hrow, hsubject⟩
  · exact .inr ⟨reason, hext.unreachable hreason⟩

/-! ## What asking leaves behind -/

/-- The mark of an instant on a subject: an answer, or the record of a failure to get one. -/
def EffectTables.Marked (tables : EffectTables) (workspaceId : WorkspaceId) (at_ : Timestamp)
    (subject : Subject) : Prop :=
  (∃ row ∈ tables.reconciliations, row.workspaceId = workspaceId ∧
    (row.reconciliation.effectId, row.reconciliation.receiptId) = subject ∧
    row.reconciledAt = pgTime at_) ∨
  ∃ row ∈ tables.attempts, row.workspaceId = workspaceId ∧ row.effectId = subject.1 ∧
    row.attemptedAt = pgTime at_

/-- What asking about some subjects may change: a dispatch of theirs is adopted as lost, and
answers and failures are recorded. -/
structure Touched (workspaceId : WorkspaceId) (subjects : List Subject)
    (tables tables' : EffectTables) : Prop where
  intents : tables'.intents = tables.intents
  receipts : tables'.receipts = tables.receipts
  transitions : ∃ more, tables'.transitions = tables.transitions ++ more ∧
    ∀ row ∈ more, row.workspaceId = workspaceId ∧ (row.effectId, none) ∈ subjects
  reconciliations : ∃ more, tables'.reconciliations = tables.reconciliations ++ more ∧
    ∀ row ∈ more, (row.reconciliation.effectId, row.reconciliation.receiptId) ∈ subjects
  attempts : tables.attempts ⊆ tables'.attempts

section

variable {workspaceId : WorkspaceId} {at_ : Timestamp} {subjects more : List Subject}
  {tables tables' tables'' : EffectTables}

theorem Touched.refl (workspaceId : WorkspaceId) (subjects : List Subject)
    (tables : EffectTables) : Touched workspaceId subjects tables tables where
  intents := rfl
  receipts := rfl
  transitions := ⟨[], (append_nil _).symm, nofun⟩
  reconciliations := ⟨[], (append_nil _).symm, nofun⟩
  attempts := fun _ h => h

theorem Touched.mono (h : Touched workspaceId subjects tables tables') (hsub : subjects ⊆ more) :
    Touched workspaceId more tables tables' := by
  obtain ⟨ts, hts, htsubjects⟩ := h.transitions
  obtain ⟨rs, hrs, hrsubjects⟩ := h.reconciliations
  exact ⟨h.intents, h.receipts,
    ⟨ts, hts, fun row hrow => ⟨(htsubjects row hrow).1, hsub (htsubjects row hrow).2⟩⟩,
    ⟨rs, hrs, fun row hrow => hsub (hrsubjects row hrow)⟩, h.attempts⟩

theorem Touched.trans (h : Touched workspaceId subjects tables tables')
    (h' : Touched workspaceId subjects tables' tables'') :
    Touched workspaceId subjects tables tables'' := by
  obtain ⟨ts, hts, htsubjects⟩ := h.transitions
  obtain ⟨ts', hts', htsubjects'⟩ := h'.transitions
  obtain ⟨rs, hrs, hrsubjects⟩ := h.reconciliations
  obtain ⟨rs', hrs', hrsubjects'⟩ := h'.reconciliations
  refine ⟨h'.intents.trans h.intents, h'.receipts.trans h.receipts, ⟨ts ++ ts', ?_, ?_⟩,
    ⟨rs ++ rs', ?_, ?_⟩, fun _ hrow => h'.attempts (h.attempts hrow)⟩
  · rw [hts', hts, append_assoc]
  · intro row hrow
    exact (mem_append.mp hrow).elim (htsubjects row) (htsubjects' row)
  · rw [hrs', hrs, append_assoc]
  · intro row hrow
    exact (mem_append.mp hrow).elim (hrsubjects row) (hrsubjects' row)

theorem Touched.addReconciliation {row : ExternalReconciliation}
    (h : (row.effectId, row.receiptId) ∈ subjects) :
    Touched workspaceId subjects tables (tables.addReconciliation ⟨row, workspaceId, none⟩) := by
  refine ⟨rfl, rfl, ⟨[], (append_nil _).symm, nofun⟩, ⟨[_], rfl, ?_⟩, fun _ h => h⟩
  intro new hnew
  rw [mem_singleton.mp hnew]
  exact h

theorem Touched.addAttempt (row : RecoveryAttemptRow) :
    Touched workspaceId subjects tables (tables.addAttempt row) :=
  ⟨rfl, rfl, ⟨[], (append_nil _).symm, nofun⟩, ⟨[], (append_nil _).symm, nofun⟩,
    subset_append_left _ _⟩

theorem EffectTables.Marked.touched {subject : Subject} (h : tables.Marked workspaceId at_ subject)
    (ht : Touched workspaceId subjects tables tables') :
    tables'.Marked workspaceId at_ subject := by
  obtain ⟨rs, hrs, -⟩ := ht.reconciliations
  rcases h with ⟨row, hrow, hwhat⟩ | ⟨row, hrow, hwhat⟩
  · exact .inl ⟨row, hrs ▸ mem_append_left _ hrow, hwhat⟩
  · exact .inr ⟨row, ht.attempts hrow, hwhat⟩

end

/-! ## Candidates that can be asked about -/

structure Backed (context : RequestContext) (tables : EffectTables)
    (candidate : ExternalEffectRecoveryCandidate) : Prop where
  intent : tables.findIntent context candidate.intent.id = some candidate.intent
  receipt : ∀ receipt, candidate.receipt = some receipt →
    receipt.effectId = candidate.intent.id ∧ receipt.requiresReconciliation = true ∧
      ∃ row ∈ tables.receipts, row.receipt = receipt ∧ row.workspaceId = context.workspaceId

structure Askable (context : RequestContext) (tables : EffectTables)
    (candidate : ExternalEffectRecoveryCandidate) : Prop extends
    Backed context tables candidate where
  lost : ∀ dispatch, candidate.lostDispatch = some (.needsAdoption dispatch) →
    candidate.receipt = none ∧
      tables.adoptedAsLost context candidate.intent.id dispatch = false ∧
      ∃ row ∈ tables.transitions, row.id = dispatch ∧ row.effectId = candidate.intent.id ∧
        row.workspaceId = context.workspaceId ∧ isDispatching row.event = true

section

variable {context : RequestContext} {tables tables' : EffectTables}
  {candidate : ExternalEffectRecoveryCandidate} {subjects : List Subject}

theorem Backed.workspace (h : Backed context tables candidate) :
    candidate.intent.workspaceId = context.workspaceId := by
  have hfound := List.find?_some h.intent
  simp only [and_eq_true, beq_iff_eq] at hfound
  exact hfound.2

theorem Backed.touched (h : Backed context tables candidate)
    (ht : Touched context.workspaceId subjects tables tables') :
    Backed context tables' candidate := by
  refine ⟨?_, ht.receipts ▸ h.receipt⟩
  rw [findIntent, ht.intents]
  exact h.intent

/-- Asking about the others leaves a candidate as it is. -/
theorem Askable.touched (h : Askable context tables candidate)
    (ht : Touched context.workspaceId subjects tables tables')
    (hother : candidate.subject ∉ subjects) : Askable context tables' candidate := by
  refine ⟨h.toBacked.touched ht, ?_⟩
  intro dispatch hlost
  obtain ⟨ts, hts, htsubjects⟩ := ht.transitions
  obtain ⟨hnone, hfree, row, hrow, hwhat⟩ := h.lost dispatch hlost
  refine ⟨hnone, ?_, row, hts ▸ mem_append_left _ hrow, hwhat⟩
  unfold adoptedAsLost at hfree ⊢
  rw [hts, any_append, hfree, Bool.false_or, any_eq_false]
  intro new hnew hsame
  simp only [and_eq_true, beq_iff_eq] at hsame
  -- the adoption would be of the candidate's own effect
  refine hother ?_
  rw [ExternalEffectRecoveryCandidate.subject, hnone, ← hsame.1.2]
  exact (htsubjects new hnew).2

end

/-! ## Calls that meet no trouble -/

structure EffectTables.Unused (tables : EffectTables) (id : Uuid) : Prop where
  transitions : tables.FreshTransition id
  attempts : ∀ row ∈ tables.attempts, row.id ≠ id
  reconciliations : ∀ row ∈ tables.reconciliations, row.reconciliation.id ≠ ⟨id⟩

/-- For so many calls the database is there, ids are new, and no read-back settles
anything. -/
structure Calm (calls : ℕ) (host : EffectsHost) : Prop where
  fault : ∀ n, host.tick ≤ n → n < host.tick + calls → (host.weather n).fault = none
  distinct : ∀ m n, host.tick ≤ m → m < n → n < host.tick + calls →
    (host.weather m).uuid ≠ (host.weather n).uuid
  unused : ∀ n, host.tick ≤ n → n < host.tick + calls → host.tables.Unused (host.weather n).uuid
  unsettling : ∀ n, host.tick ≤ n → n < host.tick + calls → ∀ observations,
    (host.weather n).observed = .ok observations →
      ∀ best, strongest observations = some best → best.effectApplied = none

def EffectsHost.next (host : EffectsHost) (tables : EffectTables) : EffectsHost :=
  { host with tables, tick := host.tick + 1 }

section

variable {host : EffectsHost} {α : Type} {calls : ℕ} {tables : EffectTables}

theorem Calm.mono {fewer : ℕ} (h : Calm calls host) (hfewer : fewer ≤ calls) : Calm fewer host where
  fault := fun n hn hlt => h.fault n hn (by omega)
  distinct := fun m n hm hmn hlt => h.distinct m n hm hmn (by omega)
  unused := fun n hn hlt => h.unused n hn (by omega)
  unsettling := fun n hn hlt => h.unsettling n hn (by omega)

theorem Calm.next (h : Calm (calls + 1) host)
    (hunused : ∀ n, host.tick < n → n < host.tick + (calls + 1) →
      tables.Unused (host.weather n).uuid) : Calm calls (host.next tables) := by
  have htick : (host.next tables).tick = host.tick + 1 := rfl
  exact {
    fault := fun n hn hlt => h.fault n (by omega) (by omega)
    distinct := fun m n hm hmn hlt => h.distinct m n (by omega) hmn (by omega)
    unused := fun n hn hlt => hunused n (by omega) (by omega)
    unsettling := fun n hn hlt => h.unsettling n (by omega) (by omega) }

theorem Calm.same (h : Calm (calls + 1) host) : Calm calls (host.next host.tables) :=
  h.next fun n hn hlt => h.unused n hn.le hlt

theorem Calm.unused_now (h : Calm (calls + 1) host) :
    host.tables.Unused (host.weather host.tick).uuid :=
  h.unused host.tick le_rfl (by omega)

theorem Calm.onTables {t : EffectTables → AppResult (α × EffectTables)} {a : α}
    (h : Calm (calls + 1) host) (ht : t host.tables = .ok (a, tables)) :
    ({ host with tick := host.tick + 1 } : EffectsHost).onTables t
      (host.weather host.tick).fault = (.ok a, host.next tables) := by
  rw [h.fault host.tick le_rfl (by omega)]
  unfold EffectsHost.onTables EffectsHost.commit
  refine transact_ok.mpr ?_
  dsimp only
  rw [ht]
  rfl

theorem run_ask_bind {ε β : Type} {call : EffectCall} {f : call.Answer → EffectProg ε β}
    {answer : call.Answer} {host' : EffectsHost}
    (h : EffectsHost.exec call host = (answer, host')) :
    (ask call >>= f).run host = (f answer).run host' :=
  run_perform_bind h

end

namespace EffectTables

variable {tables : EffectTables} {context : RequestContext} {fresh : Uuid}

theorem addTransition_fresh {event : LifecycleEvent}
    {recordedAt : Timestamp} (h : tables.FreshTransition fresh) :
    tables.addTransition context effectId event recordedAt fresh =
      .ok (tables.push ⟨⟨fresh⟩, effectId, context.workspaceId, event, pgTime recordedAt⟩) := by
  have hpk : ¬ (tables.transitions.any fun row => row.id == ⟨fresh⟩) = true := by
    intro hany
    obtain ⟨row, hrow, hsame⟩ := any_eq_true.mp hany
    exact h row hrow (beq_iff_eq.mp hsame)
  exact refuse_bind_neg hpk

theorem insertReconciliation_unused
    {reconciliation : ExternalReconciliation} {intent : ExternalEffectIntent}
    {id : Uuid} (h : tables.Unused id)
    (hid : reconciliation.id = ⟨id⟩)
    (hintent : tables.findIntent context reconciliation.effectId = some intent)
    (hreceipt : ∀ receiptId, reconciliation.receiptId = some receiptId →
      ∃ row ∈ tables.receipts, row.receipt.id = receiptId ∧ row.workspaceId = context.workspaceId)
    (hopen : isSettled reconciliation.outcome = false) :
    tables.insertReconciliation context reconciliation fresh =
      .ok ((), tables.addReconciliation ⟨reconciliation, context.workspaceId, none⟩) := by
  have hnew : (tables.reconciliations.find? fun row =>
      row.reconciliation.id == reconciliation.id) = none := by
    refine List.find?_eq_none.mpr fun row hrow hsame => ?_
    exact h.reconciliations row hrow ((beq_iff_eq.mp hsame).trans hid)
  have hfk : ¬ (reconciliation.receiptId.any fun id => !tables.receipts.any fun row =>
      row.receipt.id == id && row.workspaceId == context.workspaceId) = true := by
    cases hof : reconciliation.receiptId with
    | none => exact false_ne_true
    | some receiptId =>
      obtain ⟨row, hrow, hrowid, hws⟩ := hreceipt receiptId hof
      have hany : (tables.receipts.any fun row =>
          row.receipt.id == receiptId && row.workspaceId == context.workspaceId) = true :=
        any_eq_true.mpr ⟨row, hrow, by simp [hrowid, hws]⟩
      simp [hany]
  unfold insertReconciliation
  rw [hnew]
  refine (refuse_bind_neg (by simp [hintent])).trans ?_
  refine (refuse_bind_neg hfk).trans ?_
  rw [if_neg (eq_false_iff.mp hopen)]
  rfl

end EffectTables

/-! ## The order of the observations -/

section

variable {observations : List ObservedEffectState} {a b : ObservedEffectState}

def Strongest (observations : List ObservedEffectState) (a : ObservedEffectState) : Prop :=
  a ∈ observations ∧
    ∀ o ∈ observations, strengthRank o.evidenceStrength ≤ strengthRank a.evidenceStrength

theorem exists_strongest (h : observations ≠ []) :
    ∃ best, strongest observations = some best ∧ Strongest observations best := by
  unfold Strongest
  induction observations with
  | nil => exact absurd rfl h
  | cons state states ih =>
    rw [strongest]
    cases states with
    | nil => simp [strongest]
    | cons o states =>
      obtain ⟨best, hbest, hmem, hle⟩ := ih (cons_ne_nil _ _)
      rw [hbest]
      dsimp only
      split
      next hlt =>
        refine ⟨state, rfl, mem_cons_self, forall_mem_cons.mpr ⟨le_rfl, fun o ho => ?_⟩⟩
        exact (hle o ho).trans hlt.le
      next hge =>
        exact ⟨best, rfl, mem_cons_of_mem _ hmem, forall_mem_cons.mpr ⟨not_lt.mp hge, hle⟩⟩

theorem strongest_concat
    (h : ∀ o ∈ observations, strengthRank o.evidenceStrength ≤ strengthRank a.evidenceStrength) :
    strongest (observations ++ [a]) = some a := by
  induction observations with
  | nil => rfl
  | cons state states ih =>
    rw [cons_append, strongest, ih fun o hmem => h o (mem_cons_of_mem _ hmem)]
    exact if_neg (not_lt.mpr (h state mem_cons_self))

theorem Strongest.comes_last (h : Strongest observations a) :
    ∃ others, others ~ observations ∧ strongest others = some a := by
  refine ⟨observations.erase a ++ [a], ?_, ?_⟩
  · exact (perm_append_singleton _ _).trans (perm_cons_erase h.1).symm
  · exact strongest_concat fun o hmem => h.2 o (mem_of_mem_erase hmem)

theorem Strongest.same (ha : Strongest observations a) (hb : Strongest observations b) :
    a.evidenceStrength = b.evidenceStrength := by
  have hrank := le_antisymm (hb.2 a ha.1) (ha.2 b hb.1)
  revert hrank
  cases a.evidenceStrength <;> cases b.evidenceStrength <;> decide

variable (id : ExternalReconciliationId) (intent : ExternalEffectIntent)
  (receipt : Option ExternalEffectReceipt) (observations) (at_ : Timestamp)

def verdict : Except DomainError (ReconciliationOutcome × EvidenceStrength) :=
  (reconcileEffect id intent receipt observations at_).map
    fun row => (row.outcome, row.evidenceStrength)

theorem verdict_own {best : ObservedEffectState} (hbest : strongest observations = some best)
    (h : ¬ (receipt.any fun receipt => receipt.effectId != intent.id) = true) :
    verdict observations id intent receipt at_ =
      .ok (outcomeOf best.effectApplied, best.evidenceStrength) := by
  unfold verdict reconcileEffect
  rw [refuse_bind_neg h, hbest]
  rfl

/-- The verdict is a matter of the evidence exactly if the strongest observations agree. -/
theorem verdict_of_evidence_iff :
    ((∀ others, others ~ observations →
        verdict others id intent receipt at_ = verdict observations id intent receipt at_) ∧
      ∀ outcome strength, verdict observations id intent receipt at_ = .ok (outcome, strength) →
        ∀ o ∈ observations, o.evidenceStrength = strength →
          (outcome = .confirmed → o.effectApplied ≠ some false) ∧
          (outcome = .notApplied → o.effectApplied ≠ some true)) ↔
      (receipt.any fun receipt => receipt.effectId != intent.id) = true ∨
        ∀ a b, Strongest observations a → Strongest observations b →
          a.effectApplied = b.effectApplied := by
  by_cases hown : (receipt.any fun receipt => receipt.effectId != intent.id) = true
  · simp only [verdict, reconcileEffect, refuse_bind_pos hown]
    simp [Except.map, hown]
  rw [or_iff_right hown]
  constructor
  · rintro ⟨hsame, -⟩ a b ha hb
    obtain ⟨as, hperm, hlast⟩ := ha.comes_last
    obtain ⟨bs, hperm', hlast'⟩ := hb.comes_last
    have h := (hsame as hperm).trans (hsame bs hperm').symm
    rw [verdict_own _ _ _ _ _ hlast hown, verdict_own _ _ _ _ _ hlast' hown] at h
    revert h
    rcases a.effectApplied with _ | _ | _ <;> rcases b.effectApplied with _ | _ | _ <;>
      simp [outcomeOf]
  · intro hagree
    rcases eq_or_ne observations [] with rfl | hne
    · exact ⟨fun others hperm => by rw [perm_nil.mp hperm], fun _ _ _ _ hmem => by cases hmem⟩
    obtain ⟨best, hbest, hlead⟩ := exists_strongest hne
    constructor
    · intro others hperm
      have hne' : others ≠ [] := fun h => hne (perm_nil.mp (h ▸ hperm.symm))
      obtain ⟨best', hbest', hmem, hle⟩ := exists_strongest hne'
      have hlead' : Strongest observations best' :=
        ⟨hperm.mem_iff.mp hmem, fun o ho => hle o (hperm.mem_iff.mpr ho)⟩
      rw [verdict_own _ _ _ _ _ hbest hown, verdict_own _ _ _ _ _ hbest' hown,
        hagree best' best hlead' hlead, hlead'.same hlead]
    · intro outcome strength h o hmem hstrength
      rw [verdict_own _ _ _ _ _ hbest hown] at h
      cases h
      have h := hagree o best ⟨hmem, hstrength ▸ hlead.2⟩ hlead
      rw [h]
      rcases best.effectApplied with _ | _ | _ <;> simp [outcomeOf]

def lookedUp (applied : Bool) : ObservedEffectState :=
  ⟨.providerIdempotencyLookup, some applied, "", []⟩

/-- Two lookups with the provider, one saying yes and one saying no: the later one counts. -/
theorem verdict_by_order :
    verdict [lookedUp false, lookedUp true] ⟨5⟩ sampleIntent none 0 =
        .ok (.confirmed, .providerIdempotencyLookup) ∧
      verdict [lookedUp true, lookedUp false] ⟨5⟩ sampleIntent none 0 =
        .ok (.notApplied, .providerIdempotencyLookup) :=
  ⟨rfl, rfl⟩

end

/-! ## One candidate after the other -/

section

variable {routes : ReadBackRegistry} {context : RequestContext} {at_ : Timestamp}
  {host : EffectsHost} {candidate : ExternalEffectRecoveryCandidate} {calls : ℕ}

theorem claimDispatch_run (at_ : Timestamp) (hcalm : Calm (calls + 1) host)
    (hask : Askable context host.tables candidate) :
    ∃ host', (claimDispatch context at_ candidate).run host = (.ok true, host') ∧
      Calm calls host' ∧
      Touched context.workspaceId [candidate.subject] host.tables host'.tables := by
  unfold claimDispatch
  split
  · next dispatch hlost =>
    have hexec : exec
        (.adoptLostDispatch context candidate.intent.id dispatch at_) host =
          (.ok .adopted, host.next (host.tables.push ⟨⟨(host.weather host.tick).uuid⟩,
            candidate.intent.id, context.workspaceId, .dispatchLost dispatch, pgTime at_⟩)) := by
      obtain ⟨-, hfree, row, hrow, hid, heffect, hws, hdispatching⟩ := hask.lost dispatch hlost
      have hstarted : (host.tables.transitions.any fun row => row.id == dispatch &&
          row.effectId == candidate.intent.id && row.workspaceId == context.workspaceId &&
          isDispatching row.event) = true := by
        refine any_eq_true.mpr ⟨row, hrow, ?_⟩
        simp [hid, heffect, hws, hdispatching]
      refine hcalm.onTables (t := fun t =>
        t.adoptLostDispatch context candidate.intent.id dispatch at_ _) ?_
      rw [adoptLostDispatch, if_neg (eq_false_iff.mp hfree)]
      refine (refuse_bind_neg (by rw [hstarted]; exact nofun)).trans ?_
      rw [addTransition_fresh hcalm.unused_now.transitions]
      rfl
    refine ⟨_, run_ask_bind hexec, hcalm.next ?_, ?_⟩
    · intro n hn hlt
      have hunused := hcalm.unused n hn.le hlt
      refine ⟨?_, hunused.attempts, hunused.reconciliations⟩
      intro row hrow
      rcases mem_append.mp hrow with hrow | hrow
      · exact hunused.transitions row hrow
      · rw [mem_singleton.mp hrow]
        intro hsame
        exact hcalm.distinct host.tick n le_rfl hn hlt (congrArg Id.asUuid hsame)
    · have hsubject : candidate.subject = (candidate.intent.id, none) := by
        rw [ExternalEffectRecoveryCandidate.subject, (hask.lost dispatch hlost).1]
        rfl
      refine ⟨rfl, rfl, ⟨[_], rfl, ?_⟩, ⟨[], (append_nil _).symm, nofun⟩, fun _ h => h⟩
      intro row hrow
      rw [mem_singleton.mp hrow, hsubject]
      exact ⟨rfl, mem_cons_self⟩
  · exact ⟨host, rfl, hcalm.mono (Nat.le_succ _), Touched.refl _ _ _⟩

def RecoveryError.CouldNotAsk : RecoveryError → Prop
  | .missingReadBackRoute _ | .readBackUnsupported _ | .readBack _ => True
  | .reconciliation _ | .application _ => False

theorem reconcile_of_strongest (id : ExternalReconciliationId) (at_ : Timestamp)
    {observations : List ObservedEffectState} {best : ObservedEffectState}
    (hask : Backed context host.tables candidate) (hbest : strongest observations = some best) :
    ∃ row, reconcile context id candidate.intent candidate.receipt observations at_ = .ok row ∧
      row.id = id ∧ row.effectId = candidate.intent.id ∧
      row.receiptId = candidate.receipt.map (·.id) ∧
      row.outcome = outcomeOf best.effectApplied ∧ row.reconciledAt = at_ := by
  have hrequires : ¬ (candidate.receipt.any fun receipt =>
      !receipt.requiresReconciliation) = true := by
    cases hreceipt : candidate.receipt with
    | none => exact false_ne_true
    | some receipt => simp [(hask.receipt receipt hreceipt).2.1]
  have hbelongs : ¬ (candidate.receipt.any fun receipt =>
      receipt.effectId != candidate.intent.id) = true := by
    cases hreceipt : candidate.receipt with
    | none => exact false_ne_true
    | some receipt => simp [(hask.receipt receipt hreceipt).1]
  refine ⟨⟨id, candidate.intent.id, candidate.receipt.map (·.id), best.evidenceStrength,
    best.stateRef, outcomeOf best.effectApplied, best.evidenceRefs, at_⟩, ?_,
    rfl, rfl, rfl, rfl, rfl⟩
  refine (refuse_bind_neg (not_not.mpr hask.workspace)).trans ?_
  refine (refuse_bind_neg hrequires).trans ?_
  rw [mapError_eq_ok]
  refine (refuse_bind_neg hbelongs).trans ?_
  rw [hbest]
  rfl

theorem reconcile_nil (context : RequestContext) (id : ExternalReconciliationId)
    (intent : ExternalEffectIntent) (receipt : Option ExternalEffectReceipt) (at_ : Timestamp) :
    ∃ e, reconcile context id intent receipt [] at_ = .error e := by
  cases h : reconcile context id intent receipt [] at_ with
  | error e => exact ⟨e, rfl⟩
  | ok row =>
    replace h := of_unit_bind (of_unit_bind h)
    obtain ⟨-, h⟩ := unit_bind_eq_ok.mp (mapError_eq_ok.mp h)
    cases h

theorem askReadBack_run (routes : ReadBackRegistry) (at_ : Timestamp)
    (hcalm : Calm (calls + 3) host) (hask : Backed context host.tables candidate) :
    ∃ result host', (askReadBack routes context at_ candidate).run host = (result, host') ∧
      Calm calls host' ∧
      ((∃ row, result = .ok row ∧ (row.effectId, row.receiptId) = candidate.subject ∧
          row.reconciledAt = at_ ∧
          host'.tables = host.tables.addReconciliation ⟨row, context.workspaceId, none⟩) ∨
        ∃ e : RecoveryError, result = .error e ∧ e.CouldNotAsk ∧ host'.tables = host.tables) := by
  unfold askReadBack
  cases hresolve : routes.resolve candidate.intent.adapter with
  | error e =>
    exact ⟨_, host, rfl, hcalm.mono (by omega),
      .inr ⟨e, rfl, FailsWith.bind (FailsWith.okOr trivial) (fun _ => FailsWith.refuse trivial) e
        hresolve, rfl⟩⟩
  | ok u =>
  have hobserve : exec (.observe candidate.intent candidate.receipt) host =
      ((host.weather host.tick).observed, host.next host.tables) := rfl
  cases hobserved : (host.weather host.tick).observed with
  | error e =>
    rw [hobserved] at hobserve
    exact ⟨.error (.readBack e), _, run_ask_bind hobserve, hcalm.same.mono (by omega),
      .inr ⟨_, rfl, trivial, rfl⟩⟩
  | ok observations =>
  rw [hobserved] at hobserve
  -- the id of the answer is drawn before it is known whether there is one
  have hnewId : exec .newId (host.next host.tables) =
      ((host.weather (host.tick + 1)).uuid, (host.next host.tables).next host.tables) := rfl
  have hdrawn : Calm (calls + 1) ((host.next host.tables).next host.tables) := hcalm.same.same
  cases observations with
  | nil =>
    obtain ⟨e, he⟩ := reconcile_nil context ⟨(host.weather (host.tick + 1)).uuid⟩
      candidate.intent candidate.receipt at_
    refine ⟨.error (.readBack e), _, ?_, hdrawn.mono (Nat.le_succ _),
      .inr ⟨_, rfl, trivial, rfl⟩⟩
    refine (run_ask_bind hobserve).trans ((run_ask_bind hnewId).trans ?_)
    rw [he]
    rfl
  | cons state states =>
    obtain ⟨best, hbest, -⟩ := exists_strongest (cons_ne_nil state states)
    have happlied := hcalm.unsettling host.tick le_rfl (by omega) _ hobserved best hbest
    obtain ⟨row, hrow, hid, heffect, hreceipt, houtcome, hat⟩ :=
      reconcile_of_strongest ⟨(host.weather (host.tick + 1)).uuid⟩ at_ hask hbest
    have hopen : isSettled row.outcome = false := by
      rw [houtcome, happlied]
      rfl
    have hinsert : exec (.insertReconciliation context row)
        ((host.next host.tables).next host.tables) = (.ok (), ((host.next host.tables).next
          host.tables).next (host.tables.addReconciliation ⟨row, context.workspaceId, none⟩)) := by
      refine hdrawn.onTables (t := fun t => t.insertReconciliation context row _) ?_
      refine insertReconciliation_unused
        (hcalm.unused (host.tick + 1) (by omega) (by omega)) hid (heffect ▸ hask.intent) ?_ hopen
      intro receiptId hreceiptId
      rw [hreceipt] at hreceiptId
      obtain ⟨receipt, hof, rfl⟩ := Option.map_eq_some_iff.mp hreceiptId
      obtain ⟨-, -, stored, hstored, rfl, hws⟩ := hask.receipt receipt hof
      exact ⟨stored, hstored, rfl, hws⟩
    refine ⟨.ok row, _, ?_, hdrawn.next ?_, .inl ⟨row, rfl, ?_, hat, rfl⟩⟩
    · refine (run_ask_bind hobserve).trans ((run_ask_bind hnewId).trans ?_)
      rw [hrow]
      exact run_ask_bind hinsert
    · intro n hn hlt
      have htick : ((host.next host.tables).next host.tables).tick = host.tick + 2 := rfl
      have hunused := hcalm.unused n (by omega) (by omega)
      refine ⟨hunused.transitions, hunused.attempts, ?_⟩
      intro old hold
      rcases mem_append.mp hold with hold | hold
      · exact hunused.reconciliations old hold
      · rw [mem_singleton.mp hold]
        intro hsame
        exact hcalm.distinct (host.tick + 1) n (by omega) (by omega) (by omega)
          (congrArg Id.asUuid (hid.symm.trans hsame))
    · rw [heffect, hreceipt, ExternalEffectRecoveryCandidate.subject]

theorem pgBlank_append {first rest : String} (h : pgBlank first = false) :
    pgBlank (first ++ rest) = false := by
  unfold pgBlank at h ⊢
  rw [String.toList_append, all_append, h, Bool.false_and]

theorem ApplicationError.display_not_blank (e : ApplicationError) : pgBlank e.display = false := by
  cases e with
  | domain e =>
    cases e with
    | revisionConflict =>
      exact pgBlank_append (pgBlank_append (pgBlank_append (by decide)))
    | invalidArgument | notFound | policyViolation => exact pgBlank_append (by decide)
  | conflict | policy | unavailable | storage | internal | invalidConfiguration =>
    exact pgBlank_append (by decide)

theorem RecoveryError.display_not_blank (e : RecoveryError) : pgBlank e.display = false := by
  cases e with
  | missingReadBackRoute | readBackUnsupported =>
    exact pgBlank_append (pgBlank_append (by decide))
  | readBack e | reconciliation e | application e => exact ApplicationError.display_not_blank e

theorem Calm.addAttempt {row : RecoveryAttemptRow} (hcalm : Calm (calls + 1) host)
    (hrow : row.id = (host.weather host.tick).uuid) :
    Calm calls (host.next (host.tables.addAttempt row)) := by
  refine hcalm.next fun n hn hlt => ?_
  have hunused := hcalm.unused n hn.le hlt
  refine ⟨hunused.transitions, ?_, hunused.reconciliations⟩
  intro old hold
  rcases mem_append.mp hold with hold | hold
  · exact hunused.attempts old hold
  · rw [mem_singleton.mp hold, hrow]
    exact hcalm.distinct host.tick n le_rfl hn hlt

theorem recoverOne_run (routes : ReadBackRegistry) (at_ : Timestamp)
    (report : ExternalEffectRecoveryReport) (hcalm : Calm (calls + 5) host)
    (hask : Askable context host.tables candidate) :
    ∃ report' host', (recoverOne routes context at_ candidate report).run host =
        (.ok report', host') ∧ Calm calls host' ∧
      Touched context.workspaceId [candidate.subject] host.tables host'.tables ∧
      host'.tables.Marked context.workspaceId at_ candidate.subject ∧
      report'.Covers candidate ∧ report.Extends report' := by
  obtain ⟨host₁, hclaim, hcalm₁, hadopted⟩ := claimDispatch_run at_ hcalm hask
  have hbacked := hask.toBacked.touched hadopted
  obtain ⟨result, host₂, hasked, hcalm₂, hresult⟩ := askReadBack_run routes at_ hcalm₁ hbacked
  have hone : (reconcileCandidate routes context at_ candidate).run host =
      (result.map some, host₂) := by
    rw [reconcileCandidate, run_bind, hclaim]
    show (askReadBack routes context at_ candidate >>= fun row => pure (some row)).run host₁ = _
    rw [run_bind, hasked]
    cases result <;> rfl
  rcases hresult with ⟨row, rfl, hsubject, hat, htables⟩ | ⟨e, rfl, he, htables⟩
  · -- an answer
    refine ⟨⟨report.reconciliations ++ [row], report.runs ++ [candidate.intent.executionRunId],
        report.unreachable, report.saturated⟩, host₂, ?_, hcalm₂.mono (Nat.le_succ _), ?_,
      .inl ⟨⟨row, context.workspaceId, none⟩, ?_⟩,
      .inl ⟨row, mem_append_right _ mem_cons_self, hsubject⟩,
      ⟨subset_append_left _ _, fun _ h => h⟩⟩
    · rw [recoverOne, run_bind, run_attempt, hone]
      rfl
    · refine hadopted.trans ?_
      rw [htables]
      exact Touched.addReconciliation (hsubject ▸ mem_cons_self)
    · rw [htables]
      exact ⟨mem_append_right _ mem_cons_self, rfl, hsubject, congrArg pgTime hat⟩
  · -- nobody could be asked
    have hrecord : exec
        (.recordFailedRecoveryAttempt context candidate.intent.id at_ e.display) host₂ =
          (.ok (), host₂.next (host₂.tables.addAttempt ⟨(host₂.weather host₂.tick).uuid,
            candidate.intent.id, context.workspaceId, pgTime at_, e.display⟩)) := by
      have hintent := htables.symm ▸ hbacked.intent
      refine hcalm₂.onTables (t := fun t =>
        t.recordFailedRecoveryAttempt context candidate.intent.id at_ e.display _) ?_
      refine (refuse_bind_neg (by simp [hintent])).trans ?_
      refine (refuse_bind_neg (by simp [e.display_not_blank])).trans ?_
      refine refuse_bind_neg fun hany => ?_
      obtain ⟨row, hrow, hsame⟩ := any_eq_true.mp hany
      exact hcalm₂.unused_now.attempts row hrow (beq_iff_eq.mp hsame)
    refine ⟨report.cannotAsk candidate e.display, _, ?_, hcalm₂.addAttempt rfl, ?_,
      .inr ⟨⟨(host₂.weather host₂.tick).uuid, candidate.intent.id, context.workspaceId,
        pgTime at_, e.display⟩, mem_append_right _ mem_cons_self, rfl, rfl, rfl⟩,
      .inr ⟨e.display, mem_append_right _ mem_cons_self⟩,
      ⟨fun _ h => h, subset_append_left _ _⟩⟩
    · rw [recoverOne, run_bind, run_attempt, hone]
      show (noteOutcome context at_ candidate report (.error e)).run host₂ = _
      -- only such an error goes on record
      cases e with
      | missingReadBackRoute | readBackUnsupported | readBack => exact run_ask_bind hrecord
      | reconciliation | application => exact he.elim
    · refine hadopted.trans ?_
      rw [← htables]
      exact Touched.addAttempt _

theorem recoverEach_run (routes : ReadBackRegistry) (at_ : Timestamp)
    (candidates : List ExternalEffectRecoveryCandidate) (report : ExternalEffectRecoveryReport)
    (hcalm : Calm (calls + 5 * candidates.length) host)
    (hask : ∀ candidate ∈ candidates, Askable context host.tables candidate)
    (hdistinct : (candidates.map (·.subject)).Nodup) :
    ∃ report' host', (recoverEach routes context at_ candidates report).run host =
        (.ok report', host') ∧ Calm calls host' ∧
      Touched context.workspaceId (candidates.map (·.subject)) host.tables host'.tables ∧
      (∀ candidate ∈ candidates, host'.tables.Marked context.workspaceId at_ candidate.subject ∧
        report'.Covers candidate) ∧ report.Extends report' := by
  induction candidates generalizing host report with
  | nil =>
    exact ⟨report, host, rfl, hcalm, Touched.refl _ _ _,
      fun _ h => absurd h not_mem_nil, ⟨fun _ h => h, fun _ h => h⟩⟩
  | cons first rest ih =>
    rw [map_cons, nodup_cons] at hdistinct
    have hfirst : Calm (calls + 5 * rest.length + 5) host :=
      hcalm.mono (by rw [length_cons]; omega)
    obtain ⟨report₁, host₁, hrun₁, hcalm₁, htouched₁, hmarked₁, hcovers₁, hextends₁⟩ :=
      recoverOne_run routes at_ report hfirst (hask first mem_cons_self)
    have hrest : ∀ candidate ∈ rest, Askable context host₁.tables candidate := by
      intro candidate hmem
      refine (hask candidate (mem_cons_of_mem _ hmem)).touched htouched₁ ?_
      rw [mem_singleton]
      intro hsame
      exact hdistinct.1 (hsame ▸ mem_map_of_mem hmem)
    obtain ⟨report₂, host₂, hrun₂, hcalm₂, htouched₂, hmarked₂, hextends₂⟩ :=
      ih report₁ hcalm₁ hrest hdistinct.2
    refine ⟨report₂, host₂, ?_, hcalm₂, ?_, ?_, ?_⟩
    · rw [recoverEach, run_bind, hrun₁]
      exact hrun₂
    · rw [map_cons]
      exact (htouched₁.mono (by simp)).trans (htouched₂.mono (subset_cons_self _ _))
    · intro candidate hmem
      rcases mem_cons.mp hmem with rfl | hmem
      · exact ⟨hmarked₁.touched htouched₂, hcovers₁.extends hextends₂⟩
      · exact hmarked₂ candidate hmem
    · exact ⟨fun _ h => hextends₂.reconciliations (hextends₁.reconciliations h),
        fun _ h => hextends₂.unreachable (hextends₁.unreachable h)⟩

/-- **An undisturbed sweep** asks about every candidate it finds and changes nothing of others. -/
theorem sweepWith_run (routes : ReadBackRegistry) (at_ : Timestamp) (limit : UInt32)
    (hcalm : Calm (calls + 5 * limit.toNat + 1) host)
    (hask : ∀ candidate ∈ host.tables.findReconciliationCandidates (sweepCutoffs at_) context limit,
      Askable context host.tables candidate)
    (hdistinct : ((host.tables.findReconciliationCandidates (sweepCutoffs at_) context limit).map
      (·.subject)).Nodup) :
    ∃ report host', (sweepWith routes context at_ limit).run host = (.ok report, host') ∧
      Calm calls host' ∧
      Touched context.workspaceId ((host.tables.findReconciliationCandidates (sweepCutoffs at_)
        context limit).map (·.subject)) host.tables host'.tables ∧
      ∀ candidate ∈ host.tables.findReconciliationCandidates (sweepCutoffs at_) context limit,
        host'.tables.Marked context.workspaceId at_ candidate.subject ∧
          report.Covers candidate := by
  have hfind : exec
      (.findReconciliationCandidates context (sweepCutoffs at_) limit) host =
        (.ok (host.tables.findReconciliationCandidates (sweepCutoffs at_) context limit),
          host.next host.tables) :=
    hcalm.onTables (t := fun t =>
      .ok (t.findReconciliationCandidates (sweepCutoffs at_) context limit, t)) rfl
  have hcost := host.tables.length_findReconciliationCandidates_le (sweepCutoffs at_) context limit
  have hloop : Calm (calls + 5 * (host.tables.findReconciliationCandidates (sweepCutoffs at_)
      context limit).length) (host.next host.tables) := hcalm.same.mono (by omega)
  obtain ⟨report, host', hrun, hcalm', htouched, hmarked, -⟩ :=
    recoverEach_run routes at_ (host.tables.findReconciliationCandidates (sweepCutoffs at_)
      context limit) ⟨[], [], [], _⟩ hloop hask hdistinct
  exact ⟨report, host', (run_ask_bind hfind).trans hrun, hcalm', htouched, hmarked⟩

end

end Vestrace.Effects
