import Vestrace.Effects.Delivery
import Vestrace.Effects.Sweep
import Vestrace.Lib.Exclusive

/-!
# Settled once

Whether an effect can be settled twice, and its run told twice, when any number of workers
recover, deliver and perform at the same time. Nothing in the tables forbids it: two workers
that find the same receipt both settle it (`effect_settled_twice`). What it takes that they do
not is `settlementPact`.
-/

namespace Vestrace.Effects

open Lib Vestrace.Legacy EffectTables EffectsHost Pact Safe List Function Bool
  ExternalEffectRecoveryCandidate ReconciliationRow

variable {ε α : Type} {id : ExternalReconciliationId} {p : EffectProg ε α}
  {intent : ExternalEffectIntent} {causationId : OperationId}

/-! ## What is on record of one effect -/

section

variable (ws : WorkspaceId) (effect : ExternalEffectId) (run : AgentRunId)

def receiptsOf (tables : EffectTables) : List ExternalEffectReceiptId :=
  (tables.receipts.filter fun row =>
    row.receipt.effectId == effect && row.workspaceId == ws).map (·.receipt.id)

def answersOf (tables : EffectTables) : List ExternalReconciliation :=
  (tables.reconciliations.filter fun row =>
    row.reconciliation.effectId == effect && row.workspaceId == ws).map (·.reconciliation)

/-- The settled answers the run has not been told. -/
def owedOf (tables : EffectTables) : List ExternalReconciliation :=
  (tables.reconciliations.filter fun row => row.reconciliation.effectId == effect &&
    row.workspaceId == ws && row.settled && row.notifiedAt.isNone).map (·.reconciliation)

def tells : Run.RunEventRow → Bool
  | .canonical _ => false
  | .legacy event =>
    match event.payload with
    | .externalEffectSettled id .. => id == effect
    | _ => false

/-- The receipts, answers and debts of an effect, and how many times a run was told of it. -/
structure EffectView where
  receipts : List ExternalEffectReceiptId
  answers : List ExternalReconciliation
  owed : List ExternalReconciliation
  told : ℕ
  deriving DecidableEq, Repr

def EffectView.settled (v : EffectView) : List ExternalReconciliation :=
  v.answers.filter fun answer => isSettled answer.outcome

def viewOf (host : EffectsHost) : EffectView where
  receipts := receiptsOf ws effect host.tables
  answers := answersOf ws effect host.tables
  owed := owedOf ws effect host.tables
  told := (host.runs ws run).events.countP (tells effect)

def Inert : EffectCall → Prop
  | .insertReceipt context receipt => ¬ (context.workspaceId = ws ∧ receipt.effectId = effect)
  | .insertReconciliation context reconciliation =>
    ¬ (context.workspaceId = ws ∧ reconciliation.effectId = effect)
  | .markOutcomeDelivered context .. => context.workspaceId ≠ ws
  | .appendEvents context runId _ events => context.workspaceId = ws → runId = run →
      ∀ event ∈ events, tells effect (.legacy event) = false
  | _ => True

end

variable {ws : WorkspaceId} {effect : ExternalEffectId} {run runId : AgentRunId}
  {host : EffectsHost} {tables : EffectTables} {ctx : RequestContext} {at_ : Timestamp}
  {call : EffectCall} {fault : Option Fault} {v : EffectView} {head : Run.RunVersion}
  {report : OutcomeDeliveryReport} {ε α : Type} {answer : ExternalReconciliation}
  {t : EffectTables → AppResult (α × EffectTables)}

def SameRows (ws : WorkspaceId) (effect : ExternalEffectId) (tables tables' : EffectTables) :
    Prop :=
  receiptsOf ws effect tables' = receiptsOf ws effect tables ∧
    answersOf ws effect tables' = answersOf ws effect tables ∧
    owedOf ws effect tables' = owedOf ws effect tables

theorem viewOf_congr {host' : EffectsHost} (htables : SameRows ws effect host.tables host'.tables)
    (htold : (host'.runs ws run).events.countP (tells effect) =
      (host.runs ws run).events.countP (tells effect)) :
    viewOf ws effect run host' = viewOf ws effect run host := by
  obtain ⟨hreceipts, hanswers, howed⟩ := htables
  rw [viewOf, viewOf, hreceipts, hanswers, howed, htold]

/-- What is added to a table is seen if it is asked for. -/
theorem map_filter_concat {α β : Type} (p : α → Bool) (f : α → β) (rows : List α) (row : α) :
    ((rows ++ [row]).filter p).map f =
      (rows.filter p).map f ++ if p row = true then [f row] else [] := by
  rw [filter_append, map_append]
  cases h : p row <;> simp [h]

theorem receiptsOf_addReceipt (row : ReceiptRow) :
    receiptsOf ws effect (tables.addReceipt row) = receiptsOf ws effect tables ++
      if row.receipt.effectId = effect ∧ row.workspaceId = ws then [row.receipt.id] else [] := by
  simp only [receiptsOf, addReceipt, map_filter_concat, and_eq_true, beq_iff_eq]

theorem answersOf_addReconciliation (row : ReconciliationRow) :
    answersOf ws effect (tables.addReconciliation row) = answersOf ws effect tables ++
      if row.reconciliation.effectId = effect ∧ row.workspaceId = ws then [row.reconciliation]
      else [] := by
  simp only [answersOf, addReconciliation, map_filter_concat, and_eq_true, beq_iff_eq]

theorem owedOf_addReconciliation_of_ne {row : ReconciliationRow}
    (h : ¬ (row.reconciliation.effectId = effect ∧ row.workspaceId = ws)) :
    owedOf ws effect (tables.addReconciliation row) = owedOf ws effect tables := by
  simp only [owedOf, addReconciliation, map_filter_concat, and_eq_true, beq_iff_eq]
  rw [if_neg fun hsame => h hsame.1.1, append_nil]

/-- A mark changes no answer. -/
theorem answersOf_notify :
    answersOf ws effect (tables.notify ctx id at_) = answersOf ws effect tables := by
  have hsame : ∀ row : ReconciliationRow, ((if owedUnder ctx id row then
      { row with notifiedAt := some (pgTime at_) } else row).reconciliation = row.reconciliation) ∧
      (if owedUnder ctx id row then
        { row with notifiedAt := some (pgTime at_) } else row).workspaceId = row.workspaceId := by
    intro row
    split <;> exact ⟨rfl, rfl⟩
  rw [answersOf, notify, filter_map, map_map, answersOf]
  simp only [comp_def, hsame]

theorem owedOf_notify :
    owedOf ws effect (tables.notify ctx id at_) = (owedOf ws effect tables).filter
      fun answer => decide ¬ (ctx.workspaceId = ws ∧ answer.id = id) := by
  rw [owedOf, notify, filter_map, map_map, owedOf, filter_map,
    filter_filter]
  have hfilter : ∀ row : ReconciliationRow,
      ((fun row : ReconciliationRow => row.reconciliation.effectId == effect &&
        row.workspaceId == ws && row.settled && row.notifiedAt.isNone) ∘ fun row =>
          if owedUnder ctx id row then
            { row with notifiedAt := some (pgTime at_) } else row) row =
      (((fun answer : ExternalReconciliation =>
          decide ¬ (ctx.workspaceId = ws ∧ answer.id = id)) ∘
        fun row : ReconciliationRow => row.reconciliation) row &&
        (row.reconciliation.effectId == effect && row.workspaceId == ws && row.settled &&
          row.notifiedAt.isNone)) := by
    intro row
    simp only [comp_apply]
    by_cases howed : owedUnder ctx id row = true
    · -- paid now: it was owed here or is of another workspace
      rw [if_pos howed]
      simp only [owedUnder, and_eq_true, beq_iff_eq] at howed
      by_cases hws : ctx.workspaceId = ws <;> simp [howed.1.1, howed.1.2, hws]
    · rw [if_neg howed]
      by_cases hid : ctx.workspaceId = ws ∧ row.reconciliation.id = id
      · -- the id is right, so it is not of this workspace, or already paid
        have hnot : (row.workspaceId == ws && row.notifiedAt.isNone) = false := by
          refine eq_false_iff.mpr fun hboth => howed ?_
          rw [and_eq_true, beq_iff_eq] at hboth
          simp [owedUnder, hid.1, hid.2, hboth.1, hboth.2]
        rw [and_eq_false_iff] at hnot
        rcases hnot with hnot | hnot <;> simp [hid, hnot]
      · simp [hid]
  rw [filter_congr fun row _ => hfilter row]
  refine map_congr_left fun row _ => ?_
  rw [comp_apply]
  split <;> rfl

theorem SameRows.of_eq {tables' : EffectTables} (hreceipts : tables'.receipts = tables.receipts)
    (hreconciliations : tables'.reconciliations = tables.reconciliations) :
    SameRows ws effect tables tables' := by
  unfold SameRows receiptsOf answersOf owedOf
  rw [hreceipts, hreconciliations]
  exact ⟨rfl, rfl, rfl⟩

theorem viewOf_onTables_of {Q : EffectView → Prop} (hsame : Q (viewOf ws effect run host))
    (ht : ∀ a tables, t host.tables = .ok (a, tables) →
      Q (viewOf ws effect run { host with tables })) :
    Q (viewOf ws effect run (host.onTables t fault).2) := by
  rw [viewOf, onTables_runs]
  exact onTables_tables (Q := fun tables =>
    Q (viewOf ws effect run { host with tables })) hsame ht

theorem viewOf_onTables
    (ht : ∀ a tables, t host.tables = .ok (a, tables) → SameRows ws effect host.tables tables) :
    viewOf ws effect run (host.onTables t fault).2 = viewOf ws effect run host :=
  viewOf_onTables_of (Q := (· = viewOf ws effect run host)) rfl
    fun a tables hok => viewOf_congr (ht a tables hok) rfl

theorem receiptsOf_addReceipt_of_ne {row : ReceiptRow}
    (h : ¬ (row.workspaceId = ws ∧ row.receipt.effectId = effect)) :
    receiptsOf ws effect (tables.addReceipt row) = receiptsOf ws effect tables := by
  rw [receiptsOf_addReceipt, if_neg fun hsame => h hsame.symm, append_nil]

theorem viewOf_onRun {t : Run.RunDb → AppResult (α × Run.RunDb)}
    (ht : ctx.workspaceId = ws → runId = run → ∀ a db, t (host.runs ws run) = .ok (a, db) →
      db.events.countP (tells effect) = (host.runs ws run).events.countP (tells effect)) :
    viewOf ws effect run (host.onRun ctx runId t fault).2 = viewOf ws effect run host := by
  refine viewOf_congr ?_ ?_
  · rw [onRun_tables]
    exact ⟨rfl, rfl, rfl⟩
  · exact onRun_runs (Q := fun db : Run.RunDb => db.events.countP (tells effect) =
      (host.runs ws run).events.countP (tells effect)) rfl ht

theorem Inert.exec (h : Inert ws effect run call) (host : EffectsHost) :
    viewOf ws effect run (exec call host).2 = viewOf ws effect run host := by
  cases call with
  | newId | evaluate | dispatch | observe => rfl
  | loadStreamHead => exact viewOf_onRun fun _ _ _ _ hok => by cases hok; rfl
  | appendEvents ctx runId head events =>
    refine viewOf_onRun fun hws hrun version db hok => ?_
    subst hws hrun
    rw [Run.RunDb.append_events hok, countP_append]
    refine (congrArg _ ?_).trans (Nat.add_zero _)
    refine countP_eq_zero.mpr fun row hrow htells => ?_
    obtain ⟨event, hevent, rfl⟩ := mem_map.mp hrow
    rw [h rfl rfl event hevent] at htells
    cases htells
  | insertIntent =>
    refine viewOf_onTables fun _ _ hok => ?_
    obtain ⟨-, ⟨-, rfl⟩ | ⟨-, -, rfl⟩⟩ := insertIntent_ok hok <;>
      exact SameRows.of_eq rfl rfl
  | recordAuthorization =>
    refine viewOf_onTables fun _ _ hok => ?_
    obtain ⟨-, -, rfl⟩ := recordAuthorization_ok hok
    split <;> exact SameRows.of_eq rfl rfl
  | recordDispatchStarted =>
    refine viewOf_onTables fun _ _ hok => ?_
    obtain ⟨-, rfl⟩ := recordDispatchStarted_ok hok
    exact SameRows.of_eq rfl rfl
  | insertReceipt =>
    refine viewOf_onTables fun _ _ hok => ?_
    obtain rfl | ⟨-, -, rfl⟩ := insertReceipt_ok hok
    · exact SameRows.of_eq rfl rfl
    · exact ⟨receiptsOf_addReceipt_of_ne h, rfl, rfl⟩
  | findReconciliationCandidates | findUndeliveredOutcomes =>
    exact viewOf_onTables fun _ _ hok => by cases hok; exact SameRows.of_eq rfl rfl
  | adoptLostDispatch =>
    refine viewOf_onTables fun _ _ hok => ?_
    obtain rfl | ⟨-, -, rfl⟩ := adoptLostDispatch_ok hok <;>
      exact SameRows.of_eq rfl rfl
  | recordFailedRecoveryAttempt =>
    refine viewOf_onTables fun _ _ hok => ?_
    rw [recordFailedRecoveryAttempt_ok hok]
    exact SameRows.of_eq rfl rfl
  | insertReconciliation ctx reconciliation =>
    refine viewOf_onTables fun _ _ hok => ?_
    obtain rfl | ⟨-, -, rfl⟩ := insertReconciliation_ok hok
    · exact SameRows.of_eq rfl rfl
    have hother : ¬ (reconciliation.effectId = effect ∧ ctx.workspaceId = ws) :=
      fun hsame => h hsame.symm
    have hrows : SameRows ws effect host.tables
        (host.tables.addReconciliation ⟨reconciliation, ctx.workspaceId, none⟩) := by
      refine ⟨rfl, ?_, owedOf_addReconciliation_of_ne hother⟩
      rw [answersOf_addReconciliation, if_neg hother, append_nil]
    split <;> exact hrows
  | markOutcomeDelivered ctx id at_ =>
    refine viewOf_onTables fun _ _ hok => ?_
    obtain rfl | ⟨row, -, status, -, -, -, rfl⟩ := markOutcomeDelivered_ok hok
    · exact SameRows.of_eq rfl rfl
    · refine ⟨rfl, answersOf_notify, owedOf_notify.trans (filter_eq_self.mpr ?_)⟩
      intro answer _
      exact decide_eq_true fun hsame => h hsame.1
  | recordWorkerPresence =>
    refine viewOf_onTables fun _ _ hok => ?_
    obtain ⟨presence, rfl⟩ := recordWorkerPresence_ok hok
    exact SameRows.of_eq rfl rfl
  | clearWorkerPresence =>
    refine viewOf_onTables fun _ _ hok => ?_
    obtain ⟨presence, rfl⟩ := clearWorkerPresence_ok hok
    exact SameRows.of_eq rfl rfl

/-! ## Those at work -/

inductive EffectJob where
  | recover (routes : ReadBackRegistry) (context : RequestContext) (reconciledAt : Timestamp)
      (cutoffs : Cutoffs) (limit : UInt32)
  | deliver (context : RequestContext) (at_ : Timestamp)
  | perform (owner : WorkerId) (context : RequestContext) (intent : ExternalEffectIntent)
      (descriptor : ExternalEffectAdapterDescriptor) (at_ : Timestamp)
  | other (call : EffectCall)

def quietly {ε α : Type} (p : EffectProg ε α) : EffectProg Unit Unit := do
  let _ ← p.attempt
  return ()

def EffectJob.program : EffectJob → EffectProg Unit Unit
  | .recover routes context reconciledAt cutoffs limit =>
    quietly (recoveryRun routes context reconciledAt cutoffs limit)
  | .deliver context at_ => quietly (deliverOnce context at_)
  | .perform owner context intent descriptor at_ =>
    quietly (Effects.perform owner context intent descriptor at_)
  | .other call => quietly (ask call : EffectProg Unit call.Answer)

section

variable (ws : WorkspaceId) (effect : ExternalEffectId) (run : AgentRunId)

def EffectJob.Recovers : EffectJob → Prop
  | .recover _ context .. => context.workspaceId = ws
  | _ => False

def EffectJob.Delivers : EffectJob → Prop
  | .deliver context _ => context.workspaceId = ws
  | _ => False

def Receives : EffectCall → Prop
  | .insertReceipt context receipt => context.workspaceId = ws ∧ receipt.effectId = effect
  | _ => False

/-- A call of somebody who neither settles the effect nor tells its run. -/
def Bystander (call : EffectCall) : Prop := Inert ws effect run call ∨ Receives ws effect call

/-- What is on record of an effect that is settled at most once: one receipt; one settled answer,
about it and later than what else was said; and the run is told once, of an answer there is. -/
structure ViewOk (v : EffectView) : Prop where
  receipts : v.receipts.length ≤ 1
  once : v.settled.length ≤ 1
  latest : ∀ answer ∈ v.settled, answer.receiptId = v.receipts.head? ∧
    ∀ other ∈ v.answers, isSettled other.outcome = false → other.receiptId = answer.receiptId →
      pgTime other.reconciledAt < pgTime answer.reconciledAt
  owed : ∀ answer ∈ v.owed, answer ∈ v.settled
  told : v.told ≤ 1
  answered : v.told ≠ 0 → v.settled ≠ []

def EffectView.Paid (v : EffectView) : Prop := v.told = 0 ∨ v.owed = []

def MayCall (host : EffectsHost) : EffectCall → Prop
  | .insertReceipt context receipt => context.workspaceId = ws → receipt.effectId = effect →
      (viewOf ws effect run host).receipts = [] ∧ (viewOf ws effect run host).settled = []
  | .appendEvents .. => ∀ message,
      (host.weather host.tick).fault ≠ some (.unacknowledged message)
  | .markOutcomeDelivered .. =>
      (∀ message, (host.weather host.tick).fault ≠ some (.refused message)) ∧
        host.tables.FreshTransition (host.weather host.tick).uuid
  | _ => True

/-- **The pact about one effect.** Recoveries of its workspace are not under way together, nor are
deliveries. A receipt is recorded only for an effect that has none and is not settled, and not
beside a recovery. Commits are acknowledged, marks go through, and no delivery stops before the
mark. -/
def settlementPact : Pact effectPorts EffectJob where
  Inv := fun host => host.tables.Consistent ∧ ViewOk (viewOf ws effect run host)
  Goal := fun host => (viewOf ws effect run host).Paid
  Owes := fun host job call => job.Delivers ws ∧ ∃ context id at_,
    call = .markOutcomeDelivered context id at_ ∧ context.workspaceId = ws ∧
      ∀ answer ∈ (viewOf ws effect run host).owed, answer.id = id
  Job := fun
    | .recover _ _ reconciledAt cutoffs _ => cutoffs.retryUnsettledBefore ≤ reconciledAt
    | .other call => Bystander ws effect run call
    | _ => True
  Clash := fun job job' =>
    (job.Recovers ws ∧ job'.Recovers ws) ∨ (job.Delivers ws ∧ job'.Delivers ws)
  Bars := fun job call => job.Recovers ws ∧ Receives ws effect call
  Allowed := fun host _ call => MayCall ws effect run host call
  Rely := fun job s t =>
    (job.Recovers ws → (viewOf ws effect run t).receipts = (viewOf ws effect run s).receipts ∧
      (viewOf ws effect run t).answers = (viewOf ws effect run s).answers) ∧
    (job.Delivers ws → (viewOf ws effect run t).told = (viewOf ws effect run s).told ∧
      ((viewOf ws effect run s).Paid → (viewOf ws effect run t).Paid) ∧
      (viewOf ws effect run s).answers ⊆ (viewOf ws effect run t).answers)
  clash_symm := fun h => h.imp And.symm And.symm
  rely_refl := fun _ _ => ⟨fun _ => ⟨rfl, rfl⟩, fun _ => ⟨rfl, fun h => h, fun _ h => h⟩⟩
  rely_trans := by
    rintro job s t u ⟨hrecover, hdeliver⟩ ⟨hrecover', hdeliver'⟩
    refine ⟨fun h => ?_, fun h => ?_⟩
    · exact ⟨(hrecover' h).1.trans (hrecover h).1, (hrecover' h).2.trans (hrecover h).2⟩
    · obtain ⟨htold, hpaid, hanswers⟩ := hdeliver h
      obtain ⟨htold', hpaid', hanswers'⟩ := hdeliver' h
      exact ⟨htold'.trans htold, fun hs => hpaid' (hpaid hs), fun _ ha => hanswers' (hanswers ha)⟩

end

variable {job : EffectJob} {rest : EffectProg ε α}

section

variable (hinv : (settlementPact ws effect run).Inv host)

include hinv

theorem guar_of_kept {receipts : List ExternalEffectReceiptId}
    (hview : viewOf ws effect run (exec call host).2 = { viewOf ws effect run host with receipts })
    (hok : ViewOk { viewOf ws effect run host with receipts })
    (hreceipts : receipts = (viewOf ws effect run host).receipts ∨ Receives ws effect call)
    (hmark : ∀ ctx id at_, call = .markOutcomeDelivered ctx id at_ →
      ctx.workspaceId ≠ ws) :
    (settlementPact ws effect run).Guar host (exec call host).2 job call rest := by
  refine ⟨⟨hinv.1.exec call, hview ▸ hok⟩, ?_, ?_, ?_⟩
  · intro job' _ hbars
    show (EffectJob.Recovers ws job' → _ ∧ _) ∧ (EffectJob.Delivers ws job' → _ ∧ _ ∧ _)
    rw [hview]
    refine ⟨fun hrecovers => ⟨?_, rfl⟩, fun _ => ⟨rfl, id, List.Subset.refl _⟩⟩
    exact hreceipts.resolve_right fun hreceives => hbars ⟨hrecovers, hreceives⟩
  · rintro (hgoal | ⟨-, ctx, id, at_, hcall, hws, -⟩)
    · refine .inl ?_
      show (viewOf ws effect run _).Paid
      rw [hview]
      exact hgoal
    · exact absurd hws (hmark ctx id at_ hcall)
  · rintro job' call' - ⟨hjob, ctx, id, at_, hcall, hws, howes⟩
    refine .inr ⟨hjob, ctx, id, at_, hcall, hws, ?_⟩
    rw [hview]
    exact howes

theorem guar_of_same (hview : viewOf ws effect run (exec call host).2 = viewOf ws effect run host)
    (hmark : ∀ ctx id at_, call = .markOutcomeDelivered ctx id at_ →
      ctx.workspaceId ≠ ws) :
    (settlementPact ws effect run).Guar host (exec call host).2 job call rest :=
  guar_of_kept hinv hview hinv.2 (.inl rfl) hmark

theorem guar_of_inert (hcall : Inert ws effect run call) :
    (settlementPact ws effect run).Guar host (exec call host).2 job call rest := by
  refine guar_of_same hinv (hcall.exec host) ?_
  rintro ctx id at_ rfl
  exact hcall

end

theorem receives_exec (host : EffectsHost) (ctx : RequestContext)
    (receipt : ExternalEffectReceipt) :
    viewOf ws effect run (exec (.insertReceipt ctx receipt) host).2 =
        viewOf ws effect run host ∨
      viewOf ws effect run (exec (.insertReceipt ctx receipt) host).2 =
        { viewOf ws effect run host with
          receipts := (viewOf ws effect run host).receipts ++ [receipt.id] } := by
  refine viewOf_onTables_of (Q := fun v => v = _ ∨ v = _) (.inl rfl) fun _ tables hok => ?_
  obtain rfl | ⟨-, -, rfl⟩ := insertReceipt_ok hok
  · exact .inl rfl
  by_cases hmine : receipt.effectId = effect ∧ ctx.workspaceId = ws
  · right
    refine congrArg (EffectView.mk · _ _ _) ((receiptsOf_addReceipt _).trans ?_)
    rw [if_pos hmine]
    rfl
  · left
    exact viewOf_congr ⟨receiptsOf_addReceipt_of_ne fun hsame => hmine hsame.symm, rfl, rfl⟩ rfl

theorem guar_of_receives (hinv : (settlementPact ws effect run).Inv host)
    (hcall : Receives ws effect call) (hallowed : MayCall ws effect run host call) :
    (settlementPact ws effect run).Guar host (exec call host).2 job call rest := by
  cases call with
  | insertReceipt ctx receipt =>
    obtain ⟨hnone, hopen⟩ := hallowed hcall.1 hcall.2
    rcases receives_exec host ctx receipt with hsame | hadded
    · exact guar_of_same hinv hsame nofun
    · have hok := hinv.2
      have hadded' : ViewOk { viewOf ws effect run host with
          receipts := (viewOf ws effect run host).receipts ++ [receipt.id] } := by
        refine ⟨?_, hok.once, ?_, hok.owed, hok.told, hok.answered⟩
        · rw [hnone]
          exact le_rfl
        · intro answer hanswer
          have hsettled : answer ∈ (viewOf ws effect run host).settled := hanswer
          rw [hopen] at hsettled
          cases hsettled
      exact guar_of_kept hinv hadded hadded' (.inr hcall) nofun
  | _ => exact hcall.elim

theorem safe_of_makes_bystander (hp : p.Makes (Bystander ws effect run)) :
    (settlementPact ws effect run).Safe job p host fun _ _ => True :=
  of_makes (K := fun _ => True) hp (fun _ _ _ h => h)
    (fun _ _ _ hcall hinv hallowed => ⟨hcall.elim (guar_of_inert hinv) fun hreceives =>
      guar_of_receives hinv hreceives hallowed, fun h => h⟩) trivial

theorem safe_of_makes_inert {K : EffectView → Prop}
    (hp : p.Makes (Inert ws effect run))
    (hstable : ∀ s t, (settlementPact ws effect run).Rely job s t →
      K (viewOf ws effect run s) → K (viewOf ws effect run t))
    (h : K (viewOf ws effect run host)) :
    (settlementPact ws effect run).Safe job p host fun _ t => K (viewOf ws effect run t) := by
  refine of_makes (K := fun t => K (viewOf ws effect run t)) hp hstable ?_ h
  intro call t rest hcall hinv _
  refine ⟨guar_of_inert hinv hcall, ?_⟩
  show K _ → K _
  rw [hcall.exec]
  exact id

/-- Performing an effect settles nothing and tells nobody. -/
theorem perform_makes {descriptor : ExternalEffectAdapterDescriptor} {owner : WorkerId} :
    (perform owner ctx intent descriptor at_).Makes (Bystander ws effect run) := by
  have hask : ∀ {ε : Type} {call : EffectCall}, Inert ws effect run call →
      (ask call : EffectProg ε call.Answer).Makes (Bystander ws effect run) :=
    fun hcall => .perform (.inl hcall)
  have hlift : ∀ {ε α : Type} (x : Except ε α),
      (liftM x : EffectProg ε α).Makes (Bystander ws effect run) := fun x => .lift x
  refine .bind (.bind (hask trivial) fun _ => .bind (hlift _)
    fun _ => ?_) fun _ => .bind ?_ fun _ => ?_
  · -- the authority
    refine .bind (hask trivial) fun _ => .bind (hlift _) fun _ => ?_
    refine .bind (hlift _) fun _ => .bind (hask trivial) fun _ => ?_
    exact .bind (hlift _) fun _ => hlift _
  · -- the dispatch
    refine .bind (hlift _) fun _ => .bind (hlift _) fun _ => ?_
    refine .bind (hask trivial) fun _ => .bind (hlift _) fun _ => ?_
    refine .bind (hlift _) fun _ => .bind (hask trivial) fun _ => ?_
    exact .bind (hlift _) fun _ => .bind (hask trivial)
      fun _ => .pure _
  · -- the receipt
    refine .bind (.perform (em _).symm) fun _ => ?_
    exact .bind (hlift _) fun _ => .pure _

open EffectJob

/-! ## Recovery -/

section

variable {routes : ReadBackRegistry} {cutoffs : Cutoffs} {limit : UInt32}
  {candidate : ExternalEffectRecoveryCandidate} {row : CandidateRow}
  {report : ExternalEffectRecoveryReport}

variable (effect) in
/-- What a recovery knows of a candidate of the effect until it has recorded an answer: nothing
is settled, the receipt is the effect's, and what was said of it is older. -/
structure Fits (at_ : Timestamp) (v : EffectView) (candidate : ExternalEffectRecoveryCandidate) :
    Prop where
  open_ : v.settled = []
  receipt : candidate.receipt.map (·.id) = v.receipts.head?
  older : ∀ answer ∈ v.answers, answer.receiptId = candidate.receipt.map (·.id) →
    pgTime answer.reconciledAt < pgTime at_

variable (effect) in
def Ready (at_ : Timestamp) (candidates : List ExternalEffectRecoveryCandidate) (v : EffectView) :
    Prop :=
  ∀ candidate ∈ candidates, candidate.intent.id = effect → Fits at_ v candidate

variable (effect) in
def Single (candidates : List ExternalEffectRecoveryCandidate) : Prop :=
  candidates.Pairwise fun a b => ¬ (a.intent.id = effect ∧ b.intent.id = effect)

theorem mem_answersOf : answer ∈ answersOf ws effect tables ↔ ∃ row,
      (row ∈ tables.reconciliations ∧ row.reconciliation.effectId = effect ∧
        row.workspaceId = ws) ∧ row.reconciliation = answer := by
  simp only [answersOf, mem_map, mem_filter, and_eq_true, beq_iff_eq]

theorem mem_settled : answer ∈ v.settled ↔ answer ∈ v.answers ∧ isSettled answer.outcome = true :=
  mem_filter

theorem candidate_receipt (hok : ViewOk (viewOf ws effect run host))
    (hrow : row ∈ host.tables.candidateRows ws cutoffs)
    (heffect : row.candidate.intent.id = effect) :
    row.candidate.receipt.map (·.id) = (viewOf ws effect run host).receipts.head? := by
  show _ = (receiptsOf ws effect host.tables).head?
  rcases mem_candidateRows.mp hrow with ⟨receipt, hreceipt, h⟩ | ⟨transition, -, h⟩
  · obtain ⟨intent, -, hof, hws, -, -, rfl⟩ := receiptRow_eq_some h
    have hmem : receipt.receipt.id ∈ receiptsOf ws effect host.tables := by
      refine mem_map.mpr ⟨receipt, mem_filter.mpr ⟨hreceipt, ?_⟩, rfl⟩
      simp [hof, hws, show intent.id = effect from heffect]
    have hone : (receiptsOf ws effect host.tables).length ≤ 1 := hok.receipts
    obtain ⟨id, hids⟩ := length_eq_one_iff.mp
      (le_antisymm hone (length_pos_of_mem hmem))
    rw [hids] at hmem ⊢
    exact congrArg some (mem_singleton.mp hmem)
  · obtain ⟨intent, lost, -, -, -, -, hnone, -, rfl⟩ := lostDispatchRow_eq_some h
    have hempty : receiptsOf ws effect host.tables = [] := by
      rw [receiptsOf, map_eq_nil_iff, filter_eq_nil_iff]
      intro receipt hreceipt hsame
      rw [show intent.id = effect from heffect] at hnone
      exact eq_false_iff.mp hnone (any_eq_true.mpr ⟨receipt, hreceipt, hsame⟩)
    rw [hempty]
    rfl

theorem candidate_fits (hok : ViewOk (viewOf ws effect run host))
    (hcutoff : cutoffs.retryUnsettledBefore ≤ at_)
    (hrow : row ∈ host.tables.candidateRows ws cutoffs)
    (heffect : row.candidate.intent.id = effect) :
    Fits at_ (viewOf ws effect run host) row.candidate := by
  have hreceipt := candidate_receipt hok hrow heffect
  have hmay := candidateRows_mayAsk hrow
  rw [mayAsk, and_eq_true] at hmay
  -- whatever was said of the subject, there is a last word: it settles nothing, and is old
  have hlast : ∀ answer ∈ (viewOf ws effect run host).answers,
      answer.receiptId = row.candidate.receipt.map (·.id) →
      ∃ last ∈ (viewOf ws effect run host).answers, isSettled last.outcome = false ∧
        last.receiptId = row.candidate.receipt.map (·.id) ∧
        pgTime last.reconciledAt < pgTime cutoffs.retryUnsettledBefore ∧
        pgTime answer.reconciledAt ≤ pgTime last.reconciledAt := by
    intro answer hanswer hof
    obtain ⟨said, ⟨hsaid, hsaideffect, hws⟩, rfl⟩ := mem_answersOf.mp hanswer
    obtain ⟨last, hfound, hle⟩ := exists_lastReconciliation hsaid hws
    rw [hsaideffect, ← heffect, hof] at hfound
    obtain ⟨hmem, hlasteffect, hlastof, hlastws⟩ := lastReconciliation_mem hfound
    have hword := hmay.1
    rw [show host.tables.lastReconciliation ws row.candidate.subject.1 row.candidate.subject.2 =
      some last from hfound] at hword
    simp only [Option.all_some, and_eq_true, not_eq_true', decide_eq_true_eq] at hword
    exact ⟨last.reconciliation, mem_answersOf.mpr ⟨last, ⟨hmem, hlasteffect.trans heffect,
      hlastws⟩, rfl⟩, hword.1, hlastof, hword.2, hle⟩
  refine ⟨?_, hreceipt, ?_⟩
  · refine eq_nil_iff_forall_not_mem.mpr fun answer hanswer => ?_
    obtain ⟨hanswers, hsettled⟩ := mem_settled.mp hanswer
    obtain ⟨hof, hlatest⟩ := hok.latest answer hanswer
    obtain ⟨last, hlast, hunsettled, hlastof, -, hle⟩ :=
      hlast answer hanswers (hof.trans hreceipt.symm)
    have hlt := hlatest last hlast hunsettled (hlastof.trans (hreceipt.trans hof.symm))
    exact lt_irrefl _ (hlt.trans_le hle)
  · intro answer hanswer hof
    obtain ⟨last, -, -, -, hold, hle⟩ := hlast answer hanswer hof
    exact (hle.trans_lt hold).trans_le (pgTime_mono hcutoff)

theorem found_ready (limit : UInt32) (hinv : (settlementPact ws effect run).Inv host)
    (hws : ctx.workspaceId = ws) (hcutoff : cutoffs.retryUnsettledBefore ≤ at_) :
    Ready effect at_ (host.tables.findReconciliationCandidates cutoffs ctx limit)
        (viewOf ws effect run host) ∧
      Single effect (host.tables.findReconciliationCandidates cutoffs ctx limit) := by
  refine ⟨?_, ?_⟩
  · intro candidate hfound heffect
    obtain ⟨row, hrow, rfl⟩ := exists_row_of_found hfound
    exact candidate_fits hinv.2 hcutoff (hws ▸ hrow) heffect
  · have hdistinct : ((host.tables.findReconciliationCandidates cutoffs ctx limit).map
        (·.subject)).Nodup := hinv.1.found_nodup
    refine (pairwise_map.mp hdistinct).imp_of_mem fun ha hb hne hboth => hne ?_
    obtain ⟨row, hrow, rfl⟩ := exists_row_of_found ha
    obtain ⟨row', hrow', rfl⟩ := exists_row_of_found hb
    -- both are of the effect, so both are about its one receipt
    rw [subject, subject, hboth.1,
      hboth.2, candidate_receipt hinv.2 (hws ▸ hrow) hboth.1,
      candidate_receipt hinv.2 (hws ▸ hrow') hboth.2]

theorem owedOf_addReconciliation (tables : EffectTables) (heffect : answer.effectId = effect) :
    owedOf ws effect (tables.addReconciliation ⟨answer, ws, none⟩) = owedOf ws effect tables ++
      if isSettled answer.outcome then [answer] else [] := by
  rw [owedOf, addReconciliation, map_filter_concat, owedOf]
  simp [heffect, settled]

theorem answer_exec (run : AgentRunId) (host : EffectsHost) (ctx : RequestContext)
    (hws : ctx.workspaceId = ws) (heffect : answer.effectId = effect) :
    viewOf ws effect run (exec (.insertReconciliation ctx answer) host).2 =
        viewOf ws effect run host ∨
      viewOf ws effect run (exec (.insertReconciliation ctx answer) host).2 =
        { viewOf ws effect run host with
          answers := (viewOf ws effect run host).answers ++ [answer]
          owed := (viewOf ws effect run host).owed ++
            if isSettled answer.outcome then [answer] else [] } := by
  subst hws
  refine viewOf_onTables_of (Q := fun v => v = _ ∨ v = _) (.inl rfl) fun _ tables hok => ?_
  obtain rfl | ⟨-, -, rfl⟩ := insertReconciliation_ok hok
  · exact .inl rfl
  right
  have hanswers : answersOf ctx.workspaceId effect
      (host.tables.addReconciliation ⟨answer, ctx.workspaceId, none⟩) =
        answersOf ctx.workspaceId effect host.tables ++ [answer] := by
    rw [answersOf_addReconciliation, if_pos ⟨heffect, rfl⟩]
  split
  all_goals
    next hcase =>
    refine congrArg₂ (EffectView.mk _ · · _) hanswers
      ((owedOf_addReconciliation _ heffect).trans ?_)
    simp only [hcase]
    rfl

theorem ViewOk.settle (h : ViewOk v) (hfits : Fits at_ v candidate)
    (hreceipt : answer.receiptId = candidate.receipt.map (·.id)) (hat : answer.reconciledAt = at_) :
    ViewOk { v with
      answers := v.answers ++ [answer]
      owed := v.owed ++ if isSettled answer.outcome then [answer] else [] } := by
  have hsettled : EffectView.settled { v with
      answers := v.answers ++ [answer]
      owed := v.owed ++ if isSettled answer.outcome then [answer] else [] } =
      if isSettled answer.outcome then [answer] else [] := by
    have hbefore : (v.answers.filter fun answer => isSettled answer.outcome) = [] := hfits.open_
    rw [EffectView.settled, filter_append, hbefore, nil_append]
    by_cases h : isSettled answer.outcome = true <;> simp [h]
  have huntold : v.told = 0 := by
    by_contra htold
    exact h.answered htold hfits.open_
  refine ⟨h.receipts, ?_, ?_, ?_, h.told, ?_⟩
  · rw [hsettled]
    split <;> simp
  · intro settled hmem
    rw [hsettled] at hmem
    split at hmem
    · next hisSettled =>
      rw [mem_singleton.mp hmem]
      refine ⟨hreceipt.trans hfits.receipt, ?_⟩
      intro other hother hopen hof
      rcases mem_append.mp hother with hother | hother
      · rw [hat]
        exact hfits.older other hother (hof.trans hreceipt)
      · rw [mem_singleton.mp hother, hisSettled] at hopen
        cases hopen
    · cases hmem
  · intro owed hmem
    rw [hsettled]
    rcases mem_append.mp hmem with hmem | hmem
    · have hwas := h.owed owed hmem
      rw [hfits.open_] at hwas
      cases hwas
    · exact hmem
  · exact fun htold => absurd huntold htold

theorem guar_of_answer (hinv : (settlementPact ws effect run).Inv host) (hjob : job.Recovers ws)
    (hws : ctx.workspaceId = ws) (heffect : answer.effectId = effect)
    (hfits : Fits at_ (viewOf ws effect run host) candidate)
    (hreceipt : answer.receiptId = candidate.receipt.map (·.id)) (hat : answer.reconciledAt = at_) :
    (settlementPact ws effect run).Guar host
      (exec (.insertReconciliation ctx answer) host).2 job
      (.insertReconciliation ctx answer) rest := by
  rcases answer_exec run host ctx hws heffect with hsame | hadded
  · exact guar_of_same hinv hsame nofun
  have huntold : (viewOf ws effect run host).told = 0 := by
    by_contra htold
    exact hinv.2.answered htold hfits.open_
  have hpaid : (viewOf ws effect run
      (exec (.insertReconciliation ctx answer) host).2).Paid := by
    rw [hadded]
    exact .inl huntold
  refine ⟨⟨hinv.1.exec _, ?_⟩, ?_, fun _ => .inl hpaid, fun _ _ _ _ => .inl hpaid⟩
  · rw [hadded]
    exact hinv.2.settle hfits hreceipt hat
  · intro job' hclash _
    refine ⟨fun hrecovers => absurd (.inl ⟨hjob, hrecovers⟩) hclash, fun _ => ?_⟩
    rw [hadded] at hpaid ⊢
    exact ⟨rfl, fun _ => hpaid, subset_append_left _ _⟩

theorem Ready.stable {candidates : List ExternalEffectRecoveryCandidate} (hjob : job.Recovers ws)
    (s t : EffectsHost) (hrely : (settlementPact ws effect run).Rely job s t)
    (h : Ready effect at_ candidates (viewOf ws effect run s)) :
    Ready effect at_ candidates (viewOf ws effect run t) := by
  obtain ⟨hreceipts, hanswers⟩ := hrely.1 hjob
  intro candidate hmem heffect
  obtain ⟨hopen, hreceipt, holder⟩ := h candidate hmem heffect
  refine ⟨?_, hreceipts ▸ hreceipt, hanswers ▸ holder⟩
  unfold EffectView.settled at hopen ⊢
  rw [hanswers]
  exact hopen

theorem claimDispatch_inert :
    (claimDispatch ctx at_ candidate).Makes (Inert ws effect run) := by
  unfold claimDispatch
  split
  · refine .bind (.perform trivial) fun _ => ?_
    exact .bind (.lift _) fun _ => .pure _
  · exact .pure _

theorem noteOutcome_inert (result : Except RecoveryError (Option ExternalReconciliation)) :
    (noteOutcome ctx at_ candidate report result).Makes (Inert ws effect run) := by
  unfold noteOutcome
  split
  · exact .pure _
  · exact .pure _
  · exact .lift _
  · exact .pure _
  · refine .bind (.perform trivial) fun _ => ?_
    exact .bind (.lift _) fun _ => .pure _

theorem reconcile_ok {receipt : Option ExternalEffectReceipt}
    {observations : List ObservedEffectState}
    (h : reconcile ctx id intent receipt observations at_ = .ok answer) :
    answer.effectId = intent.id ∧ answer.receiptId = receipt.map (·.id) ∧
      answer.reconciledAt = at_ := by
  replace h := of_unit_bind (of_unit_bind h)
  obtain ⟨-, h⟩ := unit_bind_eq_ok.mp (mapError_eq_ok.mp h)
  obtain ⟨observation, -, h⟩ := bind_eq_ok.mp h
  cases pure_eq_ok.mp h
  exact ⟨rfl, rfl, rfl⟩

section

variable {rest : List ExternalEffectRecoveryCandidate}

theorem Ready.tail (h : Ready effect at_ (candidate :: rest) v) : Ready effect at_ rest v :=
  fun other hmem => h other (mem_cons_of_mem _ hmem)

section

variable (hjob : job.Recovers ws)
  (hws : ctx.workspaceId = ws)
  (hsingle : Single effect (candidate :: rest))
  (hready : Ready effect at_ (candidate :: rest) (viewOf ws effect run host))

include hjob hws hsingle hready

theorem askReadBack_safe :
    (settlementPact ws effect run).Safe job (askReadBack routes ctx at_ candidate) host
      fun _ t => Ready effect at_ rest (viewOf ws effect run t) := by
  refine lift_bind (fun _ _ => ?_) fun _ _ => hready.tail
  refine bind (safe_of_makes_inert (.perform trivial) (Ready.stable hjob) hready)
    (fun observed t hobserved => ?_) fun _ _ hobserved => hobserved.tail
  refine lift_bind (fun observations _ => ?_) fun _ _ => hobserved.tail
  refine bind (safe_of_makes_inert (.perform trivial) (Ready.stable hjob) hobserved)
    (fun drawn u hdrawn => ?_) fun _ _ hdrawn => hdrawn.tail
  refine lift_bind (fun answer hanswer => ?_) fun _ _ => hdrawn.tail
  obtain ⟨heffect, hreceipt, hat⟩ := reconcile_ok (mapError_eq_ok.mp hanswer)
  refine call_bind fun w hrely hinv _ => ?_
  have hasked := hdrawn.stable hjob _ w hrely
  by_cases hmine : candidate.intent.id = effect
  · -- the effect's own candidate: the answer may settle it
    refine ⟨guar_of_answer hinv hjob hws (heffect.trans hmine)
      (hasked candidate mem_cons_self hmine) hreceipt hat, ?_⟩
    have hrest : Ready effect at_ rest (viewOf ws effect run (exec
        (.insertReconciliation ctx answer) w).2) := fun other hmem hother =>
      absurd ⟨hmine, hother⟩ (rel_of_pairwise_cons hsingle hmem)
    exact lift_bind (fun _ _ => hrest) fun _ _ => hrest
  · have hinert : Inert ws effect run (.insertReconciliation ctx answer) :=
      fun hsame => hmine (heffect.symm.trans hsame.2)
    refine ⟨guar_of_inert hinv hinert, ?_⟩
    rw [← hinert.exec w] at hasked
    exact lift_bind (fun _ _ => hasked.tail) fun _ _ => hasked.tail

theorem recoverOne_safe :
    (settlementPact ws effect run).Safe job (recoverOne routes ctx at_ candidate report) host
      fun _ t => Ready effect at_ rest (viewOf ws effect run t) := by
  refine bind (Q := fun _ t => Ready effect at_ rest (viewOf ws effect run t)) ?_ ?_ ?_
  · refine attempt ?_
    refine bind (safe_of_makes_inert claimDispatch_inert (Ready.stable hjob) hready) ?_ ?_
    · intro mine t hclaimed
      split
      · refine bind (askReadBack_safe hjob hws hsingle hclaimed) ?_ ?_
        · exact fun _ _ h => h
        · exact fun _ _ h => h
      · exact hclaimed.tail
    · exact fun _ t hclaimed => hclaimed.tail
  · exact fun result t h => safe_of_makes_inert (noteOutcome_inert result) (Ready.stable hjob) h
  · exact fun _ _ h => h

end

end

theorem recoverEach_safe (hjob : job.Recovers ws) (hws : ctx.workspaceId = ws)
    (candidates : List ExternalEffectRecoveryCandidate) (report : ExternalEffectRecoveryReport)
    (hsingle : Single effect candidates)
    (hready : Ready effect at_ candidates (viewOf ws effect run host)) :
    (settlementPact ws effect run).Safe job (recoverEach routes ctx at_ candidates report) host
      fun _ _ => True := by
  induction candidates generalizing host report with
  | nil => trivial
  | cons candidate rest ih =>
    refine bind (recoverOne_safe hjob hws hsingle hready) ?_ fun _ _ _ => trivial
    exact fun report' t h => ih report' (List.Pairwise.of_cons hsingle) h

/-- **A recovery keeps the pact**: it settles what it found open, and nothing else. -/
theorem recoveryRun_safe (hjob : job.Recovers ws) (hws : ctx.workspaceId = ws)
    (hcutoff : cutoffs.retryUnsettledBefore ≤ at_) :
    (settlementPact ws effect run).Safe job (recoveryRun routes ctx at_ cutoffs limit) host
      fun _ _ => True := by
  have hfind : Inert ws effect run (.findReconciliationCandidates ctx cutoffs limit) := trivial
  refine call_bind fun t _ hinv _ => ⟨guar_of_inert hinv hfind, ?_⟩
  refine lift_bind (fun candidates hanswer => ?_) fun _ _ => trivial
  obtain ⟨rfl, -⟩ := Prod.mk.inj (Except.ok.inj (onTables_ok hanswer))
  obtain ⟨hready, hsingle⟩ := found_ready limit hinv hws hcutoff
  rw [← hfind.exec t] at hready
  exact recoverEach_safe hjob hws _ _ hsingle hready

end

/-! ## Delivery -/

theorem EffectsHost.onTables_committed {a : α} (hfault : ∀ message, fault ≠ some (.refused message))
    (ht : t host.tables = .ok (a, tables)) : (host.onTables t fault).2.tables = tables := by
  rcases fault with _ | ⟨message⟩ | _
  · simp only [onTables, commit, transact, ht]
    rfl
  · exact absurd rfl (hfault message)
  · simp only [onTables, commit, transact, ht]
    rfl

theorem mem_owedOf : answer ∈ owedOf ws effect tables ↔ ∃ row,
      (row ∈ tables.reconciliations ∧ ((row.reconciliation.effectId = effect ∧
        row.workspaceId = ws) ∧ row.settled = true) ∧ row.notifiedAt.isNone = true) ∧
        row.reconciliation = answer := by
  simp only [owedOf, mem_map, mem_filter, and_eq_true, beq_iff_eq]

/-- The mark of a debt of the effect goes through. -/
theorem markOutcomeDelivered_owed (at_ : Timestamp) {fresh : Uuid} (hconsistent : tables.Consistent)
    (hfresh : tables.FreshTransition fresh) (hws : ctx.workspaceId = ws)
    (howed : answer ∈ owedOf ws effect tables) :
    ∃ row, tables.markOutcomeDelivered ctx answer.id at_ fresh =
      .ok ((), (tables.notify ctx answer.id at_).push row) := by
  obtain ⟨row, ⟨hrow, ⟨⟨-, hrowws⟩, hsettled⟩, hnone⟩, rfl⟩ := mem_owedOf.mp howed
  have hunder : owedUnder ctx row.reconciliation.id row = true := by
    simp [owedUnder, hrowws, hws, hnone]
  obtain ⟨found, hfound⟩ : ∃ found, tables.reconciliations.find?
      (owedUnder ctx row.reconciliation.id) = some found :=
    Option.isSome_iff_exists.mp (find?_isSome.mpr ⟨row, hrow, hunder⟩)
  -- ids are unique, so it is this row that is found
  have hsame : found = row := by
    have hid := find?_some hfound
    simp only [owedUnder, and_eq_true, beq_iff_eq] at hid
    exact inj_on_of_nodup_map hconsistent.reconciliationIds
      (mem_of_find?_eq_some hfound) hrow hid.1.1
  obtain ⟨status, hstatus⟩ : ∃ status,
      deliveredStatus row.reconciliation.outcome = some status := by
    unfold settled at hsettled
    cases houtcome : row.reconciliation.outcome <;>
      simp [houtcome, isSettled, deliveredStatus] at hsettled ⊢
  have hnotify : (tables.notify ctx row.reconciliation.id at_).FreshTransition fresh := hfresh
  refine ⟨⟨⟨fresh⟩, row.reconciliation.effectId, ctx.workspaceId,
    .outcomeDelivered status row.reconciliation.id, pgTime at_⟩, ?_⟩
  unfold markOutcomeDelivered
  rw [hfound]
  dsimp only
  rw [hsame, hstatus]
  exact bind_eq_ok.mpr ⟨status, rfl, bind_eq_ok.mpr
    ⟨_, addTransition_fresh hnotify, rfl⟩⟩

theorem mark_exec (hinv : (settlementPact ws effect run).Inv host)
    (hallowed : MayCall ws effect run host (.markOutcomeDelivered ctx id at_))
    (hws : ctx.workspaceId = ws) :
    viewOf ws effect run (exec (.markOutcomeDelivered ctx id at_) host).2 =
      { viewOf ws effect run host with
        owed := (viewOf ws effect run host).owed.filter fun answer => answer.id != id } := by
  have hmarked : ∀ row, viewOf ws effect run
      { host with tables := (host.tables.notify ctx id at_).push row } =
        { viewOf ws effect run host with
          owed := (viewOf ws effect run host).owed.filter fun answer => answer.id != id } := by
    intro row
    have hfilter : owedOf ws effect (host.tables.notify ctx id at_) =
        (owedOf ws effect host.tables).filter fun answer => answer.id != id := by
      rw [owedOf_notify]
      refine filter_congr fun answer _ => ?_
      rw [Bool.eq_iff_iff]
      simp [hws]
    show EffectView.mk _ (answersOf ws effect (host.tables.notify ctx id at_))
      (owedOf ws effect (host.tables.notify ctx id at_)) _ = _
    rw [answersOf_notify, hfilter]
    rfl
  by_cases howed : ∃ answer ∈ owedOf ws effect host.tables, answer.id = id
  · obtain ⟨answer, hanswer, rfl⟩ := howed
    obtain ⟨row, hok⟩ := markOutcomeDelivered_owed at_ hinv.1 hallowed.2 hws hanswer
    have htables :
        (exec (.markOutcomeDelivered ctx answer.id at_) host).2.tables =
          (host.tables.notify ctx answer.id at_).push row :=
      onTables_committed hallowed.1 hok
    have hruns : (exec (.markOutcomeDelivered ctx answer.id at_) host).2.runs =
        host.runs :=
      onTables_runs
    rw [← hmarked row, viewOf, htables, hruns]
    rfl
  · -- nothing is owed under the id, so it does not matter what the call does
    have hself : viewOf ws effect run host = { viewOf ws effect run host with
        owed := (viewOf ws effect run host).owed.filter fun answer => answer.id != id } := by
      have hfilter : ((viewOf ws effect run host).owed.filter fun answer => answer.id != id) =
          (viewOf ws effect run host).owed :=
        filter_eq_self.mpr fun answer hanswer => bne_iff_ne.mpr fun hid =>
          howed ⟨answer, hanswer, hid⟩
      rw [hfilter]
    refine viewOf_onTables_of (Q := (· = _)) hself fun _ _ hok => ?_
    obtain rfl | ⟨row, -, status, -, -, -, rfl⟩ := markOutcomeDelivered_ok hok
    · exact hself
    · exact hmarked _

theorem ViewOk.owed_eq (h : ViewOk v) {answer owed : ExternalReconciliation}
    (hanswer : answer ∈ v.settled) (howed : owed ∈ v.owed) : owed = answer := by
  obtain ⟨only, honly⟩ := length_eq_one_iff.mp
    (le_antisymm h.once (length_pos_of_mem hanswer))
  have howed' := h.owed owed howed
  rw [honly, mem_singleton] at hanswer howed'
  exact howed'.trans hanswer.symm

theorem guar_of_mark (hinv : (settlementPact ws effect run).Inv host) (hjob : job.Delivers ws)
    (hallowed : MayCall ws effect run host (.markOutcomeDelivered ctx id at_))
    (hws : ctx.workspaceId = ws) : (settlementPact ws effect run).Guar host
      (exec (.markOutcomeDelivered ctx id at_) host).2 job
      (.markOutcomeDelivered ctx id at_) rest := by
  have hview := mark_exec hinv hallowed hws
  have hok := hinv.2
  refine ⟨⟨hinv.1.exec _, ?_⟩, ?_, ?_, ?_⟩
  · rw [hview]
    refine ⟨hok.receipts, hok.once, hok.latest, ?_, hok.told, hok.answered⟩
    exact fun answer hanswer => hok.owed answer (mem_filter.mp hanswer).1
  · intro job' hclash _
    refine ⟨fun _ => ?_, fun hdelivers => absurd (.inr ⟨hjob, hdelivers⟩) hclash⟩
    rw [hview]
    exact ⟨rfl, rfl⟩
  · intro hgoal
    left
    show (viewOf ws effect run _).Paid
    rw [hview]
    rcases hgoal with (htold | hnone) | ⟨-, context', id', at', hcall, -, hids⟩
    · exact .inl htold
    · right
      rw [hnone]
      rfl
    · -- what was owed is paid
      cases hcall
      refine .inr (filter_eq_nil_iff.mpr fun answer hanswer => ?_)
      simp [hids answer hanswer]
  · rintro job' call' hclash ⟨hdelivers, -⟩
    exact absurd (.inr ⟨hjob, hdelivers⟩) hclash

theorem append_exec {event : LegacyRunEventEnvelope}
    (hallowed : MayCall ws effect run host (.appendEvents ctx run head [event]))
    (hws : ctx.workspaceId = ws) (htells : tells effect (.legacy event) = true) :
    (∃ version, (exec (.appendEvents ctx run head [event]) host).1 = .ok version ∧
      viewOf ws effect run (exec (.appendEvents ctx run head [event]) host).2 =
        { viewOf ws effect run host with told := (viewOf ws effect run host).told + 1 }) ∨
    (∃ e, (exec (.appendEvents ctx run head [event]) host).1 = .error e ∧
      viewOf ws effect run (exec (.appendEvents ctx run head [event]) host).2 =
        viewOf ws effect run host) := by
  subst hws
  have hexec : exec (.appendEvents ctx run head [event]) host =
      ({ host with tick := host.tick + 1 } : EffectsHost).onRun ctx run
        (fun db => db.append ctx run head [event]) (host.weather host.tick).fault := rfl
  rw [hexec]
  unfold onRun commit
  cases hfault : (host.weather host.tick).fault with
  | some fault =>
    cases fault with
    | refused message => exact .inr ⟨.storage message, rfl, rfl⟩
    | unacknowledged message => exact absurd hfault (hallowed message)
  | none =>
    unfold transact
    dsimp only
    cases happend : (host.runs ctx.workspaceId run).append ctx run head [event] with
    | error e => exact .inr ⟨e, rfl, rfl⟩
    | ok appended =>
      refine .inl ⟨appended.1, rfl, ?_⟩
      have hevents := Run.RunDb.append_events happend
      have hruns : update host.runs ctx.workspaceId (update
          (host.runs ctx.workspaceId) run appended.2) ctx.workspaceId run = appended.2 := by
        rw [update_self, update_self]
      show EffectView.mk _ _ _ (countP (tells effect) (update host.runs
        ctx.workspaceId (update (host.runs ctx.workspaceId) run appended.2)
          ctx.workspaceId run).events) = _
      rw [hruns, hevents, countP_append, map_singleton, countP_singleton,
        if_pos htells]
      rfl

/-- What a delivery knows: nobody was told who is still owed, and of the outcomes it goes on to
deliver, one of the effect is settled and not told. -/
structure Debts (effect : ExternalEffectId) (outcomes : List UndeliveredOutcome) (v : EffectView) :
    Prop where
  paid : v.Paid
  untold : ∀ outcome ∈ outcomes, outcome.reconciliation.effectId = effect →
    v.told = 0 ∧ outcome.reconciliation ∈ v.settled

def SingleDebt (effect : ExternalEffectId) (outcomes : List UndeliveredOutcome) : Prop :=
  outcomes.Pairwise fun a b =>
    ¬ (a.reconciliation.effectId = effect ∧ b.reconciliation.effectId = effect)

theorem settled_mono {s t : EffectsHost} (hjob : job.Delivers ws)
    (hrely : (settlementPact ws effect run).Rely job s t)
    (h : answer ∈ (viewOf ws effect run s).settled) :
    answer ∈ (viewOf ws effect run t).settled := by
  obtain ⟨hanswer, hsettled⟩ := mem_settled.mp h
  exact mem_settled.mpr ⟨(hrely.2 hjob).2.2 hanswer, hsettled⟩

theorem Debts.stable {outcomes : List UndeliveredOutcome} (hjob : job.Delivers ws)
    (s t : EffectsHost) (hrely : (settlementPact ws effect run).Rely job s t)
    (h : Debts effect outcomes (viewOf ws effect run s)) :
    Debts effect outcomes (viewOf ws effect run t) := by
  obtain ⟨htold, hpaid, -⟩ := hrely.2 hjob
  refine ⟨hpaid h.paid, fun outcome hmem heffect => ?_⟩
  obtain ⟨huntold, hsettled⟩ := h.untold outcome hmem heffect
  exact ⟨htold.trans huntold, settled_mono hjob hrely hsettled⟩

section

variable {outcome : UndeliveredOutcome} {rest : List UndeliveredOutcome} {eventId : RunEventId}

theorem Debts.tail (h : Debts effect (outcome :: rest) v) : Debts effect rest v :=
  ⟨h.paid, fun other hmem => h.untold other (mem_cons_of_mem _ hmem)⟩

/-- What has to be known when the mark is made: everything is paid, or this is the outcome the
run was told of. -/
structure MarkDue (effect : ExternalEffectId) (outcome : UndeliveredOutcome)
    (rest : List UndeliveredOutcome) (v : EffectView) : Prop where
  due : v.Paid ∨ outcome.reconciliation ∈ v.settled
  untold : ∀ other ∈ rest, other.reconciliation.effectId = effect →
    v.told = 0 ∧ other.reconciliation ∈ v.settled

theorem MarkDue.stable (hjob : job.Delivers ws) (s t : EffectsHost)
    (hrely : (settlementPact ws effect run).Rely job s t)
    (h : MarkDue effect outcome rest (viewOf ws effect run s)) :
    MarkDue effect outcome rest (viewOf ws effect run t) := by
  obtain ⟨htold, hpaid, -⟩ := hrely.2 hjob
  refine ⟨h.due.imp hpaid (settled_mono hjob hrely), fun other hmem heffect => ?_⟩
  obtain ⟨huntold, hsettled⟩ := h.untold other hmem heffect
  exact ⟨htold.trans huntold, settled_mono hjob hrely hsettled⟩

theorem markDelivered_safe (hjob : job.Delivers ws) (hws : ctx.workspaceId = ws)
    (hdue : MarkDue effect outcome rest (viewOf ws effect run host)) :
    (settlementPact ws effect run).Safe job (markDelivered ctx at_ outcome) host
      fun _ t => Debts effect rest (viewOf ws effect run t) := by
  refine call_bind fun t hrely hinv hallowed =>
    ⟨guar_of_mark hinv hjob hallowed hws, ?_⟩
  have hdue := hdue.stable hjob host t hrely
  have hafter : Debts effect rest (viewOf ws effect run
      (exec (.markOutcomeDelivered ctx outcome.reconciliation.id at_) t).2) := by
    rw [mark_exec hinv hallowed hws]
    refine ⟨?_, hdue.untold⟩
    rcases hdue.due with (htold | hnone) | hsettled
    · exact .inl htold
    · right
      show filter _ (viewOf ws effect run t).owed = []
      rw [hnone]
      rfl
    · refine .inr (filter_eq_nil_iff.mpr fun owed howed => ?_)
      rw [hinv.2.owed_eq hsettled howed]
      simp
  exact hafter

theorem tells_outcomeEnvelope :
    tells effect (.legacy (Run.outcomeEnvelope ctx runId head outcome.told eventId causationId
      at_)) = (outcome.reconciliation.effectId == effect) := rfl

theorem append_inert (hother : ¬(outcome.reconciliation.effectId = effect ∧ runId = run)) :
    Inert ws effect run (.appendEvents ctx runId head
      [Run.outcomeEnvelope ctx runId head outcome.told eventId causationId at_]) := by
  intro _ hrunId event hevent
  rw [mem_singleton.mp hevent, tells_outcomeEnvelope]
  exact beq_eq_false_iff_ne.mpr fun heffect => hother ⟨heffect, hrunId⟩

theorem guar_of_told (hinv : (settlementPact ws effect run).Inv host) (hjob : job.Delivers ws)
    (hws : ctx.workspaceId = ws) (hsettled : outcome.reconciliation ∈
      (viewOf ws effect run host).settled) (huntold : (viewOf ws effect run host).told = 0)
    (hview : viewOf ws effect run (exec call host).2 =
      { viewOf ws effect run host with told := (viewOf ws effect run host).told + 1 }) :
    (settlementPact ws effect run).Guar host (exec call host).2 job call (do
      markDelivered ctx at_ outcome
      return { report with delivered := report.delivered + 1 }) := by
  have hok := hinv.2
  refine ⟨⟨hinv.1.exec call, ?_⟩, ?_, fun _ => .inr ?_, ?_⟩
  · rw [hview]
    refine ⟨hok.receipts, hok.once, hok.latest, hok.owed, ?_, ?_⟩
    · show (viewOf ws effect run host).told + 1 ≤ 1
      omega
    · exact fun _ => ne_nil_of_mem hsettled
  · intro job' hclash _
    refine ⟨fun _ => ?_, fun hdelivers => absurd (.inr ⟨hjob, hdelivers⟩) hclash⟩
    rw [hview]
    exact ⟨rfl, rfl⟩
  · refine ⟨hjob, ctx, outcome.reconciliation.id, at_, rfl, hws, ?_⟩
    intro owed howed
    rw [hview] at howed
    rw [hok.owed_eq hsettled howed]
  · rintro job' call' hclash ⟨hdelivers, -⟩
    exact absurd (.inr ⟨hjob, hdelivers⟩) hclash

theorem markThen_safe (hjob : job.Delivers ws) (hws : ctx.workspaceId = ws)
    (hdue : MarkDue effect outcome rest (viewOf ws effect run host)) :
    (settlementPact ws effect run).Safe job (do
      markDelivered ctx at_ outcome
      return report) host fun _ t => Debts effect rest (viewOf ws effect run t) :=
  bind (markDelivered_safe hjob hws hdue) (fun _ _ h => h) fun _ _ h => h

theorem deliverOne_safe (hjob : job.Delivers ws) (hws : ctx.workspaceId = ws)
    (hsingle : SingleDebt effect (outcome :: rest))
    (hdebts : Debts effect (outcome :: rest) (viewOf ws effect run host)) :
    (settlementPact ws effect run).Safe job (deliverOne ctx at_ outcome report) host
      fun _ t => Debts effect rest (viewOf ws effect run t) := by
  cases hrun : outcome.runId with
  | none =>
    unfold deliverOne
    rw [hrun]
    exact markThen_safe hjob hws ⟨.inl hdebts.paid, hdebts.tail.untold⟩
  | some runId =>
  unfold deliverOne
  rw [hrun]
  have hload : Inert ws effect run (.loadStreamHead ctx runId) := trivial
  have hnewId : Inert ws effect run .newId := trivial
  refine fun t hrely hinv _ => ⟨guar_of_inert hinv hload, ?_⟩
  have hloaded := hdebts.stable hjob host t hrely
  rw [← hload.exec t] at hloaded
  rcases (exec (.loadStreamHead ctx runId) t).1 with e | _ | head
  · exact hloaded.tail
  · exact hloaded.tail
  · refine fun u hrely hinv _ => ⟨guar_of_inert hinv hnewId, ?_⟩
    have hnamed := hloaded.stable hjob _ u hrely
    rw [← hnewId.exec u] at hnamed
    refine fun w hrely hinv _ => ⟨guar_of_inert hinv hnewId, ?_⟩
    have hcaused := hnamed.stable hjob _ w hrely
    rw [← hnewId.exec w] at hcaused
    refine fun x hrely hinv hallowed => ?_
    have hknown := hcaused.stable hjob _ x hrely
    by_cases hmine : outcome.reconciliation.effectId = effect ∧ runId = run
    · -- the event of the effect
      obtain ⟨heffect, rfl⟩ := hmine
      obtain ⟨huntold, hsettled⟩ := hknown.untold outcome mem_cons_self heffect
      rcases append_exec hallowed hws (tells_outcomeEnvelope.trans (beq_iff_eq.mpr heffect))
        with ⟨version, hok, hview⟩ | ⟨e, herror, hview⟩
      · rw [hok]
        refine ⟨guar_of_told hinv hjob hws hsettled huntold hview, ?_⟩
        refine markThen_safe hjob hws ⟨.inr ?_, ?_⟩
        · rw [hview]
          exact hsettled
        · intro other hmem hother
          exact absurd ⟨heffect, hother⟩ (rel_of_pairwise_cons hsingle hmem)
      · rw [herror]
        refine ⟨guar_of_same hinv hview nofun, ?_⟩
        rw [← hview] at hknown
        exact hknown.tail
    · -- another effect, or another run
      refine ⟨guar_of_inert hinv (append_inert hmine), ?_⟩
      rw [← (append_inert hmine).exec x] at hknown
      rcases (exec _ x).1 with e | version
      · exact hknown.tail
      · exact markThen_safe hjob hws ⟨.inl hknown.paid, hknown.tail.untold⟩

end

theorem findUndeliveredOutcomes_distinct (limit : UInt32)
    (h : tables.Consistent) : (tables.findUndeliveredOutcomes ctx limit).Pairwise
      fun a b => a.reconciliation.id ≠ b.reconciliation.id := by
  have howed := h.reconciliationIds.sublist ((filter_sublist (p := fun row =>
    row.workspaceId == ctx.workspaceId && row.notifiedAt.isNone && row.settled)).map _)
  refine List.Pairwise.sublist (take_sublist _ _) (pairwise_filterMap.mpr ?_)
  refine List.Pairwise.imp ?_ (pairwise_map.mp
    (((perm_insertionSort _ _).map _).nodup_iff.mpr howed))
  intro row row' hne outcome hjoined outcome' hjoined'
  obtain ⟨intent, -, rfl⟩ := Option.map_eq_some_iff.mp hjoined
  obtain ⟨intent', -, rfl⟩ := Option.map_eq_some_iff.mp hjoined'
  exact hne

theorem found_debts (limit : UInt32) (hinv : (settlementPact ws effect run).Inv host)
    (hpaid : (viewOf ws effect run host).Paid) (hws : ctx.workspaceId = ws) :
    Debts effect (host.tables.findUndeliveredOutcomes ctx limit) (viewOf ws effect run host) ∧
      SingleDebt effect (host.tables.findUndeliveredOutcomes ctx limit) := by
  have hsettled : ∀ outcome ∈ host.tables.findUndeliveredOutcomes ctx limit,
      outcome.reconciliation.effectId = effect →
        outcome.reconciliation ∈ (viewOf ws effect run host).owed := by
    intro outcome hfound heffect
    obtain ⟨row, hrow, hjoined⟩ := mem_filterMap.mp (mem_of_mem_take hfound)
    obtain ⟨hmem, howed⟩ := mem_filter.mp ((mem_insertionSort _).mp hrow)
    obtain ⟨intent, -, rfl⟩ := Option.map_eq_some_iff.mp hjoined
    simp only [and_eq_true, beq_iff_eq, hws] at howed
    exact mem_owedOf.mpr ⟨row, ⟨hmem, ⟨⟨heffect, howed.1.1⟩, howed.2⟩, howed.1.2⟩, rfl⟩
  refine ⟨⟨hpaid, fun outcome hfound heffect => ?_⟩, ?_⟩
  · have howed := hsettled outcome hfound heffect
    exact ⟨hpaid.resolve_right (ne_nil_of_mem howed), hinv.2.owed _ howed⟩
  · refine (findUndeliveredOutcomes_distinct limit hinv.1).imp_of_mem fun ha hb hne hboth => hne ?_
    rw [hinv.2.owed_eq (hinv.2.owed _ (hsettled _ hb hboth.2)) (hsettled _ ha hboth.1)]

theorem deliverEach_safe (hjob : job.Delivers ws) (hws : ctx.workspaceId = ws)
    (outcomes : List UndeliveredOutcome) (report : OutcomeDeliveryReport)
    (hsingle : SingleDebt effect outcomes)
    (hdebts : Debts effect outcomes (viewOf ws effect run host)) :
    (settlementPact ws effect run).Safe job (deliverEach ctx at_ outcomes report) host
      fun _ _ => True := by
  induction outcomes generalizing host report with
  | nil => trivial
  | cons outcome rest ih =>
    refine bind (deliverOne_safe hjob hws hsingle hdebts) ?_ fun _ _ _ => trivial
    exact fun report' t h => ih report' (List.Pairwise.of_cons hsingle) h

/-- **A delivery keeps the pact**, if nobody is owed who was told when it begins. -/
theorem deliverOnce_safe (hjob : job.Delivers ws) (hws : ctx.workspaceId = ws)
    (hpaid : (viewOf ws effect run host).Paid) :
    (settlementPact ws effect run).Safe job (deliverOnce ctx at_) host fun _ _ => True := by
  have hfind : Inert ws effect run (.findUndeliveredOutcomes ctx deliveryBatch) := trivial
  refine call_bind fun t hrely hinv _ => ⟨guar_of_inert hinv hfind, ?_⟩
  refine lift_bind (fun outcomes hanswer => ?_) fun _ _ => trivial
  obtain ⟨rfl, -⟩ := Prod.mk.inj (Except.ok.inj (onTables_ok hanswer))
  obtain ⟨hdebts, hsingle⟩ := found_debts deliveryBatch hinv ((hrely.2 hjob).2.1 hpaid) hws
  rw [← hfind.exec t] at hdebts
  exact deliverEach_safe hjob hws _ _ hsingle hdebts

/-! ## Other workspaces -/

theorem recoveryRun_elsewhere {cutoffs : Cutoffs} {routes : ReadBackRegistry} {limit : UInt32}
    (hws : ctx.workspaceId ≠ ws) :
    (recoveryRun routes ctx at_ cutoffs limit).Makes (Inert ws effect run) := by
  have hone : ∀ candidate report,
      (recoverOne routes ctx at_ candidate report).Makes (Inert ws effect run) := by
    intro candidate report
    refine .bind (.attempt (.bind claimDispatch_inert ?_))
      noteOutcome_inert
    intro mine
    split
    · -- call by call through the question
      refine .bind ?_ fun _ => .pure _
      refine .bind (.lift _) fun _ => ?_
      refine .bind (.perform trivial) fun _ => ?_
      refine .bind (.lift _) fun _ => ?_
      refine .bind (.perform trivial) fun _ => ?_
      refine .bind (.lift _) fun _ => ?_
      refine .bind (.perform fun hsame => hws hsame.1) fun _ => ?_
      exact .bind (.lift _) fun _ => .pure _
    · exact .pure _
  have heach : ∀ candidates report,
      (recoverEach routes ctx at_ candidates report).Makes (Inert ws effect run) := by
    intro candidates
    induction candidates with
    | nil => exact fun _ => .pure _
    | cons candidate rest ih => exact fun report => .bind (hone _ _) ih
  refine .bind (.perform trivial) fun _ => ?_
  exact .bind (.lift _) fun _ => heach _ _

theorem deliverOnce_elsewhere (hws : ctx.workspaceId ≠ ws) :
    (deliverOnce ctx at_).Makes (Inert ws effect run) := by
  have hmark : ∀ outcome, (markDelivered ctx at_ outcome).Makes (Inert ws effect run) :=
    fun _ => .bind (.perform hws) fun _ => .lift _
  have happend : ∀ runId outcome,
      (appendToRun ctx at_ runId outcome).Makes (Inert ws effect run) := by
    intro runId outcome
    refine .bind (.perform trivial) fun _ => ?_
    refine .bind (.lift _) fun _ => ?_
    refine .bind (.lift _) fun _ => ?_
    refine .bind (.perform trivial) fun _ => ?_
    refine .bind (.perform trivial) fun _ => ?_
    refine .bind (.perform fun hsame => absurd hsame hws) fun _ => ?_
    exact .bind (.lift _) fun _ => .pure _
  have hone : ∀ outcome report,
      (deliverOne ctx at_ outcome report).Makes (Inert ws effect run) := by
    intro outcome report
    unfold deliverOne
    split
    · exact .bind (hmark _) fun _ => .pure _
    · refine .bind (happend _ _).attempt fun result => ?_
      split
      · exact .bind (hmark _) fun _ => .pure _
      · exact .pure _
  have heach : ∀ outcomes report,
      (deliverEach ctx at_ outcomes report).Makes (Inert ws effect run) := by
    intro outcomes
    induction outcomes with
    | nil => exact fun _ => .pure _
    | cons outcome rest ih => exact fun report => .bind (hone _ _) ih
  refine .bind (.perform trivial) fun _ => ?_
  exact .bind (.lift _) fun _ => heach _ _

/-! ## Everybody together -/

theorem safe_quietly (h : (settlementPact ws effect run).Safe job p host fun _ _ => True) :
    (settlementPact ws effect run).Safe job (quietly p) host fun _ _ => True :=
  bind (Q := fun _ _ => True) (attempt h) (fun _ _ h => h) fun _ _ h => h

theorem safe_elsewhere (h : p.Makes (Inert ws effect run)) :
    (settlementPact ws effect run).Safe job p host fun _ _ => True :=
  safe_of_makes_inert (K := fun _ => True) h (fun _ _ _ h => h) trivial

theorem program_safe (job : EffectJob) (host : EffectsHost)
    (h : (settlementPact ws effect run).Starts job host) :
    (settlementPact ws effect run).Safe job job.program host fun _ _ => True := by
  cases job with
  | recover routes ctx reconciledAt cutoffs limit =>
    refine safe_quietly ?_
    by_cases hws : ctx.workspaceId = ws
    · exact recoveryRun_safe hws hws h.known
    · exact safe_elsewhere (recoveryRun_elsewhere hws)
  | deliver ctx at_ =>
    refine safe_quietly ?_
    by_cases hws : ctx.workspaceId = ws
    · -- who owes is a delivery, and none is under way
      exact deliverOnce_safe hws hws (h.goal fun _ _ howes => .inr ⟨howes.1, hws⟩)
    · exact safe_elsewhere (deliverOnce_elsewhere hws)
  | perform owner ctx intent descriptor at_ =>
    exact safe_quietly (safe_of_makes_bystander perform_makes)
  | other call => exact safe_quietly (safe_of_makes_bystander (.perform h.known))

def stillWorld (host : EffectsHost) : World effectPorts Unit EffectJob := ⟨host, fun _ => none⟩

/-- **An effect is settled once, and its run told once**, whoever is at work, in every
interleaving that keeps the pact about it. -/
theorem effect_settled_once (ws : WorkspaceId) (effect : ExternalEffectId) (run : AgentRunId)
    (host : EffectsHost) (actions : List (Action EffectJob)) (hreached : Reached host)
    (hblank : viewOf ws effect run host = ⟨[], [], [], 0⟩)
    (hkept : (settlementPact ws effect run).Kept program (stillWorld host) actions) :
    let view := viewOf ws effect run ((stillWorld host).run program actions).state
    view.settled.length ≤ 1 ∧ view.told ≤ 1 := by
  have hok : ViewOk (viewOf ws effect run host) := by
    rw [hblank]
    exact ⟨Nat.zero_le _, Nat.zero_le _, fun _ h => absurd h not_mem_nil,
      fun _ h => absurd h not_mem_nil, Nat.zero_le _, fun h => absurd rfl h⟩
  have hpaid : (viewOf ws effect run host).Paid := by
    rw [hblank]
    exact .inl rfl
  have hstart : (settlementPact ws effect run).Upheld (stillWorld host) :=
    .still ⟨hreached.consistent, hok⟩ hpaid
  obtain ⟨⟨-, hview⟩, -⟩ := Upheld.run program_safe hstart hkept
  exact ⟨hview.once, hview.told⟩

/-! A sample: the intent is recorded and the run has begun. The read-back says that the
effect has been applied. -/

def sampleBegun : LegacyRunEventEnvelope :=
  { sampleEvent 1 (.created ⟨9⟩ "report") with workspaceId := ⟨2⟩, runId := ⟨7⟩ }

def sampleRequest : List EffectCall :=
  [.appendEvents Effects.sampleContext ⟨7⟩ ⟨0⟩ [sampleBegun],
    .insertIntent Effects.sampleContext sampleIntent]

def sampleRequested : EffectsHost :=
  (sampleHost (sampleWeather (some true))).afterCalls sampleRequest

theorem sampleRequested_reached : Reached sampleRequested :=
  ⟨sampleHost (sampleWeather (some true)), sampleRequest, rfl, rfl⟩

def sampleRecovery (seconds : ℤ) : EffectJob :=
  .recover [sampleDescriptor] Effects.sampleContext (seconds * 1000000000)
    (sweepCutoffs (seconds * 1000000000)) 8

def sampleDelivery : EffectJob := .deliver Effects.sampleContext 400000000000

def sampleArrival : EffectJob :=
  .other (.insertReceipt Effects.sampleContext (Effects.sampleReceipt ⟨11⟩ ⟨1⟩))

def steps (k count : ℕ) : List (Action EffectJob) := List.replicate count (.step k)

/-- Both recoveries find the receipt before either has recorded an answer. -/
def sampleRace : List (Action EffectJob) :=
  [.start 0 sampleArrival, .step 0, .start 1 (sampleRecovery 100), .start 2 (sampleRecovery 100),
    .step 1, .step 2] ++ steps 1 3 ++ steps 2 3 ++ [.start 3 sampleDelivery] ++ steps 3 11

/-- The receipt arrives when the dispatch has been adopted as lost and settled. There is one
recovery at a time. -/
def sampleLate : List (Action EffectJob) :=
  [.start 0 (.perform ⟨8⟩ Effects.sampleContext sampleIntent sampleDescriptor 0)] ++ steps 0 6 ++
    [.start 1 (sampleRecovery 1000)] ++ steps 1 5 ++ [.step 0] ++
    [.start 2 (sampleRecovery 2000)] ++ steps 2 4 ++ [.start 3 sampleDelivery] ++ steps 3 11

/-- **Settled twice, told twice**: by two recoveries side by side, and by one after the other
with a late receipt between them. -/
theorem effect_settled_twice :
    Reached sampleRequested ∧
      viewOf ⟨2⟩ ⟨1⟩ ⟨7⟩ sampleRequested = ⟨[], [], [], 0⟩ ∧
      ∀ actions ∈ [sampleRace, sampleLate],
        let view := viewOf ⟨2⟩ ⟨1⟩ ⟨7⟩
          ((stillWorld sampleRequested).run program actions).state
        view.settled.length = 2 ∧ view.told = 2 := by
  refine ⟨sampleRequested_reached, ?_⟩
  decide +kernel

/-! One job after the other: the effect is performed, settled and told. -/

instance (fault : Option Fault) : Decidable (∀ message, fault ≠ some (.refused message)) :=
  match fault with
  | some (.refused message) => isFalse fun h => h message rfl
  | some (.unacknowledged _) | none => isTrue nofun

instance (fault : Option Fault) : Decidable (∀ message, fault ≠ some (.unacknowledged message)) :=
  match fault with
  | some (.unacknowledged message) => isFalse fun h => h message rfl
  | some (.refused _) | none => isTrue nofun

instance (tables : EffectTables) (id : Uuid) : Decidable (tables.FreshTransition id) :=
  inferInstanceAs (Decidable (∀ row ∈ tables.transitions, row.id ≠ ⟨id⟩))

instance (ws : WorkspaceId) (effect : ExternalEffectId) (run : AgentRunId) (host : EffectsHost)
    (call : EffectCall) : Decidable (MayCall ws effect run host call) :=
  match call with
  | .insertReceipt context receipt => inferInstanceAs (Decidable (context.workspaceId = ws →
      receipt.effectId = effect → (viewOf ws effect run host).receipts = [] ∧
        (viewOf ws effect run host).settled = []))
  | .appendEvents .. => inferInstanceAs (Decidable (∀ message,
      (host.weather host.tick).fault ≠ some (.unacknowledged message)))
  | .markOutcomeDelivered .. => inferInstanceAs (Decidable ((∀ message,
      (host.weather host.tick).fault ≠ some (.refused message)) ∧
        host.tables.FreshTransition (host.weather host.tick).uuid))
  | .newId | .evaluate .. | .dispatch .. | .observe .. | .insertIntent ..
  | .recordAuthorization .. | .recordDispatchStarted .. | .findReconciliationCandidates ..
  | .adoptLostDispatch .. | .recordFailedRecoveryAttempt .. | .insertReconciliation ..
  | .findUndeliveredOutcomes .. | .loadStreamHead .. | .recordWorkerPresence ..
  | .clearWorkerPresence .. => isTrue trivial

instance (ws : WorkspaceId) (effect : ExternalEffectId) (run : AgentRunId) (host : EffectsHost)
    (job : EffectJob) (call : effectPorts.Call) :
    Decidable ((settlementPact ws effect run).Allowed host job call) :=
  inferInstanceAs (Decidable (MayCall ws effect run host call))

def sampleTurns : List (EffectJob × ℕ) :=
  [(.perform ⟨8⟩ Effects.sampleContext sampleIntent sampleDescriptor 0, 7),
    (sampleRecovery 1000, 4), (sampleDelivery, 6)]

theorem effect_settled_once_sample :
    let actions := sampleTurns.flatMap fun (job, count) => turn job count
    (settlementPact ⟨2⟩ ⟨1⟩ ⟨7⟩).Kept program (stillWorld sampleRequested) actions ∧
      let view := viewOf ⟨2⟩ ⟨1⟩ ⟨7⟩
        ((stillWorld sampleRequested).run program actions).state
      (view.settled ≠ [] ∧ view.told ≠ 0) ∧ view.settled.length ≤ 1 ∧ view.told ≤ 1 := by
  intro actions
  have hfacts : viewOf ⟨2⟩ ⟨1⟩ ⟨7⟩ sampleRequested = ⟨[], [], [], 0⟩ ∧
      (settlementPact ⟨2⟩ ⟨1⟩ ⟨7⟩).InTurn program (stillWorld sampleRequested)
        sampleTurns ∧
      let view := viewOf ⟨2⟩ ⟨1⟩ ⟨7⟩
        ((stillWorld sampleRequested).run program (sampleTurns.flatMap
          fun (job, count) => turn job count)).state
      view.settled ≠ [] ∧ view.told ≠ 0 := by
    decide +kernel
  obtain ⟨hblank, hturns, hsettled⟩ := hfacts
  have hjobs : ∀ job ∈ sampleTurns.map Prod.fst, (settlementPact ⟨2⟩ ⟨1⟩ ⟨7⟩).Job job := by
    have hcutoff : (sweepCutoffs (1000 * 1000000000)).retryUnsettledBefore ≤ 1000 * 1000000000 := by
      decide
    simp only [sampleTurns, map_cons, map_nil, forall_mem_cons]
    exact ⟨trivial, hcutoff, trivial, fun _ h => absurd h not_mem_nil⟩
  have hkept := hturns.kept (fun _ => rfl) hjobs
  exact ⟨hkept, hsettled, effect_settled_once ⟨2⟩ ⟨1⟩ ⟨7⟩ sampleRequested actions
    sampleRequested_reached hblank hkept⟩

end Vestrace.Effects
