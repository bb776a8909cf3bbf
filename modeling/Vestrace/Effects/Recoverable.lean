import Vestrace.Effects.Perform

/-!
# What has left stays in sight

An effect whose receipt was never stored is found again by the second branch of the
candidate query, which looks at the newest transition of the effect only. So what matters is
which transitions can be recorded after the dispatch began (`InSight`).
-/

namespace Vestrace.Effects

open Lib Vestrace.Security EffectsHost EffectTables List

variable {effectId : ExternalEffectId} {call : EffectCall} {α : Type} {host' reached : EffectsHost}
  {authorized : AuthorizedExternalEffect} {decision : PolicyDecision} {workspaceId : WorkspaceId}
  {host : EffectsHost} {cutoffs : Cutoffs}

/-! ## In sight -/

section

variable (intent : ExternalEffectIntent) (expiresAt : Timestamp)

/-- The newest transition is that the dispatch began, or that it was adopted as lost. -/
def Watched (tables : EffectTables) : Prop :=
  ∃ before row after, tables.transitions = before ++ row :: after ∧
    row.effectId = intent.id ∧ row.workspaceId = intent.workspaceId ∧
    (∀ newer ∈ after, newer.effectId = intent.id → newer.workspaceId ≠ intent.workspaceId) ∧
    ((∃ owner, row.event = .dispatchStarted (some owner) (some (pgTime expiresAt))) ∨
      ∃ dispatch, row.event = .dispatchLost dispatch)

/-- A receipt or a settled answer is on record. -/
def Closed (tables : EffectTables) : Prop :=
  tables.hasReceipt intent.workspaceId intent.id = true ∨
    tables.Settled intent.workspaceId intent.id

def Recorded (tables : EffectTables) : Prop :=
  (tables.intents.find? fun row => row.id == intent.id && row.workspaceId == intent.workspaceId) =
    some intent

/-- Every call keeps it, other than those that begin the effect anew. -/
structure InSight (tables : EffectTables) : Prop where
  recorded : Recorded intent tables
  watched : Closed intent tables ∨ Watched intent expiresAt tables

variable {intent expiresAt} {tables tables' : EffectTables}

theorem Recorded.mono (h : Recorded intent tables) (hgrows : tables.intents <+: tables'.intents) :
    Recorded intent tables' := by
  obtain ⟨new, hnew⟩ := hgrows
  unfold Recorded at h ⊢
  rw [← hnew, find?_append, h]
  rfl

theorem Closed.mono (h : Closed intent tables) (hreceipts : tables.receipts <+: tables'.receipts)
    (hsettled : tables.Settled intent.workspaceId intent.id →
      tables'.Settled intent.workspaceId intent.id) : Closed intent tables' := by
  refine h.imp ?_ hsettled
  intro hreceipt
  obtain ⟨new, hnew⟩ := hreceipts
  unfold hasReceipt at hreceipt ⊢
  rw [← hnew, any_append, hreceipt, Bool.true_or]

theorem InSight.step (h : InSight intent expiresAt tables)
    (hintents : tables.intents <+: tables'.intents)
    (hreceipts : tables.receipts <+: tables'.receipts)
    (hsettled : tables.Settled intent.workspaceId intent.id →
      tables'.Settled intent.workspaceId intent.id)
    (htransitions : tables'.transitions = tables.transitions ∨
      ∃ row, tables'.transitions = tables.transitions ++ [row] ∧
        (row.effectId = intent.id → row.workspaceId = intent.workspaceId →
          (∃ dispatch, row.event = .dispatchLost dispatch) ∨ Closed intent tables')) :
    InSight intent expiresAt tables' := by
  refine ⟨h.recorded.mono hintents, ?_⟩
  rcases h.watched with hclosed | ⟨before, row, after, hsplit, heffect, hws, hafter, hevent⟩
  · exact .inl (hclosed.mono hreceipts hsettled)
  rcases htransitions with hsame | ⟨added, hadded, hwhat⟩
  · exact .inr ⟨before, row, after, hsame.trans hsplit, heffect, hws, hafter, hevent⟩
  · by_cases hmine : added.effectId = intent.id ∧ added.workspaceId = intent.workspaceId
    · rcases hwhat hmine.1 hmine.2 with hlost | hclosed
      · -- the adoption is the newest now
        exact .inr ⟨tables.transitions, added, [], hadded, hmine.1, hmine.2,
          fun newer hnewer => absurd hnewer not_mem_nil, .inr hlost⟩
      · exact .inl hclosed
    · refine .inr ⟨before, row, after ++ [added], ?_, heffect, hws, ?_, hevent⟩
      · rw [hadded, hsplit, append_assoc, cons_append]
      · intro newer hnewer hsame
        rcases mem_append.mp hnewer with hold | hnew
        · exact hafter newer hold hsame
        · rw [mem_singleton.mp hnew] at hsame ⊢
          exact fun hws' => hmine ⟨hsame, hws'⟩

end

/-! ## Every call keeps it -/

def EffectCall.Restarts (effectId : ExternalEffectId) : EffectCall → Prop
  | .recordAuthorization _ effect _ => effect = effectId
  | .recordDispatchStarted _ effect _ _ _ => effect = effectId
  | _ => False

section

variable {intent : ExternalEffectIntent} {expiresAt : Timestamp} {tables tables' : EffectTables}
  {ctx : RequestContext} {fresh : Uuid} {reconciliationId : ExternalReconciliationId}
  {at_ : Timestamp}

section

variable (h : InSight intent expiresAt tables)

include h

theorem InSight.insertIntent {other : ExternalEffectIntent}
    (hok : tables.insertIntent ctx other fresh = .ok ((), tables')) :
    InSight intent expiresAt tables' := by
  obtain ⟨-, ⟨-, rfl⟩ | ⟨hfresh, -, rfl⟩⟩ := insertIntent_ok hok
  · exact h
  · refine h.step (prefix_append _ _) prefix_rfl id (.inr ⟨_, rfl, ?_⟩)
    intro hsame
    exact absurd hsame.symm (hfresh intent (mem_of_find?_eq_some h.recorded))

theorem InSight.recordAuthorization (hother : effectId ≠ intent.id)
    (hok : tables.recordAuthorization ctx effectId decision fresh = .ok ((), tables')) :
    InSight intent expiresAt tables' := by
  obtain ⟨-, -, rfl⟩ := recordAuthorization_ok hok
  by_cases hallowed : decision.isAllowed = true
  · rw [if_pos hallowed]
    exact h.step prefix_rfl prefix_rfl id (.inr ⟨_, rfl, fun hsame => absurd hsame hother⟩)
  · rw [if_neg hallowed]
    exact h.step prefix_rfl prefix_rfl id (.inl rfl)

theorem InSight.insertReceipt {receipt : ExternalEffectReceipt} {createdAt : Timestamp}
    (hok : tables.insertReceipt ctx receipt createdAt fresh = .ok ((), tables')) :
    InSight intent expiresAt tables' := by
  obtain rfl | ⟨-, -, rfl⟩ := insertReceipt_ok hok
  · exact h
  · refine h.step prefix_rfl (prefix_append _ _) id (.inr ⟨_, rfl, ?_⟩)
    intro heffect hws
    refine .inr (.inl (any_eq_true.mpr ⟨_, mem_append_right _ mem_cons_self, ?_⟩))
    rw [Bool.and_eq_true, beq_iff_eq, beq_iff_eq]
    exact ⟨heffect, hws⟩

theorem InSight.insertReconciliation {reconciliation : ExternalReconciliation}
    (hok : tables.insertReconciliation ctx reconciliation fresh = .ok ((), tables')) :
    InSight intent expiresAt tables' := by
  obtain rfl | ⟨-, -, rfl⟩ := insertReconciliation_ok hok
  · exact h
  have hkept : tables.Settled intent.workspaceId intent.id →
      (tables.addReconciliation ⟨reconciliation, ctx.workspaceId, none⟩).Settled
        intent.workspaceId intent.id := by
    rintro ⟨row, hrow, hsettled⟩
    exact ⟨row, mem_append_left _ hrow, hsettled⟩
  by_cases hsettled : isSettled reconciliation.outcome = true
  · rw [if_pos hsettled]
    refine h.step prefix_rfl prefix_rfl hkept (.inr ⟨_, rfl, ?_⟩)
    intro heffect hws
    exact .inr (.inr ⟨_, mem_append_right _ mem_cons_self, heffect, hws, hsettled⟩)
  · rw [if_neg hsettled]
    exact h.step prefix_rfl prefix_rfl hkept (.inl rfl)

end

/-- Telling the run of an outcome settles nothing and unsettles nothing. -/
theorem EffectTables.Settled.notify (h : tables.Settled workspaceId effectId) :
    (tables.notify ctx reconciliationId at_).Settled workspaceId effectId := by
  obtain ⟨row, hrow, hwhat⟩ := h
  refine ⟨_, mem_map_of_mem hrow, ?_⟩
  split <;> exact hwhat

theorem InSight.markOutcomeDelivered (h : InSight intent expiresAt tables)
    (hok : tables.markOutcomeDelivered ctx reconciliationId at_ fresh = .ok ((), tables')) :
    InSight intent expiresAt tables' := by
  obtain rfl | ⟨row, hrow, status, howed, hsettled, -, rfl⟩ :=
    markOutcomeDelivered_ok hok
  · exact h
  · refine h.step prefix_rfl prefix_rfl Settled.notify (.inr ⟨_, rfl, ?_⟩)
    intro heffect hws
    have hrowws : row.workspaceId = ctx.workspaceId := by
      simp only [owedUnder, Bool.and_eq_true, beq_iff_eq] at howed
      exact howed.1.2
    -- what is delivered was settled
    have hwas : tables.Settled intent.workspaceId intent.id :=
      ⟨row, hrow, heffect, hrowws.trans hws, hsettled⟩
    exact .inr (.inr hwas.notify)

theorem InSight.exec (h : InSight intent expiresAt host.tables)
    (hcall : ¬ call.Restarts intent.id) :
    InSight intent expiresAt (exec call host).2.tables := by
  cases call with
  | newId | evaluate | dispatch | observe => exact h
  | loadStreamHead | appendEvents => exact onRun_tables.symm ▸ h
  | insertIntent => exact onTables_tables h fun _ _ => h.insertIntent
  | recordAuthorization =>
    exact onTables_tables h fun _ _ => h.recordAuthorization hcall
  | recordDispatchStarted =>
    refine onTables_tables h fun _ _ hok => ?_
    rw [(recordDispatchStarted_ok hok).2]
    exact h.step prefix_rfl prefix_rfl id (.inr ⟨_, rfl, fun hsame => absurd hsame hcall⟩)
  | insertReceipt => exact onTables_tables h fun _ _ => h.insertReceipt
  | findReconciliationCandidates | findUndeliveredOutcomes =>
    exact onTables_tables h fun _ _ hok => by cases hok; exact h
  | adoptLostDispatch =>
    refine onTables_tables h fun _ _ hok => ?_
    obtain rfl | ⟨-, -, rfl⟩ := adoptLostDispatch_ok hok
    · exact h
    · exact h.step prefix_rfl prefix_rfl id (.inr ⟨_, rfl, fun _ _ => .inl ⟨_, rfl⟩⟩)
  | recordFailedRecoveryAttempt =>
    refine onTables_tables h fun _ _ hok => ?_
    rw [recordFailedRecoveryAttempt_ok hok]
    exact h.step prefix_rfl prefix_rfl id (.inl rfl)
  | insertReconciliation =>
    exact onTables_tables h fun _ _ => h.insertReconciliation
  | markOutcomeDelivered =>
    exact onTables_tables h fun _ _ => h.markOutcomeDelivered
  | recordWorkerPresence =>
    refine onTables_tables h fun _ _ hok => ?_
    obtain ⟨presence, rfl⟩ := recordWorkerPresence_ok hok
    exact h.step prefix_rfl prefix_rfl id (.inl rfl)
  | clearWorkerPresence =>
    refine onTables_tables h fun _ _ hok => ?_
    obtain ⟨presence, rfl⟩ := clearWorkerPresence_ok hok
    exact h.step prefix_rfl prefix_rfl id (.inl rfl)

def EffectsHost.afterCalls (host : EffectsHost) (calls : List EffectCall) : EffectsHost :=
  calls.foldl (fun host call => (exec call host).2) host

theorem InSight.afterCalls {calls : List EffectCall} (h : InSight intent expiresAt host.tables)
    (hcalls : ∀ call ∈ calls, ¬ call.Restarts intent.id) :
    InSight intent expiresAt (host.afterCalls calls).tables := by
  induction calls generalizing host with
  | nil => exact h
  | cons call calls ih =>
    obtain ⟨hcall, hrest⟩ := forall_mem_cons.mp hcalls
    exact ih (h.exec hcall) hrest

theorem InSight.found (h : InSight intent expiresAt tables) {limit : UInt32}
    (hws : ctx.workspaceId = intent.workspaceId)
    (hexpired : pgTime expiresAt < pgTime cutoffs.dispatchExpiredBefore)
    (hcutoffs : tables.CutoffsPassed intent.workspaceId cutoffs intent.id)
    (hreceipt : tables.hasReceipt intent.workspaceId intent.id = false)
    (hopen : ¬ tables.Settled intent.workspaceId intent.id)
    (hlimit : (tables.candidateRows intent.workspaceId cutoffs).length ≤ limit.toNat) :
    ∃ candidate ∈ tables.findReconciliationCandidates cutoffs ctx limit,
      candidate.intent = intent := by
  rcases h.watched with (hclosed | hclosed) | ⟨before, row, after, hsplit, heffect, hrow, hafter,
    hevent⟩
  · rw [hreceipt] at hclosed
    cases hclosed
  · exact absurd hclosed hopen
  have hmem : row ∈ tables.transitions := by
    rw [hsplit]
    exact mem_append_right _ mem_cons_self
  have hnewest : row ∈ newest tables.transitions := by
    rw [hsplit]
    refine mem_newest_of_append ?_
    rw [heffect, hrow]
    exact hafter
  obtain ⟨lost, hlost⟩ : ∃ lost,
      tables.lostDispatch intent.workspaceId cutoffs row = some lost := by
    unfold lostDispatch
    rcases hevent with ⟨owner, hevent⟩ | ⟨dispatch, hevent⟩ <;> rw [hevent]
    · simp [hexpired]
    · have hadopted := hcutoffs.adopted row hmem heffect hrow dispatch hevent
      simp [hadopted]
  have hcandidate : tables.lostDispatchRow intent.workspaceId cutoffs row =
      some ⟨⟨intent, none, some lost⟩, row.recordedAt⟩ := by
    unfold lostDispatchRow
    rw [heffect, hrow, h.recorded, hlost]
    exact if_pos ⟨rfl, hreceipt, hcutoffs.mayAsk hopen⟩
  rw [← hws] at hlimit hcandidate
  refine ⟨⟨intent, none, some lost⟩, ?_, rfl⟩
  exact (mem_findReconciliationCandidates hlimit).mpr
    ⟨_, mem_candidateRows.mpr (.inr ⟨row, hnewest, hcandidate⟩), rfl⟩

end

/-! ## `perform` -/

/-- What is on record when the adapter is called: the intent, a decision that permits it,
and that the dispatch has begun, with its deadline. -/
structure Durable (owner : WorkerId) (intent : ExternalEffectIntent) (expiresAt : Timestamp)
    (tables : EffectTables) : Prop where
  recorded : Recorded intent tables
  authorized : ∃ row ∈ tables.authorizations, row.effectId = intent.id ∧
    row.workspaceId = intent.workspaceId ∧ Permits row.decision intent
  dispatching : ∃ row ∈ tables.transitions, row.effectId = intent.id ∧
    row.workspaceId = intent.workspaceId ∧
    row.event = .dispatchStarted (some owner) (some (pgTime expiresAt))

def EffectCall.IsDispatch : EffectCall → Prop
  | .dispatch _ => True
  | _ => False

section

variable {owner : WorkerId} {ctx : RequestContext} {intent : ExternalEffectIntent}
  {descriptor : ExternalEffectAdapterDescriptor} {at_ : Timestamp}

theorem run_ask_bind_ok {ε : Type} {f : call.Answer → EffectProg ε α} {a : α} :
    (ask call >>= f).run host = (.ok a, host') ↔
      (f (exec call host).1).run (exec call host).2 = (.ok a, host') :=
  Iff.rfl

theorem run_orFail_bind_ok {β : Type} {x : AppResult α} {f : α → EffectProg Halt β}
    {b : β} : (orFail x >>= f).run host = (.ok b, host') ↔
      ∃ a, x = .ok a ∧ (f a).run host = (.ok b, host') := by
  rw [orFail, Prog.run_lift_bind_ok]
  simp only [mapError_eq_ok]

theorem authorizedBy_ok (h : authorizedBy intent decision = .ok (some authorized)) :
    Permits decision intent ∧ authorized.intent = intent := by
  unfold authorizedBy at h
  split at h
  · cases hauthorize : intent.authorize (.fromPolicyDecision decision) with
    | error e =>
      rw [hauthorize] at h
      cases h
    | ok authorized' =>
      rw [hauthorize] at h
      cases h
      obtain ⟨hmatch, hret⟩ := unit_bind_eq_ok.mp hauthorize
      rw [refuse_eq_ok] at hmatch
      simp only [EffectAuthorization.fromPolicyDecision, not_or, Bool.not_eq_false, ne_eq,
        not_not] at hmatch
      obtain ⟨hallowed, hws, hactor, hcap, hop, hscope, -⟩ := hmatch
      cases pure_eq_ok.mp hret
      exact ⟨⟨hallowed, hws, hactor, hcap, hop, hscope⟩, rfl⟩
  · cases h

theorem Recorded.of_insertIntent {tables tables' : EffectTables} {fresh : Uuid}
    (h : tables.insertIntent ctx intent fresh = .ok ((), tables')) :
    Recorded intent tables' := by
  obtain ⟨hws, ⟨hfind, rfl⟩ | ⟨hnew, -, rfl⟩⟩ := insertIntent_ok h
  · unfold findIntent at hfind
    unfold Recorded
    rw [hws]
    exact hfind
  · have hnone : (tables.intents.find? fun row =>
        row.id == intent.id && row.workspaceId == intent.workspaceId) = none := by
      refine find?_eq_none.mpr ?_
      intro row hrow hsame
      rw [Bool.and_eq_true, beq_iff_eq] at hsame
      exact hnew row hrow hsame.1
    show ((tables.intents ++ [intent]).find? fun row =>
      row.id == intent.id && row.workspaceId == intent.workspaceId) = some intent
    rw [find?_append, hnone]
    simp

structure Cleared (context : RequestContext) (intent : ExternalEffectIntent)
    (tables : EffectTables) : Prop where
  workspaceId : intent.workspaceId = context.workspaceId
  recorded : Recorded intent tables
  authorized : ∃ row ∈ tables.authorizations, row.effectId = intent.id ∧
    row.workspaceId = intent.workspaceId ∧ Permits row.decision intent

theorem prepare_ok (h : (prepare ctx intent).run host = (.ok authorized, reached)) :
    authorized.intent = intent ∧ Cleared ctx intent reached.tables := by
  obtain ⟨_, hinserted, h⟩ := run_orFail_bind_ok.mp (run_ask_bind_ok.mp h)
  have hws := (insertIntent_ok (onTables_ok hinserted)).1
  obtain ⟨decision, -, h⟩ := run_orFail_bind_ok.mp (run_ask_bind_ok.mp h)
  obtain ⟨authorized', hauthorized, h⟩ := run_orFail_bind_ok.mp h
  obtain ⟨_, hdecided, h⟩ := run_orFail_bind_ok.mp (run_ask_bind_ok.mp h)
  rw [orFail, Prog.run_lift_ok, mapError_eq_ok, okOr_eq_ok] at h
  obtain ⟨rfl, rfl⟩ := h
  obtain ⟨hpermits, hintent⟩ := authorizedBy_ok hauthorized
  have htables := (recordAuthorization_ok (onTables_ok hdecided)).2.2
  rw [if_pos hpermits.allowed] at htables
  have hrow := Recorded.of_insertIntent (onTables_ok hinserted)
  refine ⟨hintent, hws, ?_, ?_⟩
  · refine hrow.mono ?_
    show _ <+: (onTables _ _ _).2.tables.intents
    rw [htables]
    exact prefix_rfl
  · refine ⟨⟨intent.id, ctx.workspaceId, decision⟩, ?_, rfl, hws.symm, hpermits⟩
    show _ ∈ (onTables _ _ _).2.tables.authorizations
    rw [htables]
    exact mem_append_right _ mem_cons_self

theorem exec_dispatched (h : ¬ call.IsDispatch) :
    (exec call host).2.dispatched = host.dispatched := by
  cases call with
  | newId | evaluate | observe => rfl
  | dispatch => exact absurd trivial h
  | loadStreamHead | appendEvents => exact onRun_dispatched
  | _ => exact onTables_dispatched

theorem prepare_makes : (prepare ctx intent).Makes fun call : EffectCall => ¬ call.IsDispatch := by
  refine .bind (.perform id) fun _ => .bind (.lift _) fun _ => ?_
  refine .bind (.perform id) fun _ => .bind (.lift _) fun _ => .bind (.lift _) fun _ => ?_
  exact .bind (.perform id) fun _ => .bind (.lift _) fun _ => .lift _

def Sent (descriptor : ExternalEffectAdapterDescriptor) (at_ : Timestamp)
    (intent : ExternalEffectIntent) (earlier : List ExternalEffectIntent) (host : EffectsHost) :
    Prop :=
  host.dispatched = earlier ++ [intent] ∧ ∃ expiresAt,
    dispatchExpiresAt descriptor at_ = some expiresAt ∧ InSight intent expiresAt host.tables

def OnRecord (owner : WorkerId) (descriptor : ExternalEffectAdapterDescriptor) (at_ : Timestamp)
    (intent : ExternalEffectIntent) (call : EffectCall) (host : EffectsHost) : Prop :=
  ∀ sent, call = .dispatch sent → sent = intent ∧ ∃ expiresAt,
    dispatchExpiresAt descriptor at_ = some expiresAt ∧ Durable owner intent expiresAt host.tables

theorem onRecord_of_not_dispatch (h : ¬ call.IsDispatch) :
    OnRecord owner descriptor at_ intent call host := by
  rintro sent rfl
  exact absurd trivial h

/-- Nothing has been sent since, or the effect has and is in sight. -/
def SentOrNot (descriptor : ExternalEffectAdapterDescriptor) (at_ : Timestamp)
    (intent : ExternalEffectIntent) (earlier : List ExternalEffectIntent) (host : EffectsHost) :
    Prop :=
  host.dispatched = earlier ∨ Sent descriptor at_ intent earlier host

theorem SentOrNot.exec {earlier : List ExternalEffectIntent}
    (h : SentOrNot descriptor at_ intent earlier host) (hsend : ¬ call.IsDispatch)
    (hrestart : ¬ call.Restarts intent.id) :
    SentOrNot descriptor at_ intent earlier (exec call host).2 := by
  rcases h with hnot | ⟨hdispatched, expiresAt, hexpires, hsight⟩
  · exact .inl ((exec_dispatched hsend).trans hnot)
  · exact .inr ⟨(exec_dispatched hsend).trans hdispatched, expiresAt, hexpires,
      hsight.exec hrestart⟩

def Careful (owner : WorkerId) (descriptor : ExternalEffectAdapterDescriptor) (at_ : Timestamp)
    (intent : ExternalEffectIntent) (earlier : List ExternalEffectIntent) (call : EffectCall)
    (host : EffectsHost) : Prop :=
  OnRecord owner descriptor at_ intent call host ∧
    SentOrNot descriptor at_ intent earlier (exec call host).2

theorem dispatch_careful {digest : String} (hintent : authorized.intent = intent)
    (hcleared : Cleared ctx intent reached.tables) :
    (dispatch owner ctx authorized descriptor digest at_).Before
      (Careful owner descriptor at_ intent reached.dispatched) reached := by
  subst hintent
  refine .lift_bind fun _ _ => .lift_bind fun expiresAt hexpires => ?_
  rw [okOr_eq_ok] at hexpires
  refine .call_bind ⟨onRecord_of_not_dispatch id, .inl (exec_dispatched id)⟩ ?_
  refine .lift_bind fun transition hstarted => ?_
  obtain ⟨hws, hrecorded, hauthorized⟩ := hcleared
  have htables := (recordDispatchStarted_ok (onTables_ok (mapError_eq_ok.mp hstarted))).2
  have hdurable : Durable owner authorized.intent expiresAt (exec (.recordDispatchStarted ctx
      authorized.intent.id owner expiresAt at_) reached).2.tables := by
    rw [exec, execIn, htables]
    exact ⟨hrecorded, hauthorized, _, mem_append_right _ mem_cons_self, rfl, hws.symm, rfl⟩
  have hsight : InSight authorized.intent expiresAt (exec (.recordDispatchStarted ctx
      authorized.intent.id owner expiresAt at_) reached).2.tables := by
    rw [exec, execIn, htables]
    exact ⟨hrecorded, .inr ⟨_, _, [], rfl, rfl, hws.symm,
      fun _ hnewer => absurd hnewer not_mem_nil, .inl ⟨owner, rfl⟩⟩⟩
  -- from here on the adapter is called
  have hsent : SentOrNot descriptor at_ authorized.intent reached.dispatched
      (exec (.dispatch authorized.intent) (exec
        (.recordDispatchStarted ctx authorized.intent.id owner expiresAt at_) reached).2).2 :=
    .inr ⟨congrArg (· ++ [authorized.intent]) (exec_dispatched id), expiresAt, hexpires, hsight⟩
  refine .lift_bind fun _ _ => .call_bind ⟨?_, hsent⟩ ?_
  · intro sent hcall
    cases hcall
    exact ⟨rfl, expiresAt, hexpires, hdurable⟩
  · refine .lift_bind fun result _ => ?_
    exact .call_bind ⟨onRecord_of_not_dispatch id, hsent.exec id id⟩ trivial

theorem dispatchPrepared_careful (hintent : authorized.intent = intent)
    (hcleared : Cleared ctx intent reached.tables) :
    (dispatchPrepared owner ctx descriptor at_ authorized).Before
      (Careful owner descriptor at_ intent reached.dispatched) reached := by
  have hdispatch : (dispatch owner ctx authorized descriptor
      authorized.intent.preconditionDigest at_).Before
        (Careful owner descriptor at_ intent reached.dispatched) reached :=
    dispatch_careful hintent hcleared
  refine hdispatch.bind fun receipt host hrun => ?_
  -- the receipt is recorded in the state the dispatch leaves
  have hleft : SentOrNot descriptor at_ intent reached.dispatched host := by
    have halways := (hdispatch.mono fun _ _ hcareful => hcareful.2).always.run (.inl rfl)
    rw [hrun] at halways
    exact halways
  refine .call_bind ⟨onRecord_of_not_dispatch id, hleft.exec id id⟩ ?_
  exact .lift_bind fun _ _ => trivial

theorem perform_careful (owner : WorkerId) (ctx : RequestContext)
    (intent : ExternalEffectIntent) (descriptor : ExternalEffectAdapterDescriptor)
    (at_ : Timestamp) (host : EffectsHost) :
    (perform owner ctx intent descriptor at_).Before
      (Careful owner descriptor at_ intent host.dispatched) host := by
  refine Prog.Before.bind ?_ fun authorized reached hrun => ?_
  · refine prepare_makes.before (I := fun host' => host'.dispatched = host.dispatched) ?_ rfl
    intro call host' hcall hsame
    have hkept : (exec call host').2.dispatched = host.dispatched :=
      (exec_dispatched hcall).trans hsame
    exact ⟨⟨onRecord_of_not_dispatch hcall, .inl hkept⟩, hkept⟩
  · obtain ⟨hintent, hcleared⟩ := prepare_ok hrun
    have hsame : reached.dispatched = host.dispatched := by
      have halways : (prepare ctx intent).Always
          (fun host' => host'.dispatched = host.dispatched) host :=
        prepare_makes.always (fun call host' hcall h => (exec_dispatched hcall).trans h) rfl
      have hend := halways.run rfl
      rw [hrun] at hend
      exact hend
    rw [← hsame]
    exact dispatchPrepared_careful hintent hcleared

/-- **Nothing leaves unrecorded, and what has left stays in sight.** The adapter is called at most
once, with the intent, the decision and the dispatch on record; and from a microsecond after the
deadline every search finds the effect, until a receipt or a settled answer is on record. -/
theorem dispatch_recorded_and_recoverable (owner : WorkerId) (context : RequestContext)
    (intent : ExternalEffectIntent) (descriptor : ExternalEffectAdapterDescriptor)
    (at_ : Timestamp) (host : EffectsHost) (stop : ℕ) :
    (∀ n sent, (perform owner context intent descriptor at_).callAfter n host =
        some (.dispatch sent) → sent = intent ∧ ∃ expiresAt,
          dispatchExpiresAt descriptor at_ = some expiresAt ∧
          Durable owner intent expiresAt
            ((perform owner context intent descriptor at_).stoppedAfter n host).tables) ∧
      let stopped := (perform owner context intent descriptor at_).stoppedAfter stop host
      stopped.dispatched = host.dispatched ∨
        stopped.dispatched = host.dispatched ++ [intent] ∧ ∃ expiresAt,
          dispatchExpiresAt descriptor at_ = some expiresAt ∧
          ∀ later : List EffectCall, (∀ call ∈ later, ¬ call.Restarts intent.id) →
          ∀ (search : RequestContext) (cutoffs : Cutoffs) (limit : UInt32),
            let tables := (stopped.afterCalls later).tables
            search.workspaceId = intent.workspaceId →
            expiresAt + 1000 ≤ cutoffs.dispatchExpiredBefore →
            tables.CutoffsPassed intent.workspaceId cutoffs intent.id →
            tables.hasReceipt intent.workspaceId intent.id = false →
            ¬ tables.Settled intent.workspaceId intent.id →
            (tables.candidateRows intent.workspaceId cutoffs).length ≤ limit.toNat →
            ∃ candidate ∈ tables.findReconciliationCandidates cutoffs search limit,
              candidate.intent = intent := by
  have hcareful := perform_careful owner context intent descriptor at_ host
  refine ⟨?_, ?_⟩
  · intro n sent hcall
    exact (hcareful.callAfter hcall).1 sent rfl
  · have hstopped := (hcareful.mono fun _ _ h => h.2).always.stoppedAfter (.inl rfl) stop
    refine hstopped.imp_right ?_
    rintro ⟨hdispatched, expiresAt, hexpires, hsight⟩
    refine ⟨hdispatched, expiresAt, hexpires, ?_⟩
    intro later hlater search cutoffs limit tables hws hexpired hcutoffs hreceipt hopen hlimit
    exact (hsight.afterCalls hlater).found hws (pgTime_lt hexpired) hcutoffs hreceipt hopen hlimit

end

/-- The sample, stopped when the adapter has answered and the receipt is not stored. -/
def sampleStopped : EffectsHost := samplePerform.stoppedAfter 5 (sampleHost (sampleWeather none))

/-- No dispatch of these tables has been adopted, and nobody was asked. -/
def untouched (tables : EffectTables) : Bool :=
  tables.reconciliations.isEmpty && tables.attempts.isEmpty && tables.transitions.all fun row =>
    match row.event with
    | .dispatchLost _ => false
    | _ => true

theorem CutoffsPassed.of_untouched {tables : EffectTables} (h : untouched tables = true) :
    tables.CutoffsPassed workspaceId cutoffs effectId := by
  simp only [untouched, Bool.and_eq_true, List.isEmpty_iff] at h
  obtain ⟨⟨hreconciliations, hattempts⟩, htransitions⟩ := h
  refine ⟨?_, ?_, ?_⟩
  · intro row hrow _ _ dispatch hevent
    have hnot := all_eq_true.mp htransitions row hrow
    rw [hevent] at hnot
    cases hnot
  · intro row hrow
    rw [hreconciliations] at hrow
    cases hrow
  · intro row hrow
    rw [hattempts] at hrow
    cases hrow

/-- At its deadline the effect is not found: the deadline is not later than itself. -/
theorem deadline_not_yet_found :
    let atDeadline : Cutoffs := ⟨305000000000, 305000000000, 305000000000⟩
    dispatchExpiresAt sampleDescriptor 0 = some atDeadline.dispatchExpiredBefore ∧
      sampleStopped.dispatched = [sampleIntent] ∧
      sampleStopped.tables.hasReceipt sampleIntent.workspaceId sampleIntent.id = false ∧
      ¬ sampleStopped.tables.Settled sampleIntent.workspaceId sampleIntent.id ∧
      sampleStopped.tables.CutoffsPassed sampleIntent.workspaceId atDeadline sampleIntent.id ∧
      sampleStopped.tables.findReconciliationCandidates atDeadline sampleContext 8 = [] := by
  intro atDeadline
  have hfacts : dispatchExpiresAt sampleDescriptor 0 = some atDeadline.dispatchExpiredBefore ∧
      sampleStopped.dispatched = [sampleIntent] ∧
      sampleStopped.tables.hasReceipt sampleIntent.workspaceId sampleIntent.id = false ∧
      sampleStopped.tables.reconciliations = [] ∧ untouched sampleStopped.tables = true ∧
      sampleStopped.tables.findReconciliationCandidates atDeadline sampleContext 8 = [] := by
    decide +kernel
  obtain ⟨hexpires, hsent, hreceipt, hreconciliations, huntouched, hfound⟩ := hfacts
  refine ⟨hexpires, hsent, hreceipt, ?_, CutoffsPassed.of_untouched huntouched, hfound⟩
  rintro ⟨row, hrow, -⟩
  rw [hreconciliations] at hrow
  cases hrow

def sampleLater : List EffectCall :=
  [.adoptLostDispatch sampleContext ⟨1⟩ ⟨103⟩ 306000000000,
    .recordFailedRecoveryAttempt sampleContext ⟨1⟩ 306000000000 "no route"]

theorem dispatch_recoverable_sample :
    ∃ candidate ∈ (sampleStopped.afterCalls sampleLater).tables.findReconciliationCandidates
        ⟨400000000000, 400000000000, 400000000000⟩ sampleContext 8,
      candidate.intent = sampleIntent := by
  have hfacts : sampleStopped.dispatched ≠ [] ∧
      dispatchExpiresAt sampleDescriptor 0 = some 305000000000 ∧
      (sampleStopped.afterCalls sampleLater).tables.hasReceipt sampleIntent.workspaceId
        sampleIntent.id = false ∧
      (sampleStopped.afterCalls sampleLater).tables.reconciliations = [] ∧
      ((sampleStopped.afterCalls sampleLater).tables.transitions.all fun row =>
        decide (row.recordedAt < 400000000000)) = true ∧
      ((sampleStopped.afterCalls sampleLater).tables.attempts.all fun row =>
        decide (row.attemptedAt < 400000000000)) = true ∧
      ((sampleStopped.afterCalls sampleLater).tables.candidateRows sampleIntent.workspaceId
        ⟨400000000000, 400000000000, 400000000000⟩).length ≤ UInt32.toNat 8 := by
    decide +kernel
  obtain ⟨hsent, hexpires, hreceipt, hreconciliations, htransitions, hattempts, hroom⟩ := hfacts
  have hnone : ∀ row, row ∉ (sampleStopped.afterCalls sampleLater).tables.reconciliations := by
    rw [hreconciliations]
    exact fun row => not_mem_nil
  have hrecoverable := (dispatch_recorded_and_recoverable ⟨8⟩ sampleContext sampleIntent
    sampleDescriptor 0 (sampleHost (sampleWeather none)) 5).2
  rcases hrecoverable with hnot | ⟨-, expiresAt, hexpiresAt, hfound⟩
  · exact absurd hnot hsent
  rw [hexpires, Option.some.injEq] at hexpiresAt
  refine hfound sampleLater ?_ sampleContext _ 8 rfl (hexpiresAt ▸ by decide) ⟨?_, ?_, ?_⟩
    hreceipt ?_ hroom
  · simp [sampleLater, EffectCall.Restarts]
  · intro row hrow _ _ _ _
    exact of_decide_eq_true (all_eq_true.mp htransitions row hrow)
  · exact fun row hrow => absurd hrow (hnone row)
  · intro row hrow _ _
    exact of_decide_eq_true (all_eq_true.mp hattempts row hrow)
  · exact fun ⟨row, hrow, _⟩ => hnone row hrow

end Vestrace.Effects
