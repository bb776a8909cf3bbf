import Vestrace.Effects.Recoverable

/-!
# What the tables' keys promise

A few facts about the rows hold after every call, whoever makes it and in whatever weather.
-/

namespace Vestrace.Effects

open Lib Vestrace.Legacy Vestrace.Security EffectsHost List

variable {host : EffectsHost} {row : Transition}

/-- A dispatch is adopted as lost only after it has begun. -/
def AdoptedAfter (transitions : List Transition) : Prop :=
  ∀ before row after, transitions = before ++ row :: after →
    ∀ dispatch, row.event = .dispatchLost dispatch → ∃ started ∈ before, started.id = dispatch

theorem AdoptedAfter.concat {transitions : List Transition} (h : AdoptedAfter transitions)
    (hrow : ∀ dispatch, row.event = .dispatchLost dispatch →
      ∃ started ∈ transitions, started.id = dispatch) : AdoptedAfter (transitions ++ [row]) := by
  intro before other after hsplit dispatch hevent
  -- the row is the new one, or the split is one of the old rows
  rcases eq_nil_or_concat after with rfl | ⟨after, last, rfl⟩
  · obtain ⟨rfl, hlast⟩ := append_inj' hsplit rfl
    cases hlast
    exact hrow dispatch hevent
  · rw [concat_eq_append, ← cons_append, ← append_assoc] at hsplit
    exact h before other after (append_inj_left' hsplit rfl) dispatch hevent

/-- No two rows of a kind have one id, and dispatches are adopted only after they began. -/
structure EffectTables.Consistent (tables : EffectTables) : Prop where
  receiptIds : (tables.receipts.map (·.receipt.id)).Nodup
  transitionIds : (tables.transitions.map (·.id)).Nodup
  reconciliationIds : (tables.reconciliations.map (·.reconciliation.id)).Nodup
  adoptedAfter : AdoptedAfter tables.transitions

namespace EffectTables

variable {tables tables' : EffectTables} {ctx : RequestContext}

theorem nodup_map_append {α β : Type} {f : α → β} {l : List α} {a : α} (h : (l.map f).Nodup)
    (hfresh : ∀ old ∈ l, f old ≠ f a) : ((l ++ [a]).map f).Nodup := by
  rw [map_append, map_singleton, nodup_append]
  refine ⟨h, nodup_singleton _, ?_⟩
  intro b hb b' hb'
  obtain ⟨old, hold, rfl⟩ := mem_map.mp hb
  rw [mem_singleton.mp hb']
  exact hfresh old hold

section

variable (h : tables.Consistent) (hreceipts : tables'.receipts = tables.receipts)
  (hreconciliations : tables'.reconciliations.map (·.reconciliation.id) =
    tables.reconciliations.map (·.reconciliation.id))

include h hreceipts hreconciliations

theorem Consistent.congr (htransitions : tables'.transitions = tables.transitions) :
    tables'.Consistent :=
  ⟨hreceipts ▸ h.receiptIds, htransitions ▸ h.transitionIds,
    hreconciliations ▸ h.reconciliationIds, htransitions ▸ h.adoptedAfter⟩

theorem Consistent.concat (htransitions : tables'.transitions = tables.transitions ++ [row])
    (hfresh : ∀ old ∈ tables.transitions, old.id ≠ row.id)
    (hrow : ∀ dispatch, row.event = .dispatchLost dispatch →
      ∃ started ∈ tables.transitions, started.id = dispatch) : tables'.Consistent :=
  ⟨hreceipts ▸ h.receiptIds, htransitions ▸ nodup_map_append h.transitionIds hfresh,
    hreconciliations ▸ h.reconciliationIds, htransitions ▸ h.adoptedAfter.concat hrow⟩

end

theorem Consistent.addReceipt (h : tables.Consistent) (row : ReceiptRow)
    (hfresh : ∀ old ∈ tables.receipts, old.receipt.id ≠ row.receipt.id) :
    (tables.addReceipt row).Consistent :=
  ⟨nodup_map_append h.receiptIds hfresh, h.transitionIds, h.reconciliationIds, h.adoptedAfter⟩

theorem Consistent.addReconciliation (h : tables.Consistent) (row : ReconciliationRow)
    (hfresh : ∀ old ∈ tables.reconciliations, old.reconciliation.id ≠ row.reconciliation.id) :
    (tables.addReconciliation row).Consistent :=
  ⟨h.receiptIds, h.transitionIds, nodup_map_append h.reconciliationIds hfresh, h.adoptedAfter⟩

/-- **Every call keeps it.** -/
theorem Consistent.exec (h : host.tables.Consistent) (call : EffectCall) :
    (exec call host).2.tables.Consistent := by
  cases call with
  | newId | evaluate | dispatch | observe => exact h
  | loadStreamHead | appendEvents => exact onRun_tables.symm ▸ h
  | insertIntent =>
    refine onTables_tables h fun _ _ hok => ?_
    obtain ⟨-, ⟨-, rfl⟩ | ⟨-, hfresh, rfl⟩⟩ := insertIntent_ok hok
    · exact h
    · exact h.concat rfl rfl rfl hfresh nofun
  | recordAuthorization ctx effectId decision =>
    refine onTables_tables h fun _ _ hok => ?_
    obtain ⟨-, hfresh, rfl⟩ := recordAuthorization_ok hok
    split
    · next hallowed => exact h.concat rfl rfl rfl (hfresh hallowed) nofun
    · exact h.congr rfl rfl rfl
  | recordDispatchStarted =>
    refine onTables_tables h fun _ _ hok => ?_
    obtain ⟨hfresh, rfl⟩ := recordDispatchStarted_ok hok
    exact h.concat rfl rfl rfl hfresh nofun
  | insertReceipt =>
    refine onTables_tables h fun _ _ hok => ?_
    obtain rfl | ⟨hnew, hfresh, rfl⟩ := insertReceipt_ok hok
    · exact h
    · exact (h.addReceipt ⟨_, _, _⟩ hnew).concat rfl rfl rfl hfresh nofun
  | findReconciliationCandidates | findUndeliveredOutcomes =>
    exact onTables_tables h fun _ _ hok => by cases hok; exact h
  | adoptLostDispatch =>
    refine onTables_tables h fun _ _ hok => ?_
    obtain rfl | ⟨hfresh, hstarted, rfl⟩ := adoptLostDispatch_ok hok
    · exact h
    · refine h.concat rfl rfl rfl hfresh fun dispatch hlost => ?_
      cases hlost
      exact hstarted
  | recordFailedRecoveryAttempt =>
    refine onTables_tables h fun _ _ hok => ?_
    rw [recordFailedRecoveryAttempt_ok hok]
    exact h.congr rfl rfl rfl
  | insertReconciliation ctx reconciliation =>
    refine onTables_tables h fun _ _ hok => ?_
    obtain rfl | ⟨hnew, hfresh, rfl⟩ := insertReconciliation_ok hok
    · exact h
    have hadded := h.addReconciliation ⟨reconciliation, ctx.workspaceId, none⟩ hnew
    split
    · next hsettled => exact hadded.concat rfl rfl rfl (hfresh hsettled) nofun
    · exact hadded
  | markOutcomeDelivered =>
    refine onTables_tables h fun _ _ hok => ?_
    obtain rfl | ⟨row, -, status, -, -, hfresh, rfl⟩ := markOutcomeDelivered_ok hok
    · exact h
    · refine h.concat rfl ?_ rfl hfresh nofun
      refine (map_map ..).trans (map_congr_left fun row _ => ?_)
      rw [Function.comp_apply]
      split <;> rfl
  | recordWorkerPresence =>
    refine onTables_tables h fun _ _ hok => ?_
    obtain ⟨presence, rfl⟩ := recordWorkerPresence_ok hok
    exact h.congr rfl rfl rfl
  | clearWorkerPresence =>
    refine onTables_tables h fun _ _ hok => ?_
    obtain ⟨presence, rfl⟩ := clearWorkerPresence_ok hok
    exact h.congr rfl rfl rfl

theorem Consistent.afterCalls (h : host.tables.Consistent)
    (calls : List EffectCall) : (host.afterCalls calls).tables.Consistent := by
  induction calls generalizing host with
  | nil => exact h
  | cons call calls ih => exact ih (h.exec call)

def empty : EffectTables := ⟨[], [], [], [], [], [], []⟩

theorem empty_consistent : empty.Consistent := by
  refine ⟨nodup_nil, nodup_nil, nodup_nil, ?_⟩
  intro before row after hsplit
  exact absurd hsplit.symm (append_ne_nil_of_right_ne_nil _ (cons_ne_nil _ _))

end EffectTables

/-- By any calls in any weather, from empty tables. -/
def Reached (host : EffectsHost) : Prop :=
  ∃ (origin : EffectsHost) (calls : List EffectCall),
    origin.tables = .empty ∧ host = origin.afterCalls calls

/-- And so does every run. -/
theorem Reached.consistent (h : Reached host) : host.tables.Consistent := by
  obtain ⟨origin, calls, horigin, rfl⟩ := h
  exact (horigin ▸ EffectTables.empty_consistent).afterCalls calls

end Vestrace.Effects
