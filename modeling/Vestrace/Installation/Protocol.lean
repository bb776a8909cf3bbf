import Vestrace.Installation.Lineage

/-!
# A cutover and the restore protocol before it

A generation is registered over a pinned plan only when the plan's attempt ended well and
its activation was marked. Whether the whole protocol went before depends on how the plan
and the marker came into the state. `is_exact_target_activation_plan_successor_of` does not compare
the plan with the attempt, `is_exact_target_activating_successor_of` does not ask for a receipt,
and an archive entry may bring in all three sections at once (`Lineage`). `Built` asks of
exactly these entries that their state was built from the head's.
-/

namespace Vestrace.Installation

open Lib WitnessStateV1 List Option RestoreAttemptProgress

/-! ## Events in order -/

/-- Some entries of the journal, in this order, are as asked. -/
def Occurs {α : Type} (wanted : List (α → Prop)) (steps : List α) : Prop :=
  ∃ chosen : List α, chosen.Sublist steps ∧ List.Forall₂ (fun P step => P step) wanted chosen

section

variable {α : Type} {wanted : List (α → Prop)} {steps : List α}

theorem Occurs.nil : Occurs [] steps := ⟨[], nil_sublist steps, .nil⟩

theorem Occurs.later (h : Occurs wanted steps) (step : α) : Occurs wanted (steps ++ [step]) := by
  obtain ⟨chosen, hsub, hall⟩ := h
  exact ⟨chosen, hsub.trans (sublist_append_left steps [step]), hall⟩

theorem Occurs.snoc (h : Occurs wanted steps) {P : α → Prop} {step : α} (hstep : P step) :
    Occurs (wanted ++ [P]) (steps ++ [step]) := by
  obtain ⟨chosen, hsub, hall⟩ := h
  exact ⟨chosen ++ [step], hsub.append (List.Sublist.refl [step]),
    rel_append hall (.cons hstep .nil)⟩

end

/-! ## The five stages -/

namespace WitnessStep

def Prepares (identity : RestoreAttemptIdentity) (step : WitnessStep) : Prop :=
  step.entry.eventKind = .restoreAttemptPrepared ∧ step.before.state.restoreAttemptProgress = none ∧
    step.after.state.restoreAttemptProgress.map (·.identity) = some identity

def Freezes (identity : RestoreAttemptIdentity) (freeze : SourceFreezePoint)
    (step : WitnessStep) : Prop :=
  step.entry.eventKind = .sourceFreezeRecorded ∧
    ∃ attempt, step.after.state.restoreAttemptProgress = some attempt ∧
      attempt.identity = identity ∧ attempt.sourceFreeze = some freeze

def Plans (plan : TargetActivationPlan) (step : WitnessStep) : Prop :=
  step.entry.eventKind = .targetActivationPlanned ∧ step.before.state.targetActivationPlan = none ∧
    step.after.state.targetActivationPlan = some plan

def Ends (receipt : RestoreTerminalReceipt) (step : WitnessStep) : Prop :=
  step.entry.eventKind = .restoreTerminalRecorded ∧
    step.before.state.restoreTerminalReceipt = none ∧
    step.after.state.restoreTerminalReceipt = some receipt

def Activates (digest : SafetyJournalDigest) (step : WitnessStep) : Prop :=
  step.entry.eventKind = .targetActivating ∧ step.before.state.targetActivationStarted = none ∧
    step.after.state.targetActivationStarted = some digest

/-- The entries that the predicates do not hold to their builders were built with them. -/
structure Built [Crypto] (step : WitnessStep) : Prop where
  archive : step.ArchiveBuilt
  planned : step.entry.eventKind = .targetActivationPlanned →
    ∃ plan, step.before.state.withTargetActivationPlan plan = .ok step.entry.state
  activating : step.entry.eventKind = .targetActivating →
    step.before.state.withTargetActivationStarted = .ok step.entry.state

end WitnessStep

inductive BuiltState [Crypto] : WitnessStateV1 → Prop where
  | genesis (generation : DatabaseGenerationId) : BuiltState (.genesis generation)
  | registered {s next : WitnessStateV1} {generation : DatabaseGenerationId} (built : BuiltState s)
      (state : s.registerGeneration generation = .ok next) : BuiltState next
  | archived {s : WitnessStateV1} (built : BuiltState s) (archive : BackupArchiveStateV1) :
      BuiltState (s.withBackupArchiveState archive)
  | prepared {s next : WitnessStateV1} {progress : RestoreAttemptProgress} (built : BuiltState s)
      (state : s.withRestoreAttemptProgress progress = .ok next) : BuiltState next
  | frozen {s next : WitnessStateV1} {freeze : SourceFreezePoint} (built : BuiltState s)
      (state : s.withSourceFreeze freeze = .ok next) : BuiltState next
  | planned {s next : WitnessStateV1} {plan : TargetActivationPlan} (built : BuiltState s)
      (state : s.withTargetActivationPlan plan = .ok next) : BuiltState next
  | ended {s next : WitnessStateV1} {receipt : RestoreTerminalReceipt} (built : BuiltState s)
      (state : s.withRestoreTerminalReceipt receipt = .ok next) : BuiltState next
  | started {s next : WitnessStateV1} (built : BuiltState s)
      (state : s.withTargetActivationStarted = .ok next) : BuiltState next

section

open WitnessStep

def planStages (identity : RestoreAttemptIdentity) (plan : TargetActivationPlan) :
    List (WitnessStep → Prop) :=
  [Prepares identity, Freezes identity plan.sourceFreeze, Plans plan]

def protocolStages [Crypto] (identity : RestoreAttemptIdentity) (plan : TargetActivationPlan)
    (receipt : RestoreTerminalReceipt) : List (WitnessStep → Prop) :=
  planStages identity plan ++ [Ends receipt] ++ [Activates plan.digest]

/-- What the state carries of the protocol, the journal brought in, in order. -/
structure Staged [Crypto] (steps : List WitnessStep) (s : WitnessStateV1) : Prop where
  prepared : ∀ attempt, s.restoreAttemptProgress = some attempt →
    Occurs [Prepares attempt.identity] steps
  frozen : ∀ attempt freeze, s.restoreAttemptProgress = some attempt →
    attempt.sourceFreeze = some freeze →
    Occurs [Prepares attempt.identity, Freezes attempt.identity freeze] steps
  planned : ∀ plan, s.targetActivationPlan = some plan →
    ∃ attempt, s.restoreAttemptProgress = some attempt ∧ attempt.Matches plan ∧
      Occurs (planStages attempt.identity plan) steps
  ended : ∀ plan attempt receipt, s.targetActivationPlan = some plan →
    s.restoreAttemptProgress = some attempt → attempt.terminalReceipt = some receipt →
    Occurs (planStages attempt.identity plan ++ [Ends receipt]) steps
  started : ∀ digest, s.targetActivationStarted = some digest →
    ∃ plan attempt receipt, s.targetActivationPlan = some plan ∧
      s.restoreAttemptProgress = some attempt ∧ attempt.terminalReceipt = some receipt ∧
      receipt.releaseReason.isTargetInitializationComplete = true ∧
      Occurs (protocolStages attempt.identity plan receipt) steps

variable [Crypto] {steps : List WitnessStep} {s next : WitnessStateV1} {step : WitnessStep}

theorem Staged.genesis (generation : DatabaseGenerationId) : Staged [] (.genesis generation) where
  prepared _ h := nomatch h
  frozen _ _ h := nomatch h
  planned _ h := nomatch h
  ended _ _ _ h := nomatch h
  started _ h := nomatch h

theorem Staged.unplanned (h : Staged steps s) (hplan : s.targetActivationPlan = none) :
    s.targetActivationStarted = none := by
  cases hstarted : s.targetActivationStarted with
  | none => rfl
  | some digest =>
    obtain ⟨plan, -, -, hsome, -⟩ := h.started digest hstarted
    rw [hplan] at hsome
    cases hsome

theorem Staged.unfrozen (h : Staged steps s)
    (hfree : ∀ attempt, s.restoreAttemptProgress = some attempt → attempt.sourceFreeze = none) :
    s.targetActivationPlan = none := by
  cases hplan : s.targetActivationPlan with
  | none => rfl
  | some plan =>
    obtain ⟨attempt, hattempt, hmatches, -⟩ := h.planned plan hplan
    have hfreeze := hmatches.freeze
    rw [hfree attempt hattempt] at hfreeze
    cases hfreeze

theorem Staged.of_unplanned (hplan : s.targetActivationPlan = none)
    (hstarted : s.targetActivationStarted = none)
    (prepared : ∀ attempt, s.restoreAttemptProgress = some attempt →
      Occurs [Prepares attempt.identity] steps)
    (frozen : ∀ attempt freeze, s.restoreAttemptProgress = some attempt →
      attempt.sourceFreeze = some freeze →
      Occurs [Prepares attempt.identity, Freezes attempt.identity freeze] steps) :
    Staged steps s where
  prepared := prepared
  frozen := frozen
  planned plan hsome := absurd (hplan.symm.trans hsome) (some_ne_none plan).symm
  ended plan _ _ hsome := absurd (hplan.symm.trans hsome) (some_ne_none plan).symm
  started digest hsome := absurd (hstarted.symm.trans hsome) (some_ne_none digest).symm

section

variable (h : Staged steps s)

include h

/-- An event of another kind leaves the three sections, and the stages. -/
theorem Staged.same (step : WitnessStep)
    (hplan : next.targetActivationPlan = s.targetActivationPlan)
    (hprogress : next.restoreAttemptProgress = s.restoreAttemptProgress)
    (hstarted : next.targetActivationStarted = s.targetActivationStarted) :
    Staged (steps ++ [step]) next where
  prepared attempt hattempt := (h.prepared attempt (hprogress ▸ hattempt)).later step
  frozen attempt freeze hattempt hfreeze :=
    (h.frozen attempt freeze (hprogress ▸ hattempt) hfreeze).later step
  planned plan hsome := by
    obtain ⟨attempt, hattempt, hmatches, hoccurs⟩ := h.planned plan (hplan ▸ hsome)
    exact ⟨attempt, hprogress ▸ hattempt, hmatches, hoccurs.later step⟩
  ended plan attempt receipt hsome hattempt hreceipt :=
    (h.ended plan attempt receipt (hplan ▸ hsome) (hprogress ▸ hattempt) hreceipt).later step
  started digest hsome := by
    obtain ⟨plan, attempt, receipt, hp, ha, hr, hcomplete, hoccurs⟩ :=
      h.started digest (hstarted ▸ hsome)
    exact ⟨plan, attempt, receipt, hplan ▸ hp, hprogress ▸ ha, hr, hcomplete, hoccurs.later step⟩

theorem Staged.prepare {progress : RestoreAttemptProgress}
    (hkind : step.entry.eventKind = .restoreAttemptPrepared)
    (hbefore : step.before.state = s) (hafter : step.after.state = next)
    (hstate : s.withRestoreAttemptProgress progress = .ok next) :
    Staged (steps ++ [step]) next := by
  obtain ⟨hnone, hfree, hopen, rfl⟩ := withRestoreAttemptProgress_eq_ok.mp hstate
  have hplan : s.targetActivationPlan = none := by
    refine h.unfrozen fun attempt hattempt => ?_
    rw [hnone] at hattempt
    cases hattempt
  have hstep : step.Prepares progress.identity := by
    refine ⟨hkind, hbefore ▸ hnone, ?_⟩
    rw [hafter]
    rfl
  refine .of_unplanned hplan (h.unplanned hplan) ?_ ?_
  · intro attempt hattempt
    obtain rfl := some.inj hattempt
    exact Occurs.nil.snoc hstep
  · intro attempt freeze hattempt hfreeze
    obtain rfl := some.inj hattempt
    rw [hfree] at hfreeze
    cases hfreeze

theorem Staged.freeze {freeze : SourceFreezePoint}
    (hkind : step.entry.eventKind = .sourceFreezeRecorded) (hafter : step.after.state = next)
    (hstate : s.withSourceFreeze freeze = .ok next) : Staged (steps ++ [step]) next := by
  obtain ⟨before, after, hbefore, hrecord, rfl⟩ := withSourceFreeze_eq_ok.mp hstate
  obtain ⟨hfree, hfrozen, -, hidentity⟩ := recordSourceFreeze_eq_ok hrecord
  -- the attempt was not frozen, so nothing was planned on it yet
  have hplan : s.targetActivationPlan = none := by
    refine h.unfrozen fun attempt hattempt => ?_
    obtain rfl := mem_unique hbefore hattempt
    exact hfree
  have hprepared := h.prepared before hbefore
  rw [← hidentity] at hprepared
  have hstep : step.Freezes after.identity freeze := by
    refine ⟨hkind, after, ?_, rfl, hfrozen⟩
    rw [hafter]
  refine .of_unplanned hplan (h.unplanned hplan) ?_ ?_
  · intro attempt hattempt
    obtain rfl := some.inj hattempt
    exact hprepared.later step
  · intro attempt freeze' hattempt hfreeze
    obtain rfl := some.inj hattempt
    obtain rfl := mem_unique hfrozen hfreeze
    exact hprepared.snoc hstep

theorem Staged.plan {plan : TargetActivationPlan}
    (hkind : step.entry.eventKind = .targetActivationPlanned) (hbefore : step.before.state = s)
    (hafter : step.after.state = next) (hstate : s.withTargetActivationPlan plan = .ok next) :
    Staged (steps ++ [step]) next := by
  obtain ⟨progress, hprogress, hnone, hopen, hmatches, rfl⟩ :=
    withTargetActivationPlan_eq_ok hstate
  have hstep : step.Plans plan := ⟨hkind, hbefore ▸ hnone, by rw [hafter]⟩
  have hsame : Staged (steps ++ [step]) s := h.same step rfl rfl rfl
  refine ⟨hsame.prepared, hsame.frozen, ?_, ?_, ?_⟩
  · intro plan' hsome
    obtain rfl := some.inj hsome
    exact ⟨progress, hprogress, hmatches,
      (h.frozen progress plan.sourceFreeze hprogress hmatches.freeze).snoc hstep⟩
  · intro plan' attempt receipt _ hattempt hreceipt
    obtain rfl := mem_unique hprogress hattempt
    exact absurd (hopen.symm.trans hreceipt) (some_ne_none receipt).symm
  · intro digest hsome
    exact absurd ((h.unplanned hnone).symm.trans hsome) (some_ne_none digest).symm

theorem Staged.finish {receipt : RestoreTerminalReceipt}
    (hkind : step.entry.eventKind = .restoreTerminalRecorded)
    (hbefore : step.before.state = s) (hafter : step.after.state = next)
    (hstate : s.withRestoreTerminalReceipt receipt = .ok next) : Staged (steps ++ [step]) next := by
  obtain ⟨before, after, hattempt₀, hrecord, rfl⟩ :=
    withRestoreTerminalReceipt_eq_ok.mp hstate
  obtain ⟨hopen, hended, hfreeze, hidentity⟩ :=
    recordTerminalReceipt_eq_ok hrecord
  have hstep : step.Ends receipt := by
    refine ⟨hkind, ?_, ?_⟩
    · rw [hbefore, WitnessStateV1.restoreTerminalReceipt, hattempt₀]
      exact hopen
    · rw [hafter]
      exact hended
  -- a plan in the state is for this attempt, which keeps its identity and freeze point
  have hplanned : ∀ plan, s.targetActivationPlan = some plan →
      after.Matches plan ∧ Occurs (planStages after.identity plan) steps := by
    intro plan hsome
    obtain ⟨attempt, hattempt, hmatches, hoccurs⟩ := h.planned plan hsome
    obtain rfl := mem_unique hattempt₀ hattempt
    rw [hidentity]
    refine ⟨?_, hoccurs⟩
    simp only [identity, RestoreAttemptIdentity.mk.injEq] at hidentity
    obtain ⟨hattempt, htarget, hset, -, hsource, hgeneration⟩ := hidentity
    exact ⟨hattempt.trans hmatches.attempt, htarget.trans hmatches.target,
      hset.trans hmatches.backupSet, hsource.trans hmatches.source,
      hgeneration.trans hmatches.targetGeneration, hfreeze.trans hmatches.freeze⟩
  refine ⟨?_, ?_, ?_, ?_, ?_⟩
  · intro attempt hattempt
    obtain rfl := some.inj hattempt
    rw [hidentity]
    exact (h.prepared before hattempt₀).later step
  · intro attempt freeze hattempt hfrozen
    obtain rfl := some.inj hattempt
    rw [hidentity]
    exact (h.frozen before freeze hattempt₀ (hfreeze.symm.trans hfrozen)).later step
  · intro plan hsome
    obtain ⟨hmatches, hoccurs⟩ := hplanned plan hsome
    exact ⟨after, rfl, hmatches, hoccurs.later step⟩
  · intro plan attempt receipt' hsome hattempt hreceipt
    obtain rfl := some.inj hattempt
    obtain rfl := mem_unique hended hreceipt
    exact (hplanned plan hsome).2.snoc hstep
  · intro digest hsome
    -- a marked activation has its receipt, and this attempt had none
    obtain ⟨-, attempt, receipt', -, hattempt, hreceipt, -⟩ := h.started digest hsome
    obtain rfl := mem_unique hattempt₀ hattempt
    exact absurd (hopen.symm.trans hreceipt) (some_ne_none receipt').symm

theorem Staged.activate (hkind : step.entry.eventKind = .targetActivating)
    (hbefore : step.before.state = s) (hafter : step.after.state = next)
    (hstate : s.withTargetActivationStarted = .ok next) : Staged (steps ++ [step]) next := by
  obtain ⟨plan, receipt, hplan, hreceipt, hnone, hcomplete, rfl⟩ :=
    withTargetActivationStarted_eq_ok hstate
  obtain ⟨attempt, hattempt, hended⟩ := bind_eq_some_iff.mp hreceipt
  have hstep : step.Activates plan.digest := ⟨hkind, hbefore ▸ hnone, by rw [hafter]⟩
  have hsame : Staged (steps ++ [step]) s := h.same step rfl rfl rfl
  refine ⟨hsame.prepared, hsame.frozen, hsame.planned, hsame.ended, ?_⟩
  intro digest _
  exact ⟨plan, attempt, receipt, hplan, hattempt, hended, hcomplete,
    (h.ended plan attempt receipt hplan hattempt hended).snoc hstep⟩

end

end

/-! ## Runs -/

section

variable [Crypto] {binding : SafetyBootstrapBinding} {witness : Crypto.Ed25519KeyPair}
  {start head next : WitnessHead} {entry : SignedJournalEntry} {steps : List WitnessStep}

theorem Staged.step (h : Staged steps head.state)
    (hadvance : head.advance binding witness entry = .ok next)
    (hbuilt : WitnessStep.Built ⟨head, entry, next⟩) :
    Staged (steps ++ [⟨head, entry, next⟩]) next.state := by
  obtain ⟨haccepted, -, -, hnext⟩ := advance_eq_ok hadvance
  rw [hnext]
  cases haccepted with
  | initialized _ _ state =>
    rw [state]
    exact h.same _ rfl rfl rfl
  | registered _ _ _ state =>
    obtain ⟨-, -, hplan, hprogress, hstarted⟩ := registerGeneration_eq_ok state
    exact h.same _ hplan hprogress hstarted
  | archive kind =>
    have hkept := keepsSections_iff.mpr (hbuilt.archive kind)
    exact h.same _ hkept.plan hkept.progress hkept.started
  | planned kind =>
    obtain ⟨plan, state⟩ := hbuilt.planned kind
    exact h.plan kind rfl hnext state
  | ended kind _ receipt state => exact h.finish kind rfl hnext state
  | prepared kind _ progress state => exact h.prepare kind rfl hnext state
  | frozen kind _ freeze state => exact h.freeze kind hnext state
  | activating kind => exact h.activate kind rfl hnext (hbuilt.activating kind)

theorem BuiltState.step (h : BuiltState head.state)
    (hadvance : head.advance binding witness entry = .ok next)
    (hbuilt : WitnessStep.Built ⟨head, entry, next⟩) : BuiltState next.state := by
  obtain ⟨haccepted, -, -, hnext⟩ := advance_eq_ok hadvance
  rw [hnext]
  cases haccepted with
  | initialized _ _ state => exact state ▸ h
  | registered _ _ _ state => exact h.registered state
  | archive kind =>
    obtain ⟨archive, state⟩ := hbuilt.archive kind
    exact state ▸ h.archived archive
  | planned kind =>
    obtain ⟨plan, state⟩ := hbuilt.planned kind
    exact h.planned state
  | ended _ _ receipt state => exact h.ended state
  | prepared _ _ progress state => exact h.prepared state
  | frozen _ _ freeze state => exact h.frozen state
  | activating kind => exact h.started (hbuilt.activating kind)

def FollowsProtocol (earlier : List WitnessStep) (step : WitnessStep) : Prop :=
  step.entry.eventKind = .generationRegistered →
    ∀ plan, step.before.state.targetActivationPlan = some plan →
      ∃ attempt receipt, step.before.state.restoreAttemptProgress = some attempt ∧
        attempt.Matches plan ∧ receipt.releaseReason.isTargetInitializationComplete = true ∧
        Occurs (protocolStages attempt.identity plan receipt) earlier

structure CutoverSound (steps : List WitnessStep) (head : WitnessHead) : Prop where
  cutovers : ∀ earlier step later, steps = earlier ++ step :: later → FollowsProtocol earlier step
  states : ∀ step ∈ steps, BuiltState step.before.state ∧ BuiltState step.after.state
  head : BuiltState head.state

theorem Staged.followsProtocol (h : Staged steps head.state)
    (hadvance : head.advance binding witness entry = .ok next) :
    FollowsProtocol steps ⟨head, entry, next⟩ := by
  intro hkind plan hplan
  have hcarried := ((advance_eq_ok hadvance).1.of_registered hkind).2.2 plan hplan
  -- the marker is there, so all five stages are, for the one plan and attempt of the state
  obtain ⟨plan', attempt, receipt, hplan', hattempt, -, hcomplete, hoccurs⟩ :=
    h.started _ hcarried.started
  obtain rfl := mem_unique hplan hplan'
  obtain ⟨attempt', hattempt', hmatches, -⟩ := h.planned plan hplan
  obtain rfl := mem_unique hattempt hattempt'
  exact ⟨attempt, receipt, hattempt, hmatches, hcomplete, hoccurs⟩

theorem Chain.cutoverSound (h : Chain binding witness start steps head)
    (hstaged : Staged [] start.state) (hstart : BuiltState start.state)
    (hbuilt : ∀ step ∈ steps, step.Built) : Staged steps head.state ∧ CutoverSound steps head := by
  induction h with
  | start =>
    refine ⟨hstaged, ?_, fun step hstep => absurd hstep not_mem_nil, hstart⟩
    intro earlier step later hsplit
    exact absurd hsplit.symm (append_ne_nil_of_right_ne_nil _ (cons_ne_nil _ _))
  | @accept steps head next entry _ accepted ih =>
    obtain ⟨hbefore, hlast⟩ := forall_mem_append.mp hbuilt
    obtain ⟨hstages, hsound⟩ := ih hbefore
    rw [forall_mem_singleton] at hlast
    have hnext := hsound.head.step accepted hlast
    refine ⟨hstages.step accepted hlast, ?_, forall_mem_append.mpr
      ⟨hsound.states, forall_mem_singleton.mpr ⟨hsound.head, hnext⟩⟩, hnext⟩
    intro earlier step later hsplit
    -- the registration is the entry just accepted, or one of those before it
    rcases eq_nil_or_concat later with rfl | ⟨front, last, rfl⟩
    · obtain ⟨rfl, hstep⟩ := append_inj' hsplit rfl
      obtain rfl := singleton_inj.mp hstep
      exact hstages.followsProtocol accepted
    · rw [concat_eq_append, ← cons_append, ← append_assoc] at hsplit
      exact hsound.cutovers earlier step front (append_inj' hsplit rfl).1

/-- In a run from genesis whose archive, planning and activating entries were built from the
head's state, every registration over a plan comes after the whole protocol for it, and every
state is one the builders make. -/
theorem cutover_follows_protocol {installationId : InstallationId}
    {fingerprintKeyId : FingerprintKeyId} {continuityProof : FingerprintKeyContinuityProof}
    {generationId : DatabaseGenerationId} {journalPublicKey : JournalPublicKey}
    (h : Chain binding witness (.genesis installationId fingerprintKeyId continuityProof
      generationId journalPublicKey) steps head)
    (hbuilt : ∀ step ∈ steps, step.Built) : CutoverSound steps head :=
  (h.cutoverSound (.genesis generationId) (.genesis generationId) hbuilt).2

theorem Accepted.registered_or_same (h : Accepted head entry) :
    (entry.eventKind = .generationRegistered ∧
      entry.activationEpoch.toNat = head.activationEpoch.toNat + 1) ∨
    (entry.eventKind ≠ .generationRegistered ∧ head.SameGeneration entry) := by
  cases h with
  | registered kind _ epoch => exact .inl ⟨kind, checkedAdd_one_eq_some epoch⟩
  | archive kind same =>
    refine .inr ⟨fun heq => ?_, same⟩
    rw [heq] at kind
    cases kind
  | initialized kind same | planned kind same | ended kind same | prepared kind same
  | frozen kind same | activating kind same => exact .inr ⟨by rw [kind]; decide, same⟩

/-- **Generations change by registration only.** The epoch counts the registrations the witness has
accepted, and the active generation is the one that was registered last. -/
theorem Chain.registrations (h : Chain binding witness start steps head) :
    let registered := steps.filter (·.entry.eventKind = .generationRegistered)
    head.activationEpoch.toNat = start.activationEpoch.toNat + registered.length ∧
      head.activeGenerationId =
        (registered.getLast?.map (·.entry.generationId)).getD start.activeGenerationId := by
  induction h with
  | start => exact ⟨rfl, rfl⟩
  | @accept steps head next entry _ accepted ih =>
    obtain ⟨haccepted, hgeneration, hepoch, -⟩ := advance_eq_ok accepted
    dsimp only
    rw [filter_append, hgeneration, hepoch]
    rcases haccepted.registered_or_same with ⟨hkind, hnext⟩ | ⟨hkind, hsame⟩
    · rw [filter_cons_of_pos (by simpa using hkind), hnext, ih.1]
      simp [Nat.add_assoc]
    · rw [filter_cons_of_neg (by simpa using hkind), hsame.1, hsame.2]
      simpa using ih

end

/-! ## A restore carried out, and a cutover to a target nobody restored -/

section

local instance protocolCrypto : Crypto := plainCrypto

/-- What the signer chooses of an entry: the event, the generation and its epoch, and
the state. -/
abbrev Draft := SafetyEventKind × DatabaseGenerationId × UInt64 × WitnessStateV1

def stepsFrom : WitnessHead → List Draft → List WitnessStep
  | _, [] => []
  | head, (kind, generation, epoch, state) :: drafts =>
    let entry := entryAfter head kind generation epoch state
    ⟨head, entry, head.opened entry⟩ :: stepsFrom (head.opened entry) drafts

def headAfterDrafts : WitnessHead → List Draft → WitnessHead
  | head, [] => head
  | head, (kind, generation, epoch, state) :: drafts =>
    headAfterDrafts (head.opened (entryAfter head kind generation epoch state)) drafts

theorem Chain.drafts {start head : WitnessHead} {steps : List WitnessStep} (drafts : List Draft)
    (h : Chain sampleBinding witnessKey start steps head) (hbound : head.BoundBy sampleBinding)
    (hchecked : ∀ step ∈ stepsFrom head drafts,
      checkedAdd step.before.sequence 1 = some (step.before.sequence + 1) ∧
        step.before.checkTransition step.entry = .ok ()) :
    Chain sampleBinding witnessKey start (steps ++ stepsFrom head drafts)
      (headAfterDrafts head drafts) := by
  induction drafts generalizing head steps with
  | nil =>
    rw [stepsFrom, append_nil]
    exact h
  | cons draft drafts ih =>
    obtain ⟨kind, generation, epoch, state⟩ := draft
    obtain ⟨hsequence, hcheck⟩ := hchecked _ mem_cons_self
    have hnext := h.accept (advance_entryAfter hbound hsequence hcheck)
    have hrest := ih hnext ⟨hbound.1, hbound.2, hbound.3, hbound.4⟩
      fun step hstep => hchecked step (mem_cons_of_mem _ hstep)
    rw [append_assoc] at hrest
    exact hrest

theorem chain_of_drafts (drafts : List Draft) (hchecked : ∀ step ∈ stepsFrom genesisHead drafts,
      checkedAdd step.before.sequence 1 = some (step.before.sequence + 1) ∧
        step.before.checkTransition step.entry = .ok ()) :
    Chain sampleBinding witnessKey genesisHead (stepsFrom genesisHead drafts)
      (headAfterDrafts genesisHead drafts) := by
  have h := Chain.start.drafts drafts genesisHead_boundBy hchecked
  rw [nil_append] at h
  exact h

theorem sampleTimeline_ne : (1 : UInt32) ≠ 0 := by decide

theorem sampleLsn_ne : (1 : UInt64) ≠ 0 := by decide

def sampleFreeze (generation : DatabaseGenerationId) : SourceFreezePoint where
  generationId := generation
  timeline := 1
  lsn := 1
  mutationWatermark := 0
  timeline_ne := sampleTimeline_ne
  lsn_ne := sampleLsn_ne

def samplePrepared : RestoreAttemptProgress where
  attemptId := ⟨1⟩
  targetId := ⟨1⟩
  backupSetId := ⟨1⟩
  holdId := ⟨1⟩
  sourceGenerationId := ⟨10⟩
  targetGenerationId := ⟨11⟩
  sourceFreeze := none
  terminalReceipt := none
  generation_ne := by decide
  freeze_generation := nofun
  terminal_frozen := nofun

def sampleReceipt : RestoreTerminalReceipt := ⟨⟨1⟩, ⟨1⟩, .targetInitializationComplete ⟨0⟩⟩

def sampleFrozen : RestoreAttemptProgress :=
  { samplePrepared with
    sourceFreeze := some (sampleFreeze ⟨10⟩)
    freeze_generation := by decide
    terminal_frozen := nofun }

def sampleEnded : RestoreAttemptProgress :=
  { sampleFrozen with
    terminalReceipt := some sampleReceipt
    terminal_frozen := by decide }

def samplePlan : TargetActivationPlan where
  attemptId := ⟨1⟩
  targetId := ⟨1⟩
  backupSetId := ⟨1⟩
  sourceGenerationId := ⟨10⟩
  targetGenerationId := ⟨11⟩
  sourceFreeze := sampleFreeze ⟨10⟩
  archiveHeadDigest := ⟨6⟩
  generation_ne := by decide
  freeze_generation := rfl

def foreignPlan : TargetActivationPlan where
  attemptId := ⟨1⟩
  targetId := ⟨1⟩
  backupSetId := ⟨2⟩
  sourceGenerationId := ⟨12⟩
  targetGenerationId := ⟨13⟩
  sourceFreeze := sampleFreeze ⟨12⟩
  archiveHeadDigest := ⟨6⟩
  generation_ne := by decide
  freeze_generation := rfl

def sampleState (plan : Option TargetActivationPlan) (progress : Option RestoreAttemptProgress)
    (started : Option SafetyJournalDigest) : WitnessStateV1 :=
  { WitnessStateV1.genesis ⟨10⟩ with
    targetActivationPlan := plan
    restoreAttemptProgress := progress
    targetActivationStarted := started }

def restoreDrafts : List Draft :=
  [(.restoreAttemptPrepared, ⟨10⟩, 0, sampleState none (some samplePrepared) none),
    (.sourceFreezeRecorded, ⟨10⟩, 0, sampleState none (some sampleFrozen) none),
    (.targetActivationPlanned, ⟨10⟩, 0, sampleState (some samplePlan) (some sampleFrozen) none),
    (.restoreTerminalRecorded, ⟨10⟩, 0, sampleState (some samplePlan) (some sampleEnded) none),
    (.targetActivating, ⟨10⟩, 0,
      sampleState (some samplePlan) (some sampleEnded) (some samplePlan.digest)),
    (.generationRegistered, ⟨11⟩, 1,
      { sampleState (some samplePlan) (some sampleEnded) (some samplePlan.digest) with
        generationLineageState := [⟨10⟩, ⟨11⟩]
        lineage_ne := cons_ne_nil _ _ })]

def foreignDrafts : List Draft :=
  [(.targetActivationPlanned, ⟨10⟩, 0, sampleState (some foreignPlan) none none),
    (.restoreAttemptPrepared, ⟨10⟩, 0, sampleState (some foreignPlan) (some samplePrepared) none),
    (.sourceFreezeRecorded, ⟨10⟩, 0, sampleState (some foreignPlan) (some sampleFrozen) none),
    (.targetActivating, ⟨10⟩, 0,
      sampleState (some foreignPlan) (some sampleFrozen) (some foreignPlan.digest)),
    (.restoreTerminalRecorded, ⟨10⟩, 0,
      sampleState (some foreignPlan) (some sampleEnded) (some foreignPlan.digest)),
    (.generationRegistered, ⟨13⟩, 1,
      { sampleState (some foreignPlan) (some sampleEnded) (some foreignPlan.digest) with
        generationLineageState := [⟨10⟩, ⟨13⟩]
        lineage_ne := cons_ne_nil _ _ })]

/-- The witness registers the target of a plan that no restore was made for. -/
theorem cutover_without_its_restore :
    Chain sampleBinding witnessKey genesisHead (stepsFrom genesisHead foreignDrafts)
        (headAfterDrafts genesisHead foreignDrafts) ∧
      ¬ CutoverSound (stepsFrom genesisHead foreignDrafts)
        (headAfterDrafts genesisHead foreignDrafts) := by
  refine ⟨chain_of_drafts foreignDrafts (by decide +kernel), ?_⟩
  intro h
  obtain ⟨attempt, -, hattempt, hmatches, -⟩ :=
    h.cutovers ((stepsFrom genesisHead foreignDrafts).take 5) _ [] rfl rfl foreignPlan rfl
  obtain rfl := some.inj hattempt
  exact absurd hmatches.backupSet (by decide)

theorem cutover_follows_protocol_restore : CutoverSound (stepsFrom genesisHead restoreDrafts)
      (headAfterDrafts genesisHead restoreDrafts) := by
  refine cutover_follows_protocol (chain_of_drafts restoreDrafts (by decide +kernel)) ?_
  have hplanned : ∀ step ∈ stepsFrom genesisHead restoreDrafts,
      step.entry.eventKind = .targetActivationPlanned →
        step.before.state.withTargetActivationPlan samplePlan = .ok step.entry.state := by
    decide +kernel
  have hactivating : ∀ step ∈ stepsFrom genesisHead restoreDrafts,
      step.entry.eventKind = .targetActivating →
        step.before.state.withTargetActivationStarted = .ok step.entry.state := by
    decide +kernel
  have harchive : ∀ step ∈ stepsFrom genesisHead restoreDrafts,
      step.entry.eventKind.isArchive = false := by
    decide +kernel
  intro step hstep
  refine ⟨?_, fun hkind => ⟨samplePlan, hplanned step hstep hkind⟩, hactivating step hstep⟩
  intro hkind
  rw [harchive step hstep] at hkind
  cases hkind

theorem restored_generation_active :
    (headAfterDrafts genesisHead restoreDrafts).activationEpoch.toNat = 1 ∧
      (headAfterDrafts genesisHead restoreDrafts).activeGenerationId = ⟨11⟩ :=
  Chain.registrations (chain_of_drafts restoreDrafts (by decide +kernel))

end

end Vestrace.Installation
