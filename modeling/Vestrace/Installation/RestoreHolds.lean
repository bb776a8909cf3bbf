import Vestrace.Installation.ArchiveSuccessor
import Vestrace.Installation.Protocol

/-!
# Restore holds in the witnessed archive

While a restore holds its backup set, the set can neither be sealed nor deleted.
`release_restore_hold` ends a hold, but the witness has no event for it: every successor predicate
keeps the holds of the archive before, reasons included.
-/

namespace Vestrace.Installation

open Lib SortedMap Option BackupArchiveStateV1

/-- In the archive the set has the hold, and the hold is as given. -/
def HeldAs (archive : BackupArchiveStateV1) (set : BackupSetId) (id : RestoreHoldId)
    (hold : RestoreHold) : Prop :=
  ∃ state, archive.sets.get set = some state ∧ state.holds.get id = some hold

structure HoldsGrow (before after : BackupSetState) : Prop where
  kept : ∀ id hold, before.holds.get id = some hold → after.holds.get id = some hold
  added : ∀ id hold, after.holds.get id = some hold →
    before.holds.get id = some hold ∨ hold.active = true

theorem HoldsGrow.of_eq {before after : BackupSetState} (h : after.holds = before.holds) :
    HoldsGrow before after where
  kept id hold hget := by rw [h]; exact hget
  added id hold hget := by rw [h] at hget; exact Or.inl hget

/-! ## One change of the archive -/

namespace BackupArchiveStateV1

variable {set : BackupSetId} {before after : BackupSetState}

theorem holdsGrow_of_holdChange (h : holdChange set before after = true) :
    HoldsGrow before after := by
  obtain ⟨-, new, hold, hnew, hactive, rfl⟩ := holdChange_iff.mp h
  constructor
  · intro id held hget
    have hne : id ≠ new := fun heq => by
      rw [heq, hnew] at hget
      cases hget
    show (before.holds.insert new hold).get id = some held
    rw [get_insert_ne _ hne]
    exact hget
  · intro id held hget
    change (before.holds.insert new hold).get id = some held at hget
    by_cases heq : id = new
    · rw [heq, get_insert_self] at hget
      obtain rfl := some.inj hget
      exact .inr hactive
    · rw [get_insert_ne _ heq] at hget
      exact .inl hget

end BackupArchiveStateV1

structure ArchiveHoldsGrow (previous next : BackupArchiveStateV1) : Prop where
  kept : ∀ set id hold, HeldAs previous set id hold → HeldAs next set id hold
  added : ∀ set id hold, HeldAs next set id hold →
    HeldAs previous set id hold ∨ hold.active = true

section

open BackupArchiveStateV1

variable {previous next : BackupArchiveStateV1}

theorem ArchiveHoldsGrow.refl (archive : BackupArchiveStateV1) :
    ArchiveHoldsGrow archive archive where
  kept _ _ _ h := h
  added _ _ _ h := Or.inl h

theorem ArchiveHoldsGrow.of_oneChange (ok : BackupSetId → BackupSetState → BackupSetState → Bool)
    (hok : ∀ set before after, ok set before after = true → HoldsGrow before after)
    (h : next.sets.isOneChange ok previous.sets = true) : ArchiveHoldsGrow previous next := by
  obtain ⟨changed, before, after, hget, -, hchange, hnext⟩ := isOneChange_iff.mp h
  have hgrow := hok changed before after hchange
  have hself : next.sets.get changed = some after := by
    rw [hnext, get_insert_self]
  have hother : ∀ set, set ≠ changed → next.sets.get set = previous.sets.get set := by
    intro set hne
    rw [hnext, get_insert_ne _ hne]
  constructor
  · intro set id hold hheld
    obtain ⟨state, hstate, hhold⟩ := hheld
    by_cases heq : set = changed
    · subst heq
      rw [hget] at hstate
      obtain rfl := some.inj hstate
      exact ⟨after, hself, hgrow.kept id hold hhold⟩
    · exact ⟨state, (hother set heq).trans hstate, hhold⟩
  · intro set id hold hheld
    obtain ⟨state, hstate, hhold⟩ := hheld
    by_cases heq : set = changed
    · subst heq
      rw [hself] at hstate
      obtain rfl := some.inj hstate
      exact (hgrow.added id hold hhold).imp_left fun hbefore => ⟨before, hget, hbefore⟩
    · exact .inl ⟨state, (hother set heq).symm.trans hstate, hhold⟩

theorem ArchiveHoldsGrow.of_started
    (h : next.isExactStartedSuccessorOf previous = true) : ArchiveHoldsGrow previous next := by
  obtain ⟨new, after, hnone, hstarted, hnext⟩ := isOneAddition_iff.mp h
  obtain ⟨-, hafter⟩ := startedAddition_iff.mp hstarted
  constructor
  · intro set id hold hheld
    obtain ⟨state, hstate, hhold⟩ := hheld
    have hne : set ≠ new := fun heq => by
      rw [heq, hnone] at hstate
      cases hstate
    refine ⟨state, ?_, hhold⟩
    rw [hnext, get_insert_ne _ hne]
    exact hstate
  · intro set id hold hheld
    obtain ⟨state, hstate, hhold⟩ := hheld
    by_cases heq : set = new
    · rw [hnext, heq, get_insert_self] at hstate
      obtain rfl := some.inj hstate
      rw [hafter] at hhold
      cases hhold
    · rw [hnext, get_insert_ne _ heq] at hstate
      exact .inl ⟨state, hstate, hhold⟩

theorem ArchiveHoldsGrow.of_successor {kind : SafetyEventKind}
    [Crypto] (h : archiveSuccessor kind next previous = true) :
    ArchiveHoldsGrow previous next := by
  have hlifecycle : ∀ source target,
      next.isExactLifecycleSuccessorOf previous source target = true →
        ArchiveHoldsGrow previous next := fun source target hsuccessor => by
    refine .of_oneChange (lifecycleChange source target) (fun _ _ _ hchange => ?_) hsuccessor
    obtain ⟨-, -, rfl⟩ := lifecycleChange_iff.mp hchange
    exact .of_eq rfl
  cases kind with
  | archiveCheckpointCommitted =>
    refine .of_oneChange checkpointChange (fun _ _ _ hchange => ?_) h
    obtain ⟨checkpoint, -, -, -, -, rfl⟩ := checkpointChange_iff.mp hchange
    exact .of_eq rfl
  | backupSetStarted => exact .of_started h
  | archiveRestoreHoldAcquired =>
    exact .of_oneChange holdChange (fun _ _ _ => holdsGrow_of_holdChange) h
  | archiveSealingStarted | archiveSealed | archiveKeyErased | managedBackupDeleted =>
    exact hlifecycle _ _ h
  | managedBackupDeletionPrepared =>
    refine .of_oneChange preparedDeletionChange (fun _ _ _ hchange => ?_) h
    obtain ⟨-, -, -, preparation, rfl⟩ := preparedDeletionChange_iff.mp hchange
    exact .of_eq rfl
  | preparedArchiveKeyErasure =>
    refine .of_oneChange keyErasurePreparedChange (fun _ _ _ hchange => ?_) h
    obtain ⟨-, -, rfl⟩ := keyErasurePreparedChange_iff.mp hchange
    exact .of_eq rfl
  | _ => cases h

end

/-! ## One entry, and a chain of them -/

section

variable [Crypto] {binding : SafetyBootstrapBinding} {witness : Crypto.Ed25519KeyPair}
  {start head next : WitnessHead} {entry : SignedJournalEntry} {steps : List WitnessStep}
  {set : BackupSetId} {id : RestoreHoldId} {hold : RestoreHold}

theorem Accepted.holdsGrow (h : Accepted head entry) :
    ArchiveHoldsGrow head.state.backupArchiveState entry.state.backupArchiveState := by
  rcases h.archive_or_same with hsame | ⟨-, hsuccessor⟩
  · rw [hsame]
    exact .refl _
  · exact .of_successor hsuccessor

theorem advance_holdsGrow (h : head.advance binding witness entry = .ok next) :
    ArchiveHoldsGrow head.state.backupArchiveState next.state.backupArchiveState := by
  obtain ⟨haccepted, -, -, hstate⟩ := advance_eq_ok h
  rw [hstate]
  exact haccepted.holdsGrow

theorem Chain.heldAs (h : Chain binding witness start steps head)
    (hheld : HeldAs start.state.backupArchiveState set id hold) :
    HeldAs head.state.backupArchiveState set id hold := by
  induction h with
  | start => exact hheld
  | accept _ accepted ih => exact (advance_holdsGrow accepted).kept set id hold ih

theorem Chain.holds_active (h : Chain binding witness start steps head)
    (hstart : start.state.backupArchiveState = .empty)
    (hheld : HeldAs head.state.backupArchiveState set id hold) : hold.active = true := by
  induction h with
  | start =>
    obtain ⟨state, hstate, -⟩ := hheld
    rw [hstart] at hstate
    cases hstate
  | accept _ accepted ih =>
    exact ((advance_holdsGrow accepted).added set id hold hheld).elim ih fun hactive => hactive

/-- **A held set stays.** Once a hold is witnessed, the operations refuse to seal or delete its set
in every archive the witness comes to. -/
theorem Chain.held_set_stays {before after : List WitnessStep}
    (hbefore : Chain binding witness start before head)
    (hstart : start.state.backupArchiveState = .empty)
    (hheld : HeldAs head.state.backupArchiveState set id hold)
    (hafter : Chain binding witness head after next) (archive : BackupArchiveStateV1)
    (preparation : SafetyJournalDigest) :
    next.state.backupArchiveState.beginSealing set ≠ .ok archive ∧
      next.state.backupArchiveState.commitSealed set ≠ .ok archive ∧
      next.state.backupArchiveState.prepareDeletion set preparation ≠ .ok archive := by
  have hactive := hbefore.holds_active hstart hheld
  obtain ⟨state, hstate, hhold⟩ := hafter.heldAs hheld
  have hblocked : ∀ current, next.state.backupArchiveState.sets.get set = some current →
      current.hasActiveHold ≠ false := by
    intro current hcurrent
    obtain rfl := mem_unique hstate hcurrent
    rw [BackupSetState.hasActiveHold_iff.mpr ⟨id, hold, hhold, hactive⟩]
    decide
  refine ⟨fun hseal => ?_, fun hcommit => ?_, fun hprepare => ?_⟩
  · obtain ⟨current, hget, -, -, hfree, -⟩ := beginSealing_eq_ok.mp hseal
    exact hblocked current hget hfree
  · obtain ⟨current, hget, hfree, -⟩ := commitSealed_eq_ok.mp hcommit
    exact hblocked current hget hfree
  · obtain ⟨current, hget, hfree, -⟩ := prepareDeletion_eq_ok.mp hprepare
    exact hblocked current hget hfree

/-- **A witnessed restore hold is never released.** Entries that the witness accepts after
a head can lead to an archive where one of its holds is released only if the hold was
released in the head. -/
theorem restore_hold_released_iff (hheld : HeldAs head.state.backupArchiveState set id hold) :
    (∃ steps final, Chain binding witness head steps final ∧
      ∃ released, HeldAs final.state.backupArchiveState set id released ∧
        released.active = false) ↔ hold.active = false := by
  constructor
  · intro h
    obtain ⟨steps, final, hchain, released, hreleased, hinactive⟩ := h
    obtain ⟨state, hstate, hhold⟩ := hchain.heldAs hheld
    obtain ⟨state', hstate', hhold'⟩ := hreleased
    rw [hstate] at hstate'
    obtain rfl := some.inj hstate'
    rw [hhold] at hhold'
    obtain rfl := some.inj hhold'
    exact hinactive
  · intro h
    exact ⟨[], head, .start, hold, hheld, h⟩

end

/-! ## A restore that is over and still holds its set -/

section

local instance holdsCrypto : Crypto := plainCrypto

def heldByAttempt : BackupArchiveStateV1 :=
  archiveRun (sampleCalls [.acquireRestoreHold ⟨1⟩ ⟨1⟩])

def stateHolding (archive : BackupArchiveStateV1) (progress : Option RestoreAttemptProgress) :
    WitnessStateV1 :=
  { WitnessStateV1.genesis ⟨10⟩ with
    backupArchiveState := archive
    restoreAttemptProgress := progress }

/-- The set is started, has its base, and is held. -/
def holdDrafts : List Draft :=
  [(.backupSetStarted, ⟨10⟩, 0,
      stateHolding (archiveRun [.startStreaming sampleIdentity sampleHead]) none),
    (.archiveCheckpointCommitted, ⟨10⟩, 0, stateHolding (archiveRun (sampleCalls [])) none),
    (.archiveRestoreHoldAcquired, ⟨10⟩, 0, stateHolding heldByAttempt none)]

/-- The restore that holds it begins, and ends. -/
def attemptDrafts : List Draft :=
  [(.restoreAttemptPrepared, ⟨10⟩, 0, stateHolding heldByAttempt (some samplePrepared)),
    (.sourceFreezeRecorded, ⟨10⟩, 0, stateHolding heldByAttempt (some sampleFrozen)),
    (.restoreTerminalRecorded, ⟨10⟩, 0, stateHolding heldByAttempt (some sampleEnded))]

def heldDrafts : List Draft := holdDrafts ++ attemptDrafts

def heldHead : WitnessHead := headAfterDrafts genesisHead heldDrafts

theorem heldHead_heldAs : HeldAs heldHead.state.backupArchiveState ⟨1⟩ ⟨1⟩ ⟨⟨1⟩, none⟩ :=
  ⟨(heldByAttempt.sets.get ⟨1⟩).getD (.started sampleIdentity sampleHead), by decide +kernel,
    by decide +kernel⟩

/-- The attempt names the set and the hold and is over, and no entries that the witness
accepts release the hold. -/
theorem finished_restore_keeps_hold :
    Chain sampleBinding witnessKey genesisHead (stepsFrom genesisHead heldDrafts) heldHead ∧
      heldHead.state.restoreAttemptProgress = some sampleEnded ∧
      sampleEnded.backupSetId = ⟨1⟩ ∧ sampleEnded.holdId = ⟨1⟩ ∧
      sampleEnded.terminalReceipt.isSome = true ∧
      HeldAs heldHead.state.backupArchiveState ⟨1⟩ ⟨1⟩ ⟨⟨1⟩, none⟩ ∧
      ∀ steps final, Chain sampleBinding witnessKey heldHead steps final →
        HeldAs final.state.backupArchiveState ⟨1⟩ ⟨1⟩ ⟨⟨1⟩, none⟩ :=
  ⟨chain_of_drafts heldDrafts (by decide +kernel), rfl, rfl, rfl, rfl, heldHead_heldAs,
    fun _ _ hchain => hchain.heldAs heldHead_heldAs⟩

def holdHead : WitnessHead := headAfterDrafts genesisHead holdDrafts

theorem heldHead_set_stays : HeldAs holdHead.state.backupArchiveState ⟨1⟩ ⟨1⟩ ⟨⟨1⟩, none⟩ ∧
    Chain sampleBinding witnessKey holdHead (stepsFrom holdHead attemptDrafts) heldHead ∧
    heldHead.state.backupArchiveState.beginSealing ⟨1⟩ ≠ .ok .empty := by
  have hheld : HeldAs holdHead.state.backupArchiveState ⟨1⟩ ⟨1⟩ ⟨⟨1⟩, none⟩ := heldHead_heldAs
  have hafter : Chain sampleBinding witnessKey holdHead (stepsFrom holdHead attemptDrafts)
      heldHead :=
    Chain.start.drafts attemptDrafts ⟨rfl, rfl, rfl, rfl⟩ (by decide +kernel)
  exact ⟨hheld, hafter, (Chain.held_set_stays (chain_of_drafts holdDrafts (by decide +kernel)) rfl
    hheld hafter .empty ⟨0⟩).1⟩

theorem restore_hold_released_iff_heldHead :
    ¬ ∃ steps final, Chain sampleBinding witnessKey heldHead steps final ∧
      ∃ released, HeldAs final.state.backupArchiveState ⟨1⟩ ⟨1⟩ released ∧
        released.active = false := by
  rw [restore_hold_released_iff heldHead_heldAs]
  decide

end

end Vestrace.Installation
