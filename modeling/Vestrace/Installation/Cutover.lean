import Vestrace.Installation.Archive

/-!
# Restore attempts and activation plans

The values of `restore_cutover.rs` that the witness keeps. The fields are private there and
every value comes from a constructor, so what the constructors check is carried by the
structures here. An attempt moves one way: it is prepared, then frozen, then ended.
-/

namespace Vestrace.Installation

open Lib

inductive RestoreCutoverError where
  | malformed
  | overlappingRoots
  | relativeRoot
  | invalidFreezePoint
  | targetGenerationMatchesSource
  | freezeGenerationMismatch
  | invalidAttemptTransition
  deriving DecidableEq, Repr

/-- The one captured point through which all required archived WAL must pass. -/
structure SourceFreezePoint where
  generationId : DatabaseGenerationId
  timeline : UInt32
  lsn : UInt64
  mutationWatermark : UInt64
  timeline_ne : timeline ≠ 0
  lsn_ne : lsn ≠ 0
  deriving DecidableEq

namespace SourceFreezePoint

def new (generationId : DatabaseGenerationId) (timeline : UInt32) (lsn mutationWatermark : UInt64) :
    Except RestoreCutoverError SourceFreezePoint :=
  if h : timeline ≠ 0 ∧ lsn ≠ 0 then
    .ok ⟨generationId, timeline, lsn, mutationWatermark, h.1, h.2⟩
  else .error .invalidFreezePoint

def canonicalBytes (freeze : SourceFreezePoint) : Bytes :=
  field (ascii "vestrace-source-freeze-point-v1") ++ field freeze.generationId.asBytes ++
    beBytes 4 freeze.timeline.toNat ++ beBytes 8 freeze.lsn.toNat ++
    beBytes 8 freeze.mutationWatermark.toNat

end SourceFreezePoint

structure RestoreTerminalReceipt where
  attemptId : RestoreAttemptId
  targetId : RestoreTargetId
  releaseReason : RestoreHoldReleaseReason
  deriving DecidableEq

def RestoreHoldReleaseReason.isTargetInitializationComplete : RestoreHoldReleaseReason → Bool
  | .targetInitializationComplete _ => true
  | _ => false

def RestoreTerminalReceipt.canonicalBytes (receipt : RestoreTerminalReceipt) : Bytes :=
  field (ascii "vestrace-restore-terminal-receipt-v1") ++ field receipt.attemptId.asBytes ++
    field receipt.targetId.asBytes ++ [receipt.releaseReason.code] ++
    field receipt.releaseReason.receipt.asBytes

/-! ## The progress of an attempt -/

structure RestoreAttemptProgress where
  attemptId : RestoreAttemptId
  targetId : RestoreTargetId
  backupSetId : BackupSetId
  holdId : RestoreHoldId
  sourceGenerationId : DatabaseGenerationId
  targetGenerationId : DatabaseGenerationId
  sourceFreeze : Option SourceFreezePoint
  terminalReceipt : Option RestoreTerminalReceipt
  generation_ne : sourceGenerationId ≠ targetGenerationId
  freeze_generation : ∀ freeze ∈ sourceFreeze, freeze.generationId = sourceGenerationId
  terminal_frozen : ∀ receipt ∈ terminalReceipt,
    sourceFreeze ≠ none ∧ receipt.attemptId = attemptId ∧ receipt.targetId = targetId
  deriving DecidableEq

structure RestoreAttemptIdentity where
  attemptId : RestoreAttemptId
  targetId : RestoreTargetId
  backupSetId : BackupSetId
  holdId : RestoreHoldId
  sourceGenerationId : DatabaseGenerationId
  targetGenerationId : DatabaseGenerationId

namespace RestoreAttemptProgress

variable (progress : RestoreAttemptProgress)

def identity : RestoreAttemptIdentity :=
  ⟨progress.attemptId, progress.targetId, progress.backupSetId, progress.holdId,
    progress.sourceGenerationId, progress.targetGenerationId⟩

def prepare (attemptId : RestoreAttemptId) (targetId : RestoreTargetId) (backupSetId : BackupSetId)
    (holdId : RestoreHoldId) (sourceGenerationId targetGenerationId : DatabaseGenerationId) :
    Except RestoreCutoverError RestoreAttemptProgress :=
  if h : sourceGenerationId ≠ targetGenerationId then
    .ok ⟨attemptId, targetId, backupSetId, holdId, sourceGenerationId, targetGenerationId,
      none, none, h, nofun, nofun⟩
  else .error .targetGenerationMatchesSource

def recordSourceFreeze (freeze : SourceFreezePoint) :
    Except RestoreCutoverError RestoreAttemptProgress :=
  if h : progress.sourceFreeze = none ∧ freeze.generationId = progress.sourceGenerationId then
    .ok
      { progress with
        sourceFreeze := some freeze
        freeze_generation := fun _ hmem => Option.some.inj hmem ▸ h.2
        terminal_frozen := fun receipt hmem =>
          ⟨Option.some_ne_none freeze, (progress.terminal_frozen receipt hmem).2⟩ }
  else .error .invalidAttemptTransition

def recordTerminalReceipt (receipt : RestoreTerminalReceipt) :
    Except RestoreCutoverError RestoreAttemptProgress :=
  if h : progress.sourceFreeze ≠ none ∧ progress.terminalReceipt = none ∧
      receipt.attemptId = progress.attemptId ∧ receipt.targetId = progress.targetId then
    .ok
      { progress with
        terminalReceipt := some receipt
        terminal_frozen := fun _ hmem => Option.some.inj hmem ▸ ⟨h.1, h.2.2⟩ }
  else .error .invalidAttemptTransition

variable {progress next : RestoreAttemptProgress}

theorem recordSourceFreeze_eq_ok {freeze : SourceFreezePoint}
    (h : progress.recordSourceFreeze freeze = .ok next) :
    progress.sourceFreeze = none ∧ next.sourceFreeze = some freeze ∧
      next.terminalReceipt = progress.terminalReceipt ∧ next.identity = progress.identity := by
  unfold recordSourceFreeze at h
  split at h
  · next hcond =>
    cases h
    exact ⟨hcond.1, rfl, rfl, rfl⟩
  · cases h

/-- Only a frozen attempt is ended, once, and it keeps its freeze point. -/
theorem recordTerminalReceipt_eq_ok {receipt : RestoreTerminalReceipt}
    (h : progress.recordTerminalReceipt receipt = .ok next) :
    progress.terminalReceipt = none ∧ next.terminalReceipt = some receipt ∧
      next.sourceFreeze = progress.sourceFreeze ∧ next.identity = progress.identity := by
  unfold recordTerminalReceipt at h
  split at h
  · next hcond =>
    cases h
    exact ⟨hcond.2.1, rfl, rfl, rfl⟩
  · cases h

theorem terminalReceipt_eq_none (h : progress.sourceFreeze = none) :
    progress.terminalReceipt = none := by
  cases hreceipt : progress.terminalReceipt with
  | none => rfl
  | some receipt => exact absurd h (progress.terminal_frozen receipt hreceipt).1

def canonicalBytes (progress : RestoreAttemptProgress) : Bytes :=
  field (ascii "vestrace-restore-attempt-progress-v1") ++ field progress.attemptId.asBytes ++
    field progress.targetId.asBytes ++ field progress.backupSetId.asBytes ++
    field progress.holdId.asBytes ++ field progress.sourceGenerationId.asBytes ++
    field progress.targetGenerationId.asBytes ++
    optionalField (progress.sourceFreeze.map SourceFreezePoint.canonicalBytes) ++
    optionalField (progress.terminalReceipt.map RestoreTerminalReceipt.canonicalBytes)

end RestoreAttemptProgress

/-! ## The plan of an activation -/

/-- Immutable successor binding for exactly one target activation. -/
structure TargetActivationPlan where
  attemptId : RestoreAttemptId
  targetId : RestoreTargetId
  backupSetId : BackupSetId
  sourceGenerationId : DatabaseGenerationId
  targetGenerationId : DatabaseGenerationId
  sourceFreeze : SourceFreezePoint
  archiveHeadDigest : SafetyJournalDigest
  generation_ne : sourceGenerationId ≠ targetGenerationId
  freeze_generation : sourceFreeze.generationId = sourceGenerationId
  deriving DecidableEq

namespace TargetActivationPlan

def new (attemptId : RestoreAttemptId) (targetId : RestoreTargetId) (backupSetId : BackupSetId)
    (sourceGenerationId targetGenerationId : DatabaseGenerationId)
    (sourceFreeze : SourceFreezePoint) (archiveHeadDigest : SafetyJournalDigest) :
    Except RestoreCutoverError TargetActivationPlan :=
  if hne : sourceGenerationId ≠ targetGenerationId then
    if hfreeze : sourceFreeze.generationId = sourceGenerationId then
      .ok ⟨attemptId, targetId, backupSetId, sourceGenerationId, targetGenerationId, sourceFreeze,
        archiveHeadDigest, hne, hfreeze⟩
    else .error .freezeGenerationMismatch
  else .error .targetGenerationMatchesSource

def canonicalBytes (plan : TargetActivationPlan) : Bytes :=
  field (ascii "vestrace-target-activation-plan-v1") ++ field plan.attemptId.asBytes ++
    field plan.targetId.asBytes ++ field plan.backupSetId.asBytes ++
    field plan.sourceGenerationId.asBytes ++ field plan.targetGenerationId.asBytes ++
    field plan.sourceFreeze.canonicalBytes ++ field plan.archiveHeadDigest.asBytes

def digest [Crypto] (plan : TargetActivationPlan) : SafetyJournalDigest :=
  .of plan.canonicalBytes

end TargetActivationPlan

structure RestoreAttemptProgress.Matches (progress : RestoreAttemptProgress)
    (plan : TargetActivationPlan) : Prop where
  attempt : progress.attemptId = plan.attemptId
  target : progress.targetId = plan.targetId
  backupSet : progress.backupSetId = plan.backupSetId
  source : progress.sourceGenerationId = plan.sourceGenerationId
  targetGeneration : progress.targetGenerationId = plan.targetGenerationId
  freeze : progress.sourceFreeze = some plan.sourceFreeze

end Vestrace.Installation
