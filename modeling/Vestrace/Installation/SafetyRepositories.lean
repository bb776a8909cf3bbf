import Mathlib.Data.List.Sort
import Mathlib.Data.Prod.Lex
import Vestrace.Installation.SafetyDatabase
import Vestrace.Installation.WitnessRecord

/-!
# The supervisor's repositories

`PgBackupArchiveRepository`, `PgSafetyAuthorityRepository` and `PgRestoreCutoverRepository`:
what the supervisor checks and converts before it calls a guarded routine.
-/

namespace Vestrace.Installation

open Lib

def BackupArchiveError.display : BackupArchiveError → String
  | .malformed => "backup archive value is malformed"
  | .duplicateBackupSet => "backup set already exists"
  | .duplicateRestoreHold => "restore hold already exists"
  | .unknownBackupSet => "backup set does not exist"
  | .notStreaming => "backup set is not streaming"
  | .notRestorable => "backup set is not restorable"
  | .baseCheckpointRequired => "backup set requires a base checkpoint before this operation"
  | .duplicateBaseCheckpoint => "backup set already has its unique base checkpoint"
  | .baseCheckpointMustBeFirst => "the base checkpoint must be the first archive checkpoint"
  | .baseCheckpointAncestryMismatch =>
    "WAL checkpoint does not descend from the recorded base checkpoint"
  | .restoreHoldPresent => "backup set has an active restore hold"
  | .archiveHeadMismatch => "backup archive head does not match"
  | .invalidLifecycleTransition => "backup archive lifecycle transition is invalid"
  | .restoreHoldAlreadyReleased => "restore hold is already released"

/-! ## What the supervisor asks for -/

structure ReserveArchiveAppend where
  setId : BackupSetId
  expectedHead : ArchiveHead
  object : ArchiveObjectDescriptor
  set_eq : object.setId = setId
  predecessor_eq : object.predecessorHeadDigest = expectedHead.digest

structure StagedArchiveObject where
  stagingId : Uuid
  descriptor : ArchiveObjectDescriptor

structure CommitArchiveCheckpoint where
  reservation : ArchiveAppendReservation
  staged : StagedArchiveObject
  object_eq : reservation.object = staged.descriptor

def CommitArchiveCheckpoint.new (reservation : ArchiveAppendReservation)
    (staged : StagedArchiveObject) : AppResult CommitArchiveCheckpoint :=
  if h : reservation.object = staged.descriptor then .ok ⟨reservation, staged, h⟩
  else .error (.policy "staged archive object differs from the reserved checkpoint")

structure PendingArchiveAppend where
  setId : BackupSetId
  expectedHead : ArchiveHead
  objectId : BackupObjectId
  ciphertextDigest : SafetyJournalDigest

structure ManagedBackupDeletionPrepared where
  setId : BackupSetId
  preparationDigest : SafetyJournalDigest

inductive ArchiveLifecycleTransition where
  | beginSealing (setId : BackupSetId)
  | commitSealed (setId : BackupSetId)
  | prepareDeletion (prepared : ManagedBackupDeletionPrepared)
  | prepareArchiveKeyErasure (prepared : ManagedBackupDeletionPrepared)
  | recordArchiveKeyErased (prepared : ManagedBackupDeletionPrepared)
  | finalizeDeleted (setId : BackupSetId)

def ArchiveLifecycleTransition.eventKind : ArchiveLifecycleTransition → SafetyEventKind
  | beginSealing _ => .archiveSealingStarted
  | commitSealed _ => .archiveSealed
  | prepareDeletion _ => .managedBackupDeletionPrepared
  | prepareArchiveKeyErasure _ => .preparedArchiveKeyErasure
  | recordArchiveKeyErased _ => .archiveKeyErased
  | finalizeDeleted _ => .managedBackupDeleted

def AppendIntentRow.listingKey (row : AppendIntentRow) : BackupSetId ×ₗ ℤ ×ₗ BackupObjectId :=
  toLex (row.backupSetId, toLex (row.ordinal, row.intentId))

/-! ## The archive repository -/

section

variable [Crypto] (entry : SignedJournalEntry) (receipt : WitnessReceipt)

def bindsEntry : Prop :=
  receipt.installationId = entry.installationId ∧
    receipt.fingerprintKeyId = entry.fingerprintKeyId ∧
    receipt.continuityProof = entry.continuityProof ∧ receipt.sequence = entry.sequence ∧
    receipt.journalDigest = entry.digest ∧ receipt.generationId = entry.generationId ∧
    receipt.activationEpoch = entry.activationEpoch ∧ receipt.state = entry.state

instance : Decidable (bindsEntry entry receipt) := inferInstanceAs (Decidable (_ ∧ _))

def safetyPolicy {α : Type} (x : Except InstallationSafetyError α) : AppResult α :=
  x.mapError fun e => .policy e.toString

def validateArchiveEntry : AppResult Unit := do
  safetyPolicy entry.verify
  safetyPolicy (receipt.verifyAgainst receipt.witnessPublicKey)
  refuse (¬ bindsEntry entry receipt)
    (.conflict "witness receipt does not exactly bind the archive entry")

namespace SafetyTables

variable (t : SafetyTables)

def startSetIn (identity : BackupSetIdentity) (initialHead : ArchiveHead)
    (entry : SignedJournalEntry) (receipt : WitnessReceipt) : AppResult SafetyTables := do
  validateArchiveEntry entry receipt
  refuse (entry.eventKind ≠ .backupSetStarted)
    (.policy "managed backup start requires its dedicated signed event")
  refuse (identity.installationId ≠ entry.installationId ∨
    identity.generationId ≠ entry.generationId)
    (.policy "managed backup identity does not match signed safety authority")
  let authority ← bindArchiveAuthority entry receipt
  t.startManagedBackupSet authority identity.setId initialHead.digest

section

omit [Crypto]

def reserveAppendIn (command : ReserveArchiveAppend) :
    AppResult (ArchiveAppendReservation × SafetyTables) := do
  let ordinal ← asI64 command.expectedHead.checkpointOrdinal "archive ordinal"
  let next ← t.reserveBackupArchiveAppend command.setId ordinal command.expectedHead.digest
    command.object.objectId command.object.ciphertextDigest
  let reservation ← (ArchiveAppendReservation.new command.setId command.expectedHead
    command.object).mapError fun e => .policy e.display
  return (reservation, next)

def abandonAppendIn (reservation : ArchiveAppendReservation) : AppResult SafetyTables := do
  let ordinal ← asI64 reservation.expected.checkpointOrdinal "archive ordinal"
  t.abandonBackupArchiveAppend reservation.setId ordinal reservation.expected.digest
    reservation.object.objectId reservation.object.ciphertextDigest

def pendingAppend (row : AppendIntentRow) : AppResult PendingArchiveAppend := do
  refuse (row.ordinal < 0) (.storage "negative archive intent ordinal")
  refuse (row.ordinal = 0) (.storage "zero archive intent ordinal")
  return ⟨row.backupSetId, ⟨UInt64.ofNat (row.ordinal - 1).toNat, row.expectedHeadDigest⟩,
    row.intentId, row.objectDigest⟩

/-- `ORDER BY backup_set_id, ordinal, intent_id`. -/
def listPendingAppendsIn : AppResult (List PendingArchiveAppend) :=
  (t.intents.insertionSort fun row other => row.listingKey ≤ other.listingKey).mapM pendingAppend

def abandonPendingAppendIn (pending : PendingArchiveAppend) : AppResult SafetyTables := do
  let ordinal ← asI64 pending.expectedHead.checkpointOrdinal "archive ordinal"
  t.abandonBackupArchiveAppend pending.setId ordinal pending.expectedHead.digest
    pending.objectId pending.ciphertextDigest

end

def objectRow (reservation : ArchiveAppendReservation) : AppResult ArchiveObjectRow := do
  let object := reservation.object
  let ordinal ← asI64 object.ordinal "archive ordinal"
  refuse (2 ^ 31 ≤ object.timeline.toNat) (.policy "archive timeline exceeds PostgreSQL integer")
  let startLsn ← asI64 object.startLsn "archive start LSN"
  let endLsn ← asI64 object.endLsn "archive end LSN"
  let length ← asI64 object.length "archive object length"
  return {
    backupSetId := reservation.setId
    ordinal := ordinal
    objectId := object.objectId
    objectKind := object.kind
    timeline := object.timeline.toNat
    startLsn := startLsn
    endLsn := endLsn
    objectDigest := object.ciphertextDigest
    plaintextDigest := object.plaintextDigest
    objectLength := length
    predecessorHeadDigest := object.predecessorHeadDigest
    checkpointDigest := (WalArchiveCheckpoint.fromReservation reservation).digest }

def commitCheckpointIn (command : CommitArchiveCheckpoint) (entry : SignedJournalEntry)
    (receipt : WitnessReceipt) : AppResult SafetyTables := do
  validateArchiveEntry entry receipt
  refuse (entry.eventKind ≠ .archiveCheckpointCommitted)
    (.policy "archive checkpoint requires its dedicated signed event")
  let row ← objectRow command.reservation
  let authority ← bindArchiveAuthority entry receipt
  t.commitBackupArchiveCheckpoint authority row

def acquireHoldIn (set : BackupSetId) (hold : RestoreHoldId) (entry : SignedJournalEntry)
    (receipt : WitnessReceipt) : AppResult SafetyTables := do
  validateArchiveEntry entry receipt
  refuse (entry.eventKind ≠ .archiveRestoreHoldAcquired)
    (.policy "restore-hold acquisition requires its dedicated signed event")
  let authority ← bindArchiveAuthority entry receipt
  t.acquireManagedBackupRestoreHold authority set hold

def transitionLifecycleIn (transition : ArchiveLifecycleTransition) (entry : SignedJournalEntry)
    (receipt : WitnessReceipt) : AppResult SafetyTables := do
  validateArchiveEntry entry receipt
  refuse (entry.eventKind ≠ transition.eventKind)
    (.policy "archive lifecycle event does not match its guarded transition")
  let authority ← bindArchiveAuthority entry receipt
  match transition with
  | .beginSealing set => t.beginManagedBackupSealing authority set
  | .commitSealed set => t.commitManagedBackupSealed authority set
  | .prepareDeletion prepared =>
    t.prepareManagedBackupDeletion authority prepared.setId prepared.preparationDigest
  | .prepareArchiveKeyErasure prepared =>
    t.prepareArchiveKeyErasure authority prepared.setId prepared.preparationDigest
  | .recordArchiveKeyErased prepared =>
    t.recordArchiveKeyErased authority prepared.setId prepared.preparationDigest
  | .finalizeDeleted set => t.finalizeManagedBackupDeleted authority set

/-! ## The other two -/

def validateSafetyEntry : AppResult Unit :=
  refuse (¬ bindsEntry entry receipt)
    (.conflict "witness receipt does not exactly bind the signed entry")

def initializeIn (binding : SafetyBootstrapBinding) (generation : DatabaseGenerationId)
    (entry : SignedJournalEntry) (receipt : WitnessReceipt) : AppResult SafetyTables := do
  refuse (binding.installationId ≠ entry.installationId ∨
    binding.fingerprintKeyId ≠ entry.fingerprintKeyId ∨
    binding.continuityProof ≠ entry.continuityProof ∨
    binding.journalPublicKey ≠ entry.signerPublicKey ∨
    binding.witnessPublicKey ≠ receipt.witnessPublicKey ∨ generation ≠ entry.generationId)
    (.conflict "installation safety initialization identities do not match")
  safetyPolicy entry.verify
  safetyPolicy (receipt.verifyAgainst binding.witnessPublicKey)
  validateSafetyEntry entry receipt
  t.initializeInstallationSafety (bindSafetyAuthority entry receipt) binding

def registerGenerationIn (generation : DatabaseGenerationId) (epoch : UInt64)
    (entry : SignedJournalEntry) (receipt : WitnessReceipt) : AppResult SafetyTables := do
  refuse (generation ≠ entry.generationId ∨ epoch ≠ entry.activationEpoch)
    (.conflict "database generation request does not match signed entry")
  safetyPolicy entry.verify
  validateSafetyEntry entry receipt
  t.registerDatabaseGeneration (bindSafetyAuthority entry receipt)

omit [Crypto] in
def prepareIn (attempt : RestoreAttemptProgress) : AppResult SafetyTables := do
  refuse (attempt.sourceFreeze.isSome = true ∨ attempt.terminalReceipt.isSome = true)
    (.policy "restore attempt preparation requires its exact prepared state")
  t.prepareRestoreAttempt attempt

omit [Crypto] in
def recordSourceFreezeIn (attempt : RestoreAttemptProgress) (freeze : SourceFreezePoint) :
    AppResult SafetyTables := do
  refuse (attempt.sourceFreeze.isSome = true ∨ freeze.generationId ≠ attempt.sourceGenerationId)
    (.policy "source freeze does not bind the prepared attempt")
  refuse (2 ^ 31 ≤ freeze.timeline.toNat) (.policy "freeze timeline exceeds PostgreSQL integer")
  let lsn ← asI64 freeze.lsn "freeze LSN"
  let watermark ← asI64 freeze.mutationWatermark "freeze watermark"
  t.recordSourceFreeze attempt.attemptId freeze.timeline.toNat lsn watermark

omit [Crypto] in
def recordTargetInitializedIn (attempt : RestoreAttemptProgress) (receipt : SafetyJournalDigest) :
    AppResult SafetyTables := do
  refuse (attempt.sourceFreeze.isNone = true)
    (.policy "target initialization requires a frozen restore attempt")
  t.recordTargetInitialized attempt.attemptId receipt

omit [Crypto] in
def recordSourceResumePreparedIn (attempt : RestoreAttemptProgress)
    (receipt : SafetyJournalDigest) : AppResult SafetyTables := do
  refuse (attempt.sourceFreeze.isNone = true ∨ attempt.terminalReceipt.isSome = true)
    (.policy "source resume requires a nonterminal frozen restore attempt")
  t.recordSourceResumePrepared attempt.attemptId receipt

def isRestoreEvent : SafetyEventKind → Bool
  | .targetActivationPlanned | .restoreTerminalRecorded | .restoreAttemptPrepared
  | .sourceFreezeRecorded | .targetActivating => true
  | _ => false

def recordRestoreSafetyEventIn (entry : SignedJournalEntry) (receipt : WitnessReceipt) :
    AppResult SafetyTables := do
  refuse (isRestoreEvent entry.eventKind = false)
    (.policy "restore authority cannot mirror a non-P05-C safety event")
  t.recordRestoreSafetyEvent (bindSafetyAuthority entry receipt) entry.eventKind

end SafetyTables

end

end Vestrace.Installation
