import Vestrace.Installation.Witness

/-!
# The guarded tables

`init-runtime-role.sh` installs the tables in which PostgreSQL keeps its own copy of the
witnessed state, and the routines that are the only way to change them. A routine has its name
there without `vestrace_`. It runs in the transaction of its caller, so one that raises leaves
nothing behind: it is a function from tables to tables that may fail.

Widths of digests and signatures, which the routines check, are those of the types. The tables of
restore events and of generations are written and never read here; only the uniqueness of the
second is kept.
-/

namespace Vestrace.Installation

open Lib

/-! ## Rows -/

/-- The singleton row. -/
structure SafetyState where
  installationId : InstallationId
  fingerprintKeyId : FingerprintKeyId
  continuityProof : FingerprintKeyContinuityProof
  journalSignerPublicKey : JournalPublicKey
  witnessPublicKey : WitnessPublicKey
  witnessSequence : ℤ
  journalDigest : SafetyJournalDigest
  witnessState : Bytes
  activeGenerationId : DatabaseGenerationId
  activationEpoch : ℤ
  deriving DecidableEq

structure JournalEventRow where
  installationId : InstallationId
  sequence : ℤ
  requestId : RequestId
  eventKind : SafetyEventKind
  generationId : DatabaseGenerationId
  activationEpoch : ℤ
  previousDigest : SafetyJournalDigest
  journalDigest : SafetyJournalDigest
  journalSignature : BitVec 512
  deriving DecidableEq

structure GenerationRow where
  installationId : InstallationId
  generationId : DatabaseGenerationId
  activationEpoch : ℤ
  journalSequence : ℤ
  deriving DecidableEq

structure BackupSetRow where
  backupSetId : BackupSetId
  installationId : InstallationId
  generationId : DatabaseGenerationId
  lifecycle : BackupSetLifecycle
  deriving DecidableEq

structure ArchiveHeadRow where
  backupSetId : BackupSetId
  checkpointOrdinal : ℤ
  checkpointDigest : SafetyJournalDigest
  deriving DecidableEq

structure ArchiveObjectRow where
  backupSetId : BackupSetId
  ordinal : ℤ
  objectId : BackupObjectId
  objectKind : ArchiveObjectKind
  timeline : ℤ
  startLsn : ℤ
  endLsn : ℤ
  objectDigest : SafetyJournalDigest
  plaintextDigest : SafetyJournalDigest
  objectLength : ℤ
  predecessorHeadDigest : SafetyJournalDigest
  checkpointDigest : SafetyJournalDigest
  deriving DecidableEq

structure AppendIntentRow where
  intentId : BackupObjectId
  backupSetId : BackupSetId
  ordinal : ℤ
  expectedHeadDigest : SafetyJournalDigest
  objectDigest : SafetyJournalDigest
  deriving DecidableEq

structure RestoreHoldRow where
  holdId : RestoreHoldId
  backupSetId : BackupSetId
  /-- `released_at IS NOT NULL`. -/
  released : Bool
  deriving DecidableEq

inductive BackupEventKind where
  | backupStarted
  | checkpointCommitted
  | restoreHoldAcquired
  | sealingStarted
  | sealed
  | deletionPrepared
  | archiveKeyErasurePrepared
  | archiveKeyErased
  | deleted
  deriving DecidableEq

inductive RestoreAttemptState where
  | prepared
  | sourceFrozen
  | targetInitialized
  | sourceResumePrepared
  | released
  deriving DecidableEq

structure RestoreAttemptRow where
  attemptId : RestoreAttemptId
  backupSetId : BackupSetId
  holdId : RestoreHoldId
  targetId : RestoreTargetId
  sourceGenerationId : DatabaseGenerationId
  targetGenerationId : DatabaseGenerationId
  state : RestoreAttemptState
  freeze : Option (ℤ × ℤ × ℤ)
  terminalReceipt : Option SafetyJournalDigest
  deriving DecidableEq

structure SafetyTables where
  /-- `installation_fingerprint_continuity`, the rows of key version 1. -/
  continuity : List (InstallationId × FingerprintKeyId × FingerprintKeyContinuityProof)
  safety : Option SafetyState
  journalEvents : List JournalEventRow
  generations : List GenerationRow
  sets : List BackupSetRow
  heads : List ArchiveHeadRow
  objects : List ArchiveObjectRow
  intents : List AppendIntentRow
  holds : List RestoreHoldRow
  preparations : List (BackupSetId × SafetyJournalDigest)
  backupEvents : List (BackupSetId × BackupEventKind)
  attempts : List RestoreAttemptRow

/-- `RAISE EXCEPTION`, as the repositories pass it on. -/
def raised (message : String) : ApplicationError :=
  .storage ("error returned from database: " ++ message)

/-- An `INSERT` under a unique constraint. -/
def insertRow {α : Type} (rows : List α) (clashes : α → α → Bool) (row : α) (constraint : String) :
    AppResult (List α) := do
  refuse (rows.any (clashes row) = true)
    (raised ("duplicate key value violates unique constraint \"" ++ constraint ++ "\""))
  return rows ++ [row]

/-- `as_i64`, which refuses what `BIGINT` cannot hold. -/
def asI64 (value : UInt64) (label : String) : AppResult ℤ := do
  refuse (2 ^ 63 ≤ value.toNat) (.policy (label ++ " exceeds PostgreSQL bigint"))
  return value.toNat

/-- `as i64`, which wraps. -/
def wrapI64 (value : UInt64) : ℤ := Int.bmod value.toNat (2 ^ 64)

def int8send (value : ℤ) : Bytes := beBytes 8 (value % 2 ^ 64).toNat

/-! ## Signed authority -/

/-- What every routine is given of the signed entry and its receipt. -/
structure SafetyAuthority where
  installationId : InstallationId
  fingerprintKeyId : FingerprintKeyId
  continuityProof : FingerprintKeyContinuityProof
  requestId : RequestId
  sequence : ℤ
  previousDigest : SafetyJournalDigest
  journalDigest : SafetyJournalDigest
  journalSignature : BitVec 512
  generationId : DatabaseGenerationId
  activationEpoch : ℤ
  state : Bytes
  receiptSignature : BitVec 512

section

variable [Crypto]

def bindArchiveAuthority (entry : SignedJournalEntry) (receipt : WitnessReceipt) :
    AppResult SafetyAuthority := do
  let sequence ← asI64 entry.sequence "journal sequence"
  let epoch ← asI64 receipt.activationEpoch "activation epoch"
  return {
    installationId := entry.installationId
    fingerprintKeyId := entry.fingerprintKeyId
    continuityProof := entry.continuityProof
    requestId := entry.requestId
    sequence := sequence
    previousDigest := entry.previousDigest
    journalDigest := entry.digest
    journalSignature := entry.signature
    generationId := receipt.generationId
    activationEpoch := epoch
    state := receipt.state.canonicalBytes
    receiptSignature := receipt.signature }

def bindSafetyAuthority (entry : SignedJournalEntry) (receipt : WitnessReceipt) :
    SafetyAuthority where
  installationId := entry.installationId
  fingerprintKeyId := entry.fingerprintKeyId
  continuityProof := entry.continuityProof
  requestId := entry.requestId
  sequence := wrapI64 receipt.sequence
  previousDigest := entry.previousDigest
  journalDigest := receipt.journalDigest
  journalSignature := entry.signature
  generationId := receipt.generationId
  activationEpoch := wrapI64 receipt.activationEpoch
  state := receipt.state.canonicalBytes
  receiptSignature := receipt.signature

namespace SafetyAuthority

variable (a : SafetyAuthority)

omit [Crypto] in
/-- `vestrace_p05_receipt_payload`. -/
def receiptPayload (witnessKey : WitnessPublicKey) : Bytes :=
  field (ascii "vestrace-installation-witness-receipt-v1") ++ field a.installationId.asBytes ++
    field a.fingerprintKeyId.asBytes ++ field (beBytes 32 a.continuityProof.bits.toNat) ++
    int8send a.sequence ++ field a.journalDigest.asBytes ++ field a.generationId.asBytes ++
    int8send a.activationEpoch ++ field a.state ++ field (beBytes 32 witnessKey.bits.toNat)

omit [Crypto] in
/-- `vestrace_p05_journal_payload`. -/
def journalPayload (previous : SafetyJournalDigest) (eventKind : SafetyEventKind)
    (journalKey : JournalPublicKey) : Bytes :=
  field (ascii "vestrace-installation-safety-journal-v1") ++ field a.installationId.asBytes ++
    field a.fingerprintKeyId.asBytes ++ field (beBytes 32 a.continuityProof.bits.toNat) ++
    field (beBytes 16 a.requestId.asUuid.toNat) ++ int8send a.sequence ++
    field previous.asBytes ++ [eventKind.code] ++ field a.generationId.asBytes ++
    int8send a.activationEpoch ++ field a.state ++ field (beBytes 32 journalKey.bits.toNat)

def receiptVerifies (witnessKey : WitnessPublicKey) : Bool :=
  Crypto.verify witnessKey.bits (a.receiptPayload witnessKey) a.receiptSignature

def journalVerifies (previous : SafetyJournalDigest) (eventKind : SafetyEventKind)
    (journalKey : JournalPublicKey) : Bool :=
  let payload := a.journalPayload previous eventKind journalKey
  SafetyJournalDigest.of payload = a.journalDigest &&
    Crypto.verify journalKey.bits payload a.journalSignature

omit [Crypto] in
/-- The authority is of this installation and its key. -/
def names (safety : SafetyState) : Prop :=
  safety.installationId = a.installationId ∧ safety.fingerprintKeyId = a.fingerprintKeyId ∧
    safety.continuityProof = a.continuityProof

omit [Crypto] in
instance (safety : SafetyState) : Decidable (a.names safety) :=
  inferInstanceAs (Decidable (_ ∧ _ ∧ _))

omit [Crypto] in
def eventRow (eventKind : SafetyEventKind) (previous : SafetyJournalDigest) :
    JournalEventRow where
  installationId := a.installationId
  sequence := a.sequence
  requestId := a.requestId
  eventKind := eventKind
  generationId := a.generationId
  activationEpoch := a.activationEpoch
  previousDigest := previous
  journalDigest := a.journalDigest
  journalSignature := a.journalSignature

end SafetyAuthority

/-- The primary key of the journal events, and their two unique columns. -/
def JournalEventRow.clashes (row other : JournalEventRow) : Bool :=
  row.installationId == other.installationId &&
    (row.sequence == other.sequence || row.requestId == other.requestId ||
      row.journalDigest == other.journalDigest)

def GenerationRow.clashes (row other : GenerationRow) : Bool :=
  row.installationId == other.installationId &&
    (row.generationId == other.generationId || row.activationEpoch == other.activationEpoch ||
      row.journalSequence == other.journalSequence)

namespace SafetyTables

variable (t : SafetyTables) (a : SafetyAuthority)

omit [Crypto] in
def insertEvent (row : JournalEventRow) : AppResult SafetyTables := do
  let journalEvents ← insertRow t.journalEvents JournalEventRow.clashes row
    "installation_safety_journal_events"
  return { t with journalEvents }

/-- What the singleton must say for an archive transition to be the next one. -/
def followsSafety (safety : SafetyState) : Prop :=
  a.names safety ∧ a.sequence = safety.witnessSequence + 1 ∧
    a.previousDigest = safety.journalDigest ∧ a.generationId = safety.activeGenerationId ∧
    a.activationEpoch = safety.activationEpoch ∧ a.receiptVerifies safety.witnessPublicKey = true

instance (safety : SafetyState) : Decidable (followsSafety a safety) :=
  inferInstanceAs (Decidable (_ ∧ _ ∧ _ ∧ _ ∧ _ ∧ _))

/-- The entry is the next one, and receipt and entry are signed. -/
def assertArchiveSafetyAuthority (eventKind : SafetyEventKind) : AppResult SafetyState := do
  let mismatch := raised "archive transition receipt does not match pinned safety authority"
  let safety ← okOr t.safety mismatch
  refuse (¬ followsSafety a safety) mismatch
  refuse (a.journalVerifies a.previousDigest eventKind safety.journalSignerPublicKey = false)
    (raised "archive transition journal signature is invalid")
  return safety

omit [Crypto] in
def advanceSafety (safety : SafetyState) : SafetyTables :=
  { t with safety := some { safety with
      witnessSequence := a.sequence, journalDigest := a.journalDigest, witnessState := a.state } }

def recordArchiveSafetyAuthority (eventKind : SafetyEventKind) : AppResult SafetyTables := do
  let safety ← t.assertArchiveSafetyAuthority a eventKind
  (t.advanceSafety a safety).insertEvent (a.eventRow eventKind a.previousDigest)

/-! ## Appends -/

omit [Crypto] in
def setRow (set : BackupSetId) : Option BackupSetRow := t.sets.find? (·.backupSetId = set)

omit [Crypto] in
def headRow (set : BackupSetId) : Option ArchiveHeadRow := t.heads.find? (·.backupSetId = set)

omit [Crypto] in
def isLiveHead (set : BackupSetId) (expectedOrdinal : ℤ) (expectedDigest : SafetyJournalDigest) :
    Bool :=
  (t.headRow set).any (fun head =>
    head.checkpointOrdinal = expectedOrdinal ∧ head.checkpointDigest = expectedDigest) &&
    (t.setRow set).all (fun row => row.lifecycle = .streaming)

end SafetyTables

def AppendIntentRow.clashes (row other : AppendIntentRow) : Bool :=
  row.intentId == other.intentId ||
    row.backupSetId == other.backupSetId && row.ordinal == other.ordinal

/-- The primary key of the objects, and their two unique columns. -/
def ArchiveObjectRow.clashes (row other : ArchiveObjectRow) : Bool :=
  row.backupSetId == other.backupSetId &&
    (row.ordinal == other.ordinal || row.objectId == other.objectId ||
      row.objectDigest == other.objectDigest)

namespace SafetyTables

variable (t : SafetyTables) (a : SafetyAuthority) (set : BackupSetId) (row : ArchiveObjectRow)

omit [Crypto] in
/-- One intent for each ordinal, on the live head. -/
def reserveBackupArchiveAppend (expectedOrdinal : ℤ) (expectedDigest : SafetyJournalDigest)
    (intent : BackupObjectId) (objectDigest : SafetyJournalDigest) : AppResult SafetyTables := do
  refuse (t.isLiveHead set expectedOrdinal expectedDigest = false)
    (raised "backup archive append reservation does not match live head")
  let intents ← insertRow t.intents AppendIntentRow.clashes
    ⟨intent, set, expectedOrdinal + 1, expectedDigest, objectDigest⟩ "managed_backup_append_intents"
  return { t with intents }

omit [Crypto] in
/-- The exact intent is taken out again. -/
def abandonBackupArchiveAppend (expectedOrdinal : ℤ) (expectedDigest : SafetyJournalDigest)
    (intent : BackupObjectId) (objectDigest : SafetyJournalDigest) : AppResult SafetyTables := do
  refuse (t.isLiveHead set expectedOrdinal expectedDigest = false)
    (raised "backup archive append abandonment does not match live head")
  let row : AppendIntentRow := ⟨intent, set, expectedOrdinal + 1, expectedDigest, objectDigest⟩
  refuse (row ∉ t.intents)
    (raised "backup archive append abandonment does not match exact intent")
  return { t with intents := t.intents.filter (· ≠ row) }

section

omit [Crypto]

/-- `vestrace_enforce_managed_backup_base_checkpoint`: the first object of a set is its only
base, and WAL is on the base's timeline and starts no earlier. -/
def violatesBase : Bool :=
  let bases := t.objects.filter fun object =>
    object.backupSetId = row.backupSetId ∧ object.ordinal = 1 ∧ object.objectKind = .baseChunk
  (row.ordinal = 1 ∧ row.objectKind ≠ .baseChunk) ||
    (1 < row.ordinal ∧ row.objectKind = .baseChunk) ||
    (1 < row.ordinal ∧ bases = []) ||
    (row.objectKind = .walSegment ∧
      bases.any fun base => base.timeline ≠ row.timeline ∨ row.startLsn < base.startLsn)

/-- Every durable fact of this authority is already recorded. -/
def isCheckpointRetry : Bool :=
  t.safety.any (fun safety => a.names safety ∧ safety.witnessSequence = a.sequence ∧
    safety.journalDigest = a.journalDigest ∧ safety.witnessState = a.state) &&
    t.journalEvents.contains (a.eventRow .archiveCheckpointCommitted a.previousDigest)

def holdsCheckpoint : Bool :=
  (t.headRow row.backupSetId).any (fun head =>
    head.checkpointOrdinal = row.ordinal ∧ head.checkpointDigest = row.checkpointDigest) &&
    t.objects.contains row

/-- The checkpoint follows the head, and an intent has reserved it. -/
def isReservedCheckpoint : Bool :=
  (t.headRow row.backupSetId).any fun head =>
    row.ordinal = head.checkpointOrdinal + 1 ∧ 0 < row.timeline ∧ row.startLsn ≤ row.endLsn ∧
      0 < row.objectLength ∧ row.predecessorHeadDigest = head.checkpointDigest ∧
      (⟨row.objectId, row.backupSetId, row.ordinal, head.checkpointDigest, row.objectDigest⟩ :
        AppendIntentRow) ∈ t.intents

def withCheckpoint : SafetyTables :=
  { t with
    objects := t.objects ++ [row]
    heads := t.heads.map fun head =>
      if head.backupSetId = row.backupSetId then
        ⟨head.backupSetId, row.ordinal, row.checkpointDigest⟩
      else head
    intents := t.intents.filter (·.intentId ≠ row.objectId)
    backupEvents := t.backupEvents ++ [(row.backupSetId, .checkpointCommitted)] }

end

/-- The first commit of a checkpoint. -/
def insertCheckpoint : AppResult SafetyTables := do
  let mismatch := raised "backup checkpoint receipt does not match pinned safety authority"
  let safety ← okOr t.safety mismatch
  refuse (¬ followsSafety a safety) mismatch
  refuse (a.journalVerifies a.previousDigest .archiveCheckpointCommitted
    safety.journalSignerPublicKey = false) (raised "backup checkpoint journal signature is invalid")
  refuse (t.isReservedCheckpoint row = false)
    (raised "backup checkpoint does not match exact reserved archive head")
  refuse (t.violatesBase row = true)
    (raised "managed backup object violates the first-base checkpoint invariant")
  refuse (t.objects.any (ArchiveObjectRow.clashes row) = true)
    (raised "duplicate key value violates unique constraint \"managed_backup_archive_objects\"")
  ((t.withCheckpoint row).advanceSafety a safety).insertEvent
    (a.eventRow .archiveCheckpointCommitted a.previousDigest)

/-- A checkpoint that is recorded already is left as it is. -/
def commitBackupArchiveCheckpoint : AppResult SafetyTables :=
  if t.isCheckpointRetry a then do
    refuse (t.holdsCheckpoint row = false)
      (raised "backup checkpoint retry does not match its durable receipt")
    return t
  else t.insertCheckpoint a row

/-! ## Sets, holds and lifecycles -/

def startManagedBackupSet (initialHeadDigest : SafetyJournalDigest) : AppResult SafetyTables := do
  let _ ← t.assertArchiveSafetyAuthority a .backupSetStarted
  let sets ← insertRow t.sets (fun row other => row.backupSetId == other.backupSetId)
    ⟨set, a.installationId, a.generationId, .streaming⟩ "managed_backup_sets"
  let heads ← insertRow t.heads (fun row other => row.backupSetId == other.backupSetId)
    ⟨set, 0, initialHeadDigest⟩ "managed_backup_archive_heads"
  let next := { t with
    sets, heads, backupEvents := t.backupEvents ++ [(set, BackupEventKind.backupStarted)] }
  next.recordArchiveSafetyAuthority a .backupSetStarted

omit [Crypto] in
/-- `EXISTS` a base object of the set: `vestrace_enforce_managed_backup_base_ready`. -/
def hasBase : Bool :=
  t.objects.any fun object =>
    object.backupSetId = set ∧ object.ordinal = 1 ∧ object.objectKind = .baseChunk

omit [Crypto] in
def hasLiveHold : Bool :=
  t.holds.any fun hold => hold.backupSetId = set ∧ hold.released = false

def acquireManagedBackupRestoreHold (hold : RestoreHoldId) : AppResult SafetyTables := do
  let _ ← t.assertArchiveSafetyAuthority a .archiveRestoreHoldAcquired
  refuse (((t.setRow set).any fun row => row.lifecycle = .streaming) = false)
    (raised "managed backup is not restore-eligible")
  refuse (t.hasBase set = false) (raised "managed backup is not base-checkpoint ready")
  let holds ← insertRow t.holds (fun row other => row.holdId == other.holdId)
    ⟨hold, set, false⟩ "managed_backup_restore_holds"
  let next := { t with
    holds, backupEvents := t.backupEvents ++ [(set, BackupEventKind.restoreHoldAcquired)] }
  next.recordArchiveSafetyAuthority a .archiveRestoreHoldAcquired

omit [Crypto] in
/-- No set leaves `streaming` before it has a base. -/
def moveLifecycle (target : BackupSetLifecycle) : AppResult SafetyTables := do
  refuse (target ≠ .streaming ∧ t.hasBase set = false)
    (raised "managed backup lifecycle cannot leave streaming before its base checkpoint")
  return { t with sets := t.sets.map fun row =>
    if row.backupSetId = set then { row with lifecycle := target } else row }

/-- The shape of the six lifecycle routines. -/
def lifecycleRoutine (eventKind : SafetyEventKind) (set : BackupSetId)
    (source : BackupSetLifecycle) (eligible : Bool) (refusal : String)
    (move : SafetyTables → AppResult SafetyTables) (event : BackupEventKind) :
    AppResult SafetyTables := do
  let _ ← t.assertArchiveSafetyAuthority a eventKind
  refuse (((t.setRow set).any fun row => row.lifecycle = source) = false ∨ eligible = false)
    (raised refusal)
  let moved ← move t
  let next := { moved with backupEvents := moved.backupEvents ++ [(set, event)] }
  next.recordArchiveSafetyAuthority a eventKind

def beginManagedBackupSealing : AppResult SafetyTables :=
  t.lifecycleRoutine a .archiveSealingStarted set .streaming (!t.hasLiveHold set)
    "managed backup cannot begin sealing while restore-held or non-streaming"
    (fun t => t.moveLifecycle set .sealing) .sealingStarted

def commitManagedBackupSealed : AppResult SafetyTables :=
  t.lifecycleRoutine a .archiveSealed set .sealing
    (!t.hasLiveHold set && !t.intents.any fun intent => intent.backupSetId = set)
    "managed backup cannot seal before holds and append intents drain"
    (fun t => t.moveLifecycle set .sealed) .sealed

def prepareManagedBackupDeletion (preparation : SafetyJournalDigest) : AppResult SafetyTables :=
  t.lifecycleRoutine a .managedBackupDeletionPrepared set .sealed (!t.hasLiveHold set)
    "managed backup is not eligible for deletion preparation"
    (fun t => do
      let preparations ← insertRow t.preparations (fun row other => row.1 == other.1)
        (set, preparation) "managed_backup_deletion_preparations"
      ({ t with preparations } : SafetyTables).moveLifecycle set .deletionPrepared)
    .deletionPrepared

def prepareArchiveKeyErasure (preparation : SafetyJournalDigest) : AppResult SafetyTables :=
  t.lifecycleRoutine a .preparedArchiveKeyErasure set .deletionPrepared
    (t.preparations.contains (set, preparation))
    "archive key erasure is not bound to the prepared deletion" pure .archiveKeyErasurePrepared

def recordArchiveKeyErased (preparation : SafetyJournalDigest) : AppResult SafetyTables :=
  t.lifecycleRoutine a .archiveKeyErased set .deletionPrepared
    (t.preparations.contains (set, preparation) &&
      t.backupEvents.contains (set, .archiveKeyErasurePrepared))
    "archive key erasure is not bound to the prepared deletion"
    (fun t => t.moveLifecycle set .archiveKeyErased) .archiveKeyErased

def finalizeManagedBackupDeleted : AppResult SafetyTables :=
  t.lifecycleRoutine a .managedBackupDeleted set .archiveKeyErased true
    "managed backup is not ready for final deletion"
    (fun t => t.moveLifecycle set .deleted) .deleted

/-! ## The installation and its generations -/

def initialSafety (binding : SafetyBootstrapBinding) : SafetyState where
  installationId := binding.installationId
  fingerprintKeyId := binding.fingerprintKeyId
  continuityProof := binding.continuityProof
  journalSignerPublicKey := binding.journalPublicKey
  witnessPublicKey := binding.witnessPublicKey
  witnessSequence := a.sequence
  journalDigest := a.journalDigest
  witnessState := a.state
  activeGenerationId := a.generationId
  activationEpoch := a.activationEpoch

/-- The installation's own identities are those of the binding, so of the two digests of the
bootstrap record that the routine compares there is one. -/
def initializeInstallationSafety (binding : SafetyBootstrapBinding) : AppResult SafetyTables := do
  refuse (a.sequence ≠ 1 ∨ a.activationEpoch ≠ 0)
    (raised "P05 initializer has malformed or out-of-order authority data")
  refuse (a.receiptVerifies binding.witnessPublicKey = false)
    (raised "P05 initializer signature or bootstrap binding is invalid")
  let previous := SafetyJournalDigest.of (ascii "vestrace-installation-safety-genesis-v1")
  refuse (a.journalVerifies previous .installationInitialized binding.journalPublicKey = false)
    (raised "P05 initializer journal entry is invalid")
  refuse
    ((binding.installationId, binding.fingerprintKeyId, binding.continuityProof) ∉ t.continuity)
    (raised "P05 initializer fingerprint continuity does not match")
  match t.safety with
  | some safety =>
    refuse (safety ≠ initialSafety a binding)
      (raised "P05 initializer refuses a different binding or retry")
    return t
  | none =>
    let generations ← insertRow t.generations GenerationRow.clashes
      ⟨binding.installationId, a.generationId, a.activationEpoch, a.sequence⟩
      "installation_safety_generations"
    ({ t with safety := some (initialSafety a binding), generations } : SafetyTables).insertEvent
      (a.eventRow .installationInitialized previous)

/-- The one routine that changes generation and epoch. -/
def registerDatabaseGeneration : AppResult SafetyTables := do
  let identity := raised "P05 generation registration identity does not match singleton"
  let safety ← okOr t.safety identity
  refuse (¬ a.names safety) identity
  refuse (a.sequence ≠ safety.witnessSequence + 1 ∨
    a.activationEpoch ≠ safety.activationEpoch + 1 ∨ a.state = safety.witnessState)
    (raised "P05 generation registration is not a permitted monotonic transition")
  refuse (a.receiptVerifies safety.witnessPublicKey = false)
    (raised "P05 generation receipt signature is invalid")
  refuse (a.journalVerifies safety.journalDigest .generationRegistered
    safety.journalSignerPublicKey = false) (raised "P05 generation journal entry is invalid")
  let inserted ← t.insertEvent (a.eventRow .generationRegistered safety.journalDigest)
  let generations ← insertRow inserted.generations GenerationRow.clashes
    ⟨a.installationId, a.generationId, a.activationEpoch, a.sequence⟩
    "installation_safety_generations"
  return { inserted with
    generations
    safety := some { safety with
      witnessSequence := a.sequence, journalDigest := a.journalDigest, witnessState := a.state
      activeGenerationId := a.generationId, activationEpoch := a.activationEpoch } }

/-! ## Restores -/

section

omit [Crypto]

/-- One open attempt for each source generation. -/
def attemptClashes (row other : RestoreAttemptRow) : Bool :=
  row.attemptId == other.attemptId || row.targetId == other.targetId ||
    row.targetGenerationId == other.targetGenerationId ||
    row.sourceGenerationId == other.sourceGenerationId && other.state != .released

def prepareRestoreAttempt (attempt : RestoreAttemptProgress) : AppResult SafetyTables := do
  refuse (((t.setRow attempt.backupSetId).any fun row =>
      row.lifecycle = .streaming ∧ row.generationId = attempt.sourceGenerationId) = false ∨
    ⟨attempt.holdId, attempt.backupSetId, false⟩ ∉ t.holds ∨ t.hasBase attempt.backupSetId = false)
    (raised "restore attempt is not bound to a live base-complete streaming source")
  let attempts ← insertRow t.attempts attemptClashes
    { attemptId := attempt.attemptId
      backupSetId := attempt.backupSetId
      holdId := attempt.holdId
      targetId := attempt.targetId
      sourceGenerationId := attempt.sourceGenerationId
      targetGenerationId := attempt.targetGenerationId
      state := .prepared
      freeze := none
      terminalReceipt := none } "managed_restore_attempts"
  return { t with attempts }

variable (attempt : RestoreAttemptId)

/-- An `UPDATE` guarded by the state the attempt must be in. -/
def updateAttempt (source : RestoreAttemptState) (f : RestoreAttemptRow → RestoreAttemptRow)
    (refusal : String) : AppResult SafetyTables := do
  refuse ((t.attempts.any fun row => row.attemptId = attempt ∧ row.state = source) = false)
    (raised refusal)
  return { t with attempts := t.attempts.map fun row =>
    if row.attemptId = attempt ∧ row.state = source then f row else row }

def recordSourceFreeze (timeline lsn watermark : ℤ) : AppResult SafetyTables := do
  let refusal := "restore source freeze is not an exact prepared successor"
  refuse (timeline ≤ 0 ∨ lsn ≤ 0 ∨ watermark < 0) (raised refusal)
  t.updateAttempt attempt .prepared
    (fun row => { row with state := .sourceFrozen, freeze := some (timeline, lsn, watermark) })
    refusal

/-- The two ways an attempt ends. One that has ended this way is left as it is. -/
def recordTerminal (receipt : SafetyJournalDigest) (ended : RestoreAttemptState) (refusal : String)
    : AppResult SafetyTables :=
  if (t.attempts.any fun row => row.attemptId = attempt ∧
      (row.state = ended ∨ row.state = .released) ∧ row.terminalReceipt = some receipt) then
    return t
  else
    t.updateAttempt attempt .sourceFrozen
      (fun row => { row with state := ended, terminalReceipt := some receipt }) refusal

def recordTargetInitialized (receipt : SafetyJournalDigest) : AppResult SafetyTables :=
  t.recordTerminal attempt receipt .targetInitialized
    "target initialization is not an exact frozen successor"

def recordSourceResumePrepared (receipt : SafetyJournalDigest) : AppResult SafetyTables :=
  t.recordTerminal attempt receipt .sourceResumePrepared
    "source resume is not an exact frozen successor"

def isRestoreEventRecorded (safety : SafetyState) : Prop :=
  safety.witnessSequence = a.sequence ∧ safety.journalDigest = a.journalDigest ∧
    safety.witnessState = a.state ∧ safety.activeGenerationId = a.generationId ∧
    safety.activationEpoch = a.activationEpoch

instance (safety : SafetyState) : Decidable (isRestoreEventRecorded a safety) :=
  inferInstanceAs (Decidable (_ ∧ _ ∧ _ ∧ _ ∧ _))

end

def insertRestoreSafetyEvent (safety : SafetyState) (eventKind : SafetyEventKind) :
    AppResult SafetyTables := do
  refuse (a.sequence ≠ safety.witnessSequence + 1 ∨ a.generationId ≠ safety.activeGenerationId ∨
    a.activationEpoch ≠ safety.activationEpoch ∨ a.state = safety.witnessState)
    (raised "P05 restore safety event is not an exact monotonic successor")
  refuse (a.receiptVerifies safety.witnessPublicKey = false)
    (raised "P05 restore safety receipt signature is invalid")
  refuse (a.journalVerifies safety.journalDigest eventKind safety.journalSignerPublicKey = false)
    (raised "P05 restore safety journal entry is invalid")
  (t.advanceSafety a safety).insertEvent (a.eventRow eventKind safety.journalDigest)

/-- An event that is recorded already is left as it is. -/
def recordRestoreSafetyEvent (eventKind : SafetyEventKind) : AppResult SafetyTables := do
  let identity := raised "P05 restore safety event identity does not match singleton"
  let safety ← okOr t.safety identity
  refuse (¬ a.names safety) identity
  if isRestoreEventRecorded a safety then return t
  else t.insertRestoreSafetyEvent a safety eventKind

end SafetyTables

end

end Vestrace.Installation
