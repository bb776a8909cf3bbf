import Vestrace.Installation.SafetyRepositories
import Vestrace.Installation.WitnessFile
import Vestrace.Lib.Ports

/-!
# Appending a WAL segment, and the supervisor's reconciliation

`BackupArchiveController::append_wal` takes a segment through four stores that have no
transaction in common: the guarded tables, the archive's files, the journal and the
witness. `reconcile` is what the supervisor runs after a crash. Both are programs over
the calls of `hostPorts`, and a crash falls between two calls.

Syncs and directories are left out: what a call has done is durable when it returns. No call fails
by itself, but a `create_new` that finds a file and a read or a removal that finds none answer so.
The witness is the file witness, and one supervisor has it open at a time.
-/

namespace Vestrace.Installation

open Lib

/-! ## The stores -/

inductive ArchivePath where
  | staging (set : BackupSetId) (stagingId : Uuid)
  | object (set : BackupSetId) (kind : ArchiveObjectKind) (ordinal : UInt64)
      (digest : SafetyJournalDigest)
  deriving DecidableEq

/-- A record of the journal is there in full or torn. -/
inductive JournalFile where
  | torn
  | entry (entry : SignedJournalEntry)
  deriving DecidableEq

/-- `new` checks the digest, `from_spool` the length. -/
structure ArchiveObjectWrite [Crypto] where
  descriptor : ArchiveObjectDescriptor
  ciphertext : Bytes
  bound : (ciphertext ≠ [] ∧ SafetyJournalDigest.of ciphertext = descriptor.ciphertextDigest) ∨
    ciphertext.length = descriptor.length.toNat

/-- A reservation for the object that is written. -/
structure AppendWal [Crypto] where
  reservation : ReserveArchiveAppend
  write : ArchiveObjectWrite
  signedEntry : SignedJournalEntry
  object_eq : reservation.object = write.descriptor

inductive SafetyTransaction where
  | initializeSafety (binding : SafetyBootstrapBinding)
  | registerGeneration
  | startSet (identity : BackupSetIdentity) (initialHead : ArchiveHead)
  | commitCheckpoint (command : CommitArchiveCheckpoint)
  | acquireHold (set : BackupSetId) (hold : RestoreHoldId)
  | lifecycle (transition : ArchiveLifecycleTransition)
  | prepareAttempt (attempt : RestoreAttemptProgress)
  | sourceFreeze (attempt : RestoreAttemptProgress) (freeze : SourceFreezePoint)
  | targetInitialized (attempt : RestoreAttemptProgress) (receipt : SafetyJournalDigest)
  | sourceResumePrepared (attempt : RestoreAttemptProgress) (receipt : SafetyJournalDigest)
  | nothing

structure SupervisorHost [Crypto] where
  tables : SafetyTables
  journal : UInt64 × SafetyJournalDigest → Option JournalFile
  witness : StoredWitnessRecord
  witnessKey : Crypto.Ed25519KeyPair
  files : ArchivePath → Option Bytes
  /-- The sets whose key envelope can be opened. -/
  envelopes : List BackupSetId

/-- A transaction is one call, at its commit. What is read while it is open is read before. -/
inductive HostCall where
  | reserveAppend (command : ReserveArchiveAppend)
  | abandonAppend (reservation : ArchiveAppendReservation)
  | cancelPending (archive : BackupArchiveStateV1)
  | commitCheckpoint (command : CommitArchiveCheckpoint) (entry : SignedJournalEntry)
      (receipt : WitnessReceipt)
  | replay (transaction : SafetyTransaction) (entry : SignedJournalEntry) (receipt : WitnessReceipt)
  | createNew (path : ArchivePath)
  | append (path : ArchivePath) (byte : UInt8)
  | read (path : ArchivePath)
  | removeFile (path : ArchivePath)
  | openEnvelope (set : BackupSetId)
  | createJournal (sequence : UInt64) (digest : SafetyJournalDigest)
  | writeJournal (entry : SignedJournalEntry)
  | readJournal (sequence : UInt64) (digest : SafetyJournalDigest)
  | readHead
  | compareAndAdvance (expected : WitnessHead) (next : WitnessAdvance)
  | durableReceipt

@[reducible] def HostCall.Answer : HostCall → Type
  | reserveAppend _ => AppResult ArchiveAppendReservation
  | abandonAppend _ => AppResult Unit
  | cancelPending _ => Except String (List PendingArchiveAppend)
  | commitCheckpoint _ _ _ => AppResult Unit
  | replay _ _ _ => Except String Unit
  | createNew _ => Bool
  | append _ _ => Unit
  | read _ => Option Bytes
  | removeFile _ => Bool
  | openEnvelope _ => Bool
  | createJournal _ _ => Bool
  | writeJournal _ => Unit
  | readJournal _ _ => Option JournalFile
  | readHead => Except WitnessError WitnessHead
  | compareAndAdvance _ _ => Except WitnessError WitnessReceipt
  | durableReceipt => Except WitnessError WitnessReceipt

def BackupArchiveStateV1.archiveHead (archive : BackupArchiveStateV1) (set : BackupSetId) :
    Except BackupArchiveError ArchiveHead := do
  let state ← archive.set set
  return state.head

section

variable [Crypto]

def orSay {α ε : Type} (display : ε → String) (what : String) (x : Except ε α) :
    Except String α :=
  x.mapError fun e => what ++ ": " ++ display e

def WitnessError.display : WitnessError → String
  | .conflict => "witness record conflicts with the expected head"
  | .invalid e => e.toString
  | .unavailable message => "witness storage is unavailable: " ++ message

namespace SafetyTables

variable (t : SafetyTables)

omit [Crypto] in
def cancelIntent (archive : BackupArchiveStateV1)
    (done : List PendingArchiveAppend × SafetyTables) (intent : PendingArchiveAppend) :
    Except String (List PendingArchiveAppend × SafetyTables) :=
  if archive.archiveHead intent.setId = .ok intent.expectedHead then do
    let next ← orSay ApplicationError.display "pending archive intent cancellation failed"
      (done.2.abandonPendingAppendIn intent)
    return (done.1 ++ [intent], next)
  else return done

omit [Crypto] in
def cancelPending (archive : BackupArchiveStateV1) :
    Except String (List PendingArchiveAppend × SafetyTables) := do
  let pending ← orSay ApplicationError.display
    "pending archive intent inventory is unavailable" t.listPendingAppendsIn
  pending.foldlM (cancelIntent archive) ([], t)

/-- The arm of `reconcile` for an event, once it has found what to replay. -/
def applyTransaction (transaction : SafetyTransaction) (entry : SignedJournalEntry)
    (receipt : WitnessReceipt) : AppResult SafetyTables :=
  match transaction with
  | .initializeSafety binding => t.initializeIn binding entry.generationId entry receipt
  | .registerGeneration =>
    t.registerGenerationIn entry.generationId entry.activationEpoch entry receipt
  | .startSet identity initialHead => t.startSetIn identity initialHead entry receipt
  | .commitCheckpoint command => t.commitCheckpointIn command entry receipt
  | .acquireHold set hold => t.acquireHoldIn set hold entry receipt
  | .lifecycle transition => t.transitionLifecycleIn transition entry receipt
  | .prepareAttempt attempt => t.prepareIn attempt
  | .sourceFreeze attempt freeze => t.recordSourceFreezeIn attempt freeze
  | .targetInitialized attempt digest => t.recordTargetInitializedIn attempt digest
  | .sourceResumePrepared attempt digest => t.recordSourceResumePreparedIn attempt digest
  | .nothing => .ok t

def replay (transaction : SafetyTransaction) (entry : SignedJournalEntry)
    (receipt : WitnessReceipt) : Except String SafetyTables := do
  let next ← orSay ApplicationError.display "guarded safety reconciliation failed"
    (t.applyTransaction transaction entry receipt)
  if isRestoreEvent entry.eventKind then
    orSay ApplicationError.display "restore safety-event reconciliation failed"
      (next.recordRestoreSafetyEventIn entry receipt)
  else return next

end SafetyTables

namespace SupervisorHost

variable (host : SupervisorHost)

/-- `FileInstallationSafetyWitness::open` and `read_head`. -/
def head : Except WitnessError WitnessHead := do
  refuse (host.witness.binding.witnessPublicKey ≠ ⟨Crypto.publicKey host.witnessKey⟩)
    (WitnessError.unavailable "witness signing key does not match pinned binding")
  host.witness.head

def compareAndAdvance (expected : WitnessHead) (next : WitnessAdvance) :
    Except WitnessError (WitnessReceipt × SupervisorHost) := do
  let current ← host.head
  let w : FileInstallationSafetyWitness := ⟨host.witness.binding, host.witnessKey, current⟩
  let (receipt, _) ← w.nextReceipt expected next
  return (receipt, { host with witness := ⟨host.witness.binding, .receipt receipt⟩ })

def onTables {ε α : Type} (t : SafetyTables → Except ε (α × SafetyTables)) :
    Except ε α × SupervisorHost :=
  transact (fun host : SupervisorHost => do
    let (a, tables) ← t host.tables
    return (a, { host with tables })) host

def setFile (path : ArchivePath) (content : Option Bytes) : SupervisorHost :=
  { host with files := Function.update host.files path content }

def exec : (call : HostCall) → SupervisorHost → call.Answer × SupervisorHost
  | .reserveAppend command, host => host.onTables fun t => t.reserveAppendIn command
  | .abandonAppend reservation, host => host.onTables fun t => do
    let next ← t.abandonAppendIn reservation
    return ((), next)
  | .cancelPending archive, host => host.onTables fun t => t.cancelPending archive
  | .commitCheckpoint command entry receipt, host => host.onTables fun t => do
    let next ← t.commitCheckpointIn command entry receipt
    return ((), next)
  | .replay transaction entry receipt, host => host.onTables fun t => do
    let next ← t.replay transaction entry receipt
    return ((), next)
  | .createNew path, host =>
    match host.files path with
    | some _ => (false, host)
    | none => (true, host.setFile path (some []))
  | .append path byte, host => ((), host.setFile path ((host.files path).map (· ++ [byte])))
  | .read path, host => (host.files path, host)
  | .removeFile path, host => ((host.files path).isSome, host.setFile path none)
  | .openEnvelope set, host => (host.envelopes.contains set, host)
  | .createJournal sequence digest, host =>
    match host.journal (sequence, digest) with
    | some _ => (false, host)
    | none =>
      (true, { host with journal := Function.update host.journal (sequence, digest) (some .torn) })
  | .writeJournal entry, host =>
    -- into the file that was just created
    match host.journal (entry.sequence, entry.digest) with
    | some .torn => ((), { host with
        journal := Function.update host.journal (entry.sequence, entry.digest)
          (some (.entry entry)) })
    | _ => ((), host)
  | .readJournal sequence digest, host => (host.journal (sequence, digest), host)
  | .readHead, host => (host.head, host)
  | .compareAndAdvance expected next, host =>
    transact (fun host : SupervisorHost => host.compareAndAdvance expected next) host
  | .durableReceipt, host =>
    (match host.witness.state with
      | .receipt receipt => .ok receipt
      | .genesis _ => .error (.unavailable "witness has no durable receipt to reconcile"), host)

end SupervisorHost

@[reducible] def hostPorts : Ports SupervisorHost :=
  ⟨HostCall, HostCall.Answer, SupervisorHost.exec⟩

abbrev HostProg := Prog hostPorts

def ask {ε : Type} (call : HostCall) : HostProg ε call.Answer :=
  Prog.perform (P := hostPorts) call

/-! ## The archive's files -/

def fileExists : String := "File exists (os error 17)"

def notFound : String := "No such file or directory (os error 2)"

def frameHeader : Bytes := ascii "VBAO" ++ [1]

def StagedArchiveObject.path (staged : StagedArchiveObject) : ArchivePath :=
  .staging staged.descriptor.setId staged.stagingId

def ArchiveObjectDescriptor.finalPath (descriptor : ArchiveObjectDescriptor) : ArchivePath :=
  .object descriptor.setId descriptor.kind descriptor.ordinal descriptor.ciphertextDigest

def checkFrame (content : Option Bytes) (descriptor : ArchiveObjectDescriptor) :
    AppResult Unit := do
  let frame ← okOr content (.unavailable ("open staged archive object: " ++ notFound))
  refuse (frame.length < 5) (.unavailable "read staged archive header: failed to fill whole buffer")
  refuse (frame.take 5 ≠ frameHeader) (.storage "archive staging frame is malformed")
  let ciphertext := frame.drop 5
  refuse (2 ^ 64 ≤ ciphertext.length) (.storage "archive staging ciphertext length overflows")
  refuse (ciphertext.length ≠ descriptor.length.toNat ∨
    SafetyJournalDigest.of ciphertext ≠ descriptor.ciphertextDigest)
    (.storage "archive staging ciphertext differs from descriptor")

def verifyFrame (path : ArchivePath) (descriptor : ArchiveObjectDescriptor) :
    HostProg ApplicationError Unit := do
  let content ← ask (.read path)
  liftM (checkFrame content descriptor)

def checkCreated (operation : String) (created : Bool) : AppResult Unit :=
  refuse (created = false) (.unavailable (operation ++ ": " ++ fileExists))

def createNew (path : ArchivePath) (operation : String) : HostProg ApplicationError Unit := do
  let created ← ask (.createNew path)
  liftM (checkCreated operation created)

/-- `write_path`, one byte at a time, so that a crash leaves any prefix. -/
def writeAll (path : ArchivePath) : Bytes → HostProg ApplicationError Unit
  | [] => pure ()
  | byte :: bytes => do
    let _ ← ask (.append path byte)
    writeAll path bytes

def stageEncrypted (write : ArchiveObjectWrite) :
    HostProg ApplicationError StagedArchiveObject := do
  let staged : StagedArchiveObject := ⟨write.descriptor.objectId.asUuid, write.descriptor⟩
  createNew staged.path "create archive staging object"
  writeAll staged.path (frameHeader ++ write.ciphertext)
  liftM (refuse (write.ciphertext.length ≠ write.descriptor.length.toNat)
    (ApplicationError.storage "archive ciphertext source length differs from descriptor"))
  return staged

def checkRemoved (removed : Bool) : AppResult Unit :=
  refuse (removed = false) (.unavailable ("remove promoted archive staging object: " ++ notFound))

def promoteAfterCheckpoint (staged : StagedArchiveObject) : HostProg ApplicationError Unit := do
  verifyFrame staged.path staged.descriptor
  let content ← ask (.read staged.path)
  let frame ← liftM (okOr (ε := ApplicationError) content
    (.unavailable ("open staged archive object for promotion: " ++ notFound)))
  createNew staged.descriptor.finalPath "create immutable archive object"
  writeAll staged.descriptor.finalPath frame
  let removed ← ask (.removeFile staged.path)
  liftM (checkRemoved removed)

/-! ## The journal -/

def checkRecord (sequence : UInt64) (digest : SafetyJournalDigest) (file : Option JournalFile) :
    Except WitnessError SignedJournalEntry :=
  match file with
  | none => .error (.unavailable notFound)
  | some .torn => .error (.unavailable "journal record is truncated")
  | some (.entry entry) => do
    refuse (entry.sequence ≠ sequence ∨ entry.digest ≠ digest)
      (WitnessError.unavailable "journal entry path does not match signed content")
    return entry

def readExact (sequence : UInt64) (digest : SafetyJournalDigest) :
    HostProg WitnessError SignedJournalEntry := do
  let file ← ask (.readJournal sequence digest)
  liftM (checkRecord sequence digest file)

variable (entry : SignedJournalEntry)

def readPredecessor : HostProg WitnessError SignedJournalEntry := do
  liftM (refuse (entry.sequence = 0) (WitnessError.unavailable "journal entry has no predecessor"))
  readExact (entry.sequence - 1) entry.previousDigest

def checkExisting (file : Option JournalFile) : Except WitnessError Unit := do
  refuse (file ≠ some (.entry entry))
    (WitnessError.unavailable "immutable journal entry already differs")
  let _ ← checkRecord entry.sequence entry.digest file
  return ()

/-- `SafetyJournal::append`. -/
def journalAppend : HostProg WitnessError Unit := do
  liftM (unavailableFrom entry.verify)
  let created : Bool ← ask (.createJournal entry.sequence entry.digest)
  if created then
    let _ ← ask (.writeJournal entry)
    return ()
  else
    let file ← ask (.readJournal entry.sequence entry.digest)
    liftM (checkExisting entry file)

/-! ## `append_wal` -/

def witnessError : WitnessError → ApplicationError
  | .conflict => .conflict "witness head changed"
  | .unavailable message => .unavailable message
  | .invalid e => .policy e.toString

def expectedCheckpointState (head : WitnessHead) (reservation : ArchiveAppendReservation) :
    AppResult BackupArchiveStateV1 :=
  (head.state.backupArchiveState.commitCheckpoint reservation
    (.fromReservation reservation)).mapError fun e => .policy e.display

def abandonBeforeJournal {α : Type} (reservation : ArchiveAppendReservation)
    (staged : Option StagedArchiveObject) (original : ApplicationError) :
    HostProg ApplicationError α := do
  let abandoned : AppResult Unit ← ask (.abandonAppend reservation)
  liftM abandoned
  match staged with
  | none => liftM (.error original : AppResult α)
  | some staged => do
    let _ ← ask (.removeFile staged.path)
    liftM (.error original : AppResult α)

def orAbandon {α : Type} (reservation : ArchiveAppendReservation)
    (staged : Option StagedArchiveObject) (p : HostProg ApplicationError α) :
    HostProg ApplicationError α := do
  let result : AppResult α ← p.attempt
  match result with
  | .ok a => return a
  | .error e => abandonBeforeJournal reservation staged e

def journalCheckpoint (reservation : ArchiveAppendReservation) (staged : StagedArchiveObject) :
    HostProg ApplicationError (WitnessHead × WitnessAdvance) := do
  liftM (refuse (staged.descriptor ≠ reservation.object) (ApplicationError.policy
    "host staging returned an object other than the guarded reservation"))
  verifyFrame staged.path staged.descriptor
  let current : Except WitnessError WitnessHead ← ask .readHead
  let head ← liftM (current.mapError witnessError)
  let expected ← liftM (expectedCheckpointState head reservation)
  liftM (refuse (entry.state.backupArchiveState ≠ expected) (ApplicationError.policy
    "signed archive entry does not carry the exact reserved checkpoint state"))
  let advance ← liftM (safetyPolicy (head.acceptSigned entry))
  (journalAppend entry).mapError fun e => .unavailable e.display
  return (head, advance)

def commitAndPromote (reservation : ArchiveAppendReservation) (staged : StagedArchiveObject)
    (receipt : WitnessReceipt) : HostProg ApplicationError Unit := do
  let commit ← liftM (CommitArchiveCheckpoint.new reservation staged)
  let committed : AppResult Unit ← ask (.commitCheckpoint commit entry receipt)
  liftM committed
  promoteAfterCheckpoint staged

def appendReserved (command : AppendWal) (reservation : ArchiveAppendReservation) :
    HostProg ApplicationError BackupArchiveStateV1 := do
  let staged ← orAbandon reservation none do
    liftM (refuse (reservation.object ≠ command.write.descriptor)
      (ApplicationError.policy "guarded reservation differs from host archive write"))
    stageEncrypted command.write
  let (head, advance) ← orAbandon reservation (some staged)
    (journalCheckpoint command.signedEntry reservation staged)
  let advanced : Except WitnessError WitnessReceipt ← ask (.compareAndAdvance head advance)
  let receipt ← liftM (advanced.mapError witnessError)
  commitAndPromote command.signedEntry reservation staged receipt
  return command.signedEntry.state.backupArchiveState

def appendWal (command : AppendWal) : HostProg ApplicationError BackupArchiveStateV1 := do
  let reserved : AppResult ArchiveAppendReservation ←
    ask (.reserveAppend command.reservation)
  let reservation ← liftM reserved
  appendReserved command reservation

/-! ## `reconcile` -/

/-- `remove_cancelled_pending_staging`. -/
def removeCancelled : List PendingArchiveAppend → HostProg String Unit
  | [] => pure ()
  | intent :: intents => do
    let _ ← ask (.removeFile (.staging intent.setId intent.objectId.asUuid))
    removeCancelled intents

def reconcileUnjournalledPendingAppends : HostProg String Unit := do
  let current : Except WitnessError WitnessHead ← ask .readHead
  let head ← liftM (orSay WitnessError.display "witness is unavailable" current)
  let cancelled : Except String (List PendingArchiveAppend) ←
    ask (.cancelPending head.state.backupArchiveState)
  let intents ← liftM cancelled
  removeCancelled intents

def exactlyOneOf {α : Type} (candidates : List α) (refusal : String) : Except String α :=
  match candidates with
  | [a] => .ok a
  | _ => .error refusal

namespace BackupArchiveStateV1

variable (after before : BackupArchiveStateV1)

omit [Crypto] in
def setIds (archive : BackupArchiveStateV1) : List BackupSetId := archive.sets.entries.map (·.1)

omit [Crypto] in
def startedSet : Except String (BackupSetIdentity × ArchiveHead) := do
  let set ← exactlyOneOf (after.setIds.filter fun set => (before.set set).toOption.isNone)
    "backup-start reconciliation requires exactly one new set in the signed state"
  let state ← orSay BackupArchiveError.display "signed backup identity is invalid" (after.set set)
  return (state.identity, state.head)

def checkpointReservation : Except String ArchiveAppendReservation := do
  refuse (after.isExactCheckpointSuccessorOf before = false)
    "checkpoint reconciliation requires one exact signed archive successor"
  let set ← exactlyOneOf
    (after.setIds.filter fun set => after.archiveHead set ≠ before.archiveHead set)
    "checkpoint reconciliation requires exactly one changed archive set"
  let state ← orSay BackupArchiveError.display "signed checkpoint is invalid" (after.set set)
  let checkpoint ← okOr state.checkpoints.getLast? "signed checkpoint successor has no checkpoint"
  let expected ← orSay BackupArchiveError.display "signed predecessor head is invalid"
    (before.archiveHead set)
  orSay BackupArchiveError.display "signed checkpoint reservation is invalid"
    (ArchiveAppendReservation.new set expected checkpoint.object)

section

omit [Crypto]

def restoreHoldIds (archive : BackupArchiveStateV1) (set : BackupSetId) :
    Except BackupArchiveError (List RestoreHoldId) := do
  let state ← archive.set set
  return state.holds.entries.map (·.1)

def newHolds (set : BackupSetId) : Except String (List (BackupSetId × RestoreHoldId)) := do
  let old ← orSay BackupArchiveError.display
    "signed predecessor restore-hold inventory is invalid" (before.restoreHoldIds set)
  let new ← orSay BackupArchiveError.display "signed restore-hold inventory is invalid"
    (after.restoreHoldIds set)
  return (new.filter fun hold => hold ∉ old).map fun hold => (set, hold)

def acquiredHold : Except String (BackupSetId × RestoreHoldId) := do
  refuse (after.isExactHoldSuccessorOf before = false)
    "restore-hold reconciliation requires one exact signed hold successor"
  let candidates ← after.setIds.mapM (after.newHolds before)
  exactlyOneOf candidates.flatten
    "restore-hold reconciliation requires exactly one new hold identity"

def oneChangedLifecycleSet (target : BackupSetLifecycle) : Except String BackupSetId :=
  let lifecycle (archive : BackupArchiveStateV1) (set : BackupSetId) :=
    ((archive.set set).map BackupSetState.lifecycle).toOption
  match after.setIds.filter fun set =>
    lifecycle before set ≠ lifecycle after set ∧ lifecycle after set = some target with
  | [] => .error "archive lifecycle reconciliation has no changed set"
  | [set] => .ok set
  | _ => .error "archive lifecycle reconciliation has multiple changed sets"

def deletionPrepared (set : BackupSetId) : Except String ManagedBackupDeletionPrepared := do
  let state ← orSay BackupArchiveError.display "signed deletion preparation is invalid"
    (after.set set)
  let preparation ← okOr state.deletionPreparation "signed deletion preparation digest is absent"
  return ⟨set, preparation⟩

def movedSet (source target : BackupSetLifecycle) : Except String BackupSetId := do
  refuse (after.isExactLifecycleSuccessorOf before source target = false)
    "archive lifecycle reconciliation requires one exact signed successor"
  after.oneChangedLifecycleSet before target

def lifecycleTransition (event : SafetyEventKind) : Except String ArchiveLifecycleTransition :=
  match event with
  | .managedBackupDeletionPrepared => do
    refuse (after.isExactPreparedDeletionSuccessorOf before = false)
      "deletion reconciliation requires one exact signed prepared successor"
    let set ← after.oneChangedLifecycleSet before .deletionPrepared
    return .prepareDeletion (← after.deletionPrepared set)
  | .preparedArchiveKeyErasure => do
    refuse (after.isExactKeyErasurePreparedSuccessorOf before = false)
      "archive key-erasure reconciliation requires one exact signed intent successor"
    let preparation (archive : BackupArchiveStateV1) (set : BackupSetId) :=
      ((archive.set set).map BackupSetState.keyErasurePreparation).toOption
    let set ← exactlyOneOf
      (after.setIds.filter fun set => preparation before set ≠ preparation after set)
      "archive key-erasure reconciliation requires exactly one changed set"
    let state ← orSay BackupArchiveError.display "signed key-erasure preparation is invalid"
      (after.set set)
    let digest ← okOr state.keyErasurePreparation
      "signed key-erasure preparation digest is absent"
    return .prepareArchiveKeyErasure ⟨set, digest⟩
  | .archiveKeyErased => do
    let set ← after.movedSet before .deletionPrepared .archiveKeyErased
    return .recordArchiveKeyErased (← after.deletionPrepared set)
  | .archiveSealingStarted => do
    return .beginSealing (← after.movedSet before .streaming .sealing)
  | .archiveSealed => do return .commitSealed (← after.movedSet before .sealing .sealed)
  | .managedBackupDeleted => do
    return .finalizeDeleted (← after.movedSet before .archiveKeyErased .deleted)
  | _ => .error "event is not an archive lifecycle successor"

end

end BackupArchiveStateV1

variable (before after : WitnessStateV1)

def terminalTransaction : Except String SafetyTransaction := do
  let attempt ← okOr before.restoreAttemptProgress
    "terminal reconciliation has no restore attempt"
  let ended ← okOr after.restoreAttemptProgress
    "terminal reconciliation has no signed restore attempt"
  let terminal ← okOr ended.terminalReceipt "terminal reconciliation has no terminal receipt"
  refuse (attempt.recordTerminalReceipt terminal ≠ .ok ended)
    "terminal reconciliation requires one exact terminal successor"
  match terminal.releaseReason with
  | .targetInitializationComplete receipt => return .targetInitialized attempt receipt
  | .sourceResumePrepared receipt => return .sourceResumePrepared attempt receipt
  | .refusedTargetDestroyed _ | .salvageInstallationCompleted _ =>
    .error "terminal reconciliation refuses a release reason outside P05-C"

def freezeTransaction : Except String SafetyTransaction := do
  let attempt ← okOr before.restoreAttemptProgress
    "signed freeze predecessor has no restore attempt"
  let frozen ← okOr after.restoreAttemptProgress "signed source freeze has no restore attempt"
  let freeze ← okOr frozen.sourceFreeze "signed source freeze has no freeze point"
  refuse (attempt.recordSourceFreeze freeze ≠ .ok frozen)
    "source-freeze reconciliation requires one exact frozen successor"
  return .sourceFreeze attempt freeze

def preparedTransaction : Except String SafetyTransaction := do
  let attempt ← okOr after.restoreAttemptProgress "signed restore preparation has no attempt"
  refuse (attempt.sourceFreeze.isSome = true ∨ attempt.terminalReceipt.isSome = true ∨
    before.restoreAttemptProgress.isSome = true)
    "restore preparation reconciliation requires one exact prepared successor"
  return .prepareAttempt attempt

def predecessorState : HostProg String WitnessStateV1 := do
  let predecessor ← (readPredecessor entry).mapError fun e =>
    "journal predecessor is unavailable: " ++ e.display
  return predecessor.state

def replayedCheckpoint (before after : BackupArchiveStateV1) :
    HostProg String (SafetyTransaction × Option StagedArchiveObject) := do
  let reservation ← liftM (after.checkpointReservation before)
  let staged : StagedArchiveObject := ⟨reservation.object.objectId.asUuid, reservation.object⟩
  (verifyFrame staged.path staged.descriptor).mapError fun e =>
    "exact staged checkpoint is unavailable: " ++ e.display
  let command ← liftM (orSay ApplicationError.display "signed checkpoint staging is invalid"
    (CommitArchiveCheckpoint.new reservation staged))
  return (.commitCheckpoint command, some staged)

def replayedStart (before after : BackupArchiveStateV1) :
    HostProg String (SafetyTransaction × Option StagedArchiveObject) := do
  let (identity, head) ← liftM (after.startedSet before)
  let opened : Bool ← ask (.openEnvelope identity.setId)
  liftM (refuse (opened = false) ("archive key envelope is unavailable: " ++
    (ApplicationError.unavailable ("read archive key envelope: " ++ notFound)).display))
  return (.startSet identity head, none)

def planReplay (binding : SafetyBootstrapBinding) (entry : SignedJournalEntry) :
    HostProg String (SafetyTransaction × Option StagedArchiveObject) :=
  let after := entry.state
  match entry.eventKind with
  | .installationInitialized => return (.initializeSafety binding, none)
  | .generationRegistered => return (.registerGeneration, none)
  | .backupSetStarted => do
    let before ← predecessorState entry
    replayedStart before.backupArchiveState after.backupArchiveState
  | .archiveCheckpointCommitted => do
    let before ← predecessorState entry
    replayedCheckpoint before.backupArchiveState after.backupArchiveState
  | .archiveRestoreHoldAcquired => do
    let before ← predecessorState entry
    let (set, hold) ← liftM (after.backupArchiveState.acquiredHold before.backupArchiveState)
    return (.acquireHold set hold, none)
  | .archiveSealingStarted | .archiveSealed | .managedBackupDeletionPrepared
  | .preparedArchiveKeyErasure | .archiveKeyErased | .managedBackupDeleted => do
    let before ← predecessorState entry
    let transition ← liftM
      (after.backupArchiveState.lifecycleTransition before.backupArchiveState entry.eventKind)
    return (.lifecycle transition, none)
  | .restoreAttemptPrepared => do
    let before ← predecessorState entry
    return (← liftM (preparedTransaction before after), none)
  | .sourceFreezeRecorded => do
    let before ← predecessorState entry
    return (← liftM (freezeTransaction before after), none)
  | .restoreTerminalRecorded => do
    let before ← predecessorState entry
    return (← liftM (terminalTransaction before after), none)
  | .targetActivationPlanned | .targetActivating => return (.nothing, none)

/-- The frame of a replayed checkpoint goes to its final path. -/
def promoteReplayed (promotion : Option StagedArchiveObject) : HostProg String Unit :=
  match promotion with
  | none => return ()
  | some staged => (promoteAfterCheckpoint staged).mapError fun e =>
    "exact checkpoint promotion failed: " ++ e.display

def reconcileWitnessed (binding : SafetyBootstrapBinding) : HostProg String Unit := do
  let durable : Except WitnessError WitnessReceipt ← ask .durableReceipt
  let receipt ← liftM (orSay WitnessError.display "witness is unavailable" durable)
  let entry ← (readExact receipt.sequence receipt.journalDigest).mapError fun e =>
    "journal is unavailable: " ++ e.display
  let (transaction, promotion) ← planReplay binding entry
  let replayed : Except String Unit ← ask (.replay transaction entry receipt)
  liftM replayed
  promoteReplayed promotion

def reconcile (binding : SafetyBootstrapBinding) : HostProg String Unit := do
  reconcileUnjournalledPendingAppends
  reconcileWitnessed binding

end

end Vestrace.Installation
