import Vestrace.Installation.ArchiveCodec
import Vestrace.Installation.Cutover

/-!
# The witness of the safety journal

`installation_safety.rs`: the witnessed state, the signed journal entries that move it,
the head that accepts them and the receipt from which the next head is opened.
-/

namespace Vestrace.Installation

open Lib RestoreAttemptProgress Option

inductive InstallationSafetyError where
  | malformed
  | invalidSignature
  | identityMismatch
  | sequenceConflict
  | invalidStateTransition
  deriving DecidableEq, Repr

structure FingerprintKeyContinuityProof where
  bits : BitVec 256
  deriving DecidableEq

structure WitnessPublicKey where
  bits : BitVec 256
  deriving DecidableEq

/-- The separately pinned key used to verify journal entries. -/
structure JournalPublicKey where
  bits : BitVec 256
  deriving DecidableEq

/-! ## The witnessed state -/

/-- The lineage is there the sixteen bytes of each id, one after another. A state is built with
one generation, grows by one, or is decoded from a positive number of them. -/
@[ext] structure WitnessStateV1 where
  generationLineageState : List DatabaseGenerationId
  backupArchiveState : BackupArchiveStateV1
  targetActivationPlan : Option TargetActivationPlan
  restoreAttemptProgress : Option RestoreAttemptProgress
  targetActivationStarted : Option SafetyJournalDigest
  lineage_ne : generationLineageState ≠ []
  deriving DecidableEq

namespace WitnessStateV1

def genesis (generation : DatabaseGenerationId) : WitnessStateV1 where
  generationLineageState := [generation]
  backupArchiveState := .empty
  targetActivationPlan := none
  restoreAttemptProgress := none
  targetActivationStarted := none
  lineage_ne := List.cons_ne_nil _ _

variable (s : WitnessStateV1)

def canonicalBytes : Bytes :=
  field (s.generationLineageState.flatMap SafetyId.asBytes) ++
    field s.backupArchiveState.canonicalBytes ++ field [] ++
    optionalField (s.targetActivationPlan.map TargetActivationPlan.canonicalBytes) ++
    optionalField (s.restoreAttemptProgress.map RestoreAttemptProgress.canonicalBytes) ++
    -- an absent marker is left out, so older states keep their signed encoding
    (match s.targetActivationStarted with
      | some digest => optionalField (some digest.asBytes)
      | none => [])

def restoreTerminalReceipt : Option RestoreTerminalReceipt :=
  s.restoreAttemptProgress.bind (·.terminalReceipt)

def registerGeneration (next : DatabaseGenerationId) :
    Except InstallationSafetyError WitnessStateV1 := do
  refuse (s.generationLineageState.getLast? = none ∨
    s.generationLineageState.getLast? = some next) .invalidStateTransition
  return { s with
    generationLineageState := s.generationLineageState ++ [next]
    lineage_ne := List.append_ne_nil_of_right_ne_nil _ (List.cons_ne_nil _ _) }

def withBackupArchiveState (archive : BackupArchiveStateV1) : WitnessStateV1 :=
  { s with backupArchiveState := archive }

/-- Pins exactly one activation plan, for the attempt that is frozen and has not ended. -/
def withTargetActivationPlan (plan : TargetActivationPlan) :
    Except InstallationSafetyError WitnessStateV1 := do
  let progress ← okOr s.restoreAttemptProgress .invalidStateTransition
  refuse (s.targetActivationPlan ≠ none ∨ progress.terminalReceipt ≠ none ∨
    progress.sourceFreeze ≠ some plan.sourceFreeze ∨ progress.attemptId ≠ plan.attemptId ∨
    progress.targetId ≠ plan.targetId ∨ progress.backupSetId ≠ plan.backupSetId ∨
    progress.sourceGenerationId ≠ plan.sourceGenerationId ∨
    progress.targetGenerationId ≠ plan.targetGenerationId) .invalidStateTransition
  return { s with targetActivationPlan := some plan }

def withRestoreAttemptProgress (progress : RestoreAttemptProgress) :
    Except InstallationSafetyError WitnessStateV1 := do
  refuse (s.restoreAttemptProgress ≠ none ∨ progress.sourceFreeze ≠ none ∨
    progress.terminalReceipt ≠ none) .invalidStateTransition
  return { s with restoreAttemptProgress := some progress }

def withSourceFreeze (freeze : SourceFreezePoint) :
    Except InstallationSafetyError WitnessStateV1 := do
  let attempt ← okOr s.restoreAttemptProgress .invalidStateTransition
  let progress ← (attempt.recordSourceFreeze freeze).mapError fun _ => .invalidStateTransition
  return { s with restoreAttemptProgress := some progress }

def withRestoreTerminalReceipt (receipt : RestoreTerminalReceipt) :
    Except InstallationSafetyError WitnessStateV1 := do
  let attempt ← okOr s.restoreAttemptProgress .invalidStateTransition
  let progress ← (attempt.recordTerminalReceipt receipt).mapError fun _ => .invalidStateTransition
  return { s with restoreAttemptProgress := some progress }

/-- Marks the only activation of the plan, once its attempt has ended well. -/
def withTargetActivationStarted [Crypto] (s : WitnessStateV1) :
    Except InstallationSafetyError WitnessStateV1 := do
  let plan ← okOr s.targetActivationPlan .invalidStateTransition
  let terminal ← okOr s.restoreTerminalReceipt .invalidStateTransition
  refuse (s.targetActivationStarted ≠ none ∨ terminal.attemptId ≠ plan.attemptId ∨
    terminal.targetId ≠ plan.targetId ∨
    terminal.releaseReason.isTargetInitializationComplete = false) .invalidStateTransition
  return { s with targetActivationStarted := some plan.digest }

variable (next previous : WitnessStateV1)

def isExactTargetActivationPlanSuccessorOf : Bool :=
  next.generationLineageState = previous.generationLineageState ∧
    next.backupArchiveState = previous.backupArchiveState ∧
    previous.targetActivationPlan.isNone ∧ next.targetActivationPlan.isSome ∧
    next.restoreAttemptProgress = previous.restoreAttemptProgress ∧
    next.targetActivationStarted = previous.targetActivationStarted

/-- What the three predicates about the attempt leave alone. -/
def sameOutsideAttempt : Bool :=
  next.generationLineageState = previous.generationLineageState ∧
    next.backupArchiveState = previous.backupArchiveState ∧
    next.targetActivationPlan = previous.targetActivationPlan ∧
    next.targetActivationStarted = previous.targetActivationStarted

def isExactRestoreTerminalSuccessorOf : Bool :=
  next.sameOutsideAttempt previous &&
    match previous.restoreAttemptProgress, next.restoreAttemptProgress with
    | some before, some after =>
      match before.terminalReceipt, after.terminalReceipt with
      | none, some receipt => before.recordTerminalReceipt receipt = .ok after
      | _, _ => false
    | _, _ => false

def isExactRestoreAttemptPreparedSuccessorOf : Bool :=
  next.sameOutsideAttempt previous && previous.restoreAttemptProgress.isNone &&
    next.restoreAttemptProgress.any fun progress =>
      progress.sourceFreeze.isNone && progress.terminalReceipt.isNone

def isExactSourceFreezeSuccessorOf : Bool :=
  next.sameOutsideAttempt previous &&
    match previous.restoreAttemptProgress, next.restoreAttemptProgress with
    | some before, some after =>
      match before.sourceFreeze, after.sourceFreeze, after.terminalReceipt with
      | none, some freeze, none => before.recordSourceFreeze freeze = .ok after
      | _, _, _ => false
    | _, _ => false

def isExactTargetActivatingSuccessorOf [Crypto] (next previous : WitnessStateV1) : Bool :=
  next.generationLineageState = previous.generationLineageState ∧
    next.backupArchiveState = previous.backupArchiveState ∧
    next.targetActivationPlan = previous.targetActivationPlan ∧
    next.restoreAttemptProgress = previous.restoreAttemptProgress ∧
    previous.targetActivationStarted.isNone ∧
    next.targetActivationStarted = previous.targetActivationPlan.map TargetActivationPlan.digest

end WitnessStateV1

open WitnessStateV1

/-! ## Journal entries -/

inductive SafetyEventKind where
  | installationInitialized
  | generationRegistered
  | archiveCheckpointCommitted
  | backupSetStarted
  | archiveRestoreHoldAcquired
  | archiveSealingStarted
  | archiveSealed
  | managedBackupDeletionPrepared
  | preparedArchiveKeyErasure
  | archiveKeyErased
  | managedBackupDeleted
  | targetActivationPlanned
  | restoreTerminalRecorded
  | restoreAttemptPrepared
  | sourceFreezeRecorded
  | targetActivating
  deriving DecidableEq, Repr

namespace SafetyEventKind

def code : SafetyEventKind → UInt8
  | installationInitialized => 0
  | generationRegistered => 1
  | archiveCheckpointCommitted => 2
  | backupSetStarted => 3
  | archiveRestoreHoldAcquired => 4
  | archiveSealingStarted => 5
  | archiveSealed => 6
  | managedBackupDeletionPrepared => 7
  | preparedArchiveKeyErasure => 8
  | archiveKeyErased => 9
  | managedBackupDeleted => 10
  | targetActivationPlanned => 11
  | restoreTerminalRecorded => 12
  | restoreAttemptPrepared => 13
  | sourceFreezeRecorded => 14
  | targetActivating => 15

def isArchive : SafetyEventKind → Bool
  | archiveCheckpointCommitted | backupSetStarted | archiveRestoreHoldAcquired
  | archiveSealingStarted | archiveSealed | managedBackupDeletionPrepared
  | preparedArchiveKeyErasure | archiveKeyErased | managedBackupDeleted => true
  | _ => false

end SafetyEventKind

structure JournalEntryToSign where
  installationId : InstallationId
  fingerprintKeyId : FingerprintKeyId
  continuityProof : FingerprintKeyContinuityProof
  requestId : RequestId
  sequence : UInt64
  previousDigest : SafetyJournalDigest
  eventKind : SafetyEventKind
  generationId : DatabaseGenerationId
  activationEpoch : UInt64
  state : WitnessStateV1
  deriving DecidableEq

structure SignedJournalEntry extends JournalEntryToSign where
  signerPublicKey : JournalPublicKey
  signature : BitVec 512
  deriving DecidableEq

namespace SignedJournalEntry

def canonicalBytes (entry : SignedJournalEntry) : Bytes :=
  field (ascii "vestrace-installation-safety-journal-v1") ++ field entry.installationId.asBytes ++
    field entry.fingerprintKeyId.asBytes ++ field (beBytes 32 entry.continuityProof.bits.toNat) ++
    field (beBytes 16 entry.requestId.asUuid.toNat) ++ beBytes 8 entry.sequence.toNat ++
    field entry.previousDigest.asBytes ++ [entry.eventKind.code] ++
    field entry.generationId.asBytes ++ beBytes 8 entry.activationEpoch.toNat ++
    field entry.state.canonicalBytes ++ field (beBytes 32 entry.signerPublicKey.bits.toNat)

variable [Crypto]

def sign (signer : Crypto.Ed25519KeyPair) (input : JournalEntryToSign) : SignedJournalEntry :=
  let entry : SignedJournalEntry := ⟨input, ⟨Crypto.publicKey signer⟩, 0⟩
  { entry with signature := Crypto.sign signer entry.canonicalBytes }

def verify (entry : SignedJournalEntry) : Except InstallationSafetyError Unit :=
  refuse (Crypto.verify entry.signerPublicKey.bits entry.canonicalBytes entry.signature = false)
    .invalidSignature

def digest (entry : SignedJournalEntry) : SafetyJournalDigest := .of entry.canonicalBytes

end SignedJournalEntry

/-! ## The head, and what it accepts -/

structure WitnessHead where
  installationId : InstallationId
  fingerprintKeyId : FingerprintKeyId
  continuityProof : FingerprintKeyContinuityProof
  sequence : UInt64
  chainDigest : SafetyJournalDigest
  activeGenerationId : DatabaseGenerationId
  activationEpoch : UInt64
  state : WitnessStateV1
  journalPublicKey : JournalPublicKey
  deriving DecidableEq

structure WitnessAdvance where
  eventKind : SafetyEventKind
  generationId : DatabaseGenerationId
  activationEpoch : UInt64
  signedEntry : SignedJournalEntry
  nextState : WitnessStateV1

def exactArchiveLifecycleTransition (head : WitnessHead) (entry : SignedJournalEntry)
    (source target : BackupSetLifecycle) : Bool :=
  entry.generationId = head.activeGenerationId ∧ entry.activationEpoch = head.activationEpoch ∧
    entry.state.backupArchiveState.isExactLifecycleSuccessorOf head.state.backupArchiveState
      source target

namespace WitnessHead

variable [Crypto]

def genesis (installationId : InstallationId) (fingerprintKeyId : FingerprintKeyId)
    (continuityProof : FingerprintKeyContinuityProof) (generationId : DatabaseGenerationId)
    (journalPublicKey : JournalPublicKey) : WitnessHead where
  installationId := installationId
  fingerprintKeyId := fingerprintKeyId
  continuityProof := continuityProof
  sequence := 0
  chainDigest := .of (ascii "vestrace-installation-safety-genesis-v1")
  activeGenerationId := generationId
  activationEpoch := 0
  state := .genesis generationId
  journalPublicKey := journalPublicKey

variable (head : WitnessHead) (entry : SignedJournalEntry)

def keepsGeneration (exact : Bool) : Except InstallationSafetyError Unit :=
  refuse (entry.generationId ≠ head.activeGenerationId ∨
    entry.activationEpoch ≠ head.activationEpoch ∨ exact = false) .invalidStateTransition

/-- The third guard of a registration: a pinned plan must have been carried out. -/
def checkActivation : Except InstallationSafetyError Unit :=
  match head.state.targetActivationPlan with
  | none => .ok ()
  | some plan =>
    refuse (¬ (head.state.restoreTerminalReceipt.any fun receipt =>
        receipt.attemptId = plan.attemptId ∧ receipt.targetId = plan.targetId ∧
          receipt.releaseReason.isTargetInitializationComplete) ∨
      entry.generationId ≠ plan.targetGenerationId ∨
      entry.state.targetActivationPlan ≠ some plan ∨
      head.state.targetActivationStarted ≠ some plan.digest) .invalidStateTransition

def checkRegistration : Except InstallationSafetyError Unit := do
  refuse (entry.generationId = head.activeGenerationId) .invalidStateTransition
  let epoch ← okOr (checkedAdd head.activationEpoch 1) .invalidStateTransition
  refuse (entry.activationEpoch ≠ epoch) .invalidStateTransition
  let state ← head.state.registerGeneration entry.generationId
  refuse (entry.state ≠ state) .invalidStateTransition
  refuse ((head.state.restoreAttemptProgress.any fun attempt =>
      attempt.sourceFreeze.isSome && attempt.terminalReceipt.isNone) ∧
    head.state.targetActivationPlan = none) .invalidStateTransition
  head.checkActivation entry

/-- The `match` of `accept_signed` on the event kind. An arm without a guard left to refuse lets
the entry through. -/
def checkTransition : Except InstallationSafetyError Unit :=
  let next := entry.state.backupArchiveState
  let previous := head.state.backupArchiveState
  match entry.eventKind with
  | .installationInitialized =>
    refuse (entry.state ≠ head.state ∨ entry.generationId ≠ head.activeGenerationId ∨
      entry.activationEpoch ≠ head.activationEpoch) .invalidStateTransition
  | .generationRegistered => head.checkRegistration entry
  | .archiveCheckpointCommitted =>
    head.keepsGeneration entry (next.isExactCheckpointSuccessorOf previous)
  | .backupSetStarted => head.keepsGeneration entry (next.isExactStartedSuccessorOf previous)
  | .archiveRestoreHoldAcquired =>
    head.keepsGeneration entry (next.isExactHoldSuccessorOf previous)
  | .archiveSealingStarted =>
    refuse (exactArchiveLifecycleTransition head entry .streaming .sealing = false)
      .invalidStateTransition
  | .archiveSealed =>
    refuse (exactArchiveLifecycleTransition head entry .sealing .sealed = false)
      .invalidStateTransition
  | .managedBackupDeletionPrepared =>
    head.keepsGeneration entry (next.isExactPreparedDeletionSuccessorOf previous)
  | .preparedArchiveKeyErasure =>
    head.keepsGeneration entry (next.isExactKeyErasurePreparedSuccessorOf previous)
  | .archiveKeyErased =>
    refuse (exactArchiveLifecycleTransition head entry .deletionPrepared .archiveKeyErased = false)
      .invalidStateTransition
  | .managedBackupDeleted =>
    refuse (exactArchiveLifecycleTransition head entry .archiveKeyErased .deleted = false)
      .invalidStateTransition
  | .targetActivationPlanned =>
    head.keepsGeneration entry (entry.state.isExactTargetActivationPlanSuccessorOf head.state)
  | .restoreTerminalRecorded =>
    head.keepsGeneration entry (entry.state.isExactRestoreTerminalSuccessorOf head.state)
  | .restoreAttemptPrepared =>
    head.keepsGeneration entry (entry.state.isExactRestoreAttemptPreparedSuccessorOf head.state)
  | .sourceFreezeRecorded =>
    head.keepsGeneration entry (entry.state.isExactSourceFreezeSuccessorOf head.state)
  | .targetActivating =>
    head.keepsGeneration entry (entry.state.isExactTargetActivatingSuccessorOf head.state)

def acceptSigned : Except InstallationSafetyError WitnessAdvance := do
  entry.verify
  let sequence ← okOr (checkedAdd head.sequence 1) .sequenceConflict
  refuse (entry.sequence ≠ sequence ∨ entry.installationId ≠ head.installationId ∨
    entry.fingerprintKeyId ≠ head.fingerprintKeyId ∨
    entry.continuityProof ≠ head.continuityProof ∨ entry.previousDigest ≠ head.chainDigest ∨
    entry.signerPublicKey ≠ head.journalPublicKey) .identityMismatch
  head.checkTransition entry
  return ⟨entry.eventKind, entry.generationId, entry.activationEpoch, entry, entry.state⟩

end WitnessHead

open WitnessHead

/-! ## Receipts -/

structure WitnessReceipt where
  installationId : InstallationId
  fingerprintKeyId : FingerprintKeyId
  continuityProof : FingerprintKeyContinuityProof
  sequence : UInt64
  journalDigest : SafetyJournalDigest
  generationId : DatabaseGenerationId
  activationEpoch : UInt64
  state : WitnessStateV1
  witnessPublicKey : WitnessPublicKey
  signature : BitVec 512

/-- The values bound exactly once by the bootstrap record. -/
structure SafetyBootstrapBinding where
  installationId : InstallationId
  fingerprintKeyId : FingerprintKeyId
  continuityProof : FingerprintKeyContinuityProof
  journalPublicKey : JournalPublicKey
  witnessPublicKey : WitnessPublicKey
  deriving DecidableEq

namespace WitnessReceipt

def canonicalBytes (receipt : WitnessReceipt) : Bytes :=
  field (ascii "vestrace-installation-witness-receipt-v1") ++
    field receipt.installationId.asBytes ++ field receipt.fingerprintKeyId.asBytes ++
    field (beBytes 32 receipt.continuityProof.bits.toNat) ++ beBytes 8 receipt.sequence.toNat ++
    field receipt.journalDigest.asBytes ++ field receipt.generationId.asBytes ++
    beBytes 8 receipt.activationEpoch.toNat ++ field receipt.state.canonicalBytes ++
    field (beBytes 32 receipt.witnessPublicKey.bits.toNat)

variable [Crypto]

def sign (witness : Crypto.Ed25519KeyPair) (head : WitnessHead) (advance : WitnessAdvance) :
    Except InstallationSafetyError WitnessReceipt := do
  let sequence ← okOr (checkedAdd head.sequence 1) .sequenceConflict
  refuse (advance.signedEntry.sequence ≠ sequence) .sequenceConflict
  let receipt : WitnessReceipt :=
    { installationId := head.installationId
      fingerprintKeyId := head.fingerprintKeyId
      continuityProof := head.continuityProof
      sequence := advance.signedEntry.sequence
      journalDigest := advance.signedEntry.digest
      generationId := advance.generationId
      activationEpoch := advance.activationEpoch
      state := advance.nextState
      witnessPublicKey := ⟨Crypto.publicKey witness⟩
      signature := 0 }
  return { receipt with signature := Crypto.sign witness receipt.canonicalBytes }

def verifyAgainst (receipt : WitnessReceipt) (expected : WitnessPublicKey) :
    Except InstallationSafetyError Unit := do
  refuse (receipt.witnessPublicKey ≠ expected) .identityMismatch
  refuse (Crypto.verify expected.bits receipt.canonicalBytes receipt.signature = false)
    .invalidSignature

end WitnessReceipt

namespace WitnessHead

variable [Crypto]

def fromDurableReceipt (binding : SafetyBootstrapBinding) (receipt : WitnessReceipt) :
    Except InstallationSafetyError WitnessHead := do
  receipt.verifyAgainst binding.witnessPublicKey
  refuse (receipt.sequence = 0 ∨ receipt.installationId ≠ binding.installationId ∨
    receipt.fingerprintKeyId ≠ binding.fingerprintKeyId ∨
    receipt.continuityProof ≠ binding.continuityProof) .identityMismatch
  return {
    installationId := receipt.installationId
    fingerprintKeyId := receipt.fingerprintKeyId
    continuityProof := receipt.continuityProof
    sequence := receipt.sequence
    chainDigest := receipt.journalDigest
    activeGenerationId := receipt.generationId
    activationEpoch := receipt.activationEpoch
    state := receipt.state
    journalPublicKey := binding.journalPublicKey }

def advance (binding : SafetyBootstrapBinding) (witness : Crypto.Ed25519KeyPair)
    (head : WitnessHead) (entry : SignedJournalEntry) :
    Except InstallationSafetyError WitnessHead := do
  let advance ← head.acceptSigned entry
  let receipt ← WitnessReceipt.sign witness head advance
  fromDurableReceipt binding receipt

end WitnessHead

/-! ## What each builder and each predicate lets through -/

namespace WitnessStateV1

variable {s next : WitnessStateV1}

theorem registerGeneration_eq_ok {generation : DatabaseGenerationId}
    (h : s.registerGeneration generation = .ok next) :
    next.generationLineageState = s.generationLineageState ++ [generation] ∧
      next.backupArchiveState = s.backupArchiveState ∧
      next.targetActivationPlan = s.targetActivationPlan ∧
      next.restoreAttemptProgress = s.restoreAttemptProgress ∧
      next.targetActivationStarted = s.targetActivationStarted := by
  replace h := of_unit_bind h
  obtain rfl := pure_eq_ok.mp h
  exact ⟨rfl, rfl, rfl, rfl, rfl⟩

theorem withTargetActivationPlan_eq_ok {plan : TargetActivationPlan}
    (h : s.withTargetActivationPlan plan = .ok next) :
    ∃ progress, s.restoreAttemptProgress = some progress ∧ s.targetActivationPlan = none ∧
      progress.terminalReceipt = none ∧ progress.Matches plan ∧
      next = { s with targetActivationPlan := some plan } := by
  obtain ⟨progress, hprogress, h⟩ := bind_eq_ok.mp h
  obtain ⟨hguard, h⟩ := unit_bind_eq_ok.mp h
  simp only [refuse_eq_ok, not_or, not_not] at hguard
  obtain ⟨hplan, hterminal, hfreeze, hattempt, htarget, hset, hsource, hgeneration⟩ := hguard
  exact ⟨progress, okOr_eq_ok.mp hprogress, hplan, hterminal,
    ⟨hattempt, htarget, hset, hsource, hgeneration, hfreeze⟩, (pure_eq_ok.mp h).symm⟩

theorem withRestoreAttemptProgress_eq_ok {progress : RestoreAttemptProgress}
    : s.withRestoreAttemptProgress progress = .ok next ↔
      s.restoreAttemptProgress = none ∧ progress.sourceFreeze = none ∧
        progress.terminalReceipt = none ∧
        next = { s with restoreAttemptProgress := some progress } := by
  simp only [withRestoreAttemptProgress, unit_bind_eq_ok, refuse_eq_ok, not_or, not_not,
    pure_eq_ok, and_assoc, eq_comm (a := next)]

theorem withSourceFreeze_eq_ok {freeze : SourceFreezePoint} :
    s.withSourceFreeze freeze = .ok next ↔
      ∃ before after, s.restoreAttemptProgress = some before ∧
        before.recordSourceFreeze freeze = .ok after ∧
        next = { s with restoreAttemptProgress := some after } := by
  simp only [withSourceFreeze, bind_eq_ok, okOr_eq_ok, mapError_eq_ok, pure_eq_ok,
    eq_comm (a := next), exists_and_left]

theorem withRestoreTerminalReceipt_eq_ok {receipt : RestoreTerminalReceipt}
    : s.withRestoreTerminalReceipt receipt = .ok next ↔
      ∃ before after, s.restoreAttemptProgress = some before ∧
        before.recordTerminalReceipt receipt = .ok after ∧
        next = { s with restoreAttemptProgress := some after } := by
  simp only [withRestoreTerminalReceipt, bind_eq_ok, okOr_eq_ok, mapError_eq_ok, pure_eq_ok,
    eq_comm (a := next), exists_and_left]

theorem withTargetActivationStarted_eq_ok [Crypto] (h : s.withTargetActivationStarted = .ok next) :
    ∃ plan receipt, s.targetActivationPlan = some plan ∧
      s.restoreTerminalReceipt = some receipt ∧ s.targetActivationStarted = none ∧
      receipt.releaseReason.isTargetInitializationComplete = true ∧
      next = { s with targetActivationStarted := some plan.digest } := by
  obtain ⟨plan, hplan, h⟩ := bind_eq_ok.mp h
  obtain ⟨receipt, hreceipt, h⟩ := bind_eq_ok.mp h
  obtain ⟨hguard, h⟩ := unit_bind_eq_ok.mp h
  simp only [refuse_eq_ok, not_or, not_not, Bool.not_eq_false] at hguard
  exact ⟨plan, receipt, okOr_eq_ok.mp hplan, okOr_eq_ok.mp hreceipt, hguard.1, hguard.2.2.2,
    (pure_eq_ok.mp h).symm⟩

theorem sameOutsideAttempt_iff :
    next.sameOutsideAttempt s = true ↔
      next = { s with restoreAttemptProgress := next.restoreAttemptProgress } := by
  simp only [sameOutsideAttempt, decide_eq_true_eq]
  constructor
  · intro h
    exact WitnessStateV1.ext h.1 h.2.1 h.2.2.1 rfl h.2.2.2
  · intro h
    rw [h]
    exact ⟨rfl, rfl, rfl, rfl⟩

theorem isExactRestoreAttemptPreparedSuccessorOf_iff :
    next.isExactRestoreAttemptPreparedSuccessorOf s = true ↔
      ∃ progress, s.withRestoreAttemptProgress progress = .ok next := by
  simp only [isExactRestoreAttemptPreparedSuccessorOf, Bool.and_eq_true, sameOutsideAttempt_iff,
    isNone_iff_eq_none, any_eq_true, withRestoreAttemptProgress_eq_ok]
  constructor
  · intro h
    obtain ⟨⟨hsame, hnone⟩, progress, hprogress, hfreeze, hterminal⟩ := h
    rw [hprogress] at hsame
    exact ⟨progress, hnone, hfreeze, hterminal, hsame⟩
  · intro h
    obtain ⟨progress, hnone, hfreeze, hterminal, rfl⟩ := h
    exact ⟨⟨rfl, hnone⟩, progress, rfl, hfreeze, hterminal⟩

theorem isExactSourceFreezeSuccessorOf_iff :
    next.isExactSourceFreezeSuccessorOf s = true ↔
      ∃ freeze, s.withSourceFreeze freeze = .ok next := by
  simp only [isExactSourceFreezeSuccessorOf, Bool.and_eq_true, sameOutsideAttempt_iff,
    withSourceFreeze_eq_ok]
  constructor
  · intro h
    obtain ⟨hsame, h⟩ := h
    split at h
    · next before after hbefore hafter =>
      split at h
      · next freeze _ _ _ =>
        rw [hafter] at hsame
        exact ⟨freeze, before, after, hbefore, of_decide_eq_true h, hsame⟩
      · cases h
    · cases h
  · intro h
    obtain ⟨freeze, before, after, hbefore, hrecord, rfl⟩ := h
    obtain ⟨hfree, hfrozen, hterminal, -⟩ :=
      recordSourceFreeze_eq_ok hrecord
    -- what was not frozen has not ended, and freezing does not end it
    rw [terminalReceipt_eq_none hfree] at hterminal
    simp [hbefore, hfree, hfrozen, hterminal, hrecord]

theorem isExactRestoreTerminalSuccessorOf_iff :
    next.isExactRestoreTerminalSuccessorOf s = true ↔
      ∃ receipt, s.withRestoreTerminalReceipt receipt = .ok next := by
  simp only [isExactRestoreTerminalSuccessorOf, Bool.and_eq_true, sameOutsideAttempt_iff,
    withRestoreTerminalReceipt_eq_ok]
  constructor
  · intro h
    obtain ⟨hsame, h⟩ := h
    split at h
    · next before after hbefore hafter =>
      split at h
      · next receipt _ _ =>
        rw [hafter] at hsame
        exact ⟨receipt, before, after, hbefore, of_decide_eq_true h, hsame⟩
      · cases h
    · cases h
  · intro h
    obtain ⟨receipt, before, after, hbefore, hrecord, rfl⟩ := h
    obtain ⟨hopen, hended, -⟩ := recordTerminalReceipt_eq_ok hrecord
    simp [hbefore, hopen, hended, hrecord]

end WitnessStateV1

/-! ## What the head lets through -/

def WitnessHead.SameGeneration (head : WitnessHead) (entry : SignedJournalEntry) : Prop :=
  entry.generationId = head.activeGenerationId ∧ entry.activationEpoch = head.activationEpoch

section

variable [Crypto]

def archiveSuccessor (kind : SafetyEventKind) (next previous : BackupArchiveStateV1) : Bool :=
  match kind with
  | .archiveCheckpointCommitted => next.isExactCheckpointSuccessorOf previous
  | .backupSetStarted => next.isExactStartedSuccessorOf previous
  | .archiveRestoreHoldAcquired => next.isExactHoldSuccessorOf previous
  | .archiveSealingStarted => next.isExactLifecycleSuccessorOf previous .streaming .sealing
  | .archiveSealed => next.isExactLifecycleSuccessorOf previous .sealing .sealed
  | .managedBackupDeletionPrepared => next.isExactPreparedDeletionSuccessorOf previous
  | .preparedArchiveKeyErasure => next.isExactKeyErasurePreparedSuccessorOf previous
  | .archiveKeyErased =>
    next.isExactLifecycleSuccessorOf previous .deletionPrepared .archiveKeyErased
  | .managedBackupDeleted => next.isExactLifecycleSuccessorOf previous .archiveKeyErased .deleted
  | _ => false

structure CarriedOut (s : WitnessStateV1) (entry : SignedJournalEntry)
    (plan : TargetActivationPlan) : Prop where
  ended : ∃ receipt, s.restoreTerminalReceipt = some receipt ∧
    receipt.attemptId = plan.attemptId ∧ receipt.targetId = plan.targetId ∧
    receipt.releaseReason.isTargetInitializationComplete = true
  generation : entry.generationId = plan.targetGenerationId
  started : s.targetActivationStarted = some plan.digest

/-- Everything the witness lets through, by event. Of an archive event nothing is said
about the state outside the archive: nothing is checked there. -/
inductive Accepted (head : WitnessHead) (entry : SignedJournalEntry) : Prop where
  | initialized (kind : entry.eventKind = .installationInitialized)
      (same : head.SameGeneration entry) (state : entry.state = head.state)
  | registered (kind : entry.eventKind = .generationRegistered)
      (fresh : entry.generationId ≠ head.activeGenerationId)
      (epoch : checkedAdd head.activationEpoch 1 = some entry.activationEpoch)
      (state : head.state.registerGeneration entry.generationId = .ok entry.state)
      (settled : head.state.targetActivationPlan = none →
        ∀ attempt ∈ head.state.restoreAttemptProgress,
          attempt.sourceFreeze.isSome → attempt.terminalReceipt.isSome)
      (carried : ∀ plan, head.state.targetActivationPlan = some plan →
        CarriedOut head.state entry plan)
  | archive (kind : entry.eventKind.isArchive = true) (same : head.SameGeneration entry)
      (successor : archiveSuccessor entry.eventKind entry.state.backupArchiveState
        head.state.backupArchiveState = true)
  | planned (kind : entry.eventKind = .targetActivationPlanned)
      (same : head.SameGeneration entry)
      (successor : entry.state.isExactTargetActivationPlanSuccessorOf head.state = true)
  | ended (kind : entry.eventKind = .restoreTerminalRecorded)
      (same : head.SameGeneration entry) (receipt : RestoreTerminalReceipt)
      (state : head.state.withRestoreTerminalReceipt receipt = .ok entry.state)
  | prepared (kind : entry.eventKind = .restoreAttemptPrepared)
      (same : head.SameGeneration entry) (progress : RestoreAttemptProgress)
      (state : head.state.withRestoreAttemptProgress progress = .ok entry.state)
  | frozen (kind : entry.eventKind = .sourceFreezeRecorded)
      (same : head.SameGeneration entry) (freeze : SourceFreezePoint)
      (state : head.state.withSourceFreeze freeze = .ok entry.state)
  | activating (kind : entry.eventKind = .targetActivating)
      (same : head.SameGeneration entry)
      (successor : entry.state.isExactTargetActivatingSuccessorOf head.state = true)

variable {head next : WitnessHead} {entry : SignedJournalEntry} {advance : WitnessAdvance}
  {witness : Crypto.Ed25519KeyPair}

omit [Crypto] in
theorem keepsGeneration_eq_ok {exact : Bool} (h : head.keepsGeneration entry exact = .ok ()) :
    head.SameGeneration entry ∧ exact = true := by
  simp only [keepsGeneration, refuse_eq_ok, not_or, not_not, Bool.not_eq_false] at h
  exact ⟨⟨h.1, h.2.1⟩, h.2.2⟩

omit [Crypto] in
theorem lifecycleTransition_eq_ok {source target : BackupSetLifecycle} {e : InstallationSafetyError}
    (h : refuse (exactArchiveLifecycleTransition head entry source target = false) e = .ok ()) :
    head.SameGeneration entry ∧ entry.state.backupArchiveState.isExactLifecycleSuccessorOf
      head.state.backupArchiveState source target = true := by
  have h := Bool.not_eq_false _ ▸ refuse_eq_ok.mp h
  obtain ⟨hgeneration, hepoch, hexact⟩ := of_decide_eq_true h
  exact ⟨⟨hgeneration, hepoch⟩, hexact⟩

theorem checkRegistration_eq_ok (hkind : entry.eventKind = .generationRegistered)
    (h : head.checkRegistration entry = .ok ()) : Accepted head entry := by
  obtain ⟨hfresh, h⟩ := unit_bind_eq_ok.mp h
  obtain ⟨epoch, hepoch, h⟩ := bind_eq_ok.mp h
  obtain ⟨hsame, h⟩ := unit_bind_eq_ok.mp h
  obtain ⟨state, hstate, h⟩ := bind_eq_ok.mp h
  obtain ⟨heq, h⟩ := unit_bind_eq_ok.mp h
  obtain ⟨hsettled, hcarried⟩ := unit_bind_eq_ok.mp h
  simp only [refuse_eq_ok, not_not] at hfresh hsame heq
  subst hsame heq
  refine .registered hkind hfresh (okOr_eq_ok.mp hepoch) hstate ?_ ?_
  · intro hnone attempt hattempt hfrozen
    rw [refuse_eq_ok, not_and] at hsettled
    by_contra hopen
    have hended : attempt.terminalReceipt = none := not_isSome_iff_eq_none.mp hopen
    refine hsettled ?_ hnone
    rw [mem_def.mp hattempt, any_some, hfrozen, hended]
    rfl
  · intro plan hplan
    simp only [checkActivation, hplan, refuse_eq_ok, not_or, not_not,
      any_eq_true, decide_eq_true_eq] at hcarried
    exact ⟨hcarried.1, hcarried.2.1, hcarried.2.2.2⟩

theorem checkTransition_cases (h : head.checkTransition entry = .ok ()) : Accepted head entry := by
  -- an archive arm gives the generation and the arm's predicate, which is `archiveSuccessor`'s
  have harchive : ∀ {exact : Bool}, entry.eventKind.isArchive = true →
      head.SameGeneration entry ∧ exact = true →
      archiveSuccessor entry.eventKind entry.state.backupArchiveState
        head.state.backupArchiveState = exact → Accepted head entry :=
    fun hkind hchecked hexact => .archive hkind hchecked.1 (hexact.trans hchecked.2)
  unfold checkTransition at h
  cases hkind : entry.eventKind <;> simp only [hkind] at h harchive
  case installationInitialized =>
    simp only [refuse_eq_ok, not_or, not_not] at h
    exact .initialized hkind h.2 h.1
  case generationRegistered => exact checkRegistration_eq_ok hkind h
  case targetActivationPlanned =>
    obtain ⟨hsame, hexact⟩ := keepsGeneration_eq_ok h
    exact .planned hkind hsame hexact
  case restoreTerminalRecorded =>
    obtain ⟨hsame, hexact⟩ := keepsGeneration_eq_ok h
    obtain ⟨receipt, hstate⟩ := isExactRestoreTerminalSuccessorOf_iff.mp hexact
    exact .ended hkind hsame receipt hstate
  case restoreAttemptPrepared =>
    obtain ⟨hsame, hexact⟩ := keepsGeneration_eq_ok h
    obtain ⟨progress, hstate⟩ :=
      isExactRestoreAttemptPreparedSuccessorOf_iff.mp hexact
    exact .prepared hkind hsame progress hstate
  case sourceFreezeRecorded =>
    obtain ⟨hsame, hexact⟩ := keepsGeneration_eq_ok h
    obtain ⟨freeze, hstate⟩ := isExactSourceFreezeSuccessorOf_iff.mp hexact
    exact .frozen hkind hsame freeze hstate
  case targetActivating =>
    obtain ⟨hsame, hexact⟩ := keepsGeneration_eq_ok h
    exact .activating hkind hsame hexact
  case archiveCheckpointCommitted => exact harchive rfl (keepsGeneration_eq_ok h) rfl
  case backupSetStarted => exact harchive rfl (keepsGeneration_eq_ok h) rfl
  case archiveRestoreHoldAcquired => exact harchive rfl (keepsGeneration_eq_ok h) rfl
  case managedBackupDeletionPrepared => exact harchive rfl (keepsGeneration_eq_ok h) rfl
  case preparedArchiveKeyErasure => exact harchive rfl (keepsGeneration_eq_ok h) rfl
  case archiveSealingStarted => exact harchive rfl (lifecycleTransition_eq_ok h) rfl
  case archiveSealed => exact harchive rfl (lifecycleTransition_eq_ok h) rfl
  case archiveKeyErased => exact harchive rfl (lifecycleTransition_eq_ok h) rfl
  case managedBackupDeleted => exact harchive rfl (lifecycleTransition_eq_ok h) rfl

/-- What the three guards of a registration have let through. -/
theorem Accepted.of_registered (h : Accepted head entry)
    (hkind : entry.eventKind = .generationRegistered) :
    checkedAdd head.activationEpoch 1 = some entry.activationEpoch ∧
      head.state.registerGeneration entry.generationId = .ok entry.state ∧
      ∀ plan, head.state.targetActivationPlan = some plan → CarriedOut head.state entry plan := by
  cases h with
  | registered _ _ epoch state _ carried => exact ⟨epoch, state, carried⟩
  | archive kind =>
    rw [hkind] at kind
    cases kind
  | initialized kind => exact absurd (hkind.symm.trans kind) (by decide)
  | planned kind => exact absurd (hkind.symm.trans kind) (by decide)
  | ended kind => exact absurd (hkind.symm.trans kind) (by decide)
  | prepared kind => exact absurd (hkind.symm.trans kind) (by decide)
  | frozen kind => exact absurd (hkind.symm.trans kind) (by decide)
  | activating kind => exact absurd (hkind.symm.trans kind) (by decide)

theorem Accepted.archive_or_same (h : Accepted head entry) :
    entry.state.backupArchiveState = head.state.backupArchiveState ∨
      (head.SameGeneration entry ∧ archiveSuccessor entry.eventKind
        entry.state.backupArchiveState head.state.backupArchiveState = true) := by
  cases h with
  | initialized _ _ state => exact .inl (by rw [state])
  | registered _ _ _ state => exact .inl (registerGeneration_eq_ok state).2.1
  | archive _ same successor => exact .inr ⟨same, successor⟩
  | planned _ _ successor => exact .inl (of_decide_eq_true successor).2.1
  | ended _ _ receipt state =>
    obtain ⟨before, after, -, -, hstate⟩ :=
      withRestoreTerminalReceipt_eq_ok.mp state
    exact .inl (by rw [hstate])
  | prepared _ _ progress state =>
    obtain ⟨-, -, -, hstate⟩ := withRestoreAttemptProgress_eq_ok.mp state
    exact .inl (by rw [hstate])
  | frozen _ _ freeze state =>
    obtain ⟨before, after, -, -, hstate⟩ := withSourceFreeze_eq_ok.mp state
    exact .inl (by rw [hstate])
  | activating _ _ successor => exact .inl (of_decide_eq_true successor).2.1

theorem acceptSigned_eq_ok (h : head.acceptSigned entry = .ok advance) :
    Accepted head entry ∧ advance = ⟨entry.eventKind, entry.generationId, entry.activationEpoch,
      entry, entry.state⟩ := by
  replace h := of_unit_bind h
  obtain ⟨sequence, -, h⟩ := bind_eq_ok.mp h
  replace h := of_unit_bind h
  obtain ⟨hcheck, h⟩ := unit_bind_eq_ok.mp h
  exact ⟨checkTransition_cases hcheck, (pure_eq_ok.mp h).symm⟩

theorem WitnessReceipt.sign_eq_ok {receipt : WitnessReceipt}
    (h : WitnessReceipt.sign witness head advance = .ok receipt) :
    receipt.generationId = advance.generationId ∧
      receipt.activationEpoch = advance.activationEpoch ∧ receipt.state = advance.nextState := by
  obtain ⟨sequence, -, h⟩ := bind_eq_ok.mp h
  replace h := of_unit_bind h
  obtain rfl := pure_eq_ok.mp h
  exact ⟨rfl, rfl, rfl⟩

variable {binding : SafetyBootstrapBinding}

theorem advance_eq_ok (h : head.advance binding witness entry = .ok next) :
    Accepted head entry ∧ next.activeGenerationId = entry.generationId ∧
      next.activationEpoch = entry.activationEpoch ∧ next.state = entry.state := by
  obtain ⟨advance, haccept, h⟩ := bind_eq_ok.mp h
  obtain ⟨receipt, hsign, hopen⟩ := bind_eq_ok.mp h
  obtain ⟨haccepted, rfl⟩ := acceptSigned_eq_ok haccept
  obtain ⟨hgeneration, hepoch, hstate⟩ := WitnessReceipt.sign_eq_ok hsign
  replace hopen := of_unit_bind (of_unit_bind hopen)
  obtain rfl := pure_eq_ok.mp hopen
  exact ⟨haccepted, hgeneration, hepoch, hstate⟩

end

/-! ## What it takes to be accepted -/

structure WitnessHead.BoundBy (head : WitnessHead) (binding : SafetyBootstrapBinding) : Prop where
  installation : head.installationId = binding.installationId
  fingerprint : head.fingerprintKeyId = binding.fingerprintKeyId
  continuity : head.continuityProof = binding.continuityProof
  journal : head.journalPublicKey = binding.journalPublicKey

section

variable [Crypto] {head : WitnessHead} {input : JournalEntryToSign}

def WitnessHead.opened (head : WitnessHead) (entry : SignedJournalEntry) : WitnessHead :=
  { head with
    sequence := entry.sequence
    chainDigest := entry.digest
    activeGenerationId := entry.generationId
    activationEpoch := entry.activationEpoch
    state := entry.state }

theorem SignedJournalEntry.verify_sign (signer : Crypto.Ed25519KeyPair)
    (input : JournalEntryToSign) : (SignedJournalEntry.sign signer input).verify = .ok () := by
  apply refuse_neg
  rw [Bool.not_eq_false]
  exact Crypto.verify_sign signer _

/-- The entry comes next: it names the head and was signed with the pinned key. -/
structure WitnessHead.Precedes (head : WitnessHead) (signer : Crypto.Ed25519KeyPair)
    (input : JournalEntryToSign) : Prop where
  installation : input.installationId = head.installationId
  fingerprint : input.fingerprintKeyId = head.fingerprintKeyId
  continuity : input.continuityProof = head.continuityProof
  sequence : checkedAdd head.sequence 1 = some input.sequence
  previous : input.previousDigest = head.chainDigest
  key : head.journalPublicKey = ⟨Crypto.publicKey signer⟩

theorem acceptSigned_of_precedes {signer : Crypto.Ed25519KeyPair} (h : head.Precedes signer input)
    (hcheck : head.checkTransition (.sign signer input) = .ok ()) :
    head.acceptSigned (.sign signer input) = .ok ⟨input.eventKind, input.generationId,
      input.activationEpoch, .sign signer input, input.state⟩ := by
  refine unit_bind_eq_ok.mpr ⟨SignedJournalEntry.verify_sign signer input, ?_⟩
  refine bind_eq_ok.mpr ⟨input.sequence, okOr_eq_ok.mpr h.sequence, ?_⟩
  refine unit_bind_eq_ok.mpr ⟨?_, unit_bind_eq_ok.mpr ⟨hcheck, rfl⟩⟩
  simp only [refuse_eq_ok, not_or, not_not]
  exact ⟨rfl, h.installation, h.fingerprint, h.continuity, h.previous, h.key.symm⟩

theorem advance_of_precedes {binding : SafetyBootstrapBinding}
    {witness signer : Crypto.Ed25519KeyPair} (hbound : head.BoundBy binding)
    (hwitness : binding.witnessPublicKey = ⟨Crypto.publicKey witness⟩)
    (h : head.Precedes signer input) (hcheck : head.checkTransition (.sign signer input) = .ok ()) :
    head.advance binding witness (.sign signer input) =
      .ok (head.opened (.sign signer input)) := by
  have hne : input.sequence ≠ 0 := by
    intro hzero
    have hnat := checkedAdd_one_eq_some h.sequence
    rw [hzero] at hnat
    cases hnat
  refine bind_eq_ok.mpr ⟨_, acceptSigned_of_precedes h hcheck, ?_⟩
  refine bind_eq_ok.mpr ⟨_, bind_eq_ok.mpr ⟨input.sequence, okOr_eq_ok.mpr h.sequence,
    unit_bind_eq_ok.mpr ⟨refuse_eq_ok.mpr (not_not.mpr rfl), rfl⟩⟩, ?_⟩
  refine unit_bind_eq_ok.mpr ⟨unit_bind_eq_ok.mpr ⟨?_, ?_⟩, unit_bind_eq_ok.mpr ⟨?_, ?_⟩⟩
  · exact refuse_eq_ok.mpr (not_not.mpr hwitness.symm)
  · rw [hwitness, refuse_eq_ok, Bool.not_eq_false]
    exact Crypto.verify_sign witness _
  · simp only [refuse_eq_ok, not_or, not_not]
    exact ⟨hne, hbound.installation, hbound.fingerprint, hbound.continuity⟩
  · rw [opened, hbound.journal]
    rfl

end

/-! ## Runs of the witness -/

structure WitnessStep where
  before : WitnessHead
  entry : SignedJournalEntry
  after : WitnessHead

/-- The entries accepted one after another, each by the head opened from the receipt of
the one before. -/
inductive Chain [Crypto] (binding : SafetyBootstrapBinding) (witness : Crypto.Ed25519KeyPair)
    (start : WitnessHead) : List WitnessStep → WitnessHead → Prop where
  | start : Chain binding witness start [] start
  | accept {steps : List WitnessStep} {head next : WitnessHead} {entry : SignedJournalEntry}
      (chain : Chain binding witness start steps head)
      (accepted : head.advance binding witness entry = .ok next) :
      Chain binding witness start (steps ++ [⟨head, entry, next⟩]) next

end Vestrace.Installation
