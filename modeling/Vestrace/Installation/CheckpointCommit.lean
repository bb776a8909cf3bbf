import Vestrace.Installation.AppendSteps
import Vestrace.Installation.ArchiveSuccessor

/-!
# One checkpoint, witnessed and recorded

What the stores agree on when a checkpoint has been witnessed: from the two signed states the
reservation comes back, what the guarded routine verifies are the entry's and the receipt's own
bytes, and it records the checkpoint exactly when the values fit its columns and clash with nothing
that is there (`commitCheckpointIn_pending`).
-/

namespace Vestrace.Installation

open Lib SortedMap List JournalEventRow WalArchiveCheckpoint

variable {archive : BackupArchiveStateV1}

/-! ## The event -/

namespace BackupArchiveStateV1

variable {previous next : BackupArchiveStateV1} {set : BackupSetId} {before after : BackupSetState}

theorem head_of_oneChange {ok : BackupSetId → BackupSetState → BackupSetState → Bool}
    (hok : ∀ set before after, ok set before after = true → after.head = before.head)
    (h : next.sets.isOneChange ok previous.sets = true)
    (hbefore : previous.sets.get set = some before) (hafter : next.sets.get set = some after) :
    after.head = before.head := by
  obtain ⟨changed, old, new, hold, -, hchange, hnext⟩ := isOneChange_iff.mp h
  by_cases heq : set = changed
  · subst heq
    rw [hnext, get_insert_self] at hafter
    obtain rfl := Option.some.inj hafter
    obtain rfl := Option.mem_unique hold hbefore
    exact hok _ _ _ hchange
  · rw [hnext, get_insert_ne _ heq, hbefore] at hafter
    rw [Option.some.inj hafter]

theorem head_of_archiveSuccessor {kind : SafetyEventKind}
    [Crypto] (hkind : kind ≠ .archiveCheckpointCommitted)
    (h : archiveSuccessor kind next previous = true)
    (hbefore : previous.sets.get set = some before) (hafter : next.sets.get set = some after) :
    after.head = before.head := by
  have hlifecycle : ∀ source target,
      next.isExactLifecycleSuccessorOf previous source target = true →
        after.head = before.head := by
    intro source target hsuccessor
    refine head_of_oneChange (fun set before after hchange => ?_) hsuccessor hbefore hafter
    obtain ⟨-, -, rfl⟩ := lifecycleChange_iff.mp hchange
    rfl
  cases kind with
  | archiveCheckpointCommitted => exact absurd rfl hkind
  | backupSetStarted =>
    obtain ⟨new, state, hnone, -, hnext⟩ := isOneAddition_iff.mp h
    have hne : set ≠ new := by
      rintro rfl
      exact nomatch hnone.symm.trans hbefore
    rw [hnext, get_insert_ne _ hne, hbefore] at hafter
    rw [Option.some.inj hafter]
  | archiveRestoreHoldAcquired =>
    refine head_of_oneChange (fun set before after hchange => ?_) h hbefore hafter
    obtain ⟨-, id, hold, -, -, rfl⟩ := holdChange_iff.mp hchange
    rfl
  | managedBackupDeletionPrepared =>
    refine head_of_oneChange (fun set before after hchange => ?_) h hbefore hafter
    obtain ⟨-, -, -, preparation, rfl⟩ := preparedDeletionChange_iff.mp hchange
    rfl
  | preparedArchiveKeyErasure =>
    refine head_of_oneChange (fun set before after hchange => ?_) h hbefore hafter
    obtain ⟨-, -, rfl⟩ := keyErasurePreparedChange_iff.mp hchange
    rfl
  | archiveSealingStarted | archiveSealed | archiveKeyErased | managedBackupDeleted =>
    exact hlifecycle _ _ h
  | _ => cases h

end BackupArchiveStateV1

section

variable [Crypto] {set : BackupSetId} {reservation : ArchiveAppendReservation}

open BackupArchiveStateV1

/-! ## The reservation -/

omit [Crypto] in
theorem archiveHead_eq {state : BackupSetState} (h : archive.sets.get set = some state) :
    archive.archiveHead set = .ok state.head := by
  rw [archiveHead, set_eq_ok.mpr h]
  rfl

omit [Crypto] in
theorem ordinal_ne_of_continues :
    reservation.object.ordinal ≠ reservation.expected.checkpointOrdinal := by
  intro heq
  have hnext := checkedAdd_one_eq_some reservation.continues.2.2
  rw [heq] at hnext
  omega

omit [Crypto] in
theorem mem_setIds : set ∈ archive.setIds ↔ ∃ state, archive.sets.get set = some state := by
  rw [setIds, mem_map]
  constructor
  · intro h
    obtain ⟨entry, hentry, rfl⟩ := h
    exact ⟨entry.2, mem_entries.mp hentry⟩
  · intro h
    obtain ⟨state, hstate⟩ := h
    exact ⟨⟨set, state⟩, mem_entries.mpr hstate, rfl⟩

omit [Crypto] in
theorem filter_setIds {test : BackupSetId → Bool}
    (h : ∀ other, (∃ state, archive.sets.get other = some state) ∧
      test other = true ↔ other = set) : archive.setIds.filter test = [set] := by
  have hnodup : archive.setIds.Nodup := archive.sets.nodupKeys
  refine perm_singleton.mp ((perm_ext_iff_of_nodup (hnodup.filter test)
    (nodup_singleton set)).mpr fun other => ?_)
  rw [mem_filter, mem_setIds, mem_singleton]
  exact h other

theorem checkpointReservation_of_commit {before after : BackupArchiveStateV1}
    (h : before.commitCheckpoint reservation (.fromReservation reservation) = .ok after) :
    after.checkpointReservation before = .ok reservation := by
  obtain ⟨current, hget, hstream, hhead, -, hkind, rfl⟩ := commitCheckpoint_eq_ok.mp h
  obtain ⟨hset, hpredecessor, hordinal⟩ := reservation.continues
  have hnew := get_put_self before reservation.setId
    (current.append (.fromReservation reservation))
  have hmoved : (current.append (.fromReservation reservation)).head ≠ current.head := by
    intro heq
    rw [hhead] at heq
    exact ordinal_ne_of_continues (congrArg ArchiveHead.checkpointOrdinal heq)
  refine unit_bind_eq_ok.mpr ⟨?_, bind_eq_ok.mpr ⟨reservation.setId, ?_, ?_⟩⟩
  · -- it is an exact successor: the reservation carries what the predicate asks for
    rw [refuse_eq_ok, Bool.not_eq_false]
    refine isOneChange_iff.mpr ⟨reservation.setId, current, _, hget,
      fun heq => hmoved (congrArg BackupSetState.head heq), ?_, rfl⟩
    refine checkpointChange_iff.mpr ⟨.fromReservation reservation, hset, hkind, ?_, ?_, ?_⟩
    · rw [hhead, hordinal]
      rfl
    · rw [hhead]
      exact hpredecessor
    · rw [← hstream]
      rfl
  · -- its set is the only one whose head is another
    rw [filter_setIds fun other => ?_]
    · rfl
    by_cases heq : other = reservation.setId
    · subst heq
      refine iff_of_true ⟨⟨_, hnew⟩, ?_⟩ rfl
      rw [archiveHead_eq hnew, archiveHead_eq hget]
      exact decide_eq_true fun h => hmoved (Except.ok.inj h)
    · refine iff_of_false ?_ heq
      intro h
      have hsame : (before.put reservation.setId
          (current.append (.fromReservation reservation))).sets.get other =
          before.sets.get other := get_insert_ne _ heq _
      refine of_decide_eq_true h.2 ?_
      rw [archiveHead, archiveHead, BackupArchiveStateV1.set, BackupArchiveStateV1.set, hsame]
  · refine bind_eq_ok.mpr ⟨_, mapError_eq_ok.mpr (set_eq_ok.mpr hnew), ?_⟩
    refine bind_eq_ok.mpr ⟨.fromReservation reservation,
      okOr_eq_ok.mpr List.getLast?_concat, ?_⟩
    refine bind_eq_ok.mpr ⟨reservation.expected, mapError_eq_ok.mpr ?_, mapError_eq_ok.mpr ?_⟩
    · rw [archiveHead_eq hget, hhead]
    · exact dif_pos reservation.continues

/-! ## What the routine verifies -/

/-- What `bind_archive_authority!` binds when the numbers fit. -/
def archiveAuthority (entry : SignedJournalEntry) (receipt : WitnessReceipt) :
    SafetyAuthority where
  installationId := entry.installationId
  fingerprintKeyId := entry.fingerprintKeyId
  continuityProof := entry.continuityProof
  requestId := entry.requestId
  sequence := entry.sequence.toNat
  previousDigest := entry.previousDigest
  journalDigest := entry.digest
  journalSignature := entry.signature
  generationId := receipt.generationId
  activationEpoch := receipt.activationEpoch.toNat
  state := receipt.state.canonicalBytes
  receiptSignature := receipt.signature

omit [Crypto] in
theorem asI64_eq_ok {value : UInt64} {label : String} {n : ℤ} :
    asI64 value label = .ok n ↔ value.toNat < 2 ^ 63 ∧ n = value.toNat := by
  rw [asI64, unit_bind_eq_ok, refuse_eq_ok, not_le, pure_eq_ok, eq_comm (a := n)]

theorem bindArchiveAuthority_eq_ok {entry : SignedJournalEntry} {receipt : WitnessReceipt}
    {a : SafetyAuthority} :
    bindArchiveAuthority entry receipt = .ok a ↔ entry.sequence.toNat < 2 ^ 63 ∧
      receipt.activationEpoch.toNat < 2 ^ 63 ∧ a = archiveAuthority entry receipt := by
  simp only [bindArchiveAuthority, bind_eq_ok, asI64_eq_ok, pure_eq_ok]
  constructor
  · intro h
    obtain ⟨_, ⟨hsequence, rfl⟩, _, ⟨hepoch, rfl⟩, rfl⟩ := h
    exact ⟨hsequence, hepoch, rfl⟩
  · intro h
    obtain ⟨hsequence, hepoch, rfl⟩ := h
    exact ⟨_, ⟨hsequence, rfl⟩, _, ⟨hepoch, rfl⟩, rfl⟩

omit [Crypto] in
/-- PostgreSQL writes a number of 64 bits as the journal does. -/
theorem int8send_toNat (value : UInt64) : int8send value.toNat = beBytes 8 value.toNat := by
  have hlt : value.toNat < 2 ^ 64 := value.toNat_lt
  have hmod : ((value.toNat : ℤ) % 2 ^ 64).toNat = value.toNat := by omega
  rw [int8send, hmod]

variable {binding : SafetyBootstrapBinding} {head : WitnessHead} {entry : SignedJournalEntry}
  {receipt : WitnessReceipt}

theorem receiptPayload_archiveAuthority (h : bindsEntry entry receipt) :
    (archiveAuthority entry receipt).receiptPayload receipt.witnessPublicKey =
      receipt.canonicalBytes := by
  obtain ⟨hinstallation, hfingerprint, hcontinuity, hsequence, hdigest, -, -, -⟩ := h
  rw [WitnessReceipt.canonicalBytes, hinstallation, hfingerprint, hcontinuity, hsequence, hdigest,
    ← int8send_toNat, ← int8send_toNat]
  rfl

theorem journalPayload_archiveAuthority (h : bindsEntry entry receipt) :
    (archiveAuthority entry receipt).journalPayload entry.previousDigest entry.eventKind
      entry.signerPublicKey = entry.canonicalBytes := by
  obtain ⟨-, -, -, -, -, hgeneration, hepoch, hstate⟩ := h
  rw [SignedJournalEntry.canonicalBytes, ← hgeneration, ← hepoch, ← hstate, ← int8send_toNat,
    ← int8send_toNat]
  rfl

structure Witnessed (binding : SafetyBootstrapBinding) (head : WitnessHead)
    (entry : SignedJournalEntry) (reservation : ArchiveAppendReservation)
    (receipt : WitnessReceipt) : Prop where
  verified : entry.verify = .ok ()
  bound : head.BoundBy binding
  installation : entry.installationId = head.installationId
  fingerprint : entry.fingerprintKeyId = head.fingerprintKeyId
  continuity : entry.continuityProof = head.continuityProof
  sequence : entry.sequence.toNat = head.sequence.toNat + 1
  previous : entry.previousDigest = head.chainDigest
  signer : entry.signerPublicKey = head.journalPublicKey
  kind : entry.eventKind = .archiveCheckpointCommitted
  same : head.SameGeneration entry
  archive : head.state.backupArchiveState.commitCheckpoint reservation
    (.fromReservation reservation) = .ok entry.state.backupArchiveState
  binds : bindsEntry entry receipt
  receipted : receipt.verifyAgainst binding.witnessPublicKey = .ok ()

theorem Witnessed.of_accepted {advance : WitnessAdvance}
    {key : Crypto.Ed25519KeyPair} (hbound : head.BoundBy binding)
    (hkey : binding.witnessPublicKey = ⟨Crypto.publicKey key⟩)
    (hcommit : head.state.backupArchiveState.commitCheckpoint reservation
      (.fromReservation reservation) = .ok entry.state.backupArchiveState)
    (haccept : head.acceptSigned entry = .ok advance)
    (hsign : WitnessReceipt.sign key head advance = .ok receipt) :
    Witnessed binding head entry reservation receipt := by
  obtain ⟨haccepted, rfl⟩ := acceptSigned_eq_ok haccept
  obtain ⟨hverified, haccept⟩ := unit_bind_eq_ok.mp haccept
  obtain ⟨sequence, hsequence, haccept⟩ := bind_eq_ok.mp haccept
  obtain ⟨hguard, -⟩ := unit_bind_eq_ok.mp haccept
  simp only [refuse_eq_ok, not_or, not_not] at hguard
  obtain ⟨rfl, hinstallation, hfingerprint, hcontinuity, hprevious, hsigner⟩ := hguard
  have hnext := checkedAdd_one_eq_some (okOr_eq_ok.mp hsequence)
  -- the set's head moved, so this is the event of a checkpoint
  obtain ⟨current, hget, -, hhead, -, -, hafter⟩ := commitCheckpoint_eq_ok.mp hcommit
  have hnew : entry.state.backupArchiveState.sets.get reservation.setId =
      some (current.append (.fromReservation reservation)) := by
    rw [hafter]
    exact get_put_self _ _ _
  have hmoved : (current.append (.fromReservation reservation)).head ≠ current.head := by
    rw [hhead]
    exact fun heq => ordinal_ne_of_continues (congrArg ArchiveHead.checkpointOrdinal heq)
  rcases haccepted.archive_or_same with hsame | ⟨hsame, hsuccessor⟩
  · rw [hsame, hget] at hnew
    exact absurd (congrArg BackupSetState.head (Option.some.inj hnew)).symm hmoved
  have hkind : entry.eventKind = .archiveCheckpointCommitted := by
    by_contra hkind
    exact hmoved (head_of_archiveSuccessor hkind hsuccessor hget hnew)
  obtain ⟨_, -, hsign⟩ := bind_eq_ok.mp hsign
  replace hsign := of_unit_bind hsign
  obtain rfl := pure_eq_ok.mp hsign
  refine ⟨hverified, hbound, hinstallation, hfingerprint, hcontinuity, hnext, hprevious, hsigner,
    hkind, hsame, hcommit, ⟨hinstallation.symm, hfingerprint.symm, hcontinuity.symm, rfl, rfl, rfl,
    rfl, rfl⟩, unit_bind_eq_ok.mpr ⟨?_, ?_⟩⟩
  · exact refuse_eq_ok.mpr (not_not.mpr hkey.symm)
  · rw [hkey, refuse_eq_ok, Bool.not_eq_false]
    exact Crypto.verify_sign key _

/-! ## What the routine records -/

def WitnessHead.safetyState (head : WitnessHead) (binding : SafetyBootstrapBinding) :
    SafetyState where
  installationId := head.installationId
  fingerprintKeyId := head.fingerprintKeyId
  continuityProof := head.continuityProof
  journalSignerPublicKey := binding.journalPublicKey
  witnessPublicKey := binding.witnessPublicKey
  witnessSequence := head.sequence.toNat
  journalDigest := head.chainDigest
  witnessState := head.state.canonicalBytes
  activeGenerationId := head.activeGenerationId
  activationEpoch := head.activationEpoch.toNat

theorem Witnessed.followsSafety (h : Witnessed binding head entry reservation receipt) :
    SafetyTables.followsSafety (archiveAuthority entry receipt) (head.safetyState binding) := by
  obtain ⟨hkey, hsignature⟩ := unit_bind_eq_ok.mp h.receipted
  have hkey : receipt.witnessPublicKey = binding.witnessPublicKey :=
    not_not.mp (refuse_eq_ok.mp hkey)
  refine ⟨⟨h.installation.symm, h.fingerprint.symm, h.continuity.symm⟩, ?_, h.previous, ?_, ?_, ?_⟩
  · show (entry.sequence.toNat : ℤ) = (head.sequence.toNat : ℤ) + 1
    rw [h.sequence]
    rfl
  · exact h.binds.2.2.2.2.2.1.trans h.same.1
  · show (receipt.activationEpoch.toNat : ℤ) = head.activationEpoch.toNat
    rw [h.binds.2.2.2.2.2.2.1, h.same.2]
  · show Crypto.verify _ ((archiveAuthority entry receipt).receiptPayload
      binding.witnessPublicKey) receipt.signature = true
    rw [← hkey, receiptPayload_archiveAuthority h.binds, ← Bool.not_eq_false]
    exact refuse_eq_ok.mp hsignature

theorem Witnessed.journalVerifies (h : Witnessed binding head entry reservation receipt) :
    (archiveAuthority entry receipt).journalVerifies entry.previousDigest
      .archiveCheckpointCommitted binding.journalPublicKey = true := by
  rw [SafetyAuthority.journalVerifies, ← h.kind, ← h.bound.journal, ← h.signer,
    journalPayload_archiveAuthority h.binds]
  refine Bool.and_eq_true_iff.mpr ⟨decide_eq_true rfl, ?_⟩
  rw [← Bool.not_eq_false]
  exact refuse_eq_ok.mp h.verified

def ArchiveAppendReservation.intent (reservation : ArchiveAppendReservation) : AppendIntentRow :=
  ⟨reservation.object.objectId, reservation.setId, reservation.expected.checkpointOrdinal.toNat + 1,
    reservation.expected.digest, reservation.object.ciphertextDigest⟩

structure ArchiveObjectDescriptor.FitsColumns (object : ArchiveObjectDescriptor) : Prop where
  ordinal : object.ordinal.toNat < 2 ^ 63
  timeline : object.timeline.toNat < 2 ^ 31
  startLsn : object.startLsn.toNat < 2 ^ 63
  endLsn : object.endLsn.toNat < 2 ^ 63
  length : object.length.toNat < 2 ^ 63

def archiveRow (reservation : ArchiveAppendReservation) : ArchiveObjectRow where
  backupSetId := reservation.setId
  ordinal := reservation.object.ordinal.toNat
  objectId := reservation.object.objectId
  objectKind := reservation.object.kind
  timeline := reservation.object.timeline.toNat
  startLsn := reservation.object.startLsn.toNat
  endLsn := reservation.object.endLsn.toNat
  objectDigest := reservation.object.ciphertextDigest
  plaintextDigest := reservation.object.plaintextDigest
  objectLength := reservation.object.length.toNat
  predecessorHeadDigest := reservation.object.predecessorHeadDigest
  checkpointDigest := (fromReservation reservation).digest

theorem objectRow_eq_ok {row : ArchiveObjectRow} : SafetyTables.objectRow reservation = .ok row ↔
      reservation.object.FitsColumns ∧ row = archiveRow reservation := by
  simp only [SafetyTables.objectRow, bind_eq_ok, asI64_eq_ok, refuse_eq_ok, not_le, pure_eq_ok]
  constructor
  · intro h
    obtain ⟨_, ⟨hordinal, rfl⟩, _, htimeline, _, ⟨hstart, rfl⟩, _, ⟨hend, rfl⟩, _, ⟨hlength, rfl⟩,
      rfl⟩ := h
    exact ⟨⟨hordinal, htimeline, hstart, hend, hlength⟩, rfl⟩
  · intro h
    obtain ⟨⟨hordinal, htimeline, hstart, hend, hlength⟩, rfl⟩ := h
    exact ⟨_, ⟨hordinal, rfl⟩, (), htimeline, _, ⟨hstart, rfl⟩, _, ⟨hend, rfl⟩, _,
      ⟨hlength, rfl⟩, rfl⟩

def checkpointEvent (entry : SignedJournalEntry) (receipt : WitnessReceipt) : JournalEventRow :=
  (archiveAuthority entry receipt).eventRow .archiveCheckpointCommitted entry.previousDigest

/-- The tables have room for the checkpoint: its numbers fit, the trigger on the objects lets it
through, and it clashes with nothing that is there. -/
structure CheckpointFits (t : SafetyTables) (entry : SignedJournalEntry)
    (reservation : ArchiveAppendReservation) : Prop where
  columns : reservation.object.FitsColumns
  sequence : entry.sequence.toNat < 2 ^ 63
  epoch : entry.activationEpoch.toNat < 2 ^ 63
  base : t.violatesBase (archiveRow reservation) = false
  object : ∀ row ∈ t.objects, (archiveRow reservation).clashes row = false
  event : ∀ row ∈ t.journalEvents, row.installationId = entry.installationId →
    row.sequence ≠ entry.sequence.toNat ∧ row.requestId ≠ entry.requestId ∧
      row.journalDigest ≠ entry.digest

omit [Crypto] in
structure SafetyTables.Live (t : SafetyTables) (reservation : ArchiveAppendReservation) :
    Prop where
  fits : reservation.expected.checkpointOrdinal.toNat < 2 ^ 63
  head : t.isLiveHead reservation.setId reservation.expected.checkpointOrdinal.toNat
    reservation.expected.digest = true

structure SafetyTables.Pending (t : SafetyTables) (binding : SafetyBootstrapBinding)
    (head : WitnessHead) (reservation : ArchiveAppendReservation) : Prop where
  safety : t.safety = some (head.safetyState binding)
  live : t.Live reservation
  intents : t.intents = [reservation.intent]

structure SafetyTables.Recorded (t : SafetyTables) (binding : SafetyBootstrapBinding)
    (head : WitnessHead) (entry : SignedJournalEntry) (reservation : ArchiveAppendReservation)
    (receipt : WitnessReceipt) : Prop where
  columns : reservation.object.FitsColumns
  sequence : entry.sequence.toNat < 2 ^ 63
  epoch : entry.activationEpoch.toNat < 2 ^ 63
  safety : t.safety = some ((head.opened entry).safetyState binding)
  event : checkpointEvent entry receipt ∈ t.journalEvents
  object : archiveRow reservation ∈ t.objects
  headRow : t.headRow reservation.setId = some ⟨reservation.setId,
    reservation.object.ordinal.toNat, (fromReservation reservation).digest⟩
  intents : t.intents = []

namespace SafetyTables

variable {t next : SafetyTables}

/-- What the two preliminary checks and the conversions let through. -/
theorem commitCheckpointIn_eq (h : Witnessed binding head entry reservation receipt)
    (command : CommitArchiveCheckpoint) (hcommand : command.reservation = reservation) :
    t.commitCheckpointIn command entry receipt = .ok next ↔
      reservation.object.FitsColumns ∧ entry.sequence.toNat < 2 ^ 63 ∧
        entry.activationEpoch.toNat < 2 ^ 63 ∧
        t.commitBackupArchiveCheckpoint (archiveAuthority entry receipt)
          (archiveRow reservation) = .ok next := by
  have hvalid : validateArchiveEntry entry receipt = .ok () := by
    refine unit_bind_eq_ok.mpr ⟨mapError_eq_ok.mpr h.verified, unit_bind_eq_ok.mpr ⟨?_, ?_⟩⟩
    · obtain ⟨hkey, hsignature⟩ := unit_bind_eq_ok.mp h.receipted
      have hkey : receipt.witnessPublicKey = binding.witnessPublicKey :=
        not_not.mp (refuse_eq_ok.mp hkey)
      rw [hkey]
      exact mapError_eq_ok.mpr h.receipted
    · exact refuse_eq_ok.mpr (not_not.mpr h.binds)
  have hepoch : receipt.activationEpoch = entry.activationEpoch := h.binds.2.2.2.2.2.2.1
  simp only [commitCheckpointIn, hcommand, hvalid, ok_bind, bind_eq_ok, refuse_eq_ok, not_not,
    h.kind, objectRow_eq_ok, bindArchiveAuthority_eq_ok, hepoch, true_and, exists_const]
  constructor
  · intro hcommit
    obtain ⟨_, ⟨hcolumns, rfl⟩, _, ⟨hsequence, hfits, rfl⟩, hcommit⟩ := hcommit
    exact ⟨hcolumns, hsequence, hfits, hcommit⟩
  · intro hcommit
    obtain ⟨hcolumns, hsequence, hfits, hcommit⟩ := hcommit
    exact ⟨_, ⟨hcolumns, rfl⟩, _, ⟨hsequence, hfits, rfl⟩, hcommit⟩

theorem commitCheckpointIn_recorded (h : Witnessed binding head entry reservation receipt)
    (hrecorded : t.Recorded binding head entry reservation receipt)
    (command : CommitArchiveCheckpoint) (hcommand : command.reservation = reservation) :
    t.commitCheckpointIn command entry receipt = .ok t := by
  refine (commitCheckpointIn_eq h command hcommand).mpr
    ⟨hrecorded.columns, hrecorded.sequence, hrecorded.epoch, ?_⟩
  have hstate : receipt.state = entry.state := h.binds.2.2.2.2.2.2.2
  have hretry : t.isCheckpointRetry (archiveAuthority entry receipt) = true := by
    refine Bool.and_eq_true_iff.mpr ⟨?_, contains_iff_mem.mpr hrecorded.event⟩
    rw [hrecorded.safety, Option.any_some, decide_eq_true_eq]
    refine ⟨⟨h.installation.symm, h.fingerprint.symm, h.continuity.symm⟩, rfl, rfl, ?_⟩
    exact congrArg WitnessStateV1.canonicalBytes hstate.symm
  have hholds : t.holdsCheckpoint (archiveRow reservation) = true := by
    refine Bool.and_eq_true_iff.mpr ⟨?_, contains_iff_mem.mpr hrecorded.object⟩
    rw [show (archiveRow reservation).backupSetId = reservation.setId from rfl, hrecorded.headRow,
      Option.any_some, decide_eq_true_eq]
    exact ⟨rfl, rfl⟩
  rw [commitBackupArchiveCheckpoint, if_pos hretry, hholds]
  rfl

def recorded (t : SafetyTables) (binding : SafetyBootstrapBinding) (head : WitnessHead)
    (entry : SignedJournalEntry) (reservation : ArchiveAppendReservation)
    (receipt : WitnessReceipt) : SafetyTables :=
  { t.withCheckpoint (archiveRow reservation) with
    safety := some ((head.opened entry).safetyState binding)
    journalEvents := t.journalEvents ++ [checkpointEvent entry receipt] }

theorem isReservedCheckpoint_of_pending (hpending : t.Pending binding head reservation) :
    t.isReservedCheckpoint (archiveRow reservation) = true := by
  obtain ⟨-, hpredecessor, hordinal⟩ := reservation.continues
  have hordinal := checkedAdd_one_eq_some hordinal
  obtain ⟨hlive, -⟩ := Bool.and_eq_true_iff.mp hpending.live.head
  obtain ⟨row, hrow, hlive⟩ := (Option.any_eq_true _ _).mp hlive
  obtain ⟨hlast, hdigest⟩ := of_decide_eq_true hlive
  have hnext : (reservation.object.ordinal.toNat : ℤ) =
      reservation.expected.checkpointOrdinal.toNat + 1 := by omega
  refine (Option.any_eq_true _ _).mpr ⟨row, hrow, decide_eq_true ⟨?_, ?_, ?_, ?_, ?_, ?_⟩⟩
  · rw [hlast]
    exact hnext
  · have hne : reservation.object.timeline.toNat ≠ 0 :=
      fun hzero => reservation.object.timeline_ne (UInt32.toNat_inj.mp hzero)
    show (0 : ℤ) < reservation.object.timeline.toNat
    omega
  · have hle := reservation.object.lsn_le
    rw [UInt64.lt_iff_toNat_lt] at hle
    show (reservation.object.startLsn.toNat : ℤ) ≤ reservation.object.endLsn.toNat
    omega
  · have hne : reservation.object.length.toNat ≠ 0 :=
      fun hzero => reservation.object.length_ne (UInt64.toNat_inj.mp hzero)
    show (0 : ℤ) < reservation.object.length.toNat
    omega
  · rw [hdigest]
    exact hpredecessor
  · rw [hpending.intents, mem_singleton, hdigest, ArchiveAppendReservation.intent, ← hnext]
    rfl

omit [Crypto] in
theorem insertEvent_eq_ok {row : JournalEventRow} :
    t.insertEvent row = .ok next ↔ t.journalEvents.any (clashes row) = false ∧
      next = { t with journalEvents := t.journalEvents ++ [row] } := by
  simp only [insertEvent, insertRow, bind_eq_ok, refuse_eq_ok, Bool.not_eq_true, pure_eq_ok,
    exists_const]
  constructor
  · intro h
    obtain ⟨_, ⟨hfresh, rfl⟩, rfl⟩ := h
    exact ⟨hfresh, rfl⟩
  · intro h
    obtain ⟨hfresh, rfl⟩ := h
    exact ⟨_, ⟨hfresh, rfl⟩, rfl⟩

theorem event_fresh_iff :
    t.journalEvents.any (clashes (checkpointEvent entry receipt)) = false ↔
      ∀ row ∈ t.journalEvents, row.installationId = entry.installationId →
        row.sequence ≠ entry.sequence.toNat ∧ row.requestId ≠ entry.requestId ∧
          row.journalDigest ≠ entry.digest := by
  rw [any_eq_false]
  refine forall₂_congr fun row _ => ?_
  simp only [clashes, checkpointEvent, SafetyAuthority.eventRow, archiveAuthority,
    Bool.and_eq_true, Bool.or_eq_true, beq_iff_eq, not_and, not_or, and_assoc,
    eq_comm (a := row.installationId), ne_eq, eq_comm (a := row.sequence),
    eq_comm (a := row.requestId), eq_comm (a := row.journalDigest)]

theorem commitCheckpointIn_pending (h : Witnessed binding head entry reservation receipt)
    (hpending : t.Pending binding head reservation)
    (command : CommitArchiveCheckpoint) (hcommand : command.reservation = reservation) :
    t.commitCheckpointIn command entry receipt = .ok next ↔
      CheckpointFits t entry reservation ∧
        next = t.recorded binding head entry reservation receipt := by
  have hretry : ¬ t.isCheckpointRetry (archiveAuthority entry receipt) = true := by
    intro hretry
    obtain ⟨hretry, -⟩ := Bool.and_eq_true_iff.mp hretry
    rw [hpending.safety, Option.any_some, decide_eq_true_eq] at hretry
    have hsequence : (head.sequence.toNat : ℤ) = entry.sequence.toNat := hretry.2.1
    have hnext := h.sequence
    omega
  have hstate : receipt.state = entry.state := h.binds.2.2.2.2.2.2.2
  have hsafety : ({ head.safetyState binding with
      witnessSequence := (archiveAuthority entry receipt).sequence
      journalDigest := (archiveAuthority entry receipt).journalDigest
      witnessState := (archiveAuthority entry receipt).state } : SafetyState) =
      (head.opened entry).safetyState binding := by
    simp only [WitnessHead.safetyState, WitnessHead.opened, archiveAuthority, h.same.1, h.same.2,
      hstate]
  have hinsert : t.insertCheckpoint (archiveAuthority entry receipt) (archiveRow reservation) =
      .ok next ↔ t.violatesBase (archiveRow reservation) = false ∧
        t.objects.any (ArchiveObjectRow.clashes (archiveRow reservation)) = false ∧
        t.journalEvents.any (clashes (checkpointEvent entry receipt)) = false ∧
        next = t.recorded binding head entry reservation receipt := by
    have hjournal : ¬ (archiveAuthority entry receipt).journalVerifies
        (archiveAuthority entry receipt).previousDigest .archiveCheckpointCommitted
        (head.safetyState binding).journalSignerPublicKey = false := by
      rw [Bool.not_eq_false]
      exact h.journalVerifies
    have hreserved : ¬ t.isReservedCheckpoint (archiveRow reservation) = false := by
      rw [isReservedCheckpoint_of_pending hpending]
      decide
    simp only [insertCheckpoint, hpending.safety, okOr, ok_bind,
      refuse_bind_neg (not_not.mpr h.followsSafety), refuse_bind_neg hjournal,
      refuse_bind_neg hreserved, unit_bind_eq_ok, refuse_eq_ok, Bool.not_eq_true,
      insertEvent_eq_ok, advanceSafety, hsafety]
    exact Iff.rfl
  rw [commitCheckpointIn_eq h command hcommand, commitBackupArchiveCheckpoint, if_neg hretry,
    hinsert, event_fresh_iff, any_eq_false]
  constructor
  · intro hcommit
    obtain ⟨hcolumns, hsequence, hepoch, hbase, hobject, hevent, hnext⟩ := hcommit
    exact ⟨⟨hcolumns, hsequence, hepoch, hbase,
      fun row hrow => Bool.not_eq_true _ ▸ hobject row hrow, hevent⟩, hnext⟩
  · intro hcommit
    obtain ⟨⟨hcolumns, hsequence, hepoch, hbase, hobject, hevent⟩, hnext⟩ := hcommit
    exact ⟨hcolumns, hsequence, hepoch, hbase, fun row hrow => by rw [hobject row hrow]; decide,
      hevent, hnext⟩

theorem recorded_of_pending (hpending : t.Pending binding head reservation)
    (hfits : CheckpointFits t entry reservation) :
    (t.recorded binding head entry reservation receipt).Recorded binding head entry reservation
      receipt where
  columns := hfits.columns
  sequence := hfits.sequence
  epoch := hfits.epoch
  safety := rfl
  event := mem_append_right _ mem_cons_self
  object := mem_append_right _ mem_cons_self
  headRow := by
    obtain ⟨hlive, -⟩ := Bool.and_eq_true_iff.mp hpending.live.head
    obtain ⟨row, hrow, -⟩ := (Option.any_eq_true _ _).mp hlive
    have hset : row.backupSetId = reservation.setId := by
      simpa using List.find?_some hrow
    -- the update keeps the keys of the rows, so the same row is found
    have hkeys : ∀ other : ArchiveHeadRow, (if other.backupSetId = reservation.setId then
        (⟨other.backupSetId, reservation.object.ordinal.toNat,
          (fromReservation reservation).digest⟩ : ArchiveHeadRow)
        else other).backupSetId = other.backupSetId := by
      intro other
      split <;> rfl
    show (t.heads.map fun other => if other.backupSetId = reservation.setId then
        (⟨other.backupSetId, reservation.object.ordinal.toNat,
          (fromReservation reservation).digest⟩ : ArchiveHeadRow)
        else other).find? (·.backupSetId = reservation.setId) = _
    simp only [List.find?_map, Function.comp_def, hkeys]
    rw [show t.heads.find? (fun other => decide (other.backupSetId = reservation.setId)) =
      some row from hrow, Option.map_some, if_pos hset, hset]
  intents := by
    show t.intents.filter (·.intentId ≠ reservation.object.objectId) = []
    rw [hpending.intents]
    simp [ArchiveAppendReservation.intent]

end SafetyTables

end

end Vestrace.Installation
