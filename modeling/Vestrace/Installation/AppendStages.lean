import Vestrace.Installation.CheckpointCommit

/-!
# The stages of an append

An append that began on an installation at rest (`AtRest`) has not advanced the witness
yet (`Unadvanced`), or it has (`Advanced`). Neither the append nor a reconciliation leaves these
stages, wherever it stops: `Reached.stage`.
-/

namespace Vestrace.Installation

open Lib Except SafetyTables SupervisorHost Prod ArchiveAppendReservation List

variable {eventKind : SafetyEventKind} {refusal : String} {entry : SignedJournalEntry}
  {transaction : SafetyTransaction} {ε α : Type} {tables : SafetyTables}

section

variable [Crypto]

omit [Crypto] in
structure ReserveArchiveAppend.Makes (command : ReserveArchiveAppend)
    (reservation : ArchiveAppendReservation) : Prop where
  set : reservation.setId = command.setId
  expected : reservation.expected = command.expectedHead
  object : reservation.object = command.object

def ArchiveAppendReservation.pending (reservation : ArchiveAppendReservation) :
    PendingArchiveAppend :=
  ⟨reservation.setId, reservation.expected, reservation.object.objectId,
    reservation.object.ciphertextDigest⟩

namespace SafetyTables

variable {t next : SafetyTables} {a : SafetyAuthority} {safety : SafetyState}
  {attempt : RestoreAttemptId} {receipt : WitnessReceipt}

/-! ## Replaying what is recorded -/

def SameButAttempts (t next : SafetyTables) : Prop := next = { t with attempts := next.attempts }

omit [Crypto] in
theorem SameButAttempts.refl (t : SafetyTables) : SameButAttempts t t := rfl

section

variable (hsafety : t.safety = some safety) (hsequence : a.sequence = safety.witnessSequence)

include hsafety hsequence

theorem assertArchiveSafetyAuthority_settled {found : SafetyState} :
    t.assertArchiveSafetyAuthority a eventKind ≠ .ok found := by
  intro h
  obtain ⟨current, hcurrent, h⟩ := bind_eq_ok.mp h
  obtain rfl := Option.mem_unique hsafety (okOr_eq_ok.mp hcurrent)
  obtain ⟨hfollows, -⟩ := unit_bind_eq_ok.mp h
  have hnext := (not_not.mp (refuse_eq_ok.mp hfollows)).2.1
  omega

theorem commitBackupArchiveCheckpoint_settled {row : ArchiveObjectRow}
    (h : t.commitBackupArchiveCheckpoint a row = .ok next) : next = t := by
  unfold commitBackupArchiveCheckpoint at h
  split at h
  · replace h := of_unit_bind h
    exact (pure_eq_ok.mp h).symm
  · obtain ⟨current, hcurrent, h⟩ := bind_eq_ok.mp h
    obtain rfl := Option.mem_unique hsafety (okOr_eq_ok.mp hcurrent)
    obtain ⟨hfollows, -⟩ := unit_bind_eq_ok.mp h
    have hnext := (not_not.mp (refuse_eq_ok.mp hfollows)).2.1
    omega

theorem registerDatabaseGeneration_settled : t.registerDatabaseGeneration a ≠ .ok next := by
  intro h
  obtain ⟨current, hcurrent, h⟩ := bind_eq_ok.mp h
  obtain rfl := Option.mem_unique hsafety (okOr_eq_ok.mp hcurrent)
  replace h := of_unit_bind h
  obtain ⟨hmonotone, -⟩ := unit_bind_eq_ok.mp h
  rw [refuse_eq_ok, not_or, not_not] at hmonotone
  have hnext := hmonotone.1
  omega

theorem recordRestoreSafetyEvent_settled
    (h : t.recordRestoreSafetyEvent a eventKind = .ok next) : next = t := by
  obtain ⟨current, hcurrent, h⟩ := bind_eq_ok.mp h
  obtain rfl := Option.mem_unique hsafety (okOr_eq_ok.mp hcurrent)
  replace h := of_unit_bind h
  split at h
  · exact (pure_eq_ok.mp h).symm
  · obtain ⟨hmonotone, -⟩ := unit_bind_eq_ok.mp h
    rw [refuse_eq_ok, not_or, not_not] at hmonotone
    have hnext := hmonotone.1
    omega

end

omit [Crypto] in
theorem updateAttempt_sameButAttempts {source : RestoreAttemptState}
    {f : RestoreAttemptRow → RestoreAttemptRow}
    (h : t.updateAttempt attempt source f refusal = .ok next) : SameButAttempts t next := by
  replace h := of_unit_bind h
  obtain rfl := pure_eq_ok.mp h
  rfl

omit [Crypto] in
theorem recordTerminal_sameButAttempts {receipt : SafetyJournalDigest} {ended : RestoreAttemptState}
    (h : t.recordTerminal attempt receipt ended refusal = .ok next) : SameButAttempts t next := by
  unfold recordTerminal at h
  split at h
  · obtain rfl := pure_eq_ok.mp h
    exact .refl t
  · exact updateAttempt_sameButAttempts h

omit [Crypto] in
theorem wrapI64_of_lt {value : UInt64} (h : value.toNat < 2 ^ 63) :
    wrapI64 value = value.toNat := by
  unfold wrapI64
  rw [Int.bmod_eq_of_le_mul_two]
  · omega
  · omega

omit [Crypto] in
theorem bindSafetyAuthority_sequence (h : receipt.sequence.toNat < 2 ^ 63) :
    (bindSafetyAuthority entry receipt).sequence = receipt.sequence.toNat := by
  simp only [bindSafetyAuthority, wrapI64_of_lt h]

structure Settled (t : SafetyTables) (entry : SignedJournalEntry) (receipt : WitnessReceipt) :
    Prop where
  safety : ∃ safety, t.safety = some safety ∧ safety.witnessSequence = receipt.sequence.toNat
  sequence : entry.sequence = receipt.sequence
  fits : receipt.sequence.toNat < 2 ^ 63

theorem applyTransaction_settled (hsettled : t.Settled entry receipt)
    (h : t.applyTransaction transaction entry receipt = .ok next) : SameButAttempts t next := by
  obtain ⟨⟨safety, hsafety, hwitnessed⟩, hsame, hfits⟩ := hsettled
  have harchive : ∀ {a}, bindArchiveAuthority entry receipt = .ok a →
      a.sequence = safety.witnessSequence := by
    intro a ha
    obtain ⟨-, -, rfl⟩ := bindArchiveAuthority_eq_ok.mp ha
    rw [hwitnessed, ← hsame]
    rfl
  have hrestore : (bindSafetyAuthority entry receipt).sequence = safety.witnessSequence := by
    rw [bindSafetyAuthority_sequence hfits, hwitnessed]
  cases transaction with
  | initializeSafety binding =>
    replace h := of_unit_bind (of_unit_bind (of_unit_bind (of_unit_bind h)))
    replace h := of_unit_bind (of_unit_bind (of_unit_bind (of_unit_bind h)))
    rw [hsafety] at h
    replace h := of_unit_bind h
    obtain rfl := pure_eq_ok.mp h
    exact .refl _
  | registerGeneration =>
    replace h := of_unit_bind (of_unit_bind (of_unit_bind h))
    exact absurd h (registerDatabaseGeneration_settled hsafety hrestore)
  | startSet identity initialHead =>
    replace h := of_unit_bind (of_unit_bind (of_unit_bind h))
    obtain ⟨a, ha, h⟩ := bind_eq_ok.mp h
    obtain ⟨_, hassert, -⟩ := bind_eq_ok.mp h
    exact absurd hassert (assertArchiveSafetyAuthority_settled hsafety (harchive ha))
  | commitCheckpoint command =>
    replace h := of_unit_bind (of_unit_bind h)
    obtain ⟨row, -, h⟩ := bind_eq_ok.mp h
    obtain ⟨a, ha, h⟩ := bind_eq_ok.mp h
    obtain rfl := commitBackupArchiveCheckpoint_settled hsafety (harchive ha) h
    exact .refl _
  | acquireHold set hold =>
    replace h := of_unit_bind (of_unit_bind h)
    obtain ⟨a, ha, h⟩ := bind_eq_ok.mp h
    obtain ⟨_, hassert, -⟩ := bind_eq_ok.mp h
    exact absurd hassert (assertArchiveSafetyAuthority_settled hsafety (harchive ha))
  | lifecycle transition =>
    replace h := of_unit_bind (of_unit_bind h)
    obtain ⟨a, ha, h⟩ := bind_eq_ok.mp h
    cases transition <;>
      obtain ⟨_, hassert, -⟩ := bind_eq_ok.mp h <;>
      exact absurd hassert (assertArchiveSafetyAuthority_settled hsafety (harchive ha))
  | prepareAttempt attempt =>
    replace h := of_unit_bind (of_unit_bind h)
    obtain ⟨attempts, -, h⟩ := bind_eq_ok.mp h
    obtain rfl := pure_eq_ok.mp h
    rfl
  | sourceFreeze attempt freeze =>
    replace h := of_unit_bind (of_unit_bind h)
    obtain ⟨_, -, h⟩ := bind_eq_ok.mp h
    obtain ⟨_, -, h⟩ := bind_eq_ok.mp h
    replace h := of_unit_bind h
    exact updateAttempt_sameButAttempts h
  | targetInitialized | sourceResumePrepared =>
    replace h := of_unit_bind h
    exact recordTerminal_sameButAttempts h
  | nothing =>
    obtain rfl := ok.inj h
    exact .refl _

theorem replay_settled (hsettled : t.Settled entry receipt)
    (h : t.replay transaction entry receipt = .ok next) : SameButAttempts t next := by
  obtain ⟨applied, happlied, h⟩ := bind_eq_ok.mp h
  have hsame := applyTransaction_settled hsettled (mapError_eq_ok.mp happlied)
  split at h
  · obtain ⟨-, hrecord⟩ := unit_bind_eq_ok.mp (mapError_eq_ok.mp h)
    obtain ⟨⟨safety, hsafety, hwitnessed⟩, -, hfits⟩ := hsettled
    have hkept : applied.safety = some safety := by
      rw [hsame]
      exact hsafety
    have hsequence : (bindSafetyAuthority entry receipt).sequence = safety.witnessSequence := by
      rw [bindSafetyAuthority_sequence hfits, hwitnessed]
    obtain rfl := recordRestoreSafetyEvent_settled hkept hsequence hrecord
    exact hsame
  · obtain rfl := pure_eq_ok.mp h
    exact hsame

/-! ## Reserving, and giving a reservation up -/

section

variable {reservation : ArchiveAppendReservation}

omit [Crypto]

theorem reserveAppendIn_eq_ok {command : ReserveArchiveAppend}
    (h : t.reserveAppendIn command = .ok (reservation, next)) :
    command.Makes reservation ∧ t.Live reservation ∧
      next = { t with intents := t.intents ++ [reservation.intent] } := by
  obtain ⟨ordinal, hordinal, h⟩ := bind_eq_ok.mp h
  obtain ⟨hfits, rfl⟩ := asI64_eq_ok.mp hordinal
  obtain ⟨reserved, hreserved, h⟩ := bind_eq_ok.mp h
  obtain ⟨hlive, hreserved⟩ := unit_bind_eq_ok.mp hreserved
  rw [refuse_eq_ok, Bool.not_eq_false] at hlive
  obtain ⟨intents, hintents, hreserved⟩ := bind_eq_ok.mp hreserved
  replace hintents := of_unit_bind hintents
  obtain ⟨made, hmade, h⟩ := bind_eq_ok.mp h
  obtain ⟨rfl, rfl⟩ := Prod.mk.inj (pure_eq_ok.mp h)
  have hnew := mapError_eq_ok.mp hmade
  unfold new at hnew
  split at hnew
  · obtain rfl := ok.inj hnew
    rw [← pure_eq_ok.mp hreserved, ← pure_eq_ok.mp hintents]
    exact ⟨⟨rfl, rfl, rfl⟩, ⟨hfits, hlive⟩, rfl⟩
  · cases hnew

theorem abandonAppendIn_eq_ok : t.abandonAppendIn reservation = .ok next ↔ t.Live reservation ∧
      reservation.intent ∈ t.intents ∧
      next = { t with intents := t.intents.filter (· ≠ reservation.intent) } := by
  rw [abandonAppendIn, bind_eq_ok]
  simp only [asI64_eq_ok, abandonBackupArchiveAppend, unit_bind_eq_ok, refuse_eq_ok,
    Bool.not_eq_false, not_not, pure_eq_ok]
  constructor
  · intro h
    obtain ⟨_, ⟨hfits, rfl⟩, hlive, hmem, rfl⟩ := h
    exact ⟨⟨hfits, hlive⟩, hmem, rfl⟩
  · intro h
    obtain ⟨⟨hfits, hlive⟩, hmem, rfl⟩ := h
    exact ⟨_, ⟨hfits, rfl⟩, hlive, hmem, rfl⟩

theorem cancelPending_nil (h : t.intents = []) (archive : BackupArchiveStateV1) :
    t.cancelPending archive = .ok ([], t) := by
  rw [cancelPending, listPendingAppendsIn, h]
  rfl

theorem listPendingAppendsIn_singleton (h : t.intents = [reservation.intent]) :
    t.listPendingAppendsIn = .ok [reservation.pending] := by
  have hordinal : (reservation.expected.checkpointOrdinal.toNat : ℤ) + 1 - 1 =
      reservation.expected.checkpointOrdinal.toNat := by omega
  have hpending : pendingAppend reservation.intent = .ok reservation.pending := by
    refine unit_bind_eq_ok.mpr ⟨refuse_neg ?_, unit_bind_eq_ok.mpr ⟨refuse_neg ?_, ?_⟩⟩
    · show ¬ ((reservation.expected.checkpointOrdinal.toNat : ℤ) + 1 < 0)
      omega
    · show ¬ ((reservation.expected.checkpointOrdinal.toNat : ℤ) + 1 = 0)
      omega
    · rw [pure_eq_ok]
      simp only [intent, hordinal, Int.toNat_natCast, UInt64.ofNat_toNat]
      rfl
  rw [listPendingAppendsIn, h]
  show mapM pendingAppend [reservation.intent] = _
  rw [mapM_cons, hpending]
  rfl

theorem cancelPending_singleton (h : t.intents = [reservation.intent]) (hlive : t.Live reservation)
    (archive : BackupArchiveStateV1) :
    t.cancelPending archive =
      if archive.archiveHead reservation.setId = .ok reservation.expected then
        .ok ([reservation.pending], { t with intents := [] })
      else .ok ([], t) := by
  have habandon : t.abandonPendingAppendIn reservation.pending =
      .ok { t with intents := [] } := by
    refine abandonAppendIn_eq_ok.mpr ⟨hlive, ?_, ?_⟩
    · rw [h]
      exact mem_cons_self
    · rw [h]
      simp
  rw [cancelPending, listPendingAppendsIn_singleton h]
  show foldlM (cancelIntent archive) ([], t) [reservation.pending] = _
  rw [foldlM_cons, cancelIntent]
  show (if archive.archiveHead reservation.setId = .ok reservation.expected then _ else _) >>= _ = _
  split
  · rw [habandon]
    rfl
  · rfl

end

end SafetyTables

/-! ## The witness -/

section

variable {host next : SupervisorHost} {binding : SafetyBootstrapBinding} {receipt : WitnessReceipt}
  {head : WitnessHead}

def WitnessHead.ofReceipt (binding : SafetyBootstrapBinding) (receipt : WitnessReceipt) :
    WitnessHead where
  installationId := receipt.installationId
  fingerprintKeyId := receipt.fingerprintKeyId
  continuityProof := receipt.continuityProof
  sequence := receipt.sequence
  chainDigest := receipt.journalDigest
  activeGenerationId := receipt.generationId
  activationEpoch := receipt.activationEpoch
  state := receipt.state
  journalPublicKey := binding.journalPublicKey

theorem fromDurableReceipt_iff : WitnessHead.fromDurableReceipt binding receipt = .ok head ↔
      receipt.verifyAgainst binding.witnessPublicKey = .ok () ∧ receipt.sequence ≠ 0 ∧
        (WitnessHead.ofReceipt binding receipt).BoundBy binding ∧
        head = .ofReceipt binding receipt := by
  rw [WitnessHead.fromDurableReceipt, unit_bind_eq_ok, unit_bind_eq_ok, refuse_eq_ok]
  simp only [not_or, not_not]
  constructor
  · intro h
    obtain ⟨hverify, ⟨hsequence, hinstallation, hfingerprint, hcontinuity⟩, h⟩ := h
    exact ⟨hverify, hsequence, ⟨hinstallation, hfingerprint, hcontinuity, rfl⟩,
      (pure_eq_ok.mp h).symm⟩
  · intro h
    obtain ⟨hverify, hsequence, hbound, rfl⟩ := h
    exact ⟨hverify, ⟨hsequence, hbound.installation, hbound.fingerprint, hbound.continuity⟩, rfl⟩

theorem head_eq_ok_iff (hwitness : host.witness = ⟨binding, .receipt receipt⟩) :
    host.head = .ok head ↔ binding.witnessPublicKey = ⟨Crypto.publicKey host.witnessKey⟩ ∧
      WitnessHead.fromDurableReceipt binding receipt = .ok head := by
  rw [SupervisorHost.head, unit_bind_eq_ok, refuse_eq_ok, not_not, hwitness]
  exact and_congr_right fun _ => mapError_eq_ok

theorem compareAndAdvance_eq_ok {advance : WitnessAdvance} {expected : WitnessHead}
    (h : host.compareAndAdvance expected advance = .ok (receipt, next)) :
    host.head = .ok expected ∧ WitnessReceipt.sign host.witnessKey expected advance = .ok receipt ∧
      (∃ opened, WitnessHead.fromDurableReceipt host.witness.binding receipt = .ok opened) ∧
      next = { host with witness := ⟨host.witness.binding, .receipt receipt⟩ } := by
  obtain ⟨current, hcurrent, h⟩ := bind_eq_ok.mp h
  obtain ⟨⟨made, opened⟩, hmade, h⟩ := bind_eq_ok.mp h
  obtain ⟨hsame, hmade⟩ := unit_bind_eq_ok.mp hmade
  obtain ⟨signed, hsign, hmade⟩ := bind_eq_ok.mp hmade
  obtain ⟨replacement, hopen, hmade⟩ := bind_eq_ok.mp hmade
  obtain ⟨rfl, rfl⟩ := mk.inj (pure_eq_ok.mp hmade)
  obtain ⟨rfl, rfl⟩ := mk.inj (pure_eq_ok.mp h)
  obtain rfl : current = expected := not_not.mp (refuse_eq_ok.mp hsame)
  exact ⟨hcurrent, mapError_eq_ok.mp hsign, ⟨replacement, mapError_eq_ok.mp hopen⟩, rfl⟩

end

/-! ## The stages -/

structure AtRest (host : SupervisorHost) (head : WitnessHead) (receipt : WitnessReceipt)
    (last : SignedJournalEntry) : Prop where
  /-- The witness holds a receipt and opens to a head. -/
  witness : host.witness.state = .receipt receipt
  opens : host.head = .ok head
  /-- The journal holds the entry the receipt is of. -/
  journalled : host.journal (receipt.sequence, receipt.journalDigest) = some (.entry last)
  verified : last.verify = .ok ()
  binds : bindsEntry last receipt
  /-- The singleton mirrors the head, in columns that are wide enough. -/
  safety : host.tables.safety = some (head.safetyState host.witness.binding)
  sequence : head.sequence.toNat < 2 ^ 63
  epoch : head.activationEpoch.toNat < 2 ^ 63
  /-- So do the heads of the sets. -/
  heads : ∀ row ∈ host.tables.heads, ∃ state,
    head.state.backupArchiveState.sets.get row.backupSetId = some state ∧
      row.checkpointOrdinal = state.head.checkpointOrdinal.toNat ∧
      row.checkpointDigest = state.head.digest
  idle : host.tables.intents = []

variable {start host : SupervisorHost} {head : WitnessHead} {receipt made : WitnessReceipt}
  {last : SignedJournalEntry} {command : AppendWal} {reservation : ArchiveAppendReservation}
  {t : SafetyTables → Except ε (α × SafetyTables)} {next : SupervisorHost} {call : HostCall}
  {p : HostProg ε α} {a : α}

theorem AtRest.opened (h : AtRest start head receipt last) :
    start.witness.binding.witnessPublicKey = ⟨Crypto.publicKey start.witnessKey⟩ ∧
      receipt.sequence ≠ 0 ∧ head.BoundBy start.witness.binding ∧
      head = .ofReceipt start.witness.binding receipt := by
  have hwitness : start.witness = ⟨start.witness.binding, .receipt receipt⟩ := by
    rw [← h.witness]
  obtain ⟨hkey, hopen⟩ := (head_eq_ok_iff hwitness).mp h.opens
  obtain ⟨-, hsequence, hbound, rfl⟩ := fromDurableReceipt_iff.mp hopen
  exact ⟨hkey, hsequence, hbound, rfl⟩

def JournalGrows (start host : SupervisorHost) : Prop :=
  ∀ place entry, start.journal place = some (.entry entry) →
    host.journal place = some (.entry entry)

/-- The witness has not been advanced: the tables differ from those at rest in the restore
attempts and in the intent of this append. -/
structure Unadvanced (start : SupervisorHost) (command : AppendWal) (host : SupervisorHost) :
    Prop where
  witness : host.witness = start.witness
  key : host.witnessKey = start.witnessKey
  journal : JournalGrows start host
  tables : host.tables =
    { start.tables with attempts := host.tables.attempts, intents := host.tables.intents }
  intents : host.tables.intents = [] ∨ ∃ reservation, command.reservation.Makes reservation ∧
    start.tables.Live reservation ∧ host.tables.intents = [reservation.intent]

def ArchiveAppendReservation.staged (reservation : ArchiveAppendReservation) :
    StagedArchiveObject :=
  ⟨reservation.object.objectId.asUuid, reservation.object⟩

structure Advanced (start : SupervisorHost) (head : WitnessHead) (command : AppendWal)
    (reservation : ArchiveAppendReservation) (made : WitnessReceipt) (host : SupervisorHost) :
    Prop where
  makes : command.reservation.Makes reservation
  witnessed : Witnessed start.witness.binding head command.signedEntry reservation made
  witness : host.witness = ⟨start.witness.binding, .receipt made⟩
  key : host.witnessKey = start.witnessKey
  journal : JournalGrows start host
  journalled : host.journal (command.signedEntry.sequence, command.signedEntry.digest) =
    some (.entry command.signedEntry)
  staged : StagedVerified reservation.object reservation.staged.path host
  tables : host.tables.Pending start.witness.binding head reservation ∨
    host.tables.Recorded start.witness.binding head command.signedEntry reservation made

def Stage (start : SupervisorHost) (head : WitnessHead) (command : AppendWal)
    (host : SupervisorHost) : Prop :=
  Unadvanced start command host ∨ ∃ reservation made,
    Advanced start head command reservation made host

/-! ## What keeps a stage -/

theorem onTables_ok (h : (host.onTables t).1 = .ok a) :
    ∃ tables, t host.tables = .ok (a, tables) ∧ (host.onTables t).2 = { host with tables } := by
  have hrun : transact _ host = (.ok a, (host.onTables t).2) := Prod.ext h rfl
  obtain ⟨⟨b, tables⟩, ht, heq⟩ := bind_eq_ok.mp (transact_ok.mp hrun)
  obtain ⟨rfl, hnext⟩ := mk.inj (pure_eq_ok.mp heq)
  exact ⟨tables, ht, hnext.symm⟩

theorem onTables_of_ok (h : t host.tables = .ok (a, tables)) :
    host.onTables t = (.ok a, { host with tables }) :=
  transact_ok.mpr (bind_eq_ok.mpr ⟨(a, tables), h, rfl⟩)

theorem exec_replay_ok {given : WitnessReceipt} :
    exec (.replay transaction entry given) host = (.ok (), next) ↔
      ∃ tables, host.tables.replay transaction entry given = .ok tables ∧
        next = { host with tables } := by
  constructor
  · intro h
    obtain ⟨tables, hok, hnext⟩ := onTables_ok (congrArg fst h)
    obtain ⟨changed, hchanged, hok⟩ := bind_eq_ok.mp hok
    obtain ⟨-, rfl⟩ := mk.inj (pure_eq_ok.mp hok)
    exact ⟨changed, hchanged, (congrArg snd h).symm.trans hnext⟩
  · intro h
    obtain ⟨tables, hok, rfl⟩ := h
    exact onTables_of_ok (t := fun t => return ((), ← t.replay transaction entry given))
      (bind_eq_ok.mpr ⟨tables, hok, rfl⟩)

theorem onTables_state {Q : SupervisorHost → Prop} (h : Q host)
    (hok : ∀ a tables, t host.tables = .ok (a, tables) → Q { host with tables }) :
    Q (host.onTables t).2 := by
  refine transact_state h ?_
  intro a after hrun
  obtain ⟨⟨b, tables⟩, ht, heq⟩ := bind_eq_ok.mp hrun
  obtain ⟨-, rfl⟩ := mk.inj (pure_eq_ok.mp heq)
  exact hok b tables ht

def HostCall.gentle : HostCall → Prop
  | .reserveAppend _ | .commitCheckpoint _ _ _ | .replay _ _ _ | .compareAndAdvance _ _ => False
  | _ => True

section

variable (h : Unadvanced start command host)

include h

theorem Unadvanced.sameRecords (hsame : SameRecords host next) : Unadvanced start command next where
  witness := hsame.witness.trans h.witness
  key := hsame.key.trans h.key
  journal place entry hentry := hsame.journal place entry (h.journal place entry hentry)
  tables := by
    rw [hsame.tables]
    exact h.tables
  intents := by
    rw [hsame.tables]
    exact h.intents

theorem Unadvanced.cancelled :
    Unadvanced start command { host with tables := { host.tables with intents := [] } } where
  witness := h.witness
  key := h.key
  journal := h.journal
  tables := by
    show ({ host.tables with intents := [] } : SafetyTables) = _
    rw [h.tables]
  intents := .inl rfl

theorem Unadvanced.live (hlive : start.tables.Live reservation) : host.tables.Live reservation := by
  rw [h.tables]
  exact ⟨hlive.fits, hlive.head⟩

theorem Unadvanced.gentle (hcall : call.gentle) :
    Unadvanced start command (exec call host).2 := by
  cases call with
  | createNew | append | read | removeFile | openEnvelope | createJournal | writeJournal
  | readJournal | readHead | durableReceipt => exact h.sameRecords (sameRecords_exec rfl host)
  | abandonAppend given =>
    refine onTables_state (Q := Unadvanced start command) h ?_
    intro _ tables hok
    obtain ⟨next, hnext, hok⟩ := bind_eq_ok.mp hok
    obtain ⟨-, rfl⟩ := mk.inj (pure_eq_ok.mp hok)
    obtain ⟨-, hmem, rfl⟩ := abandonAppendIn_eq_ok.mp hnext
    -- the only intent there is was the one given up
    rcases h.intents with hnone | ⟨reservation, -, -, hone⟩
    · rw [hnone] at hmem
      cases hmem
    · rw [hone, mem_singleton] at hmem
      have hfilter : host.tables.intents.filter (· ≠ given.intent) = [] := by
        rw [hone, hmem]
        simp
      rw [hfilter]
      exact h.cancelled
  | cancelPending archive =>
    refine onTables_state (Q := Unadvanced start command) h ?_
    intro cancelled tables hok
    rcases h.intents with hnone | ⟨reservation, -, hlive, hone⟩
    · rw [cancelPending_nil hnone] at hok
      obtain ⟨-, rfl⟩ := mk.inj (ok.inj hok)
      exact h
    · rw [cancelPending_singleton hone (h.live hlive)] at hok
      split at hok
      · obtain ⟨-, rfl⟩ := mk.inj (ok.inj hok)
        exact h.cancelled
      · obtain ⟨-, rfl⟩ := mk.inj (ok.inj hok)
        exact h
  | reserveAppend | commitCheckpoint | replay | compareAndAdvance => exact hcall.elim

end

theorem Advanced.exec (h : Advanced start head command reservation made host)
    (hcall : call.onFiles = true) (hspares : call.sparesStaging) :
    Advanced start head command reservation made (exec call host).2 := by
  have hsame := sameRecords_exec hcall host
  refine ⟨h.makes, h.witnessed, hsame.witness.trans h.witness, hsame.key.trans h.key, ?_,
    hsame.journal _ _ h.journalled, h.staged.exec hspares, ?_⟩
  · exact fun place entry hentry => hsame.journal place entry (h.journal place entry hentry)
  · rw [hsame.tables]
    exact h.tables

/-! ## The append -/

theorem orAbandon_gentle {given : ArchiveAppendReservation} {staged : Option StagedArchiveObject}
    {p : HostProg ApplicationError α} (hp : OnFiles p) :
    (orAbandon given staged p).Makes HostCall.gentle := by
  have hgentle : p.Makes HostCall.gentle := by
    refine hp.mono fun call hcall => ?_
    cases call <;> trivial
  refine .bind hgentle.attempt ?_
  intro result
  cases result with
  | ok a => exact .pure a
  | error e =>
    refine .bind (makes_ask trivial) fun _ => .bind (.lift _) fun _ => ?_
    cases staged with
    | none => exact .lift _
    | some staged => exact .bind (makes_ask trivial) fun _ => .lift _

theorem Unadvanced.always (h : Unadvanced start command host) (hp : p.Makes HostCall.gentle) :
    p.Always (Unadvanced start command) host :=
  hp.always (fun _ _ hcall hunadvanced => hunadvanced.gentle hcall) h

theorem Unadvanced.always_stage (h : Unadvanced start command host) (hp : p.Makes HostCall.gentle) :
    p.Always (Stage start head command) host :=
  (h.always hp).mono fun _ hunadvanced => .inl hunadvanced

theorem Advanced.always_stage (h : Advanced start head command reservation made host)
    (hfiles : OnFiles p) (hspares : SparesStaging p) :
    p.Always (Stage start head command) host := by
  have hboth : p.Makes fun call : HostCall => call.onFiles = true ∧ call.sparesStaging :=
    hfiles.and hspares
  exact (hboth.always (I := Advanced start head command reservation made)
    (fun _ _ hcall hadvanced => hadvanced.exec hcall.1 hcall.2) h).mono
      fun _ hadvanced => .inr ⟨reservation, made, hadvanced⟩

theorem Unadvanced.advance (hrest : AtRest start head receipt last)
    (h : Unadvanced start command host) (hmakes : command.reservation.Makes reservation)
    (hlive : start.tables.Live reservation) (hintents : host.tables.intents = [reservation.intent])
    (hcommit : head.state.backupArchiveState.commitCheckpoint reservation
      (.fromReservation reservation) = .ok command.signedEntry.state.backupArchiveState)
    {advance : WitnessAdvance} (haccept : head.acceptSigned command.signedEntry = .ok advance)
    (hsign : WitnessReceipt.sign host.witnessKey head advance = .ok made)
    (hjournalled : host.journal (command.signedEntry.sequence, command.signedEntry.digest) =
      some (.entry command.signedEntry))
    (hstaged : StagedVerified reservation.object reservation.staged.path host) :
    Advanced start head command reservation made
      { host with witness := ⟨host.witness.binding, .receipt made⟩ } := by
  obtain ⟨hkey, -, hbound, -⟩ := hrest.opened
  refine ⟨hmakes, ?_, ?_, h.key, h.journal, hjournalled, hstaged, .inl ⟨?_, h.live hlive, hintents⟩⟩
  · rw [h.key] at hsign
    exact .of_accepted hbound hkey hcommit haccept hsign
  · rw [h.witness]
  · show host.tables.safety = _
    rw [h.tables]
    exact hrest.safety

theorem Advanced.recorded {commit : CommitArchiveCheckpoint}
    (h : Advanced start head command reservation made host)
    (hcommit : commit.reservation = reservation)
    (hok : host.tables.commitCheckpointIn commit command.signedEntry made = .ok tables) :
    tables.Recorded start.witness.binding head command.signedEntry reservation made := by
  rcases h.tables with hpending | hrecorded
  · obtain ⟨hfits, rfl⟩ :=
      (commitCheckpointIn_pending h.witnessed hpending commit hcommit).mp hok
    exact recorded_of_pending hpending hfits
  · rw [commitCheckpointIn_recorded h.witnessed hrecorded commit hcommit] at hok
    obtain rfl := ok.inj hok
    exact hrecorded

theorem Advanced.commit (h : Advanced start head command reservation made host)
    {commit : CommitArchiveCheckpoint} (hcommit : commit.reservation = reservation)
    (hok : host.tables.commitCheckpointIn commit command.signedEntry made = .ok tables) :
    Advanced start head command reservation made { host with tables } :=
  { h with tables := .inr (h.recorded hcommit hok) }

theorem OnFiles.run_sameRecords (hp : OnFiles p) {result : Except ε α}
    (h : p.run host = (result, next)) : SameRecords host next := by
  have hsame := hp.sameRecords host
  rwa [h] at hsame

theorem commitAndPromote_always (h : Advanced start head command reservation made host) :
    (commitAndPromote command.signedEntry reservation reservation.staged made).Always
      (Stage start head command) host := by
  refine .lift_bind fun commit hnew => ?_
  have hreservation : commit.reservation = reservation := by
    unfold CommitArchiveCheckpoint.new at hnew
    split at hnew
    · obtain rfl := ok.inj hnew
      rfl
    · cases hnew
  have hcommitted : ∀ {u tables}, (do
        let next ← host.tables.commitCheckpointIn commit command.signedEntry made
        return ((), next)) = ok (u, tables) →
      Advanced start head command reservation made { host with tables } := by
    intro u tables hok
    obtain ⟨next, hnext, hok⟩ := bind_eq_ok.mp hok
    obtain ⟨-, rfl⟩ := mk.inj (pure_eq_ok.mp hok)
    exact h.commit hreservation hnext
  refine always_ask_bind ?_ (.lift_bind fun _ hok => ?_)
  · exact onTables_state (.inr ⟨reservation, made, h⟩)
      fun _ _ hok => .inr ⟨reservation, made, hcommitted hok⟩
  · obtain ⟨tables, hok, hnext⟩ := onTables_ok hok
    show Prog.Always _ _ (onTables _ _).2
    rw [hnext]
    exact (hcommitted hok).always_stage (promoteAfterCheckpoint_onFiles _)
      (promoteAfterCheckpoint_sparesStaging _)

theorem appendWal_reserved (hrest : AtRest start head receipt last)
    (h : Unadvanced start command host) (hmakes : command.reservation.Makes reservation)
    (hlive : start.tables.Live reservation)
    (hintents : host.tables.intents = [reservation.intent]) :
    (appendReserved command reservation).Always (Stage start head command) host := by
  have hstage : OnFiles (do
      liftM (refuse (reservation.object ≠ command.write.descriptor)
        (ApplicationError.policy "guarded reservation differs from host archive write"))
      stageEncrypted command.write) := .bind (.lift _) fun _ => stageEncrypted_onFiles _
  refine .bind (h.always_stage (orAbandon_gentle hstage)) fun staged after hrun => ?_
  have hrun := orAbandon_run_ok.mp hrun
  have hafter := h.sameRecords (hstage.run_sameRecords hrun)
  have hintents : after.tables.intents = [reservation.intent] := by
    rw [(hstage.run_sameRecords hrun).tables, hintents]
  obtain rfl : staged = reservation.staged := by
    obtain ⟨_, -, hrun⟩ := Prog.run_lift_bind_ok.mp hrun
    obtain ⟨_, _, -, hrun⟩ := Prog.run_bind_ok.mp hrun
    obtain ⟨_, _, -, hrun⟩ := Prog.run_bind_ok.mp hrun
    obtain ⟨_, _, -, hrun⟩ := Prog.run_bind_ok.mp hrun
    rw [← (Prog.run_pure_ok.mp hrun).1, ArchiveAppendReservation.staged, hmakes.object,
      command.object_eq]
  have hjournal := journalCheckpoint_onFiles command.signedEntry reservation reservation.staged
  refine .bind (hafter.always_stage (orAbandon_gentle hjournal)) fun accepted ready hrun => ?_
  obtain ⟨current, advance⟩ := accepted
  have hrun := orAbandon_run_ok.mp hrun
  have hsame := hjournal.run_sameRecords hrun
  have hready := hafter.sameRecords hsame
  obtain ⟨hcurrent, hcommit, haccept, hjournalled, hstaged⟩ := journalCheckpoint_run_ok hrun
  obtain rfl : current = head := by
    have hopens : after.head = start.head := by
      rw [SupervisorHost.head, SupervisorHost.head, hafter.witness, hafter.key]
    exact ok.inj (hcurrent.symm.trans (hopens.trans hrest.opens))
  have hadvanced : ∀ {made next}, ready.compareAndAdvance current advance = .ok (made, next) →
      Advanced start current command reservation made next := by
    intro made next hok
    obtain ⟨-, hsign, -, rfl⟩ := compareAndAdvance_eq_ok hok
    exact hready.advance hrest hmakes hlive (hsame.tables ▸ hintents) hcommit haccept hsign
      hjournalled hstaged
  refine always_ask_bind ?_ (.lift_bind fun made hmade => ?_)
  · exact transact_state (.inl hready) fun made next hok => .inr ⟨_, _, hadvanced hok⟩
  have hmade : transact (fun host : SupervisorHost => host.compareAndAdvance current advance)
      ready = (.ok made, (exec (.compareAndAdvance current advance) ready).2) :=
    Prod.ext (mapError_eq_ok.mp hmade) rfl
  have hadvanced := hadvanced (transact_ok.mp hmade)
  exact .bind (commitAndPromote_always hadvanced) fun _ _ _ => trivial

theorem appendWal_always (hrest : AtRest start head receipt last) :
    (appendWal command).Always (Stage start head command) start := by
  have hstart : Unadvanced start command start :=
    ⟨rfl, rfl, fun _ _ h => h, rfl, .inl hrest.idle⟩
  have hreserved : ∀ {reservation tables},
      start.tables.reserveAppendIn command.reservation = .ok (reservation, tables) →
        command.reservation.Makes reservation ∧ start.tables.Live reservation ∧
          tables.intents = [reservation.intent] ∧
          Unadvanced start command { start with tables } := by
    intro reservation tables hok
    obtain ⟨hmakes, hlive, rfl⟩ := reserveAppendIn_eq_ok hok
    have hintents : start.tables.intents ++ [reservation.intent] = [reservation.intent] := by
      rw [hrest.idle, nil_append]
    refine ⟨hmakes, hlive, hintents, { hstart with tables := rfl, intents := .inr ?_ }⟩
    exact ⟨reservation, hmakes, hlive, hintents⟩
  refine always_ask_bind ?_ (.lift_bind fun reservation hok => ?_)
  · exact .inl (onTables_state (Q := Unadvanced start command) hstart
      fun _ _ hok => (hreserved hok).2.2.2)
  · obtain ⟨tables, hok, hnext⟩ := onTables_ok hok
    obtain ⟨hmakes, hlive, hintents, hunadvanced⟩ := hreserved hok
    show Prog.Always _ _ (start.onTables _).2
    rw [hnext]
    exact appendWal_reserved hrest hunadvanced hmakes hlive hintents

end

end Vestrace.Installation
