import Vestrace.Installation.WitnessCodec

/-!
# Signed records on durable media

What the installation writes it can read again: a state that the builders and the
archive's operations made, and every entry and receipt over such a state whose signature verifies.

The other way round the law is weaker: a signature is verified over the encoding of what was
read, not over the bytes that were presented.
-/

namespace Vestrace.Installation

open Lib WitnessReceipt List WitnessStateV1 Decoder Except

variable {s : WitnessStateV1} {receipt : WitnessReceipt} {signature : BitVec 512}

/-! ## States the installation builds -/

section

variable [Crypto]

/-- The states made from genesis by the builders, over archives made by the operations of
sets that start at ordinal zero. -/
inductive ReachableState : WitnessStateV1 → Prop where
  | genesis (generation : DatabaseGenerationId) : ReachableState (.genesis generation)
  | registered {s next : WitnessStateV1} {generation : DatabaseGenerationId}
      (reached : ReachableState s) (state : s.registerGeneration generation = .ok next) :
      ReachableState next
  | archived {s : WitnessStateV1} (reached : ReachableState s) (calls : List ArchiveCall)
      (zero : StartsAtZero calls) : ReachableState (s.withBackupArchiveState (archiveRun calls))
  | prepared {s next : WitnessStateV1} {progress : RestoreAttemptProgress}
      (reached : ReachableState s) (state : s.withRestoreAttemptProgress progress = .ok next) :
      ReachableState next
  | frozen {s next : WitnessStateV1} {freeze : SourceFreezePoint} (reached : ReachableState s)
      (state : s.withSourceFreeze freeze = .ok next) : ReachableState next
  | planned {s next : WitnessStateV1} {plan : TargetActivationPlan} (reached : ReachableState s)
      (state : s.withTargetActivationPlan plan = .ok next) : ReachableState next
  | ended {s next : WitnessStateV1} {receipt : RestoreTerminalReceipt}
      (reached : ReachableState s) (state : s.withRestoreTerminalReceipt receipt = .ok next) :
      ReachableState next
  | started {s next : WitnessStateV1} (reached : ReachableState s)
      (state : s.withTargetActivationStarted = .ok next) : ReachableState next

theorem ReachableState.archive (h : ReachableState s) :
    ∃ calls, StartsAtZero calls ∧ s.backupArchiveState = archiveRun calls := by
  induction h with
  | genesis generation => exact ⟨[], fun _ _ hmem => absurd hmem not_mem_nil, rfl⟩
  | archived _ calls zero _ => exact ⟨calls, zero, rfl⟩
  | registered _ state ih =>
    obtain ⟨calls, hzero, harchive⟩ := ih
    exact ⟨calls, hzero, (registerGeneration_eq_ok state).2.1.trans harchive⟩
  | prepared _ state ih =>
    obtain ⟨-, -, -, rfl⟩ := withRestoreAttemptProgress_eq_ok.mp state
    exact ih
  | frozen _ state ih =>
    obtain ⟨_, _, -, -, rfl⟩ := withSourceFreeze_eq_ok.mp state
    exact ih
  | planned _ state ih =>
    obtain ⟨_, -, -, -, -, rfl⟩ := withTargetActivationPlan_eq_ok state
    exact ih
  | ended _ state ih =>
    obtain ⟨_, _, -, -, rfl⟩ := withRestoreTerminalReceipt_eq_ok.mp state
    exact ih
  | started _ state ih =>
    obtain ⟨_, _, -, -, -, -, rfl⟩ := withTargetActivationStarted_eq_ok state
    exact ih

structure FieldsFit (s : WitnessStateV1) : Prop where
  lineage : s.lineageBytes.length < 2 ^ 64
  archive : s.backupArchiveState.canonicalBytes.length < 2 ^ 64

theorem ReachableState.fromCanonicalBytes (h : ReachableState s) (hfits : FieldsFit s) :
    fromCanonicalBytes s.canonicalBytes = .ok s := by
  obtain ⟨calls, hzero, harchive⟩ := h.archive
  have hread : Readable s.backupArchiveState := by
    rw [harchive]
    refine archiveRun_readable hzero ?_
    rw [← harchive]
    exact hfits.archive
  exact WitnessStateV1.fromCanonicalBytes_eq_ok.mpr
    ⟨_, ⟨hfits.lineage, hfits.archive⟩, hread.fromCanonicalBytes, s.bytesWith_canonicalBytes.symm⟩

structure Recordable (s : WitnessStateV1) : Prop where
  reached : ReachableState s
  fits : s.canonicalBytes.length < 2 ^ 64

theorem Recordable.fromCanonicalBytes (h : Recordable s) :
    fromCanonicalBytes s.canonicalBytes = .ok s := by
  have hlen := h.fits
  rw [← s.bytesWith_canonicalBytes] at hlen
  simp only [WitnessStateV1.bytesWith, length_append, field] at hlen
  exact h.reached.fromCanonicalBytes ⟨by omega, by omega⟩

theorem Recordable.parse_entry {entry : SignedJournalEntry} (h : Recordable entry.state) :
    SignedJournalEntry.parse entry.canonicalBytes =
      .ok (entry.toJournalEntryToSign, entry.signerPublicKey) :=
  SignedJournalEntry.parse_eq_ok.mpr ⟨_, h.fits, h.fromCanonicalBytes, entry.canonicalBytes_eq⟩

theorem Recordable.parse_receipt (h : Recordable receipt.state) :
    parse receipt.signature receipt.canonicalBytes = .ok receipt :=
  parse_eq_ok.mpr ⟨rfl, _, h.fits, h.fromCanonicalBytes, receipt.canonicalBytes_eq⟩

theorem receipt_eq_of_canonicalBytes {other : WitnessReceipt} (h : Recordable receipt.state)
    (hother : Recordable other.state) (hbytes : receipt.canonicalBytes = other.canonicalBytes) :
    receipt = { other with signature := receipt.signature } := by
  have hparse := h.parse_receipt
  have hsame : Recordable ({ other with signature := receipt.signature } : WitnessReceipt).state :=
    hother
  have hparse' := hsame.parse_receipt
  rw [show ({ other with signature := receipt.signature } : WitnessReceipt).canonicalBytes =
    receipt.canonicalBytes from hbytes.symm] at hparse'
  exact ok.inj (hparse.symm.trans hparse')

theorem WitnessReceipt.sign_signature {advance : WitnessAdvance}
    {witness : Crypto.Ed25519KeyPair} {head : WitnessHead}
    (h : sign witness head advance = .ok receipt) :
    receipt.signature = Crypto.sign witness receipt.canonicalBytes := by
  obtain ⟨sequence, -, h⟩ := bind_eq_ok.mp h
  replace h := of_unit_bind h
  obtain rfl := pure_eq_ok.mp h
  rfl

omit [Crypto] in
theorem entry_bytes_ne_receipt_bytes (entry : SignedJournalEntry) (receipt : WitnessReceipt) :
    entry.canonicalBytes ≠ receipt.canonicalBytes := by
  intro h
  have hentry : entry.canonicalBytes.take 8 = beBytes 8 39 := by
    rw [SignedJournalEntry.canonicalBytes]
    simp only [append_assoc, field]
    exact take_left' (length_beBytes ..)
  have hreceipt : receipt.canonicalBytes.take 8 = beBytes 8 40 := by
    rw [WitnessReceipt.canonicalBytes]
    simp only [append_assoc, field]
    exact take_left' (length_beBytes ..)
  rw [h, hreceipt] at hentry
  exact absurd hentry (by decide)

/-- What the installation writes it reads again, and no two records that differ in more
than their signature are written alike. -/
theorem signed_records_round_trip : (∀ s, ReachableState s → FieldsFit s →
      WitnessStateV1.fromCanonicalBytes s.canonicalBytes = .ok s) ∧
    (∀ entry : SignedJournalEntry, Recordable entry.state → entry.verify = .ok () →
      SignedJournalEntry.fromCanonicalBytesAndSignature entry.canonicalBytes entry.signature =
        .ok entry) ∧
    (∀ receipt : WitnessReceipt, Recordable receipt.state →
      receipt.verifyAgainst receipt.witnessPublicKey = .ok () →
      WitnessReceipt.fromCanonicalBytesAndSignature receipt.canonicalBytes receipt.signature =
        .ok receipt) ∧
    (∀ entry other : SignedJournalEntry, Recordable entry.state → Recordable other.state →
      entry.canonicalBytes = other.canonicalBytes →
      entry = { other with signature := entry.signature }) ∧
    (∀ receipt other : WitnessReceipt, Recordable receipt.state → Recordable other.state →
      receipt.canonicalBytes = other.canonicalBytes →
      receipt = { other with signature := receipt.signature } ∧
        ((∃ witness head head' advance advance',
            WitnessReceipt.sign witness head advance = .ok receipt ∧
            WitnessReceipt.sign witness head' advance' = .ok other) → receipt = other)) ∧
    (∀ (entry : SignedJournalEntry) (receipt : WitnessReceipt),
      entry.canonicalBytes ≠ receipt.canonicalBytes) := by
  refine ⟨fun s h hfits => h.fromCanonicalBytes hfits, ?_, ?_, ?_, ?_,
    entry_bytes_ne_receipt_bytes⟩
  · intro entry h hverify
    exact SignedJournalEntry.fromCanonicalBytesAndSignature_eq_ok.mpr ⟨h.parse_entry, rfl, hverify⟩
  · intro receipt h hverify
    exact fromCanonicalBytesAndSignature_eq_ok.mpr ⟨h.parse_receipt, hverify⟩
  · intro entry other h hother hbytes
    have hparse := h.parse_entry
    rw [hbytes, hother.parse_entry] at hparse
    obtain ⟨hinput, hkey⟩ := Prod.mk.inj (ok.inj hparse)
    cases entry
    cases other
    simp_all
  · intro receipt other h hother hbytes
    have hsame := receipt_eq_of_canonicalBytes h hother hbytes
    refine ⟨hsame, fun hsigned => ?_⟩
    obtain ⟨witness, head, head', advance, advance', hsign, hsign'⟩ := hsigned
    have hsignature : receipt.signature = other.signature := by
      rw [sign_signature hsign, sign_signature hsign', hbytes]
    rw [hsame, hsignature]

end

section

local instance roundTripCrypto : Crypto := plainCrypto

def recordedCalls : List ArchiveCall := [.startStreaming ⟨⟨7⟩, ⟨1⟩, ⟨1⟩⟩ ⟨0, ⟨0⟩⟩]

def recordedProgress : RestoreAttemptProgress :=
  ⟨⟨11⟩, ⟨12⟩, ⟨7⟩, ⟨13⟩, ⟨1⟩, ⟨2⟩, none, none, by decide, fun _ => nofun, fun _ => nofun⟩

def recordedState : WitnessStateV1 :=
  { (WitnessStateV1.genesis ⟨1⟩).withBackupArchiveState (archiveRun recordedCalls) with
    restoreAttemptProgress := some recordedProgress }

theorem recordedState_reached : ReachableState recordedState := by
  have hzero : StartsAtZero recordedCalls := by
    intro identity head hmem
    obtain ⟨-, rfl⟩ := ArchiveCall.startStreaming.inj (mem_singleton.mp hmem)
    rfl
  have harchived := (ReachableState.genesis ⟨1⟩).archived recordedCalls hzero
  exact harchived.prepared
    (withRestoreAttemptProgress_eq_ok.mpr ⟨rfl, rfl, rfl, rfl⟩)

def recordedEntry : SignedJournalEntry :=
  .sign (5 : BitVec 256)
    ⟨⟨1⟩, ⟨2⟩, ⟨3⟩, ⟨4⟩, 2, ⟨0⟩, .restoreAttemptPrepared, ⟨1⟩, 0, recordedState⟩

theorem recordedState_round_trip :
    WitnessStateV1.fromCanonicalBytes recordedState.canonicalBytes = .ok recordedState ∧
      SignedJournalEntry.fromCanonicalBytesAndSignature recordedEntry.canonicalBytes
        recordedEntry.signature = .ok recordedEntry :=
  ⟨signed_records_round_trip.1 recordedState recordedState_reached
      ⟨by decide +kernel, by decide +kernel⟩,
    signed_records_round_trip.2.1 recordedEntry ⟨recordedState_reached, by decide +kernel⟩
      (SignedJournalEntry.verify_sign _ _)⟩

end

/-! ## Bytes that were presented -/

section

variable [Crypto] {state : WitnessStateV1}

@[reducible] def verifyingBy (verify : BitVec 256 → Bytes → BitVec 512 → Bool) : Crypto where
  sha256 := Crypto.sha256
  Ed25519KeyPair := Empty
  publicKey := nofun
  sign := nofun
  verify := verify
  verify_sign := nofun

def archiveSlotBehind (header : Nat) : Bytes → Except InstallationSafetyError Bytes :=
  whole do
    let _ ← take .malformed header
    let state ← fieldBytes .malformed
    check (whole (do
      let _ ← fieldBytes .malformed
      fieldBytes .malformed) state)

/-- The slot is not empty, and its sets and holds stand in the order of their ids. -/
def CanonicalSlot (slot : Bytes) : Prop :=
  ∃ records, Listed records ∧ ListedInOrder records ∧ slot = slotOf records

def SlotInOrder (header : Nat) (bytes : Bytes) : Prop :=
  ∃ slot, archiveSlotBehind header bytes = .ok slot ∧ CanonicalSlot slot

omit [Crypto] in
theorem archiveSlotBehind_eq_ok {front back slot : Bytes}
    (hlen : (state.bytesWith slot).length < 256 ^ 8)
    (hlineage : state.lineageBytes.length < 256 ^ 8) (hslot : slot.length < 256 ^ 8) :
    archiveSlotBehind front.length (front ++ (field (state.bytesWith slot) ++ back)) =
      .ok slot := by
  simp only [archiveSlotBehind, Decoder.whole_eq_ok, Decoder.bind_eq_ok, Decoder.take_eq_ok,
    fieldBytes_eq_ok, check_eq_ok]
  obtain ⟨rest, hrest⟩ : ∃ rest,
      state.bytesWith slot = field state.lineageBytes ++ (field slot ++ rest) :=
    ⟨_, by simp only [WitnessStateV1.bytesWith, append_assoc]; rfl⟩
  exact ⟨back, front, _, ⟨rfl, rfl⟩, state.bytesWith slot, back, ⟨hlen, rfl⟩,
    ⟨rest, state.lineageBytes, _, ⟨hlineage, hrest⟩, hslot, rfl⟩, rfl⟩

variable (V : BitVec 256 → Bytes → BitVec 512 → Bool)

theorem parse_verifyingBy :
    @SignedJournalEntry.parse (verifyingBy V) = SignedJournalEntry.parse := rfl

theorem parse_receipt_verifyingBy : @WitnessReceipt.parse (verifyingBy V) = parse := rfl

variable {bytes : Bytes} {input : JournalEntryToSign} {key : JournalPublicKey}

theorem canonicalBytes_eq_iff_slotInOrder {stateBytes : Bytes} (front back : Bytes)
    (hlen : stateBytes.length < 256 ^ 8)
    (hstate : fromCanonicalBytes stateBytes = .ok state) :
    front ++ (field state.canonicalBytes ++ back) = front ++ (field stateBytes ++ back) ↔
      SlotInOrder front.length (front ++ (field stateBytes ++ back)) := by
  obtain ⟨slot, ⟨hlineage, hslot⟩, harchive, rfl⟩ :=
    WitnessStateV1.fromCanonicalBytes_eq_ok.mp hstate
  have hsame : state.canonicalBytes = state.bytesWith slot ↔
      state.backupArchiveState.canonicalBytes = slot := by
    rw [← state.bytesWith_canonicalBytes]
    constructor
    · intro h
      simp only [WitnessStateV1.bytesWith, append_assoc, append_cancel_left_eq] at h
      exact field_injective (append_cancel_right h)
    · intro h
      rw [h]
  have hfield : field state.canonicalBytes = field (state.bytesWith slot) ↔
      state.canonicalBytes = state.bytesWith slot := ⟨field_injective, congrArg field⟩
  rw [append_cancel_left_eq, append_cancel_right_eq, hfield, hsame,
    canonicalBytes_eq_iff harchive, SlotInOrder, archiveSlotBehind_eq_ok hlen hlineage hslot]
  constructor
  · intro h
    exact ⟨slot, rfl, h⟩
  · intro h
    obtain ⟨_, hslot, hcanonical⟩ := h
    obtain rfl := ok.inj hslot
    exact hcanonical

/-! ### Entries -/

omit [Crypto] in
/-- The header of an entry is 240 bytes long, whatever it says. -/
theorem entry_bytesWith_split (input : JournalEntryToSign) (key : JournalPublicKey) :
    ∃ front back, front.length = 240 ∧ ∀ state,
      SignedJournalEntry.bytesWith input key state = front ++ (field state ++ back) := by
  have hdomain : (ascii "vestrace-installation-safety-journal-v1").length = 39 := by decide
  refine ⟨field (ascii "vestrace-installation-safety-journal-v1") ++
    field input.installationId.asBytes ++ field input.fingerprintKeyId.asBytes ++
    field (beBytes 32 input.continuityProof.bits.toNat) ++
    field (beBytes 16 input.requestId.asUuid.toNat) ++ beBytes 8 input.sequence.toNat ++
    field input.previousDigest.asBytes ++ [input.eventKind.code] ++
    field input.generationId.asBytes ++ beBytes 8 input.activationEpoch.toNat,
    field (beBytes 32 key.bits.toNat), ?_, fun state => ?_⟩
  · simp [field, hdomain]
  · simp only [SignedJournalEntry.bytesWith, append_assoc]

theorem entry_canonicalBytes_eq_iff (h : SignedJournalEntry.parse bytes = .ok (input, key))
    (signature : BitVec 512) :
    (⟨input, key, signature⟩ : SignedJournalEntry).canonicalBytes = bytes ↔
      SlotInOrder 240 bytes := by
  obtain ⟨stateBytes, hlen, hstate, rfl⟩ := SignedJournalEntry.parse_eq_ok.mp h
  obtain ⟨front, back, hfront, hsplit⟩ := entry_bytesWith_split input key
  rw [SignedJournalEntry.canonicalBytes_eq, hsplit, hsplit, ← hfront]
  exact canonicalBytes_eq_iff_slotInOrder front back hlen hstate

theorem entry_accepted_iff (h : SignedJournalEntry.parse bytes = .ok (input, key))
    (signature : BitVec 512) :
    (∃ entry, @SignedJournalEntry.fromCanonicalBytesAndSignature (verifyingBy V) bytes signature =
        .ok entry) ↔
      V key.bits (⟨input, key, signature⟩ : SignedJournalEntry).canonicalBytes signature =
        true := by
  simp only [@SignedJournalEntry.fromCanonicalBytesAndSignature_eq_ok (verifyingBy V),
    parse_verifyingBy]
  constructor
  · intro hentry
    obtain ⟨entry, hparse, rfl, hverify⟩ := hentry
    obtain ⟨rfl, rfl⟩ := Prod.mk.inj (ok.inj (h.symm.trans hparse))
    exact Bool.not_eq_false _ ▸ refuse_eq_ok.mp hverify
  · intro hverify
    refine ⟨⟨input, key, signature⟩, h, rfl, refuse_neg ?_⟩
    rw [Bool.not_eq_false]
    exact hverify

/-! ### Receipts -/

omit [Crypto] in
theorem receipt_bytesWith_split (receipt : WitnessReceipt) :
    ∃ front back, front.length = 216 ∧ ∀ state,
      receipt.bytesWith state = front ++ (field state ++ back) := by
  have hdomain : (ascii "vestrace-installation-witness-receipt-v1").length = 40 := by decide
  refine ⟨field (ascii "vestrace-installation-witness-receipt-v1") ++
    field receipt.installationId.asBytes ++ field receipt.fingerprintKeyId.asBytes ++
    field (beBytes 32 receipt.continuityProof.bits.toNat) ++ beBytes 8 receipt.sequence.toNat ++
    field receipt.journalDigest.asBytes ++ field receipt.generationId.asBytes ++
    beBytes 8 receipt.activationEpoch.toNat,
    field (beBytes 32 receipt.witnessPublicKey.bits.toNat), ?_, fun state => ?_⟩
  · simp [field, hdomain]
  · simp only [WitnessReceipt.bytesWith, append_assoc]

theorem receipt_canonicalBytes_eq_iff (h : parse signature bytes = .ok receipt) :
    receipt.canonicalBytes = bytes ↔ SlotInOrder 216 bytes := by
  obtain ⟨-, stateBytes, hlen, hstate, rfl⟩ := parse_eq_ok.mp h
  obtain ⟨front, back, hfront, hsplit⟩ := receipt_bytesWith_split receipt
  rw [canonicalBytes_eq, hsplit, hsplit, ← hfront]
  exact canonicalBytes_eq_iff_slotInOrder front back hlen hstate

theorem parse_receipt_signature (h : parse signature bytes = .ok receipt)
    (other : BitVec 512) :
    parse other bytes = .ok { receipt with signature := other } := by
  obtain ⟨-, hparse⟩ := parse_eq_ok.mp h
  exact parse_eq_ok.mpr ⟨rfl, hparse⟩

theorem receipt_accepted_iff (h : parse signature bytes = .ok receipt) :
    (∃ accepted, @WitnessReceipt.fromCanonicalBytesAndSignature (verifyingBy V) bytes signature =
        .ok accepted) ↔
      V receipt.witnessPublicKey.bits receipt.canonicalBytes signature = true := by
  have hsignature : receipt.signature = signature := (parse_eq_ok.mp h).1
  simp only [@fromCanonicalBytesAndSignature_eq_ok (verifyingBy V),
    parse_receipt_verifyingBy, h, ok.injEq]
  have hverify : @verifyAgainst (verifyingBy V) receipt receipt.witnessPublicKey =
      .ok () ↔ V receipt.witnessPublicKey.bits receipt.canonicalBytes signature = true := by
    simp only [verifyAgainst, unit_bind_eq_ok, refuse_eq_ok, not_not, true_and,
      Bool.not_eq_false, hsignature]
    exact Iff.rfl
  rw [← hverify]
  constructor
  · intro haccepted
    obtain ⟨_, rfl, hok⟩ := haccepted
    exact hok
  · intro hok
    exact ⟨receipt, rfl, hok⟩

omit [Crypto] in
theorem verified_alike_iff {key : BitVec 256} {message presented : Bytes} :
    (∀ (V : BitVec 256 → Bytes → BitVec 512 → Bool) (signature : BitVec 512),
      V key message signature = true ↔ V key presented signature = true) ↔
      message = presented := by
  constructor
  · intro h
    have hsame := (h (fun _ m _ => decide (m = presented)) 0).mpr (decide_eq_true rfl)
    exact of_decide_eq_true hsame
  · intro h V signature
    rw [h]

/-- A signature covers the bytes that were presented exactly where the archive slot of the
record is as it would be written. Of such bytes no two are read as one record. -/
theorem signature_covers_bytes_iff (bytes : Bytes) :
    (∀ input key, SignedJournalEntry.parse bytes = .ok (input, key) →
      ((∀ (V : BitVec 256 → Bytes → BitVec 512 → Bool) (signature : BitVec 512),
          (∃ entry, @SignedJournalEntry.fromCanonicalBytesAndSignature (verifyingBy V) bytes
              signature = .ok entry) ↔ V key.bits bytes signature = true) ↔
        SlotInOrder 240 bytes) ∧
      (SlotInOrder 240 bytes → ∀ other, SlotInOrder 240 other →
        SignedJournalEntry.parse other = .ok (input, key) → other = bytes)) ∧
    (∀ receipt, WitnessReceipt.parse 0 bytes = .ok receipt →
      ((∀ (V : BitVec 256 → Bytes → BitVec 512 → Bool) (signature : BitVec 512),
          (∃ accepted, @WitnessReceipt.fromCanonicalBytesAndSignature (verifyingBy V) bytes
              signature = .ok accepted) ↔
            V receipt.witnessPublicKey.bits bytes signature = true) ↔
        SlotInOrder 216 bytes) ∧
      (SlotInOrder 216 bytes → ∀ other, SlotInOrder 216 other →
        WitnessReceipt.parse 0 other = .ok receipt → other = bytes)) := by
  constructor
  · intro input key h
    constructor
    · have halike : ∀ (V : BitVec 256 → Bytes → BitVec 512 → Bool) (signature : BitVec 512),
          (∃ entry, @SignedJournalEntry.fromCanonicalBytesAndSignature (verifyingBy V) bytes
              signature = .ok entry) ↔
            V key.bits (⟨input, key, 0⟩ : SignedJournalEntry).canonicalBytes signature = true :=
        fun V signature => entry_accepted_iff V h signature
      simp only [halike]
      exact verified_alike_iff.trans (entry_canonicalBytes_eq_iff h 0)
    · intro horder other hother hparse
      exact ((entry_canonicalBytes_eq_iff hparse 0).mpr hother).symm.trans
        ((entry_canonicalBytes_eq_iff h 0).mpr horder)
  · intro receipt h
    constructor
    · have halike : ∀ (V : BitVec 256 → Bytes → BitVec 512 → Bool) (signature : BitVec 512),
          (∃ accepted, @fromCanonicalBytesAndSignature (verifyingBy V) bytes
              signature = .ok accepted) ↔
            V receipt.witnessPublicKey.bits receipt.canonicalBytes signature = true := by
        intro V signature
        have haccepted := receipt_accepted_iff V (parse_receipt_signature h signature)
        exact haccepted
      simp only [halike]
      exact verified_alike_iff.trans (receipt_canonicalBytes_eq_iff h)
    · intro horder other hother hparse
      exact ((receipt_canonicalBytes_eq_iff hparse).mpr hother).symm.trans
        ((receipt_canonicalBytes_eq_iff h).mpr horder)

end

/-! ### A record of the first version -/

@[reducible] def tailCrypto : Crypto where
  sha256 bytes := BitVec.ofNat 256 (ofBeBytes bytes)
  Ed25519KeyPair := BitVec 256
  publicKey key := key
  sign _ message := BitVec.ofNat 512 (ofBeBytes message)
  verify _ message signature := signature == BitVec.ofNat 512 (ofBeBytes message)
  verify_sign _ _ := beq_self_eq_true _

section

local instance legacyRecordCrypto : Crypto := tailCrypto

def firstInput : JournalEntryToSign :=
  ⟨⟨1⟩, ⟨2⟩, ⟨3⟩, ⟨4⟩, 1, ⟨0⟩, .installationInitialized, ⟨1⟩, 0, .genesis ⟨1⟩⟩

def firstRecord : Bytes :=
  SignedJournalEntry.bytesWith firstInput ⟨5⟩ ((WitnessStateV1.genesis ⟨1⟩).bytesWith [])

theorem firstRecord_parse : SignedJournalEntry.parse firstRecord = .ok (firstInput, ⟨5⟩) :=
  SignedJournalEntry.parse_eq_ok.mpr ⟨_, by decide +kernel,
    WitnessStateV1.fromCanonicalBytes_eq_ok.mpr ⟨[], ⟨by decide, by decide⟩, rfl, rfl⟩, rfl⟩

/-- It was signed, and is refused; with the signature of other bytes it is accepted. -/
theorem firstRecord_refused : (let signed := Crypto.sign (5 : BitVec 256) firstRecord
     Crypto.verify 5 firstRecord signed = true ∧
       SignedJournalEntry.fromCanonicalBytesAndSignature firstRecord signed =
         .error .invalidSignature) ∧
    (let rewritten := (SignedJournalEntry.mk firstInput ⟨5⟩ 0).canonicalBytes
     let signed := Crypto.sign (5 : BitVec 256) rewritten
     rewritten ≠ firstRecord ∧ Crypto.verify 5 firstRecord signed = false ∧
       SignedJournalEntry.fromCanonicalBytesAndSignature firstRecord signed =
         .ok ⟨firstInput, ⟨5⟩, signed⟩) := by
  refine ⟨⟨Crypto.verify_sign (5 : BitVec 256) _, ?_⟩, by decide +kernel, by decide +kernel, ?_⟩
  · rw [SignedJournalEntry.fromCanonicalBytesAndSignature, firstRecord_parse, ok_bind]
    refine refuse_bind_pos ?_
    decide +kernel
  · exact SignedJournalEntry.fromCanonicalBytesAndSignature_eq_ok.mpr
      ⟨firstRecord_parse, rfl, refuse_neg (by decide +kernel)⟩

end

section

local instance writtenRecordCrypto : Crypto := plainCrypto

/-- The record of a state with one set, as it is written. -/
theorem writtenRecord_covered : SlotInOrder 240 recordedEntry.canonicalBytes ∧
      ∀ (V : BitVec 256 → Bytes → BitVec 512 → Bool) (signature : BitVec 512),
        (∃ entry, @SignedJournalEntry.fromCanonicalBytesAndSignature (verifyingBy V)
            recordedEntry.canonicalBytes signature = .ok entry) ↔
          V recordedEntry.signerPublicKey.bits recordedEntry.canonicalBytes signature = true := by
  have hrecordable : Recordable recordedEntry.state := ⟨recordedState_reached, by decide +kernel⟩
  have hparse := hrecordable.parse_entry
  have horder : SlotInOrder 240 recordedEntry.canonicalBytes :=
    (entry_canonicalBytes_eq_iff hparse recordedEntry.signature).mp rfl
  exact ⟨horder,
    ((signature_covers_bytes_iff recordedEntry.canonicalBytes).1 _ _ hparse).1.mpr horder⟩

end

end Vestrace.Installation
