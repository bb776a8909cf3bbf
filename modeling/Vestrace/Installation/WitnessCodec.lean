import Vestrace.Installation.CutoverCodec
import Vestrace.Installation.Witness

/-!
# The decoders of witnessed states, entries and receipts

`from_canonical_bytes` of the witnessed state and of the bootstrap binding, and
`from_canonical_bytes_and_signature` of entries and receipts, cut where their signature is
checked: `parse` reads all the bytes, and what it made of them is encoded again to be verified.

They are read exactly, but for the archive slot inside the state, which may be any slot that
decodes to the archive (`bytesWith`).
-/

namespace Vestrace.Installation

open Lib CanonicalDecoder List SafetyJournalDigest RestoreAttemptProgress
open Decoder hiding bind_eq_ok pure_eq_ok

abbrev SafetyDecoder := Decoder InstallationSafetyError

/-! ## The witnessed state -/

def generationsOf : Nat → Bytes → List DatabaseGenerationId
  | 0, _ => []
  | n + 1, bytes =>
    ⟨BitVec.ofNat 128 (ofBeBytes (bytes.take 16))⟩ :: generationsOf n (bytes.drop 16)

def optionalValue {α : Type} (fromBytes : Bytes → Except RestoreCutoverError α) :
    SafetyDecoder (Option α) := do
  match ← optionalField .malformed with
  | none => return none
  | some bytes =>
    let value ← Decoder.check ((fromBytes bytes).mapError fun _ => .malformed)
    return some value

def activationMarker : SafetyDecoder (Option SafetyJournalDigest) := do
  if ← Decoder.isFinished then return none
  else
    let bytes ← Decoder.check (okOr (← optionalField .malformed) .malformed)
    Decoder.check (refuse (bytes.length ≠ 32) .malformed)
    return some ⟨BitVec.ofNat 256 (ofBeBytes bytes)⟩

section

variable [Crypto]

/-- The archive's slot and the retired one. The first version left both empty. -/
def archiveSlots (archiveSlot retiredSlot : Bytes) :
    Except InstallationSafetyError BackupArchiveStateV1 :=
  if archiveSlot = [] ∧ retiredSlot = [] then .ok .empty
  else if retiredSlot = [] then
    (BackupArchiveStateV1.fromCanonicalBytes archiveSlot).mapError fun _ => .malformed
  else .error .malformed

namespace WitnessStateV1

def decode : SafetyDecoder WitnessStateV1 := do
  let lineage ← Decoder.fieldBytes .malformed
  let archiveSlot ← Decoder.fieldBytes .malformed
  let retiredSlot ← Decoder.fieldBytes .malformed
  let targetActivationPlan ← optionalValue TargetActivationPlan.fromCanonicalBytes
  let restoreAttemptProgress ← optionalValue RestoreAttemptProgress.fromCanonicalBytes
  let targetActivationStarted ← activationMarker
  Decoder.finish .malformed
  if h : lineage.length < 16 ∨ lineage.length % 16 ≠ 0 then Decoder.check (.error .malformed)
  else
    let backupArchiveState ← Decoder.check (archiveSlots archiveSlot retiredSlot)
    return {
      generationLineageState := generationsOf (lineage.length / 16) lineage
      backupArchiveState, targetActivationPlan, restoreAttemptProgress, targetActivationStarted
      lineage_ne := by
        obtain ⟨n, hn⟩ : ∃ n, lineage.length / 16 = n + 1 :=
          Nat.exists_eq_add_one.mpr (Nat.div_pos (not_lt.mp fun hlt => h (Or.inl hlt)) (by decide))
        rw [hn]
        exact cons_ne_nil _ _ }

def fromCanonicalBytes : Bytes → Except InstallationSafetyError WitnessStateV1 := decode.whole

end WitnessStateV1

/-! ### What it reads -/

variable {s t : Bytes}

omit [Crypto] in
theorem optionalValue_eq_ok {α : Type} {fromBytes : Bytes → Except RestoreCutoverError α}
    {encode : α → Bytes} (hfrom : ∀ bytes value, fromBytes bytes = .ok value ↔ bytes = encode value)
    (hlen : ∀ value, (encode value).length < 256 ^ 8) {o : Option α} :
    optionalValue fromBytes s = .ok (o, t) ↔ s = Lib.optionalField (o.map encode) ++ t := by
  simp only [optionalValue, Decoder.bind_eq_ok, optionalField_eq_ok]
  constructor
  · intro h
    obtain ⟨field, _, ⟨-, rfl⟩, h⟩ := h
    cases field with
    | none =>
      obtain ⟨rfl, rfl⟩ := pure_eq_ok.mp h
      rfl
    | some bytes =>
      simp only [Decoder.bind_eq_ok, check_eq_ok, mapError_eq_ok, hfrom,
        Decoder.pure_eq_ok] at h
      obtain ⟨value, _, ⟨rfl, rfl⟩, rfl, rfl⟩ := h
      rfl
  · intro h
    subst h
    cases o with
    | none => exact ⟨none, t, ⟨fun _ => nofun, rfl⟩, rfl⟩
    | some value =>
      refine ⟨some (encode value), t, ⟨fun _ hmem => Option.some.inj hmem ▸ hlen value, rfl⟩, ?_⟩
      simp only [Decoder.bind_eq_ok, check_eq_ok, mapError_eq_ok, hfrom, Decoder.pure_eq_ok]
      exact ⟨value, t, ⟨rfl, rfl⟩, rfl, rfl⟩

omit [Crypto] in
theorem optionalPlan_eq_ok {o : Option TargetActivationPlan} :
    optionalValue TargetActivationPlan.fromCanonicalBytes s = .ok (o, t) ↔
      s = Lib.optionalField (o.map TargetActivationPlan.canonicalBytes) ++ t :=
  optionalValue_eq_ok (fun _ _ => TargetActivationPlan.fromCanonicalBytes_eq_ok)
    TargetActivationPlan.length_canonicalBytes_lt

omit [Crypto] in
theorem optionalProgress_eq_ok {o : Option RestoreAttemptProgress} :
    optionalValue fromCanonicalBytes s = .ok (o, t) ↔
      s = Lib.optionalField (o.map canonicalBytes) ++ t :=
  optionalValue_eq_ok (fun _ _ => RestoreAttemptProgress.fromCanonicalBytes_eq_ok)
    length_canonicalBytes_lt

def markerBytes : Option SafetyJournalDigest → Bytes
  | some digest => Lib.optionalField (some digest.asBytes)
  | none => []

omit [Crypto] in
/-- The marker is the last thing in a state. -/
theorem activationMarker_finish {o : Option SafetyJournalDigest} :
    activationMarker s = .ok (o, []) ↔ s = markerBytes o := by
  simp only [activationMarker, Decoder.bind_eq_ok]
  constructor
  · intro h
    obtain ⟨finished, rest, hfinished, h⟩ := h
    obtain ⟨rfl, rfl⟩ := Prod.mk.inj (Except.ok.inj hfinished)
    cases hs : s.isEmpty with
    | true =>
      rw [hs, if_pos rfl, Decoder.pure_eq_ok] at h
      rw [← h.1]
      exact h.2
    | false =>
      rw [hs, if_neg Bool.false_ne_true] at h
      simp only [Decoder.bind_eq_ok, optionalField_eq_ok, check_eq_ok, okOr_eq_ok,
        refuse_eq_ok, not_not, Decoder.pure_eq_ok] at h
      obtain ⟨_, _, ⟨-, rfl⟩, bytes, _, ⟨rfl, rfl⟩, ⟨⟩, _, ⟨hlen, rfl⟩, rfl, rfl⟩ := h
      have hlt : ofBeBytes bytes < 2 ^ 256 := by
        have hlt := ofBeBytes_lt bytes
        rw [hlen] at hlt
        exact hlt
      have hbytes : asBytes ⟨BitVec.ofNat 256 (ofBeBytes bytes)⟩ = bytes := by
        rw [asBytes, BitVec.toNat_ofNat, Nat.mod_eq_of_lt hlt, ← hlen,
          beBytes_ofBeBytes]
      rw [markerBytes, hbytes, append_nil]
  · intro h
    subst h
    cases o with
    | none => exact ⟨true, [], rfl, rfl⟩
    | some d =>
      refine ⟨false, _, rfl, ?_⟩
      have hlen : d.asBytes.length < 256 ^ 8 := by
        rw [d.length_asBytes]
        decide
      have hbits : ofBeBytes d.asBytes = d.bits.toNat := by
        rw [asBytes, ofBeBytes_beBytes]
        exact Nat.mod_eq_of_lt d.bits.isLt
      simp only [Bool.false_eq_true, if_false, Decoder.bind_eq_ok, optionalField_eq_ok,
        check_eq_ok, okOr_eq_ok, refuse_eq_ok, not_not, Decoder.pure_eq_ok]
      refine ⟨some d.asBytes, [], ⟨fun _ hmem => Option.some.inj hmem ▸ hlen, ?_⟩, d.asBytes, [],
        ⟨rfl, rfl⟩, (), [], ⟨d.length_asBytes, rfl⟩, ?_, rfl⟩
      · exact (append_nil _).symm
      · rw [hbits, BitVec.ofNat_toNat, BitVec.setWidth_eq]

theorem archiveSlots_eq_ok {archiveSlot retiredSlot : Bytes} {archive : BackupArchiveStateV1} :
    archiveSlots archiveSlot retiredSlot = .ok archive ↔
      retiredSlot = [] ∧ BackupArchiveStateV1.fromCanonicalBytes archiveSlot = .ok archive := by
  unfold archiveSlots
  by_cases hretired : retiredSlot = []
  · by_cases harchive : archiveSlot = []
    · rw [if_pos ⟨harchive, hretired⟩, BackupArchiveStateV1.fromCanonicalBytes, if_pos harchive,
        Except.ok.injEq, Except.ok.injEq, and_iff_right hretired]
    · rw [if_neg fun h => harchive h.1, if_pos hretired, mapError_eq_ok, and_iff_right hretired]
  · rw [if_neg fun h => hretired h.2, if_neg hretired]
    simp [hretired]

omit [Crypto] in
theorem generationsOf_flatMap (ids : List DatabaseGenerationId) :
    generationsOf ids.length (ids.flatMap SafetyId.asBytes) = ids := by
  induction ids with
  | nil => rfl
  | cons id ids ih =>
    have hlen : id.asBytes.length = 16 := id.length_asBytes
    have hid : ofBeBytes id.asBytes = id.asUuid.toNat := by
      rw [SafetyId.asBytes, ofBeBytes_beBytes]
      exact Nat.mod_eq_of_lt id.asUuid.isLt
    rw [length_cons, generationsOf, flatMap_cons, take_left' hlen,
      drop_left' hlen, ih, hid, BitVec.ofNat_toNat, BitVec.setWidth_eq]

omit [Crypto] in
theorem flatMap_generationsOf {bytes : Bytes} {n : Nat} (h : bytes.length = 16 * n) :
    (generationsOf n bytes).flatMap SafetyId.asBytes = bytes := by
  induction n generalizing bytes with
  | zero =>
    obtain rfl := length_eq_zero_iff.mp h
    rfl
  | succ n ih =>
    have htake : (bytes.take 16).length = 16 := length_take_of_le (by omega)
    have hlt : ofBeBytes (bytes.take 16) < 2 ^ 128 := by
      have hlt := ofBeBytes_lt (bytes.take 16)
      rw [htake] at hlt
      exact hlt
    have hhead : SafetyId.asBytes (s := .databaseGeneration)
        ⟨BitVec.ofNat 128 (ofBeBytes (bytes.take 16))⟩ = bytes.take 16 := by
      have hback := beBytes_ofBeBytes (bytes.take 16)
      rw [htake] at hback
      rw [SafetyId.asBytes, BitVec.toNat_ofNat, Nat.mod_eq_of_lt hlt, hback]
    have hdrop : (bytes.drop 16).length = 16 * n := by
      rw [length_drop]
      omega
    rw [generationsOf, flatMap_cons, hhead, ih hdrop, take_append_drop]

namespace WitnessStateV1

def lineageBytes (state : WitnessStateV1) : Bytes :=
  state.generationLineageState.flatMap SafetyId.asBytes

/-- The encoding, with `slot` in the place of the archive's own. -/
def bytesWith (state : WitnessStateV1) (slot : Bytes) : Bytes :=
  field state.lineageBytes ++ field slot ++ field [] ++
    Lib.optionalField (state.targetActivationPlan.map TargetActivationPlan.canonicalBytes) ++
    Lib.optionalField (state.restoreAttemptProgress.map RestoreAttemptProgress.canonicalBytes) ++
    markerBytes state.targetActivationStarted

omit [Crypto] in
theorem bytesWith_canonicalBytes (state : WitnessStateV1) :
    state.bytesWith state.backupArchiveState.canonicalBytes = state.canonicalBytes := by
  cases hmarker : state.targetActivationStarted <;>
    simp [bytesWith, canonicalBytes, lineageBytes, markerBytes, hmarker]

omit [Crypto] in
theorem length_lineageBytes (state : WitnessStateV1) :
    state.lineageBytes.length = 16 * state.generationLineageState.length := by
  rw [lineageBytes]
  induction state.generationLineageState with
  | nil => rfl
  | cons id ids ih =>
    rw [flatMap_cons, length_append, ih, id.length_asBytes, length_cons]
    omega

theorem fromCanonicalBytes_eq_ok {state : WitnessStateV1} :
    fromCanonicalBytes s = .ok state ↔
      ∃ slot, (state.lineageBytes.length < 256 ^ 8 ∧ slot.length < 256 ^ 8) ∧
        BackupArchiveStateV1.fromCanonicalBytes slot = .ok state.backupArchiveState ∧
        s = state.bytesWith slot := by
  simp only [fromCanonicalBytes, decode, whole_eq_ok, Decoder.bind_eq_ok,
    fieldBytes_eq_ok,
    optionalPlan_eq_ok, optionalProgress_eq_ok, finish_eq_ok]
  constructor
  · intro h
    obtain ⟨_, lineage, _, ⟨hlineage, rfl⟩, slot, _, ⟨hslot, rfl⟩, retired, _, ⟨-, rfl⟩, plan, _,
      rfl, progress, _, rfl, marker, _, hmarker, ⟨⟩, _, ⟨rfl, rfl⟩, h⟩ := h
    obtain rfl := activationMarker_finish.mp hmarker
    split at h
    · cases (check_eq_ok.mp h).1
    · next hsixteen =>
      obtain ⟨archive, _, harchive, hstate⟩ := Decoder.bind_eq_ok.mp h
      obtain ⟨hslots, rfl⟩ := check_eq_ok.mp harchive
      obtain ⟨rfl, hdecode⟩ := archiveSlots_eq_ok.mp hslots
      obtain ⟨rfl, -⟩ := pure_eq_ok.mp hstate
      have hback : (generationsOf (lineage.length / 16) lineage).flatMap SafetyId.asBytes =
          lineage := flatMap_generationsOf (by omega)
      refine ⟨slot, ⟨?_, hslot⟩, hdecode, ?_⟩
      · rw [lineageBytes, hback]
        exact hlineage
      · simp only [bytesWith, lineageBytes, hback, append_assoc]
  · intro h
    obtain ⟨slot, ⟨hlineage, hslot⟩, hdecode, rfl⟩ := h
    have hlen := state.length_lineageBytes
    have hpos := length_pos_iff.mpr state.lineage_ne
    have hsixteen : ¬ (state.lineageBytes.length < 16 ∨ state.lineageBytes.length % 16 ≠ 0) := by
      omega
    refine ⟨[], state.lineageBytes, _, ⟨hlineage, ?_⟩, slot, _, ⟨hslot, rfl⟩, [], _,
      ⟨by decide, rfl⟩, state.targetActivationPlan, _, rfl, state.restoreAttemptProgress, _, rfl,
      state.targetActivationStarted, [], activationMarker_finish.mpr rfl, (), [], ⟨rfl, rfl⟩, ?_⟩
    · simp only [bytesWith, append_assoc]
    · rw [dif_neg hsixteen, Decoder.bind_eq_ok]
      refine ⟨state.backupArchiveState, [], check_eq_ok.mpr
        ⟨archiveSlots_eq_ok.mpr ⟨rfl, hdecode⟩, rfl⟩, Decoder.pure_eq_ok.mpr ⟨?_, rfl⟩⟩
      refine WitnessStateV1.ext ?_ rfl rfl rfl rfl
      show generationsOf (state.lineageBytes.length / 16) state.lineageBytes = _
      rw [hlen, Nat.mul_div_cancel_left _ (by decide)]
      exact generationsOf_flatMap _

end WitnessStateV1

end

/-! ## The bootstrap binding -/

namespace SafetyBootstrapBinding

def canonicalBytes (binding : SafetyBootstrapBinding) : Bytes :=
  field (ascii "vestrace-installation-safety-bootstrap-v1") ++
    field binding.installationId.asBytes ++ field binding.fingerprintKeyId.asBytes ++
    field (beBytes 32 binding.continuityProof.bits.toNat) ++
    field (beBytes 32 binding.journalPublicKey.bits.toNat) ++
    field (beBytes 32 binding.witnessPublicKey.bits.toNat)

def fromCanonicalBytes : Bytes → Except InstallationSafetyError SafetyBootstrapBinding :=
  Decoder.whole do
    domain .malformed (ascii "vestrace-installation-safety-bootstrap-v1")
    let installationId ← uuid .malformed .installation
    let fingerprintKeyId ← uuid .malformed .fingerprintKey
    let continuityProof ← fixed .malformed 32 256
    let journalPublicKey ← fixed .malformed 32 256
    let witnessPublicKey ← fixed .malformed 32 256
    Decoder.finish .malformed
    return ⟨installationId, fingerprintKeyId, ⟨continuityProof⟩, ⟨journalPublicKey⟩,
      ⟨witnessPublicKey⟩⟩

variable {s : Bytes}

theorem fromCanonicalBytes_eq_ok {binding : SafetyBootstrapBinding} :
    fromCanonicalBytes s = .ok binding ↔ s = binding.canonicalBytes := by
  have hdomain : (ascii "vestrace-installation-safety-bootstrap-v1").length < 256 ^ 8 := by decide
  simp only [fromCanonicalBytes, whole_eq_ok, Decoder.bind_eq_ok, domain_eq_ok hdomain,
    uuid_eq_ok, fixed32_eq_ok, finish_eq_ok, Decoder.pure_eq_ok]
  constructor
  · intro h
    obtain ⟨_, ⟨⟩, _, rfl, _, _, rfl, _, _, rfl, _, _, rfl, _, _, rfl, _, _, rfl, ⟨⟩, _, ⟨rfl, rfl⟩,
      rfl, rfl⟩ := h
    simp [canonicalBytes]
  · intro h
    subst h
    refine ⟨[], (), _, ?_, _, _, rfl, _, _, rfl, _, _, rfl, _, _, rfl, _, [],
      (append_nil _).symm, (), [], ⟨rfl, rfl⟩, rfl, rfl⟩
    simp [canonicalBytes]

end SafetyBootstrapBinding

/-! ## Journal entries -/

def SafetyEventKind.fromCode (value : UInt8) : Except InstallationSafetyError SafetyEventKind :=
  match value.toNat with
  | 0 => .ok .installationInitialized
  | 1 => .ok .generationRegistered
  | 2 => .ok .archiveCheckpointCommitted
  | 3 => .ok .backupSetStarted
  | 4 => .ok .archiveRestoreHoldAcquired
  | 5 => .ok .archiveSealingStarted
  | 6 => .ok .archiveSealed
  | 7 => .ok .managedBackupDeletionPrepared
  | 8 => .ok .preparedArchiveKeyErasure
  | 9 => .ok .archiveKeyErased
  | 10 => .ok .managedBackupDeleted
  | 11 => .ok .targetActivationPlanned
  | 12 => .ok .restoreTerminalRecorded
  | 13 => .ok .restoreAttemptPrepared
  | 14 => .ok .sourceFreezeRecorded
  | 15 => .ok .targetActivating
  | _ => .error .malformed

theorem SafetyEventKind.fromCode_eq_ok {kind : SafetyEventKind} {value : UInt8} :
    fromCode value = .ok kind ↔ value = kind.code := by
  constructor
  · intro h
    unfold fromCode at h
    split at h <;> cases h <;> exact UInt8.toNat_inj.mp ‹_›
  · intro h
    subst h
    cases kind <;> rfl

namespace SignedJournalEntry

def bytesWith (input : JournalEntryToSign) (signerPublicKey : JournalPublicKey) (state : Bytes) :
    Bytes :=
  field (ascii "vestrace-installation-safety-journal-v1") ++ field input.installationId.asBytes ++
    field input.fingerprintKeyId.asBytes ++ field (beBytes 32 input.continuityProof.bits.toNat) ++
    field (beBytes 16 input.requestId.asUuid.toNat) ++ beBytes 8 input.sequence.toNat ++
    field input.previousDigest.asBytes ++ [input.eventKind.code] ++
    field input.generationId.asBytes ++ beBytes 8 input.activationEpoch.toNat ++
    field state ++ field (beBytes 32 signerPublicKey.bits.toNat)

theorem canonicalBytes_eq (entry : SignedJournalEntry) :
    entry.canonicalBytes = bytesWith entry.toJournalEntryToSign entry.signerPublicKey
      entry.state.canonicalBytes := rfl

variable [Crypto]

def parse : Bytes → Except InstallationSafetyError (JournalEntryToSign × JournalPublicKey) :=
  Decoder.whole do
    domain .malformed (ascii "vestrace-installation-safety-journal-v1")
    let installationId ← uuid .malformed .installation
    let fingerprintKeyId ← uuid .malformed .fingerprintKey
    let continuityProof ← fixed .malformed 32 256
    let requestId ← fixed .malformed 16 128
    let sequence ← Decoder.u64 .malformed
    let previousDigest ← CanonicalDecoder.digest .malformed
    let eventKind ← Decoder.check (SafetyEventKind.fromCode (← Decoder.u8 .malformed))
    let generationId ← uuid .malformed .databaseGeneration
    let activationEpoch ← Decoder.u64 .malformed
    let state ← Decoder.check
      (WitnessStateV1.fromCanonicalBytes (← Decoder.fieldBytes .malformed))
    let signerPublicKey ← fixed .malformed 32 256
    Decoder.finish .malformed
    return ⟨⟨installationId, fingerprintKeyId, ⟨continuityProof⟩, ⟨requestId⟩, sequence,
      previousDigest, eventKind, generationId, activationEpoch, state⟩, ⟨signerPublicKey⟩⟩

def fromCanonicalBytesAndSignature (bytes : Bytes) (signature : BitVec 512) :
    Except InstallationSafetyError SignedJournalEntry := do
  let (input, signerPublicKey) ← parse bytes
  let entry : SignedJournalEntry := ⟨input, signerPublicKey, signature⟩
  entry.verify
  return entry

theorem parse_eq_ok {s : Bytes} {key : JournalPublicKey}
    {input : JournalEntryToSign} : parse s = .ok (input, key) ↔
      ∃ state : Bytes, state.length < 256 ^ 8 ∧
        WitnessStateV1.fromCanonicalBytes state = .ok input.state ∧
        s = bytesWith input key state := by
  have hdomain : (ascii "vestrace-installation-safety-journal-v1").length < 256 ^ 8 := by decide
  simp only [parse, whole_eq_ok, Decoder.bind_eq_ok, domain_eq_ok hdomain, uuid_eq_ok,
    fixed32_eq_ok, fixed16_eq_ok, u64_eq_ok, u8_eq_ok, digest_eq_ok,
    check_eq_ok, SafetyEventKind.fromCode_eq_ok, fieldBytes_eq_ok,
    finish_eq_ok, Decoder.pure_eq_ok]
  constructor
  · intro h
    obtain ⟨_, ⟨⟩, _, rfl, _, _, rfl, _, _, rfl, _, _, rfl, _, _, rfl, _, _, rfl, _, _, rfl, _, _,
      rfl, _, _, ⟨rfl, rfl⟩, _, _, rfl, _, _, rfl, state, _, ⟨hlen, rfl⟩, _, _, ⟨hstate, rfl⟩, _, _,
      rfl, ⟨⟩, _, ⟨rfl, rfl⟩, hvalue, rfl⟩ := h
    obtain ⟨rfl, rfl⟩ := Prod.mk.inj hvalue
    refine ⟨state, hlen, hstate, ?_⟩
    simp [bytesWith]
  · intro h
    obtain ⟨state, hlen, hstate, rfl⟩ := h
    refine ⟨[], (), _, ?_, _, _, rfl, _, _, rfl, _, _, rfl, _, _, rfl, _, _, rfl, _, _, rfl, _, _,
      rfl, _, _, ⟨rfl, rfl⟩, _, _, rfl, _, _, rfl, state, _, ⟨hlen, rfl⟩, _, _, ⟨hstate, rfl⟩,
      key.bits, [], (append_nil _).symm, (), [], ⟨rfl, rfl⟩, rfl, rfl⟩
    simp [bytesWith]

theorem fromCanonicalBytesAndSignature_eq_ok {s : Bytes} {entry : SignedJournalEntry}
    {signature : BitVec 512} :
    fromCanonicalBytesAndSignature s signature = .ok entry ↔
      parse s = .ok (entry.toJournalEntryToSign, entry.signerPublicKey) ∧
        entry.signature = signature ∧ entry.verify = .ok () := by
  simp only [fromCanonicalBytesAndSignature, bind_eq_ok, pure_eq_ok]
  constructor
  · intro h
    obtain ⟨⟨input, key⟩, hparse, ⟨⟩, hverify, rfl⟩ := h
    exact ⟨hparse, rfl, hverify⟩
  · intro h
    obtain ⟨hparse, rfl, hverify⟩ := h
    exact ⟨_, hparse, (), hverify, rfl⟩

end SignedJournalEntry

/-! ## Receipts -/

namespace WitnessReceipt

def bytesWith (receipt : WitnessReceipt) (state : Bytes) : Bytes :=
  field (ascii "vestrace-installation-witness-receipt-v1") ++
    field receipt.installationId.asBytes ++ field receipt.fingerprintKeyId.asBytes ++
    field (beBytes 32 receipt.continuityProof.bits.toNat) ++ beBytes 8 receipt.sequence.toNat ++
    field receipt.journalDigest.asBytes ++ field receipt.generationId.asBytes ++
    beBytes 8 receipt.activationEpoch.toNat ++ field state ++
    field (beBytes 32 receipt.witnessPublicKey.bits.toNat)

theorem canonicalBytes_eq (receipt : WitnessReceipt) :
    receipt.canonicalBytes = receipt.bytesWith receipt.state.canonicalBytes := rfl

variable [Crypto] {receipt : WitnessReceipt}

def parse (signature : BitVec 512) : Bytes → Except InstallationSafetyError WitnessReceipt :=
  Decoder.whole do
    domain .malformed (ascii "vestrace-installation-witness-receipt-v1")
    let installationId ← uuid .malformed .installation
    let fingerprintKeyId ← uuid .malformed .fingerprintKey
    let continuityProof ← fixed .malformed 32 256
    let sequence ← Decoder.u64 .malformed
    let journalDigest ← CanonicalDecoder.digest .malformed
    let generationId ← uuid .malformed .databaseGeneration
    let activationEpoch ← Decoder.u64 .malformed
    let state ← Decoder.check
      (WitnessStateV1.fromCanonicalBytes (← Decoder.fieldBytes .malformed))
    let witnessPublicKey ← fixed .malformed 32 256
    Decoder.finish .malformed
    return ⟨installationId, fingerprintKeyId, ⟨continuityProof⟩, sequence, journalDigest,
      generationId, activationEpoch, state, ⟨witnessPublicKey⟩, signature⟩

/-- It verifies against the key it names itself. -/
def fromCanonicalBytesAndSignature (bytes : Bytes) (signature : BitVec 512) :
    Except InstallationSafetyError WitnessReceipt := do
  let receipt ← parse signature bytes
  receipt.verifyAgainst receipt.witnessPublicKey
  return receipt

theorem parse_eq_ok {s : Bytes} {signature : BitVec 512} : parse signature s = .ok receipt ↔
      receipt.signature = signature ∧ ∃ state : Bytes, state.length < 256 ^ 8 ∧
        WitnessStateV1.fromCanonicalBytes state = .ok receipt.state ∧
        s = receipt.bytesWith state := by
  have hdomain : (ascii "vestrace-installation-witness-receipt-v1").length < 256 ^ 8 := by decide
  simp only [parse, whole_eq_ok, Decoder.bind_eq_ok, domain_eq_ok hdomain, uuid_eq_ok,
    fixed32_eq_ok, u64_eq_ok, digest_eq_ok, check_eq_ok, fieldBytes_eq_ok,
    finish_eq_ok, Decoder.pure_eq_ok]
  constructor
  · intro h
    obtain ⟨_, ⟨⟩, _, rfl, _, _, rfl, _, _, rfl, _, _, rfl, _, _, rfl, _, _, rfl, _, _, rfl, _, _,
      rfl, state, _, ⟨hlen, rfl⟩, _, _, ⟨hstate, rfl⟩, _, _, rfl, ⟨⟩, _, ⟨rfl, rfl⟩, rfl, rfl⟩ := h
    refine ⟨rfl, state, hlen, hstate, ?_⟩
    simp [bytesWith]
  · intro h
    obtain ⟨rfl, state, hlen, hstate, rfl⟩ := h
    refine ⟨[], (), _, ?_, _, _, rfl, _, _, rfl, _, _, rfl, _, _, rfl, _, _, rfl, _, _, rfl, _, _,
      rfl, state, _, ⟨hlen, rfl⟩, _, _, ⟨hstate, rfl⟩, receipt.witnessPublicKey.bits, [],
      (append_nil _).symm, (), [], ⟨rfl, rfl⟩, rfl, rfl⟩
    simp [bytesWith]

theorem fromCanonicalBytesAndSignature_eq_ok {s : Bytes} {signature : BitVec 512} :
    fromCanonicalBytesAndSignature s signature = .ok receipt ↔
      parse signature s = .ok receipt ∧
        receipt.verifyAgainst receipt.witnessPublicKey = .ok () := by
  simp only [fromCanonicalBytesAndSignature, bind_eq_ok, pure_eq_ok]
  constructor
  · intro h
    obtain ⟨_, hparse, ⟨⟩, hverify, rfl⟩ := h
    exact ⟨hparse, hverify⟩
  · intro h
    exact ⟨receipt, h.1, (), h.2, rfl⟩

end WitnessReceipt

end Vestrace.Installation
