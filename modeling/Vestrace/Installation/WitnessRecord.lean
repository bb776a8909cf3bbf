import Vestrace.Installation.WitnessCodec

/-!
# The witness record

The one file of the host witness: an array of five byte strings in CBOR. Not every receipt that is
written can be read again: a state that was accepted need not pass the archive decoder's checks,
and the length of a string is cut to 32 bits. But what is read is what was written
(`eq_of_decodeRecord`): a receipt cut short is no receipt.
-/

namespace Vestrace.Installation

open Lib CanonicalDecoder List
open Decoder hiding bind_eq_ok pure_eq_ok

variable {b t read : Bytes} {binding : SafetyBootstrapBinding}

/-! ## Errors -/

def InstallationSafetyError.toString : InstallationSafetyError → String
  | malformed => "installation safety payload is malformed"
  | invalidSignature => "installation safety signature is invalid"
  | identityMismatch => "installation safety identity does not match"
  | sequenceConflict => "installation safety sequence is not the next sequence"
  | invalidStateTransition => "installation safety witness state is not monotonic"

inductive WitnessError where
  | conflict
  | invalid (error : InstallationSafetyError)
  | unavailable (message : String)
  deriving DecidableEq

def unavailableFrom {α : Type} (x : Except InstallationSafetyError α) : Except WitnessError α :=
  x.mapError fun error => .unavailable error.toString

/-! ## The record -/

/-- What the record is of: the source's two options, of which exactly one is set. -/
inductive StoredState where
  | genesis (generation : DatabaseGenerationId)
  | receipt (receipt : WitnessReceipt)

structure StoredWitnessRecord where
  binding : SafetyBootstrapBinding
  state : StoredState

variable {other record : StoredWitnessRecord}

def witnessRecordDomain : Bytes := ascii "vestrace-installation-safety-witness-v1"

/-- A byte string; the length is cut to what the head of the string has room for. -/
@[irreducible] def cborBytes (bytes : Bytes) : Bytes :=
  (if bytes.length ≤ 23 then [0x40 ||| UInt8.ofNat bytes.length]
    else if bytes.length ≤ 255 then 0x58 :: beBytes 1 bytes.length
    else if bytes.length ≤ 65535 then 0x59 :: beBytes 2 bytes.length
    else 0x5a :: beBytes 4 bytes.length) ++ bytes

def signatureBytes (signature : BitVec 512) : Bytes := beBytes 64 signature.toNat

def encodeRecord (record : StoredWitnessRecord) : Bytes :=
  let (generation, receipt, signature) : Bytes × Bytes × Bytes := match record.state with
    | .receipt receipt => ([], receipt.canonicalBytes, signatureBytes receipt.signature)
    | .genesis generation => (generation.asBytes, [], [])
  0x85 :: (cborBytes witnessRecordDomain ++ cborBytes record.binding.canonicalBytes ++
    cborBytes generation ++ cborBytes receipt ++ cborBytes signature)

abbrev CborDecoder := Decoder WitnessError

namespace CborDecoder

def byte : CborDecoder UInt8 := Decoder.u8 (.unavailable "witness record is truncated")

def take (length : Nat) : CborDecoder Bytes :=
  Decoder.take (.unavailable "witness record is truncated") length

def bytes : CborDecoder Bytes := do
  let initial := (← byte).toNat
  if 0x40 ≤ initial ∧ initial ≤ 0x57 then take (initial - 0x40)
  else if initial = 0x58 then take (← byte).toNat
  else if initial = 0x59 then take (ofBeBytes (← take 2))
  else if initial = 0x5a then take (ofBeBytes (← take 4))
  else Decoder.check (.error (.unavailable "witness record has a non-canonical byte string"))

end CborDecoder

section

variable [Crypto]

/-- What the last three strings say. -/
def storedState (generation payload signature : Bytes) : Except WitnessError StoredState :=
  if generation.length = 16 ∧ payload = [] ∧ signature = [] then
    .ok (.genesis ⟨BitVec.ofNat 128 (ofBeBytes generation)⟩)
  else if generation = [] then do
    refuse (signature.length ≠ 64)
      (WitnessError.unavailable "witness receipt signature has the wrong length")
    let receipt ← unavailableFrom (WitnessReceipt.fromCanonicalBytesAndSignature payload
      (BitVec.ofNat 512 (ofBeBytes signature)))
    return .receipt receipt
  else .error (.unavailable "witness record mixes genesis and receipt state")

def decodeRecord : Bytes → Except WitnessError StoredWitnessRecord :=
  Decoder.whole do
    let array ← CborDecoder.byte
    Decoder.check (refuse (array ≠ 0x85)
      (WitnessError.unavailable "witness record has the wrong domain"))
    let name ← CborDecoder.bytes
    Decoder.check (refuse (name ≠ witnessRecordDomain)
      (WitnessError.unavailable "witness record has the wrong domain"))
    let bindingBytes ← CborDecoder.bytes
    let binding ← Decoder.check
      (unavailableFrom (SafetyBootstrapBinding.fromCanonicalBytes bindingBytes))
    let generation ← CborDecoder.bytes
    let payload ← CborDecoder.bytes
    let signature ← CborDecoder.bytes
    Decoder.finish (.unavailable "witness record has trailing bytes")
    let state ← Decoder.check (storedState generation payload signature)
    return ⟨binding, state⟩

end

open CborDecoder

/-! ## What is read is what was written -/

namespace CborDecoder

theorem byte_cons (b : UInt8) (t : Bytes) : byte (b :: t) = .ok (b, t) :=
  u8_eq_ok.mpr rfl

theorem take_append {n : Nat} (h : b.length = n) (t : Bytes) :
    take n (b ++ t) = .ok (b, t) := take_eq_ok.mpr ⟨h, rfl⟩

theorem bytes_cons {initial : UInt8} {s : Bytes} : bytes (initial :: s) =
      (if 0x40 ≤ initial.toNat ∧ initial.toNat ≤ 0x57 then take (initial.toNat - 0x40)
      else if initial.toNat = 0x58 then (do take (← byte).toNat)
      else if initial.toNat = 0x59 then (do take (ofBeBytes (← take 2)))
      else if initial.toNat = 0x5a then (do take (ofBeBytes (← take 4)))
      else Decoder.check (.error (.unavailable
        "witness record has a non-canonical byte string")) : CborDecoder Bytes) s := by
  show (byte (initial :: s) >>= fun result => _) = _
  rw [byte_cons]
  rfl

/-- The length in one, two or four bytes, as the first byte says. -/
theorem bytes_wide {initial : UInt8} {width : Nat}
    (h : (initial, width) ∈ [(0x58, 1), (0x59, 2), (0x5a, 4)]) (n : Nat) (s : Bytes) :
    bytes (initial :: (beBytes width n ++ s)) = take (n % 256 ^ width) s := by
  have hread : ∀ width, (do take (ofBeBytes (← take width)) : CborDecoder Bytes)
      (beBytes width n ++ s) = take (n % 256 ^ width) s := by
    intro width
    show (take width (beBytes width n ++ s) >>= fun result => _) = _
    rw [take_append (length_beBytes width n), ← ofBeBytes_beBytes]
    rfl
  simp only [mem_cons, Prod.mk.injEq, not_mem_nil, or_false] at h
  rcases h with ⟨rfl, rfl⟩ | ⟨rfl, rfl⟩ | ⟨rfl, rfl⟩
  · have hone : beBytes 1 n = [UInt8.ofNat n] := by simp [beBytes]
    have hlen : (UInt8.ofNat n).toNat = n % 256 ^ 1 := UInt8.toNat_ofNat'
    rw [bytes_cons, hone, ← hlen]
    show (byte (UInt8.ofNat n :: s) >>= fun result => take result.1.toNat result.2) = _
    rw [byte_cons]
    rfl
  · rw [bytes_cons]
    exact hread 2
  · rw [bytes_cons]
    exact hread 4

theorem bytes_cborBytes (b t : Bytes) :
    ∃ read rest, b = read ++ rest ∧ bytes (cborBytes b ++ t) = .ok (read, rest ++ t) ∧
      (b.length < 2 ^ 32 → rest = []) := by
  by_cases h23 : b.length ≤ 23
  · have hbyte : ∀ n ≤ 23, (0x40 ||| UInt8.ofNat n).toNat = 0x40 + n := by decide
    have hinitial := hbyte b.length h23
    refine ⟨b, [], (append_nil b).symm, ?_, fun _ => rfl⟩
    rw [cborBytes, if_pos h23, singleton_append, cons_append, bytes_cons,
      if_pos (by omega), hinitial, Nat.add_sub_cancel_left]
    exact take_append rfl t
  · obtain ⟨initial, width, hmem, hcut, hbytes⟩ : ∃ initial width,
        (initial, width) ∈ [((0x58 : UInt8), 1), (0x59, 2), (0x5a, 4)] ∧
        (b.length < 2 ^ 32 → b.length < 256 ^ width) ∧
        cborBytes b = initial :: (beBytes width b.length ++ b) := by
      unfold cborBytes
      by_cases h255 : b.length ≤ 255
      · exact ⟨0x58, 1, by decide, fun _ => by omega, by rw [if_neg h23, if_pos h255]; rfl⟩
      · by_cases h65535 : b.length ≤ 65535
        · exact ⟨0x59, 2, by decide, fun _ => by omega,
            by rw [if_neg h23, if_neg h255, if_pos h65535]; rfl⟩
        · exact ⟨0x5a, 4, by decide, fun h => h,
            by rw [if_neg h23, if_neg h255, if_neg h65535]; rfl⟩
    refine ⟨b.take (b.length % 256 ^ width), b.drop (b.length % 256 ^ width),
      (take_append_drop ..).symm, ?_, fun h => ?_⟩
    · have hread := take_append (length_take_of_le (Nat.mod_le b.length (256 ^ width)))
        (b.drop (b.length % 256 ^ width) ++ t)
      rw [← append_assoc, take_append_drop] at hread
      rw [hbytes, cons_append, append_assoc, bytes_wide hmem]
      exact hread
    · rw [Nat.mod_eq_of_lt (hcut h), drop_length]

/-- The other way round: what is read of a string that was written. -/
theorem of_bytes_cborBytes {t' : Bytes} (h : bytes (cborBytes b ++ t) = .ok (read, t')) :
    ∃ rest, b = read ++ rest ∧ t' = rest ++ t ∧ (b.length < 2 ^ 32 → rest = []) := by
  obtain ⟨read', rest, hsplit, hread, hshort⟩ := bytes_cborBytes b t
  rw [hread] at h
  obtain ⟨rfl, rfl⟩ := Prod.mk.inj (Except.ok.inj h)
  exact ⟨rest, hsplit, rfl, hshort⟩

theorem of_bytes_short {t' : Bytes} (hb : b.length < 2 ^ 32)
    (h : bytes (cborBytes b ++ t) = .ok (read, t')) : read = b ∧ t' = t := by
  obtain ⟨rest, hsplit, rfl, hshort⟩ := of_bytes_cborBytes h
  obtain rfl := hshort hb
  rw [append_nil] at hsplit
  exact ⟨hsplit.symm, rfl⟩

end CborDecoder

namespace WitnessStateV1

variable [Crypto]

omit [Crypto] in
theorem eq_of_lineageBytes {state other : WitnessStateV1}
    (h : state.lineageBytes = other.lineageBytes) :
    state.generationLineageState = other.generationLineageState := by
  have hlen : state.generationLineageState.length = other.generationLineageState.length := by
    have hbytes := congrArg List.length h
    rw [state.length_lineageBytes, other.length_lineageBytes] at hbytes
    omega
  have hback := generationsOf_flatMap state.generationLineageState
  rw [← lineageBytes, h, hlen, lineageBytes, generationsOf_flatMap] at hback
  exact hback.symm

omit [Crypto] in
theorem markerBytes_injective {o o' : Option SafetyJournalDigest}
    (h : markerBytes o = markerBytes o') : o = o' := by
  have hread := activationMarker_finish.mpr h
  rw [activationMarker_finish.mpr rfl] at hread
  exact (Prod.mk.inj (Except.ok.inj hread)).1

theorem eq_of_fromCanonicalBytes_canonicalBytes {state other : WitnessStateV1}
    (hadmissible : Admissible state.backupArchiveState)
    (hlen : state.canonicalBytes.length < 2 ^ 64)
    (h : fromCanonicalBytes state.canonicalBytes = .ok other) : other = state := by
  obtain ⟨slot, ⟨hlineage, hslot⟩, harchive, hbytes⟩ := fromCanonicalBytes_eq_ok.mp h
  rw [← state.bytesWith_canonicalBytes] at hbytes hlen
  have hfits : state.lineageBytes.length < 256 ^ 8 ∧
      state.backupArchiveState.canonicalBytes.length < 256 ^ 8 := by
    simp only [bytesWith, length_append, field] at hlen
    omega
  simp only [bytesWith, append_assoc] at hbytes
  obtain ⟨hids, hbytes⟩ := field_append_inj hfits.1 hlineage hbytes
  obtain ⟨rfl, hrest⟩ := field_append_inj hfits.2 hslot hbytes
  obtain ⟨hplan, hrest⟩ := append_inj optionalPlan_eq_ok (append_cancel_left hrest)
  obtain ⟨hprogress, hmarker⟩ := append_inj optionalProgress_eq_ok hrest
  exact WitnessStateV1.ext (eq_of_lineageBytes hids).symm
    (Installation.eq_of_fromCanonicalBytes_canonicalBytes hadmissible hfits.2 harchive) hplan.symm
    hprogress.symm (markerBytes_injective hmarker).symm

end WitnessStateV1

section

variable [Crypto]

theorem WitnessReceipt.eq_of_parse {receipt other : WitnessReceipt} {signature : BitVec 512}
    {rest : Bytes} (hadmissible : Admissible receipt.state.backupArchiveState)
    (hlen : receipt.canonicalBytes.length < 2 ^ 64) (hread : receipt.canonicalBytes = read ++ rest)
    (h : parse signature read = .ok other) :
    other = { receipt with signature := signature } ∧ rest = [] := by
  obtain ⟨hsignature, state, hstate, hdecode, rfl⟩ := parse_eq_ok.mp h
  have hfits : receipt.state.canonicalBytes.length < 2 ^ 64 := by
    simp only [canonicalBytes_eq, bytesWith, length_append, field] at hlen
    omega
  simp only [canonicalBytes_eq, bytesWith, append_assoc] at hread
  obtain ⟨hinstallation, hread⟩ :=
    append_inj (uuid_eq_ok (e := ())) (append_cancel_left hread)
  obtain ⟨hfingerprint, hread⟩ := append_inj (uuid_eq_ok (e := ())) hread
  obtain ⟨hcontinuity, hread⟩ := append_inj (fixed32_eq_ok (e := ())) hread
  obtain ⟨hsequence, hread⟩ := append_inj (u64_eq_ok (e := ())) hread
  obtain ⟨hdigest, hread⟩ := append_inj (digest_eq_ok (e := ())) hread
  obtain ⟨hgeneration, hread⟩ := append_inj (uuid_eq_ok (e := ())) hread
  obtain ⟨hepoch, hread⟩ := append_inj (u64_eq_ok (e := ())) hread
  obtain ⟨hbytes, hread⟩ := field_append_inj hfits hstate hread
  rw [← append_nil (field _)] at hread
  obtain ⟨hkey, hrest⟩ := append_inj (fixed32_eq_ok (e := ())) hread
  rw [← hbytes] at hdecode
  have hsame := WitnessStateV1.eq_of_fromCanonicalBytes_canonicalBytes hadmissible hfits hdecode
  refine ⟨?_, hrest.symm⟩
  obtain ⟨_, _, ⟨_⟩, _, _, _, _, _, ⟨_⟩, _⟩ := receipt
  obtain ⟨_, _, ⟨_⟩, _, _, _, _, _, ⟨_⟩, _⟩ := other
  simp_all

structure StoredWitnessRecord.Holdable (record : StoredWitnessRecord) : Prop where
  admissible : ∀ receipt, record.state = .receipt receipt →
    Admissible receipt.state.backupArchiveState
  fits : ∀ receipt, record.state = .receipt receipt → receipt.canonicalBytes.length < 2 ^ 64

omit [Crypto] in
theorem SafetyBootstrapBinding.length_canonicalBytes (binding : SafetyBootstrapBinding) :
    binding.canonicalBytes.length = 217 := by
  have hdomain : (ascii "vestrace-installation-safety-bootstrap-v1").length = 41 := by decide
  simp [canonicalBytes, field, hdomain]

omit [Crypto] in
theorem ofNat_signatureBytes (signature : BitVec 512) :
    BitVec.ofNat 512 (ofBeBytes (signatureBytes signature)) = signature := by
  have hlt : signature.toNat < 256 ^ 64 := by
    rw [show 256 = 2 ^ 8 from rfl, ← Nat.pow_mul]
    exact signature.isLt
  have hback : ofBeBytes (signatureBytes signature) = signature.toNat := by
    rw [signatureBytes, ofBeBytes_beBytes, Nat.mod_eq_of_lt hlt]
  rw [hback, BitVec.ofNat_toNat, BitVec.setWidth_eq]

omit [Crypto] in
theorem encodeRecord_genesis (binding : SafetyBootstrapBinding) (id : DatabaseGenerationId) :
    encodeRecord ⟨binding, .genesis id⟩ = 0x85 :: (cborBytes witnessRecordDomain ++
      (cborBytes binding.canonicalBytes ++ (cborBytes id.asBytes ++ (cborBytes [] ++
        (cborBytes [] ++ []))))) := by
  simp only [encodeRecord, append_assoc, append_nil]

omit [Crypto] in
theorem encodeRecord_receipt (binding : SafetyBootstrapBinding) (receipt : WitnessReceipt) :
    encodeRecord ⟨binding, .receipt receipt⟩ = 0x85 :: (cborBytes witnessRecordDomain ++
      (cborBytes binding.canonicalBytes ++ (cborBytes [] ++ (cborBytes receipt.canonicalBytes ++
        (cborBytes (signatureBytes receipt.signature) ++ []))))) := by
  simp only [encodeRecord, append_assoc, append_nil]

omit [Crypto] in
theorem SafetyBootstrapBinding.length_canonicalBytes_lt (binding : SafetyBootstrapBinding) :
    binding.canonicalBytes.length < 2 ^ 32 := by
  rw [binding.length_canonicalBytes]
  decide

/-- The first two strings of a record, whatever follows. -/
theorem decodeRecord_cons_eq_ok (h : decodeRecord (0x85 :: (cborBytes witnessRecordDomain ++
      (cborBytes binding.canonicalBytes ++ t))) = .ok record) :
    record.binding = binding ∧ ∃ t₄ t₅ generation payload signature,
      bytes t = .ok (generation, t₄) ∧ bytes t₄ = .ok (payload, t₅) ∧
      bytes t₅ = .ok (signature, []) ∧
      storedState generation payload signature = .ok record.state := by
  have hshort : witnessRecordDomain.length < 2 ^ 32 := by decide
  simp only [decodeRecord, whole_eq_ok, Decoder.bind_eq_ok, byte,
    u8_eq_ok, check_eq_ok, refuse_eq_ok, not_not, unavailableFrom, mapError_eq_ok,
    finish_eq_ok, Decoder.pure_eq_ok] at h
  obtain ⟨_, _, t₁, ht₁, ⟨⟩, _, ⟨rfl, rfl⟩, _, t₂, hname, ⟨⟩, _, ⟨hdomain, rfl⟩, bindingBytes, t₃,
    hbindingBytes, _, _, ⟨hbinding, rfl⟩, generation, t₄, hgeneration, payload, t₅, hpayload,
    signature, _, hsignature, ⟨⟩, _, ⟨rfl, rfl⟩, state, _, ⟨hstate, rfl⟩, rfl, rfl⟩ := h
  rw [hdomain] at hname
  obtain rfl := tail_eq_of_cons_eq ht₁
  obtain ⟨-, rfl⟩ := of_bytes_short hshort hname
  obtain ⟨rfl, rfl⟩ :=
    of_bytes_short binding.length_canonicalBytes_lt hbindingBytes
  rw [SafetyBootstrapBinding.fromCanonicalBytes_eq_ok.mpr rfl] at hbinding
  exact ⟨(Except.ok.inj hbinding).symm, t₄, t₅, generation, payload, signature, hgeneration,
    hpayload, hsignature, hstate⟩

theorem eq_of_decodeRecord_genesis {id : DatabaseGenerationId}
    (h : decodeRecord (encodeRecord ⟨binding, .genesis id⟩) = .ok other) :
    other = ⟨binding, .genesis id⟩ := by
  have hidShort : id.asBytes.length < 2 ^ 32 := by
    rw [id.length_asBytes]
    decide
  have hnil : ([] : Bytes).length < 2 ^ 32 := by decide
  rw [encodeRecord_genesis] at h
  obtain ⟨hbinding, t₄, t₅, generation, payload, signature, hgeneration, hpayload, hsignature,
    hstate⟩ := decodeRecord_cons_eq_ok h
  obtain ⟨rfl, rfl⟩ := of_bytes_short hidShort hgeneration
  obtain ⟨rfl, rfl⟩ := of_bytes_short hnil hpayload
  obtain ⟨rfl, -⟩ := of_bytes_short hnil hsignature
  have hid : ofBeBytes id.asBytes = id.asUuid.toNat := by
    rw [SafetyId.asBytes, ofBeBytes_beBytes]
    exact Nat.mod_eq_of_lt id.asUuid.isLt
  rw [storedState, if_pos ⟨id.length_asBytes, rfl, rfl⟩, hid, BitVec.ofNat_toNat,
    BitVec.setWidth_eq] at hstate
  exact congr (congrArg StoredWitnessRecord.mk hbinding) (Except.ok.inj hstate).symm

theorem eq_of_decodeRecord_receipt {receipt : WitnessReceipt}
    (hadmissible : Admissible receipt.state.backupArchiveState)
    (hfits : receipt.canonicalBytes.length < 2 ^ 64)
    (h : decodeRecord (encodeRecord ⟨binding, .receipt receipt⟩) = .ok other) :
    other = ⟨binding, .receipt receipt⟩ := by
  have hnil : ([] : Bytes).length < 2 ^ 32 := by decide
  have hsignatureShort : (signatureBytes receipt.signature).length < 2 ^ 32 := by
    rw [signatureBytes, length_beBytes]
    decide
  rw [encodeRecord_receipt] at h
  obtain ⟨hbinding, t₄, t₅, generation, payload, signature, hgeneration, hpayload, hsignature,
    hstate⟩ := decodeRecord_cons_eq_ok h
  obtain ⟨rfl, rfl⟩ := of_bytes_short hnil hgeneration
  obtain ⟨rest, hsplit, rfl, -⟩ := of_bytes_cborBytes hpayload
  rw [storedState, if_neg fun h => absurd h.1 (by decide), if_pos rfl] at hstate
  replace hstate := of_unit_bind hstate
  obtain ⟨read, hread, hstate⟩ := bind_eq_ok.mp hstate
  obtain ⟨hparse, -⟩ :=
    WitnessReceipt.fromCanonicalBytesAndSignature_eq_ok.mp (mapError_eq_ok.mp hread)
  -- the receipt was not cut, so its signature stands where it was written
  obtain ⟨rfl, rfl⟩ := WitnessReceipt.eq_of_parse hadmissible hfits hsplit hparse
  obtain ⟨rfl, -⟩ := of_bytes_short hsignatureShort hsignature
  rw [ofNat_signatureBytes] at hstate
  exact congr (congrArg StoredWitnessRecord.mk hbinding) (pure_eq_ok.mp hstate).symm

/-- **What is read of the record is what was written to it.** -/
theorem eq_of_decodeRecord (hrecord : record.Holdable)
    (h : decodeRecord (encodeRecord record) = .ok other) : other = record := by
  obtain ⟨binding, state⟩ := record
  cases state with
  | genesis id => exact eq_of_decodeRecord_genesis h
  | receipt receipt =>
    exact eq_of_decodeRecord_receipt (hrecord.admissible receipt rfl) (hrecord.fits receipt rfl) h

end

end Vestrace.Installation
