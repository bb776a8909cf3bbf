import Vestrace.Installation.ArchiveCodec

/-!
# The archive's format

What the decoder of the archive accepts, said of the bytes. Each routine reads exactly the
encoding of the value it returns (`…_eq_ok`), so one lemma per routine gives both directions.

Of a list of sets or holds the decoder only asks that no id occurs twice. Re-encoding gives the
bytes back exactly for lists in increasing order (`canonicalBytes_eq_iff`).
-/

namespace Vestrace.Installation

open Lib SortedMap BackupArchiveStateV1 List ArchiveObjectDescriptor
open Decoder hiding bind_eq_ok pure_eq_ok

variable {object : ArchiveObjectDescriptor} {cs : List WalArchiveCheckpoint}
  {calls : List ArchiveCall} {c : WalArchiveCheckpoint} {subject : Subject} {value : UInt8}
  {s t : Bytes}

/-! ## Words, flags and codes -/

namespace ArchiveDecoder

theorem u8_eq_ok {b : UInt8} : u8 s = .ok (b, t) ↔ s = b :: t := Decoder.u8_eq_ok

theorem u32_eq_ok {n : UInt32} : u32 s = .ok (n, t) ↔ s = beBytes 4 n.toNat ++ t :=
  Decoder.u32_eq_ok

theorem u64_eq_ok {n : UInt64} : u64 s = .ok (n, t) ↔ s = beBytes 8 n.toNat ++ t :=
  Decoder.u64_eq_ok

theorem usize_eq_ok {n : Nat} : usize s = .ok (n, t) ↔ n < 256 ^ 8 ∧ s = beBytes 8 n ++ t :=
  uint_eq_ok

theorem uuid_eq_ok {id : SafetyId subject} : uuid subject s = .ok (id, t) ↔ s = id.asBytes ++ t :=
  word_eq_ok (g := fun id : SafetyId subject => id.asUuid.toNat)
    (fun id => id.asUuid.isLt) (fun id => by rw [BitVec.ofNat_toNat, BitVec.setWidth_eq])
    fun n hn => Nat.mod_eq_of_lt hn

theorem digest_eq_ok {d : SafetyJournalDigest} : digest s = .ok (d, t) ↔ s = d.asBytes ++ t :=
  word_eq_ok (g := fun d : SafetyJournalDigest => d.bits.toNat)
    (fun d => d.bits.isLt) (fun d => by rw [BitVec.ofNat_toNat, BitVec.setWidth_eq])
    fun n hn => Nat.mod_eq_of_lt hn

theorem field_eq_ok {bytes : Bytes} :
    field s = .ok (bytes, t) ↔ bytes.length < 256 ^ 8 ∧ s = Lib.field bytes ++ t :=
  fieldBytes_eq_ok

theorem bool_eq_ok {b : Bool} : bool s = .ok (b, t) ↔ s = boolByte b ++ t := by
  simp only [bool, Decoder.bind_eq_ok, u8_eq_ok]
  constructor
  · intro h
    obtain ⟨byte, rest, rfl, h⟩ := h
    rcases hbyte : byte.toNat with _ | _ | n <;> rw [hbyte] at h
    · obtain ⟨rfl, rfl⟩ := Decoder.pure_eq_ok.mp h
      obtain rfl : byte = 0 := UInt8.toNat_inj.mp hbyte
      rfl
    · obtain ⟨rfl, rfl⟩ := pure_eq_ok.mp h
      obtain rfl : byte = 1 := UInt8.toNat_inj.mp hbyte
      rfl
    · cases (check_eq_ok.mp h).1
  · intro h
    cases b with
    | false => exact ⟨0, t, h, rfl⟩
    | true => exact ⟨1, t, h, rfl⟩

theorem optional_eq_ok {α : Type} {d : ArchiveDecoder α} {encode : α → Bytes}
    (hd : ∀ {a s t}, d s = .ok (a, t) ↔ s = encode a ++ t) {o : Option α} :
    (do if ← bool then return some (← d) else return none : ArchiveDecoder (Option α)) s =
      .ok (o, t) ↔ s = boolByte o.isSome ++ (o.map encode).getD [] ++ t := by
  simp only [Decoder.bind_eq_ok, bool_eq_ok]
  constructor
  · intro h
    obtain ⟨flag, rest, rfl, h⟩ := h
    cases flag with
    | false =>
      obtain ⟨rfl, rfl⟩ := pure_eq_ok.mp h
      rfl
    | true =>
      simp only [if_true, Decoder.bind_eq_ok, hd, Decoder.pure_eq_ok] at h
      obtain ⟨a, _, rfl, rfl, rfl⟩ := h
      rfl
  · intro h
    subst h
    cases o with
    | none => exact ⟨false, t, rfl, rfl⟩
    | some a =>
      refine ⟨true, encode a ++ t, rfl, ?_⟩
      simp only [if_true, Decoder.bind_eq_ok, hd, Decoder.pure_eq_ok]
      exact ⟨a, t, rfl, rfl, rfl⟩

theorem optionalDigest_eq_ok {d : Option SafetyJournalDigest} :
    optionalDigest s = .ok (d, t) ↔ s = Installation.optionalDigest d ++ t :=
  optional_eq_ok digest_eq_ok

end ArchiveDecoder

theorem BackupSetLifecycle.fromCode_eq_ok {lifecycle : BackupSetLifecycle} :
    fromCode value = .ok lifecycle ↔ value = lifecycle.code := by
  constructor
  · intro h
    unfold fromCode at h
    split at h <;> cases h <;> exact UInt8.toNat_inj.mp ‹_›
  · intro h
    subst h
    cases lifecycle <;> rfl

theorem ArchiveObjectKind.fromCode_eq_ok {kind : ArchiveObjectKind}
    : fromCode value = .ok kind ↔ value = kind.code := by
  constructor
  · intro h
    unfold fromCode at h
    split at h <;> cases h <;> exact UInt8.toNat_inj.mp ‹_›
  · intro h
    subst h
    cases kind <;> rfl

/-! ## Checkpoints and holds -/

theorem ArchiveObjectDescriptor.new_eq_ok {input : ArchiveObjectDescriptorInput} :
    new input = .ok object ↔ object.toArchiveObjectDescriptorInput = input := by
  unfold new
  constructor
  · intro h
    split at h
    · cases h
      rfl
    · cases h
  · intro h
    subst h
    rw [dif_pos ⟨object.ordinal_ne, object.timeline_ne, object.lsn_le, object.length_ne⟩]

namespace ArchiveDecoder

theorem descriptor_eq_ok : descriptor s = .ok (object, t) ↔ s = object.encode ++ t := by
  simp only [descriptor, Decoder.bind_eq_ok, uuid_eq_ok, u8_eq_ok, u32_eq_ok, u64_eq_ok,
    digest_eq_ok, check_eq_ok, ArchiveObjectKind.fromCode_eq_ok,
    new_eq_ok]
  constructor
  · intro h
    obtain ⟨setId, _, rfl, objectId, _, rfl, _, _, rfl, kind, _, ⟨rfl, rfl⟩, ordinal, _, rfl,
      timeline, _, rfl, startLsn, _, rfl, endLsn, _, rfl, ciphertext, _, rfl, plaintext, _, rfl,
      length, _, rfl, predecessor, _, rfl, hobject, rfl⟩ := h
    simp [encode, hobject]
  · intro h
    subst h
    refine ⟨_, _, ?_, _, _, rfl, _, _, rfl, _, _, ⟨rfl, rfl⟩, _, _, rfl, _, _, rfl, _, _, rfl, _, _,
      rfl, _, _, rfl, _, _, rfl, _, _, rfl, _, _, rfl, rfl, rfl⟩
    simp [encode]

theorem checkpoint_eq_ok : checkpoint s = .ok (c, t) ↔ s = c.canonicalBytes ∧ t = [] := by
  have hdomain : WalArchiveCheckpoint.domain.length < 256 ^ 8 := by decide
  simp only [checkpoint, Decoder.bind_eq_ok, field_eq_ok, check_eq_ok, refuse_eq_ok,
    not_not, descriptor_eq_ok, finish_eq_ok, Decoder.pure_eq_ok]
  constructor
  · intro h
    obtain ⟨_, _, ⟨-, rfl⟩, ⟨⟩, _, ⟨rfl, rfl⟩, object, _, rfl, ⟨⟩, _, ⟨rfl, rfl⟩, rfl, rfl⟩ := h
    exact ⟨by rw [append_nil]; rfl, rfl⟩
  · intro h
    obtain ⟨rfl, rfl⟩ := h
    exact ⟨_, _, ⟨hdomain, rfl⟩, (), _, ⟨rfl, rfl⟩, c.object, [], (append_nil _).symm, (), [],
      ⟨rfl, rfl⟩, rfl, rfl⟩

theorem releaseReason_eq_ok {reason : RestoreHoldReleaseReason}
    : releaseReason s = .ok (reason, t) ↔ s = reason.encode ++ t := by
  simp only [releaseReason, Decoder.bind_eq_ok, u8_eq_ok, digest_eq_ok]
  constructor
  · intro h
    obtain ⟨kind, _, rfl, receipt, rest, rfl, h⟩ := h
    rcases hkind : kind.toNat with _ | _ | _ | _ | n <;> rw [hkind] at h
    · obtain ⟨rfl, rfl⟩ := Decoder.pure_eq_ok.mp h
      obtain rfl : kind = 0 := UInt8.toNat_inj.mp hkind
      rfl
    · obtain ⟨rfl, rfl⟩ := pure_eq_ok.mp h
      obtain rfl : kind = 1 := UInt8.toNat_inj.mp hkind
      rfl
    · obtain ⟨rfl, rfl⟩ := pure_eq_ok.mp h
      obtain rfl : kind = 2 := UInt8.toNat_inj.mp hkind
      rfl
    · obtain ⟨rfl, rfl⟩ := pure_eq_ok.mp h
      obtain rfl : kind = 3 := UInt8.toNat_inj.mp hkind
      rfl
    · cases (check_eq_ok.mp h).1
  · intro h
    subst h
    refine ⟨reason.code, _, rfl, reason.receipt, t, rfl, ?_⟩
    cases reason <;> rfl

theorem optionalReason_eq_ok {reason : Option RestoreHoldReleaseReason} :
    optionalReason s = .ok (reason, t) ↔
      s = boolByte reason.isSome ++ (reason.map RestoreHoldReleaseReason.encode).getD [] ++ t :=
  optional_eq_ok releaseReason_eq_ok

end ArchiveDecoder

@[simp] theorem SafetyId.length_asBytes (id : SafetyId subject) :
    id.asBytes.length = 16 := length_beBytes ..

@[simp] theorem SafetyJournalDigest.length_asBytes (d : SafetyJournalDigest) :
    d.asBytes.length = 32 := length_beBytes ..

theorem WalArchiveCheckpoint.length_canonicalBytes (c : WalArchiveCheckpoint) :
    c.canonicalBytes.length = 207 := by
  have hdomain : domain.length = 34 := by decide
  simp [canonicalBytes, Lib.field, encode, hdomain]

/-! ## The counted lists -/

theorem admits_insert {κ β γ : Type} [LinearOrder κ] (P : γ → Prop) (key : β → κ) (val : γ → β)
    {xs : List γ} {m : SortedMap κ β} :
    Decoder.Admits (fun m x => P x ∧ m.get (key (val x)) = none)
        (fun m x => m.insert (key (val x)) (val x)) m xs ↔
      (∀ x ∈ xs, P x) ∧ (xs.map fun x => key (val x)).Nodup ∧
        ∀ x ∈ xs, m.get (key (val x)) = none := by
  induction xs generalizing m with
  | nil => simp [Decoder.Admits]
  | cons x xs ih =>
    rw [Decoder.Admits, ih, map_cons, nodup_cons]
    simp only [forall_mem_cons, mem_map, not_exists, not_and]
    constructor
    · intro h
      obtain ⟨⟨hx, hnew⟩, hxs, hnodup, hrest⟩ := h
      have hne : ∀ y ∈ xs, key (val y) ≠ key (val x) := by
        intro y hy heq
        have hget := hrest y hy
        rw [heq, get_insert_self] at hget
        cases hget
      refine ⟨⟨hx, hxs⟩, ⟨hne, hnodup⟩, hnew, fun y hy => ?_⟩
      rw [← get_insert_ne m (hne y hy) (val x)]
      exact hrest y hy
    · intro h
      obtain ⟨⟨hx, hxs⟩, ⟨hne, hnodup⟩, hnew, hrest⟩ := h
      refine ⟨⟨hx, hnew⟩, hxs, hnodup, fun y hy => ?_⟩
      rw [get_insert_ne m (hne y hy)]
      exact hrest y hy

namespace ArchiveDecoder

variable {setId : BackupSetId}

theorem checkpointRound_reads : Decoder.ReadsItem (checkpointRound setId)
      (fun read c => c.object.setId = setId ∧ read.1 < c.object.ordinal)
      (fun read c => (c.object.ordinal, read.2 ++ [c]))
      fun c : WalArchiveCheckpoint => Lib.field c.canonicalBytes := by
  intro read next s t
  simp only [checkpointRound, Decoder.bind_eq_ok, field_eq_ok, check_eq_ok, refuse_eq_ok,
    not_or, not_not, Decoder.pure_eq_ok]
  constructor
  · intro h
    obtain ⟨_, _, ⟨-, rfl⟩, ⟨c, rest⟩, _, ⟨hread, rfl⟩, ⟨⟩, _, ⟨⟨hset, hle⟩, rfl⟩, rfl, rfl⟩ := h
    obtain ⟨rfl, rfl⟩ := checkpoint_eq_ok.mp hread
    exact ⟨c, ⟨hset, UInt64.not_le.mp hle⟩, rfl, rfl⟩
  · intro h
    obtain ⟨c, ⟨hset, hlt⟩, rfl, rfl⟩ := h
    have hlen : c.canonicalBytes.length < 256 ^ 8 := by
      rw [c.length_canonicalBytes]
      decide
    exact ⟨_, _, ⟨hlen, rfl⟩, (c, []), _, ⟨checkpoint_eq_ok.mpr ⟨rfl, rfl⟩, rfl⟩, (), _,
      ⟨⟨hset, UInt64.not_le.mpr hlt⟩, rfl⟩, rfl, rfl⟩

theorem admits_checkpoints {read : UInt64 × List WalArchiveCheckpoint} :
    Decoder.Admits (fun (read : UInt64 × List WalArchiveCheckpoint) c =>
        c.object.setId = setId ∧ read.1 < c.object.ordinal)
        (fun read c => (c.object.ordinal, read.2 ++ [c])) read cs ↔
      (∀ c ∈ cs, c.object.setId = setId) ∧ (∀ c ∈ cs, read.1 < c.object.ordinal) ∧
        cs.Pairwise fun a b => a.object.ordinal < b.object.ordinal := by
  induction cs generalizing read with
  | nil => simp [Decoder.Admits]
  | cons c cs ih =>
    rw [Decoder.Admits, ih, pairwise_cons, forall_mem_cons, forall_mem_cons]
    constructor
    · intro h
      obtain ⟨⟨hset, hlt⟩, hsets, hbeyond, hrest⟩ := h
      exact ⟨⟨hset, hsets⟩, ⟨hlt, fun d hd => UInt64.lt_trans hlt (hbeyond d hd)⟩, hbeyond, hrest⟩
    · intro h
      obtain ⟨⟨hset, hsets⟩, ⟨hlt, -⟩, hbeyond, hrest⟩ := h
      exact ⟨⟨hset, hlt⟩, hsets, hbeyond, hrest⟩

theorem foldl_checkpoints (read : UInt64 × List WalArchiveCheckpoint)
    (cs : List WalArchiveCheckpoint) :
    (cs.foldl (fun (read : UInt64 × List WalArchiveCheckpoint) c =>
      (c.object.ordinal, read.2 ++ [c])) read).2 = read.2 ++ cs := by
  induction cs generalizing read with
  | nil => exact (append_nil _).symm
  | cons c cs ih => rw [foldl_cons, ih, append_assoc, singleton_append]

theorem checkpoints_eq_ok : checkpoints setId s = .ok (cs, t) ↔
      (cs.length < 256 ^ 8 ∧ (∀ c ∈ cs, c.object.setId = setId) ∧
        cs.Pairwise fun a b => a.object.ordinal < b.object.ordinal) ∧
      s = beBytes 8 cs.length ++ cs.flatMap (fun c => Lib.field c.canonicalBytes) ++ t := by
  -- no ordinal is zero, so the first one is beyond the loop's start
  have hpos : ∀ c : WalArchiveCheckpoint, (0 : UInt64) < c.object.ordinal := fun c =>
    UInt64.pos_iff_ne_zero.mpr c.object.ordinal_ne
  simp only [checkpoints, Decoder.bind_eq_ok, usize_eq_ok, Decoder.pure_eq_ok]
  constructor
  · intro h
    obtain ⟨_, _, ⟨hlen, rfl⟩, _, _, hloop, rfl, rfl⟩ := h
    obtain ⟨cs, rfl, hcs, rfl, rfl⟩ :=
      checkpointRound_reads.times_eq_ok.mp hloop
    obtain ⟨hset, -, hord⟩ := admits_checkpoints.mp hcs
    rw [foldl_checkpoints, nil_append]
    exact ⟨⟨hlen, hset, hord⟩, (append_assoc ..).symm⟩
  · intro h
    obtain ⟨⟨hlen, hset, hord⟩, rfl⟩ := h
    refine ⟨_, _, ⟨hlen, append_assoc ..⟩, _, t,
      checkpointRound_reads.times_eq_ok.mpr ⟨cs, rfl, ?_, rfl, rfl⟩,
      foldl_checkpoints (0, []) cs, rfl⟩
    exact admits_checkpoints.mpr ⟨hset, fun c _ => hpos c, hord⟩

theorem holdRound_reads :
    Decoder.ReadsItem holdRound (fun read hold => True ∧ read.get hold.id = none)
      (fun read hold => read.insert hold.id hold) RestoreHold.encode := by
  intro read next s t
  simp only [holdRound, Decoder.bind_eq_ok, uuid_eq_ok, optionalReason_eq_ok, check_eq_ok,
    refuse_eq_ok, Option.not_isSome_iff_eq_none, Decoder.pure_eq_ok, true_and]
  constructor
  · intro h
    obtain ⟨id, _, rfl, reason, _, rfl, ⟨⟩, _, ⟨hnew, rfl⟩, rfl, rfl⟩ := h
    exact ⟨⟨id, reason⟩, hnew, rfl, by simp [RestoreHold.encode]⟩
  · intro h
    obtain ⟨hold, hnew, rfl, rfl⟩ := h
    exact ⟨hold.id, _, by simp [RestoreHold.encode], hold.releaseReason, _, rfl, (), _,
      ⟨hnew, rfl⟩, rfl, rfl⟩

theorem holds_eq_ok {holds : SortedMap RestoreHoldId RestoreHold} :
    ArchiveDecoder.holds s = .ok (holds, t) ↔
      ∃ list : List RestoreHold, (list.length < 256 ^ 8 ∧ (list.map RestoreHold.id).Nodup) ∧
        holds = .ofList RestoreHold.id list ∧
        s = beBytes 8 list.length ++ list.flatMap RestoreHold.encode ++ t := by
  simp only [ArchiveDecoder.holds, Decoder.bind_eq_ok, usize_eq_ok]
  constructor
  · intro h
    obtain ⟨_, _, ⟨hlen, rfl⟩, hloop⟩ := h
    obtain ⟨list, rfl, hlist, rfl, rfl⟩ :=
      holdRound_reads.times_eq_ok.mp hloop
    obtain ⟨-, hnodup, -⟩ :=
      (admits_insert (fun _ => True) RestoreHold.id fun hold => hold).mp hlist
    exact ⟨list, ⟨hlen, hnodup⟩, rfl, (append_assoc ..).symm⟩
  · intro h
    obtain ⟨list, ⟨hlen, hnodup⟩, rfl, rfl⟩ := h
    refine ⟨_, _, ⟨hlen, append_assoc ..⟩,
      holdRound_reads.times_eq_ok.mpr ⟨list, rfl, ?_, rfl, rfl⟩⟩
    exact (admits_insert (fun _ => True) RestoreHold.id fun hold => hold).mpr
      ⟨fun _ _ => trivial, hnodup, fun _ _ => rfl⟩

end ArchiveDecoder

/-! ## A set as it stands in the bytes -/

structure SetHeader where
  identity : BackupSetIdentity
  lifecycle : BackupSetLifecycle
  deletionRequested : Bool
  deletionPreparation : Option SafetyJournalDigest
  keyErasurePreparation : Option SafetyJournalDigest
  head : ArchiveHead

def SetHeader.encode (header : SetHeader) : Bytes :=
  header.identity.setId.asBytes ++ header.identity.installationId.asBytes ++
    header.identity.generationId.asBytes ++ [header.lifecycle.code] ++
    boolByte header.deletionRequested ++ optionalDigest header.deletionPreparation ++
    optionalDigest header.keyErasurePreparation ++
    beBytes 8 header.head.checkpointOrdinal.toNat ++ header.head.digest.asBytes

def setHeader : ArchiveDecoder SetHeader := do
  let setId ← ArchiveDecoder.uuid .backupSet
  let installationId ← ArchiveDecoder.uuid .installation
  let generationId ← ArchiveDecoder.uuid .databaseGeneration
  let lifecycle ← Decoder.check (BackupSetLifecycle.fromCode (← ArchiveDecoder.u8))
  let deletionRequested ← ArchiveDecoder.bool
  let deletionPreparation ← ArchiveDecoder.optionalDigest
  let keyErasurePreparation ← ArchiveDecoder.optionalDigest
  let checkpointOrdinal ← ArchiveDecoder.u64
  let digest ← ArchiveDecoder.digest
  return ⟨⟨setId, installationId, generationId⟩, lifecycle, deletionRequested,
    deletionPreparation, keyErasurePreparation, ⟨checkpointOrdinal, digest⟩⟩

variable {header : SetHeader}

theorem setHeader_eq_ok : setHeader s = .ok (header, t) ↔ s = header.encode ++ t := by
  simp only [setHeader, Decoder.bind_eq_ok, ArchiveDecoder.uuid_eq_ok, ArchiveDecoder.u8_eq_ok,
    ArchiveDecoder.bool_eq_ok, ArchiveDecoder.optionalDigest_eq_ok, ArchiveDecoder.u64_eq_ok,
    ArchiveDecoder.digest_eq_ok, check_eq_ok, BackupSetLifecycle.fromCode_eq_ok,
    Decoder.pure_eq_ok]
  constructor
  · intro h
    obtain ⟨_, _, rfl, _, _, rfl, _, _, rfl, _, _, rfl, _, _, ⟨rfl, rfl⟩, _, _, rfl, _, _, rfl, _,
      _, rfl, _, _, rfl, _, _, rfl, rfl, rfl⟩ := h
    simp [SetHeader.encode]
  · intro h
    subst h
    refine ⟨header.identity.setId, _, ?_, header.identity.installationId, _, rfl,
      header.identity.generationId, _, rfl, _, _, rfl, header.lifecycle, _, ⟨rfl, rfl⟩,
      header.deletionRequested, _, rfl, header.deletionPreparation, _, rfl,
      header.keyErasurePreparation, _, rfl, header.head.checkpointOrdinal, _, rfl,
      header.head.digest, _, rfl, rfl, rfl⟩
    simp [SetHeader.encode]

theorem SetHeader.encode_append_inj {other : SetHeader}
    (h : header.encode ++ s = other.encode ++ t) : header = other ∧ s = t :=
  append_inj setHeader_eq_ok h

/-- A set as it stands in the bytes, its holds in the order they are listed. -/
structure SetRecord extends SetHeader where
  checkpoints : List WalArchiveCheckpoint
  holds : List RestoreHold

variable {records : List SetRecord} {header : SetHeader}

namespace SetRecord

def encode (record : SetRecord) : Bytes :=
  record.toSetHeader.encode ++ beBytes 8 record.checkpoints.length ++
    record.checkpoints.flatMap (fun c => field c.canonicalBytes) ++
    beBytes 8 record.holds.length ++ record.holds.flatMap RestoreHold.encode

def state (record : SetRecord) : BackupSetState where
  identity := record.identity
  lifecycle := record.lifecycle
  deletionRequested := record.deletionRequested
  deletionPreparation := record.deletionPreparation
  keyErasurePreparation := record.keyErasurePreparation
  head := record.head
  checkpoints := record.checkpoints
  holds := .ofList RestoreHold.id record.holds

structure Valid [Crypto] (record : SetRecord) : Prop where
  checkpointCount : record.checkpoints.length < 256 ^ 8
  objects : ∀ c ∈ record.checkpoints, c.object.setId = record.identity.setId
  ordinals : record.checkpoints.Pairwise fun a b => a.object.ordinal < b.object.ordinal
  chain : checkChain record.head record.checkpoints = .ok ()
  preparations : checkPreparations record.lifecycle record.deletionPreparation
    record.keyErasurePreparation = .ok ()
  holdCount : record.holds.length < 256 ^ 8
  holdIds : (record.holds.map RestoreHold.id).Nodup

end SetRecord

def BackupSetState.record (state : BackupSetState) : SetRecord where
  identity := state.identity
  lifecycle := state.lifecycle
  deletionRequested := state.deletionRequested
  deletionPreparation := state.deletionPreparation
  keyErasurePreparation := state.keyErasurePreparation
  head := state.head
  checkpoints := state.checkpoints
  holds := state.holds.values

theorem BackupSetState.encode_record (state : BackupSetState) :
    state.record.encode = state.encode := by
  simp [SetRecord.encode, SetHeader.encode, record, encode, values, len]

/-! ## The whole slot -/

def slotOf (records : List SetRecord) : Bytes :=
  archiveStateVersion :: (beBytes 8 records.length ++ records.flatMap SetRecord.encode)

def archiveOf (records : List SetRecord) : BackupArchiveStateV1 :=
  ⟨.ofList (fun state => state.identity.setId) (records.map SetRecord.state)⟩

def recordsOf (archive : BackupArchiveStateV1) : List SetRecord :=
  archive.sets.values.map BackupSetState.record

theorem slotOf_recordsOf (archive : BackupArchiveStateV1) :
    slotOf (recordsOf archive) = archive.canonicalBytes := by
  have hlen : archive.sets.values.length = archive.sets.len := length_map _
  have hencode : (fun state : BackupSetState => state.record.encode) = BackupSetState.encode :=
    funext BackupSetState.encode_record
  rw [slotOf, recordsOf, length_map, hlen, flatMap_map, hencode, canonicalBytes]

theorem archiveOf_recordsOf {archive : BackupArchiveStateV1}
    (hkeys : ∀ set state, archive.sets.get set = some state → state.identity.setId = set)
    (hholdKeys : ∀ set state, archive.sets.get set = some state →
      ∀ id hold, state.holds.get id = some hold → hold.id = id) :
    archiveOf (recordsOf archive) = archive := by
  have hstate : ∀ state ∈ archive.sets.values, state.record.state = state := by
    intro state hmem
    obtain ⟨set, hget⟩ := mem_values.mp hmem
    rw [SetRecord.state, BackupSetState.record, ofList_values (hholdKeys set state hget)]
  have hstates : (recordsOf archive).map SetRecord.state = archive.sets.values := by
    rw [recordsOf, map_map]
    exact (map_congr_left hstate).trans (map_id _)
  rw [archiveOf, hstates, ofList_values hkeys]

theorem SetRecord.record_state {record : SetRecord}
    (h : record.holds.Pairwise fun a b => a.id < b.id) : record.state.record = record := by
  rw [BackupSetState.record, state, values_ofList h]

structure ListedInOrder (records : List SetRecord) : Prop where
  sets : records.Pairwise fun a b => a.identity.setId < b.identity.setId
  holds : ∀ record ∈ records, record.holds.Pairwise fun a b => a.id < b.id

theorem canonicalBytes_archiveOf (h : ListedInOrder records) :
    (archiveOf records).canonicalBytes = slotOf records := by
  have hsorted : (records.map SetRecord.state).Pairwise fun a b =>
      a.identity.setId < b.identity.setId := pairwise_map.mpr h.sets
  have hrecords : recordsOf (archiveOf records) = records := by
    rw [recordsOf, archiveOf, values_ofList hsorted, map_map]
    exact map_congr_left (fun record hrecord => SetRecord.record_state (h.holds record hrecord))
      |>.trans (map_id records)
  rw [← slotOf_recordsOf, hrecords]

/-! ## What the decoder lets through -/

section

variable [Crypto] {archive : BackupArchiveStateV1} {set : BackupSetId} {state : BackupSetState}
  {start : ArchiveHead}

theorem setRound_eq (read : SortedMap BackupSetId BackupSetState) :
    setRound read = (do
      let header ← setHeader
      let checkpoints ← ArchiveDecoder.checkpoints header.identity.setId
      check (checkChain header.head checkpoints)
      check (checkPreparations header.lifecycle header.deletionPreparation
        header.keyErasurePreparation)
      let holds ← ArchiveDecoder.holds
      check (refuse ((read.get header.identity.setId).isSome = true) .malformed)
      return read.insert header.identity.setId
        { identity := header.identity, lifecycle := header.lifecycle,
          deletionRequested := header.deletionRequested,
          deletionPreparation := header.deletionPreparation,
          keyErasurePreparation := header.keyErasurePreparation, head := header.head,
          checkpoints, holds }) := by
  simp only [setRound, setHeader, bind_assoc, pure_bind]

theorem setRound_reads : Decoder.ReadsItem setRound
      (fun read record => record.Valid ∧ read.get record.state.identity.setId = none)
      (fun read record => read.insert record.state.identity.setId record.state)
      SetRecord.encode := by
  intro read next s t
  simp only [setRound_eq, Decoder.bind_eq_ok, setHeader_eq_ok, ArchiveDecoder.checkpoints_eq_ok,
    ArchiveDecoder.holds_eq_ok, check_eq_ok, refuse_eq_ok, Option.not_isSome_iff_eq_none,
    Decoder.pure_eq_ok]
  constructor
  · intro h
    obtain ⟨header, _, rfl, cs, _, ⟨⟨hcount, hobjects, hordinals⟩, rfl⟩, ⟨⟩, _, ⟨hchain, rfl⟩,
      ⟨⟩, _, ⟨hprep, rfl⟩, _, _, ⟨list, ⟨hholdCount, hids⟩, rfl, rfl⟩, ⟨⟩, _, ⟨hnew, rfl⟩, rfl,
      rfl⟩ := h
    refine ⟨⟨header, cs, list⟩,
      ⟨⟨hcount, hobjects, hordinals, hchain, hprep, hholdCount, hids⟩, hnew⟩, rfl, ?_⟩
    simp only [SetRecord.encode, append_assoc]
  · intro h
    obtain ⟨record, ⟨hvalid, hnew⟩, rfl, rfl⟩ := h
    refine ⟨record.toSetHeader, _, ?_, record.checkpoints, _,
      ⟨⟨hvalid.checkpointCount, hvalid.objects, hvalid.ordinals⟩, rfl⟩, (), _,
      ⟨hvalid.chain, rfl⟩, (), _, ⟨hvalid.preparations, rfl⟩, _, _,
      ⟨record.holds, ⟨hvalid.holdCount, hvalid.holdIds⟩, rfl, rfl⟩, (), _, ⟨hnew, rfl⟩, rfl, rfl⟩
    simp only [SetRecord.encode, append_assoc]

structure Listed (records : List SetRecord) : Prop where
  count : records.length < 256 ^ 8
  valid : ∀ record ∈ records, record.Valid
  ids : (records.map fun record => record.identity.setId).Nodup

theorem decodeSets_eq_ok : decodeSets s = .ok (archive, t) ↔
      (∃ records, Listed records ∧ archive = archiveOf records ∧ s = slotOf records) ∧ t = [] := by
  have hfold : ∀ records : List SetRecord,
      records.foldl (fun (read : SortedMap BackupSetId BackupSetState) record =>
        read.insert record.state.identity.setId record.state) .empty =
        (archiveOf records).sets := fun records => by rw [archiveOf, ofList, foldl_map]
  simp only [decodeSets, Decoder.bind_eq_ok, ArchiveDecoder.u8_eq_ok, check_eq_ok,
    refuse_eq_ok, not_not, ArchiveDecoder.usize_eq_ok, finish_eq_ok, Decoder.pure_eq_ok]
  constructor
  · intro h
    obtain ⟨_, _, rfl, ⟨⟩, _, ⟨rfl, rfl⟩, _, _, ⟨hcount, rfl⟩, sets, _, hloop, ⟨⟩, _, ⟨rfl, rfl⟩,
      rfl, rfl⟩ := h
    obtain ⟨records, rfl, hrecords, rfl, rfl⟩ := setRound_reads.times_eq_ok.mp hloop
    obtain ⟨hvalid, hids, -⟩ :=
      (admits_insert SetRecord.Valid (fun state => state.identity.setId) SetRecord.state).mp
        hrecords
    exact ⟨⟨records, ⟨hcount, hvalid, hids⟩, by rw [hfold], by rw [slotOf, append_nil]⟩, rfl⟩
  · intro h
    obtain ⟨⟨records, hlisted, rfl, rfl⟩, rfl⟩ := h
    refine ⟨_, _, rfl, (), _, ⟨rfl, rfl⟩, _, _, ⟨hlisted.count, rfl⟩, _, [],
      setRound_reads.times_eq_ok.mpr ⟨records, rfl, ?_, rfl, (append_nil _).symm⟩, (), _,
      ⟨rfl, rfl⟩, by rw [hfold], rfl⟩
    exact (admits_insert SetRecord.Valid (fun state => state.identity.setId) SetRecord.state).mpr
      ⟨hlisted.valid, hlisted.ids, fun _ _ => get_empty _⟩

theorem fromCanonicalBytes_eq_ok : fromCanonicalBytes s = .ok archive ↔
      (s = [] ∧ archive = .empty) ∨
        ∃ records, Listed records ∧ archive = archiveOf records ∧ s = slotOf records := by
  unfold fromCanonicalBytes
  by_cases hnil : s = []
  · subst hnil
    have hslot : ¬ ∃ records, Listed records ∧ archive = archiveOf records ∧
        [] = slotOf records := fun ⟨_, _, _, h⟩ => cons_ne_nil _ _ h.symm
    rw [if_pos rfl, or_iff_left hslot, Except.ok.injEq, eq_comm]
    exact (and_iff_right rfl).symm
  · rw [if_neg hnil, or_iff_right fun h => hnil h.1]
    constructor
    · intro h
      cases hdecode : decodeSets s with
      | error e =>
        rw [hdecode] at h
        cases h
      | ok result =>
        rw [hdecode] at h
        obtain rfl := Except.ok.inj h
        exact (decodeSets_eq_ok.mp hdecode).1
    · intro h
      rw [decodeSets_eq_ok.mpr ⟨h, rfl⟩]
      rfl

/-! ## Re-encoding -/

/-- An archive whose sets pass the decoder's checks as they are written. -/
structure Readable (archive : BackupArchiveStateV1) : Prop where
  keys : ∀ set state, archive.sets.get set = some state → state.identity.setId = set
  holdKeys : ∀ set state, archive.sets.get set = some state →
    ∀ id hold, state.holds.get id = some hold → hold.id = id
  count : archive.sets.len < 256 ^ 8
  valid : ∀ set state, archive.sets.get set = some state → state.record.Valid

namespace Readable

theorem inOrder (h : Readable archive) : ListedInOrder (recordsOf archive) := by
  refine ⟨pairwise_map.mpr (values_sorted h.keys), fun record hrecord => ?_⟩
  obtain ⟨state, hstate, rfl⟩ := mem_map.mp hrecord
  obtain ⟨set, hget⟩ := mem_values.mp hstate
  exact values_sorted (h.holdKeys set state hget)

theorem listed (h : Readable archive) : Listed (recordsOf archive) := by
  refine ⟨?_, fun record hrecord => ?_, ?_⟩
  · rw [recordsOf, length_map, values, length_map]
    exact h.count
  · obtain ⟨state, hstate, rfl⟩ := mem_map.mp hrecord
    obtain ⟨set, hget⟩ := mem_values.mp hstate
    exact h.valid set state hget
  · exact pairwise_map.mpr (h.inOrder.sets.imp ne_of_lt)

/-- What is written is read back. -/
theorem fromCanonicalBytes (h : Readable archive) :
    fromCanonicalBytes archive.canonicalBytes = .ok archive :=
  fromCanonicalBytes_eq_ok.mpr (Or.inr ⟨recordsOf archive, h.listed,
    (archiveOf_recordsOf h.keys h.holdKeys).symm,
    (slotOf_recordsOf archive).symm⟩)

end Readable

theorem SetRecord.Valid.holdKeys {record : SetRecord} (h : record.Valid) (id : RestoreHoldId)
    (hold : RestoreHold) (hget : record.state.holds.get id = some hold) : hold.id = id :=
  ((get_ofList h.holdIds).mp hget).2

/-- The holds in order are as good as in any order. -/
theorem SetRecord.Valid.record_state {record : SetRecord} (h : record.Valid) :
    record.state.record.Valid := by
  have hlen : record.state.record.holds.length = record.holds.length :=
    (length_map _).trans (len_ofList h.holdIds)
  exact ⟨h.checkpointCount, h.objects, h.ordinals, h.chain, h.preparations,
    hlen ▸ h.holdCount, pairwise_map.mpr ((values_sorted h.holdKeys).imp ne_of_lt)⟩

theorem Listed.stateIds (h : Listed records) :
    ((records.map SetRecord.state).map fun state => state.identity.setId).Nodup := by
  rw [map_map]
  exact h.ids

theorem exists_record_of_get (h : fromCanonicalBytes s = .ok archive)
    (hget : archive.sets.get set = some state) :
    ∃ record : SetRecord, record.Valid ∧ state = record.state ∧ record.identity.setId = set := by
  rcases fromCanonicalBytes_eq_ok.mp h with ⟨-, rfl⟩ | ⟨records, hlisted, rfl, -⟩
  · cases hget
  · obtain ⟨hmem, hkey⟩ := (get_ofList hlisted.stateIds).mp hget
    obtain ⟨record, hrecord, rfl⟩ := mem_map.mp hmem
    exact ⟨record, hlisted.valid record hrecord, rfl, hkey⟩

/-- What the decoder lets through is admissible. -/
theorem fromCanonicalBytes_admissible (h : fromCanonicalBytes s = .ok archive) :
    Admissible archive := by
  intro set state hget
  obtain ⟨record, hvalid, rfl, hkey⟩ := exists_record_of_get h hget
  exact ⟨hkey, hvalid.holdKeys, hvalid.ordinals, checkPreparations_erased hvalid.preparations⟩

theorem Produced.admissible (h : Produced archive) : Admissible archive := by
  rcases h with ⟨calls, rfl⟩ | ⟨bytes, hbytes⟩
  · exact archiveRun_admissible calls
  · exact fromCanonicalBytes_admissible hbytes

/-- What the decoder lets through can be written and read again. -/
theorem readable_of_fromCanonicalBytes (h : fromCanonicalBytes s = .ok archive) :
    Readable archive := by
  have hadmissible := fromCanonicalBytes_admissible h
  refine ⟨fun set state hget => (hadmissible set state hget).key,
    fun set state hget => (hadmissible set state hget).holdKeys, ?_, fun set state hget => ?_⟩
  · rcases fromCanonicalBytes_eq_ok.mp h with ⟨-, rfl⟩ | ⟨records, hlisted, rfl, -⟩
    · decide
    · rw [archiveOf, len_ofList hlisted.stateIds, length_map]
      exact hlisted.count
  · obtain ⟨record, hvalid, rfl, -⟩ := exists_record_of_get h hget
    exact hvalid.record_state

theorem canonicalBytes_eq_iff (h : fromCanonicalBytes s = .ok archive) :
    archive.canonicalBytes = s ↔ ∃ records, Listed records ∧ ListedInOrder records ∧
      s = slotOf records := by
  constructor
  · intro hsame
    have hreadable := readable_of_fromCanonicalBytes h
    exact ⟨recordsOf archive, hreadable.listed, hreadable.inOrder,
      hsame.symm.trans (slotOf_recordsOf archive).symm⟩
  · intro hordered
    obtain ⟨records, hlisted, horder, rfl⟩ := hordered
    have hread := fromCanonicalBytes_eq_ok.mpr (Or.inr ⟨records, hlisted, rfl, rfl⟩)
    obtain rfl := Except.ok.inj (h.symm.trans hread)
    exact canonicalBytes_archiveOf horder

/-! ## Archives built by the operations -/

def StartsAtZero (calls : List ArchiveCall) : Prop :=
  ∀ identity head, ArchiveCall.startStreaming identity head ∈ calls → head.checkpointOrdinal = 0

omit [Crypto] in
theorem StartsAtZero.startHead (h : StartsAtZero calls)
    (hstart : startHead calls set = some start) : start.checkpointOrdinal = 0 := by
  obtain ⟨call, hcall, hstarts⟩ := exists_of_findSome?_eq_some hstart
  cases call with
  | startStreaming identity head =>
    rw [ArchiveCall.starts] at hstarts
    split_ifs at hstarts
    obtain rfl := Option.some.inj hstarts
    exact h identity head hcall
  | _ => cases hstarts

theorem checkChain_headAfter {checkpoints : List WalArchiveCheckpoint}
    (h : ChainInv start checkpoints) (hzero : start.checkpointOrdinal = 0) :
    checkChain (headAfter start checkpoints) checkpoints = .ok () := by
  cases checkpoints with
  | nil => simp [checkChain, headAfter, hzero]
  | cons first rest =>
    obtain ⟨hbase, hrest⟩ := h.base first rest rfl
    have hone : first.object.ordinal = 1 := by
      have hord := congrArg head? h.ordinals
      simp only [map_cons, head?_cons, length_cons, range'_succ,
        Option.some.injEq] at hord
      exact UInt64.toNat_inj.mp hord
    have hlast : (first :: rest).getLast? = some ((first :: rest).getLast (cons_ne_nil _ _)) :=
      getLast?_eq_getLast_of_ne_nil _
    have hnone : ∀ c ∈ rest, ¬ c.object.kind = .baseChunk := fun c hc => (hrest c hc).1
    simpa [checkChain, headAfter, hlast, hbase, hone, unit_bind_eq_ok] using hnone

omit [Crypto] in
theorem checkPreparations_of_stage (h : StageInv state) :
    checkPreparations state.lifecycle state.deletionPreparation state.keyErasurePreparation =
      .ok () := by
  simp only [checkPreparations, unit_bind_eq_ok, refuse_eq_ok]
  refine ⟨?_, ?_, ?_⟩
  · rw [not_not, Bool.eq_iff_iff, h.deletion]
    simp
  · intro hne
    exact hne.2 (h.erasurePrepared (Option.isSome_iff_ne_none.mp hne.1))
  · intro hne
    refine (h.erased ?_).1 hne.2
    simpa using hne.1

omit [Crypto] in
theorem RestoreHold.length_encode_pos (hold : RestoreHold) : 0 < hold.encode.length := by
  simp [encode, boolByte]

omit [Crypto] in
theorem SetRecord.length_encode_ge (record : SetRecord) :
    record.checkpoints.length + record.holds.length < record.encode.length := by
  have hcheckpoints : record.checkpoints.length ≤
      (record.checkpoints.flatMap fun c => field c.canonicalBytes).length :=
    length_le_length_flatMap (fun c => by simp [field]) _
  have hholds := length_le_length_flatMap RestoreHold.length_encode_pos record.holds
  simp only [encode, length_append, length_beBytes]
  omega

theorem archiveRun_readable (hzero : StartsAtZero calls)
    (hfits : (archiveRun calls).canonicalBytes.length < 256 ^ 8) : Readable (archiveRun calls) := by
  have hadmissible := archiveRun_admissible calls
  have hholdKeys : ∀ set state, (archiveRun calls).sets.get set = some state →
      ∀ id hold, state.holds.get id = some hold → hold.id = id :=
    fun set state hget => (hadmissible set state hget).holdKeys
  rw [← slotOf_recordsOf, slotOf, length_cons, length_append, length_beBytes] at hfits
  refine ⟨fun set state hget => (hadmissible set state hget).key, hholdKeys, ?_,
    fun set state hget => ?_⟩
  · have hlen : (recordsOf (archiveRun calls)).length = (archiveRun calls).sets.len :=
      (length_map _).trans (length_map _)
    have hcount := length_le_length_flatMap
      (fun record : SetRecord => Nat.zero_lt_of_lt record.length_encode_ge)
      (recordsOf (archiveRun calls))
    omega
  · obtain ⟨start, hstart, hinv⟩ := (archiveRun_inv calls).sets set state hget
    -- the record is part of the slot, so its counts fit as the slot does
    have hmem : state.record ∈ recordsOf (archiveRun calls) :=
      mem_map_of_mem (mem_values.mpr ⟨set, hget⟩)
    have hpart : state.record.encode.length ≤
        ((recordsOf (archiveRun calls)).flatMap SetRecord.encode).length :=
      (sublist_flatten_of_mem (mem_map_of_mem hmem)).length_le
    have hcounts := state.record.length_encode_ge
    refine ⟨by omega, fun c hc => (hinv.objects c hc).trans hinv.key.symm,
      (hadmissible set state hget).ordinals, ?_, checkPreparations_of_stage hinv.stage, by omega,
      pairwise_map.mpr ((values_sorted (hholdKeys set state hget)).imp ne_of_lt)⟩
    show checkChain state.head state.checkpoints = .ok ()
    rw [hinv.head]
    exact checkChain_headAfter hinv.chain (hzero.startHead hstart)

/-! ## Nothing else is read back -/

omit [Crypto] in
theorem RestoreHold.encode_append_inj {hold other : RestoreHold}
    (h : hold.encode ++ s = other.encode ++ t) : hold = other ∧ s = t := by
  simp only [encode, append_assoc] at h
  obtain ⟨hid, hrest⟩ := append_inj ArchiveDecoder.uuid_eq_ok h
  simp only [← append_assoc] at hrest
  obtain ⟨hreason, rfl⟩ := append_inj ArchiveDecoder.optionalReason_eq_ok hrest
  cases hold
  cases other
  exact ⟨congr (congrArg RestoreHold.mk hid) hreason, rfl⟩

omit [Crypto] in
theorem WalArchiveCheckpoint.field_append_inj {other : WalArchiveCheckpoint}
    (h : field c.canonicalBytes ++ s = field other.canonicalBytes ++ t) : c = other ∧ s = t := by
  have hlen : ∀ c : WalArchiveCheckpoint, c.canonicalBytes.length < 256 ^ 8 := fun c => by
    rw [c.length_canonicalBytes]
    decide
  obtain ⟨hbytes, rfl⟩ := Lib.field_append_inj (hlen c) (hlen other) h
  have hread := ArchiveDecoder.checkpoint_eq_ok.mpr ⟨hbytes, rfl⟩
  rw [ArchiveDecoder.checkpoint_eq_ok.mpr ⟨rfl, rfl⟩] at hread
  exact ⟨(Prod.mk.inj (Except.ok.inj hread)).1, rfl⟩

def SetRecord.Counted (record : SetRecord) : Prop :=
  record.checkpoints.length < 256 ^ 8 ∧ record.holds.length < 256 ^ 8

omit [Crypto] in
theorem SetRecord.encode_append_inj {record other : SetRecord} (hrecord : record.Counted)
    (hother : other.Counted) (h : record.encode ++ s = other.encode ++ t) :
    record = other ∧ s = t := by
  simp only [encode, append_assoc] at h
  obtain ⟨hheader, h⟩ := SetHeader.encode_append_inj h
  obtain ⟨hcount, h⟩ := beBytes_append_inj hrecord.1 hother.1 h
  obtain ⟨hcheckpoints, h⟩ := flatMap_append_inj
    (fun _ _ _ _ (_ : True) (_ : True) => WalArchiveCheckpoint.field_append_inj) hcount
    (fun _ _ => trivial) (fun _ _ => trivial) h
  obtain ⟨hcount, h⟩ := beBytes_append_inj hrecord.2 hother.2 h
  obtain ⟨hholds, rfl⟩ := flatMap_append_inj
    (fun _ _ _ _ (_ : True) (_ : True) => RestoreHold.encode_append_inj) hcount
    (fun _ _ => trivial) (fun _ _ => trivial) h
  cases record
  cases other
  exact ⟨congr (congr (congrArg SetRecord.mk hheader) hcheckpoints) hholds, rfl⟩

omit [Crypto] in
theorem SetRecord.counted_of_length {record : SetRecord} (h : record.encode.length < 2 ^ 64) :
    record.Counted := by
  have hge := record.length_encode_ge
  constructor
  · omega
  · omega

theorem eq_of_fromCanonicalBytes_canonicalBytes {other : BackupArchiveStateV1}
    (hadmissible : Admissible archive) (hlen : archive.canonicalBytes.length < 2 ^ 64)
    (h : fromCanonicalBytes archive.canonicalBytes = .ok other) : other = archive := by
  rcases fromCanonicalBytes_eq_ok.mp h with ⟨hnil, -⟩ | ⟨records, hlisted, rfl, hslot⟩
  · cases hnil
  · rw [← slotOf_recordsOf] at hslot hlen
    have hencoded := length_le_length_flatMap
      (fun record : SetRecord => lt_of_lt_of_le (Nat.succ_pos _) record.length_encode_ge)
      (recordsOf archive)
    have hshort : (recordsOf archive).length < 256 ^ 8 ∧
        ((recordsOf archive).flatMap SetRecord.encode).length < 2 ^ 64 := by
      simp only [slotOf, length_cons, length_append] at hlen
      omega
    have hcounted : ∀ record ∈ recordsOf archive, record.Counted := by
      intro record hmem
      have hpart : record.encode.length ≤ ((recordsOf archive).flatMap SetRecord.encode).length :=
        (sublist_flatten_of_mem (mem_map_of_mem hmem)).length_le
      exact record.counted_of_length (lt_of_le_of_lt hpart hshort.2)
    have hother : ∀ record ∈ records, record.Counted := fun record hmem =>
      ⟨(hlisted.valid record hmem).checkpointCount, (hlisted.valid record hmem).holdCount⟩
    obtain ⟨hcount, hrecords⟩ := beBytes_append_inj hshort.1 hlisted.count
      (tail_eq_of_cons_eq hslot)
    rw [← append_nil (flatMap _ _), ← append_nil (records.flatMap _)] at hrecords
    obtain ⟨rfl, -⟩ := flatMap_append_inj
      (fun _ _ _ _ hx hy => SetRecord.encode_append_inj hx hy) hcount hcounted hother hrecords
    exact archiveOf_recordsOf (fun set state hget => (hadmissible set state hget).key)
      fun set state hget => (hadmissible set state hget).holdKeys

end

end Vestrace.Installation
