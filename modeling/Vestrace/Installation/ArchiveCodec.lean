import Vestrace.Installation.ArchiveRun

/-!
# The archive's canonical bytes

`canonical_bytes` and `from_canonical_bytes`. A decoded archive need not be one the
operations could have built (`Admissible`). `usize` is 64 bits wide.
-/

namespace Vestrace.Installation

open Lib Decoder

/-! ## Encoding -/

def boolByte (b : Bool) : Bytes := [if b then 1 else 0]

def optionalDigest (digest : Option SafetyJournalDigest) : Bytes :=
  boolByte digest.isSome ++ (digest.map SafetyJournalDigest.asBytes).getD []

/-- The hold's id, and its reason if it was released. -/
def RestoreHold.encode (hold : RestoreHold) : Bytes :=
  hold.id.asBytes ++ boolByte hold.releaseReason.isSome ++
    (hold.releaseReason.map RestoreHoldReleaseReason.encode).getD []

def BackupSetState.encode (state : BackupSetState) : Bytes :=
  state.identity.setId.asBytes ++ state.identity.installationId.asBytes ++
    state.identity.generationId.asBytes ++ [state.lifecycle.code] ++
    boolByte state.deletionRequested ++ optionalDigest state.deletionPreparation ++
    optionalDigest state.keyErasurePreparation ++
    beBytes 8 state.head.checkpointOrdinal.toNat ++ state.head.digest.asBytes ++
    beBytes 8 state.checkpoints.length ++
    state.checkpoints.flatMap (fun checkpoint => field checkpoint.canonicalBytes) ++
    beBytes 8 state.holds.len ++ state.holds.values.flatMap RestoreHold.encode

/-- The version byte in front of the sets. -/
def archiveStateVersion : UInt8 := 3

def BackupArchiveStateV1.canonicalBytes (s : BackupArchiveStateV1) : Bytes :=
  archiveStateVersion :: (beBytes 8 s.sets.len ++ s.sets.values.flatMap BackupSetState.encode)

/-! ## Decoding -/

def BackupSetLifecycle.fromCode (value : UInt8) : Except BackupArchiveError BackupSetLifecycle :=
  match value.toNat with
  | 0 => .ok .streaming
  | 1 => .ok .sealing
  | 2 => .ok .sealed
  | 3 => .ok .deletionPrepared
  | 4 => .ok .archiveKeyErased
  | 5 => .ok .deleted
  | _ => .error .malformed

def ArchiveObjectKind.fromCode (value : UInt8) : Except BackupArchiveError ArchiveObjectKind :=
  match value.toNat with
  | 0 => .ok .baseChunk
  | 1 => .ok .walSegment
  | 2 => .ok .timelineHistory
  | _ => .error .malformed

abbrev ArchiveDecoder := Decoder BackupArchiveError

namespace ArchiveDecoder

def u8 : ArchiveDecoder UInt8 := do return UInt8.ofNat (← uint .malformed 1)

def u32 : ArchiveDecoder UInt32 := do return UInt32.ofNat (← uint .malformed 4)

def u64 : ArchiveDecoder UInt64 := do return UInt64.ofNat (← uint .malformed 8)

def usize : ArchiveDecoder Nat := uint .malformed 8

def bool : ArchiveDecoder Bool := do
  match (← u8).toNat with
  | 0 => return false
  | 1 => return true
  | _ => check (.error .malformed)

def uuid (s : Subject) : ArchiveDecoder (SafetyId s) := do
  return ⟨BitVec.ofNat 128 (← uint .malformed 16)⟩

def digest : ArchiveDecoder SafetyJournalDigest := do
  return ⟨BitVec.ofNat 256 (← uint .malformed 32)⟩

def field : ArchiveDecoder Bytes := fieldBytes .malformed

def optionalDigest : ArchiveDecoder (Option SafetyJournalDigest) := do
  if ← bool then return some (← digest) else return none

def descriptor : ArchiveDecoder ArchiveObjectDescriptor := do
  let setId ← uuid .backupSet
  let objectId ← uuid .backupObject
  let kind ← check (ArchiveObjectKind.fromCode (← u8))
  let ordinal ← u64
  let timeline ← u32
  let startLsn ← u64
  let endLsn ← u64
  let ciphertextDigest ← digest
  let plaintextDigest ← digest
  let length ← u64
  let predecessorHeadDigest ← digest
  check (ArchiveObjectDescriptor.new
    { setId, objectId, kind, ordinal, timeline, startLsn, endLsn, ciphertextDigest,
      plaintextDigest, length, predecessorHeadDigest })

def checkpoint : ArchiveDecoder WalArchiveCheckpoint := do
  let name ← field
  check (refuse (name ≠ WalArchiveCheckpoint.domain) .malformed)
  let object ← descriptor
  finish .malformed
  return ⟨object⟩

def releaseReason : ArchiveDecoder RestoreHoldReleaseReason := do
  let kind ← u8
  let receipt ← digest
  match kind.toNat with
  | 0 => return .targetInitializationComplete receipt
  | 1 => return .sourceResumePrepared receipt
  | 2 => return .refusedTargetDestroyed receipt
  | 3 => return .salvageInstallationCompleted receipt
  | _ => check (.error .malformed)

/-- One checkpoint: of the set, and with a larger ordinal than the one before. -/
def checkpointRound (setId : BackupSetId) (read : UInt64 × List WalArchiveCheckpoint) :
    ArchiveDecoder (UInt64 × List WalArchiveCheckpoint) := do
  let bytes ← field
  let decoded ← check (checkpoint bytes)
  let next := decoded.1
  check (refuse (next.object.setId ≠ setId ∨ next.object.ordinal ≤ read.1) .malformed)
  return (next.object.ordinal, read.2 ++ [next])

def checkpoints (setId : BackupSetId) : ArchiveDecoder (List WalArchiveCheckpoint) := do
  let count ← usize
  return (← times count (checkpointRound setId) (0, [])).2

def optionalReason : ArchiveDecoder (Option RestoreHoldReleaseReason) := do
  if ← bool then return some (← releaseReason) else return none

/-- One hold, whose id has not occurred. -/
def holdRound (read : SortedMap RestoreHoldId RestoreHold) :
    ArchiveDecoder (SortedMap RestoreHoldId RestoreHold) := do
  let holdId ← uuid .restoreHold
  let reason ← optionalReason
  check (refuse ((read.get holdId).isSome = true) .malformed)
  return read.insert holdId ⟨holdId, reason⟩

def holds : ArchiveDecoder (SortedMap RestoreHoldId RestoreHold) := do
  let count ← usize
  times count holdRound .empty

end ArchiveDecoder

section

variable [Crypto]

/-- A base only at ordinal 1, and the head that of the last checkpoint. -/
def checkChain (head : ArchiveHead) (checkpoints : List WalArchiveCheckpoint) :
    Except BackupArchiveError Unit := do
  let isBase := fun checkpoint : WalArchiveCheckpoint => checkpoint.object.kind == .baseChunk
  match checkpoints.head? with
  | none => pure ()
  | some first =>
    refuse (isBase first = true ∧ first.object.ordinal ≠ 1) .malformed
    refuse ((checkpoints.drop 1).any isBase = true) .malformed
    refuse (isBase first = false ∧ checkpoints.any isBase = true) .malformed
  match checkpoints.getLast? with
  | none => pure ()
  | some last => refuse (head ≠ last.head) .malformed
  refuse (checkpoints = [] ∧ head.checkpointOrdinal ≠ 0) .malformed

omit [Crypto] in
/-- The preparations the lifecycle asks for, and no others. -/
def checkPreparations (lifecycle : BackupSetLifecycle)
    (deletion erasure : Option SafetyJournalDigest) : Except BackupArchiveError Unit := do
  let erased := lifecycle == .archiveKeyErased || lifecycle == .deleted
  refuse ((lifecycle == .deletionPrepared || erased) ≠ deletion.isSome) .malformed
  refuse (erasure.isSome = true ∧ erasure ≠ deletion) .malformed
  refuse (erased = true ∧ erasure = none) .malformed

/-- One set, whose id has not occurred. -/
def setRound (read : SortedMap BackupSetId BackupSetState) :
    ArchiveDecoder (SortedMap BackupSetId BackupSetState) := do
  let setId ← ArchiveDecoder.uuid .backupSet
  let installationId ← ArchiveDecoder.uuid .installation
  let generationId ← ArchiveDecoder.uuid .databaseGeneration
  let lifecycle ← check (BackupSetLifecycle.fromCode (← ArchiveDecoder.u8))
  let deletionRequested ← ArchiveDecoder.bool
  let deletionPreparation ← ArchiveDecoder.optionalDigest
  let keyErasurePreparation ← ArchiveDecoder.optionalDigest
  let checkpointOrdinal ← ArchiveDecoder.u64
  let digest ← ArchiveDecoder.digest
  let checkpoints ← ArchiveDecoder.checkpoints setId
  check (checkChain ⟨checkpointOrdinal, digest⟩ checkpoints)
  check (checkPreparations lifecycle deletionPreparation keyErasurePreparation)
  let holds ← ArchiveDecoder.holds
  check (refuse ((read.get setId).isSome = true) .malformed)
  return read.insert setId
    { identity := ⟨setId, installationId, generationId⟩, lifecycle, deletionRequested,
      deletionPreparation, keyErasurePreparation, head := ⟨checkpointOrdinal, digest⟩,
      checkpoints, holds }

def decodeSets : ArchiveDecoder BackupArchiveStateV1 := do
  let version ← ArchiveDecoder.u8
  check (refuse (version ≠ archiveStateVersion) .malformed)
  let count ← ArchiveDecoder.usize
  let sets ← times count setRound .empty
  finish .malformed
  return ⟨sets⟩

/-- An empty slot is an archive without sets, as the first version wrote it. -/
def BackupArchiveStateV1.fromCanonicalBytes (bytes : Bytes) :
    Except BackupArchiveError BackupArchiveStateV1 :=
  if bytes = [] then .ok .empty else (decodeSets bytes).map Prod.fst

end

/-! ## What an archive from outside can be relied on for -/

/-- Keys that are the ids, ordinals that increase, and an erasure that was prepared. -/
structure AdmissibleSet (set : BackupSetId) (state : BackupSetState) : Prop where
  key : state.identity.setId = set
  holdKeys : ∀ id hold, state.holds.get id = some hold → hold.id = id
  ordinals : state.checkpoints.Pairwise fun a b => a.object.ordinal < b.object.ordinal
  erased : state.lifecycle = .archiveKeyErased →
    state.keyErasurePreparation ≠ none ∧ state.keyErasurePreparation = state.deletionPreparation

def AdmissibleSets (sets : SortedMap BackupSetId BackupSetState) : Prop :=
  ∀ set state, sets.get set = some state → AdmissibleSet set state

/-- What the decoder checks and the operations keep: all that the comparison of two archives
needs. -/
def Admissible (s : BackupArchiveStateV1) : Prop := AdmissibleSets s.sets

theorem checkPreparations_erased {lifecycle : BackupSetLifecycle}
    {deletion erasure : Option SafetyJournalDigest}
    (h : checkPreparations lifecycle deletion erasure = .ok ())
    (herased : lifecycle = .archiveKeyErased) : erasure ≠ none ∧ erasure = deletion := by
  simp only [checkPreparations, unit_bind_eq_ok, refuse_eq_ok, herased] at h
  obtain ⟨-, hsame, hsome⟩ := h
  have hne : erasure ≠ none := fun hnone => hsome ⟨rfl, hnone⟩
  refine ⟨hne, ?_⟩
  by_contra hdiff
  exact hsame ⟨Option.isSome_iff_ne_none.mpr hne, hdiff⟩

/-- The operations keep to it. -/
theorem archiveRun_admissible [Crypto] (calls : List ArchiveCall) :
    Admissible (archiveRun calls) := by
  intro set state hget
  obtain ⟨start, -, hinv⟩ := (archiveRun_inv calls).sets set state hget
  refine ⟨hinv.key, hinv.holdKeys, ?_, fun h => hinv.stage.erased (Or.inl h)⟩
  have hrange : (state.checkpoints.map fun c => c.object.ordinal.toNat).Pairwise (· < ·) := by
    rw [hinv.chain.ordinals]
    exact List.pairwise_lt_range'
  exact List.Pairwise.of_map _ (fun _ _ hlt => UInt64.lt_iff_toNat_lt.mpr hlt) hrange

/-- An archive the process can hold: built by the operations, or decoded. -/
def Produced [Crypto] (s : BackupArchiveStateV1) : Prop :=
  (∃ calls, s = archiveRun calls) ∨ ∃ bytes, BackupArchiveStateV1.fromCanonicalBytes bytes = .ok s

end Vestrace.Installation
