import Vestrace.Lib.SortedMap
import Vestrace.Installation.Values

/-!
# The backup archive

`backup_archive.rs`: backup sets, their checkpoints and restore holds, the operations
that move a set along its lifecycle, and the predicates by which the witness
recognises a state as the successor of another, each one loop over the sets (`isOneChange`,
`isOneAddition`).
-/

namespace Vestrace.Installation

open Lib Option SortedMap

inductive BackupArchiveError where
  | malformed
  | duplicateBackupSet
  | duplicateRestoreHold
  | unknownBackupSet
  | notStreaming
  | notRestorable
  | baseCheckpointRequired
  | duplicateBaseCheckpoint
  | baseCheckpointMustBeFirst
  | baseCheckpointAncestryMismatch
  | restoreHoldPresent
  | archiveHeadMismatch
  | invalidLifecycleTransition
  | restoreHoldAlreadyReleased
  deriving DecidableEq, Repr

inductive BackupSetLifecycle where
  | streaming
  | sealing
  | sealed
  | deletionPrepared
  | archiveKeyErased
  | deleted
  deriving DecidableEq, Repr

def BackupSetLifecycle.code : BackupSetLifecycle → UInt8
  | .streaming => 0
  | .sealing => 1
  | .sealed => 2
  | .deletionPrepared => 3
  | .archiveKeyErased => 4
  | .deleted => 5

inductive ArchiveObjectKind where
  | baseChunk
  | walSegment
  | timelineHistory
  deriving DecidableEq, Repr

def ArchiveObjectKind.code : ArchiveObjectKind → UInt8
  | .baseChunk => 0
  | .walSegment => 1
  | .timelineHistory => 2

structure ArchiveHead where
  checkpointOrdinal : UInt64
  digest : SafetyJournalDigest
  deriving DecidableEq

structure BackupSetIdentity where
  setId : BackupSetId
  installationId : InstallationId
  generationId : DatabaseGenerationId
  deriving DecidableEq

structure ArchiveObjectDescriptorInput where
  setId : BackupSetId
  objectId : BackupObjectId
  kind : ArchiveObjectKind
  ordinal : UInt64
  timeline : UInt32
  startLsn : UInt64
  endLsn : UInt64
  ciphertextDigest : SafetyJournalDigest
  plaintextDigest : SafetyJournalDigest
  length : UInt64
  predecessorHeadDigest : SafetyJournalDigest
  deriving DecidableEq

structure ArchiveObjectDescriptor extends ArchiveObjectDescriptorInput where
  ordinal_ne : ordinal ≠ 0
  timeline_ne : timeline ≠ 0
  lsn_le : ¬ endLsn < startLsn
  length_ne : length ≠ 0
  deriving DecidableEq

variable {preparation : SafetyJournalDigest} {object : ArchiveObjectDescriptor}

namespace ArchiveObjectDescriptor

def new (input : ArchiveObjectDescriptorInput) :
    Except BackupArchiveError ArchiveObjectDescriptor :=
  if h : input.ordinal ≠ 0 ∧ input.timeline ≠ 0 ∧ ¬ input.endLsn < input.startLsn ∧
      input.length ≠ 0 then
    .ok ⟨input, h.1, h.2.1, h.2.2.1, h.2.2.2⟩
  else .error .malformed

def encode (object : ArchiveObjectDescriptor) : Bytes :=
  object.setId.asBytes ++ object.objectId.asBytes ++ [object.kind.code] ++
    beBytes 8 object.ordinal.toNat ++ beBytes 4 object.timeline.toNat ++
    beBytes 8 object.startLsn.toNat ++ beBytes 8 object.endLsn.toNat ++
    object.ciphertextDigest.asBytes ++ object.plaintextDigest.asBytes ++
    beBytes 8 object.length.toNat ++ object.predecessorHeadDigest.asBytes

def Continues (object : ArchiveObjectDescriptor) (set : BackupSetId) (head : ArchiveHead) : Prop :=
  object.setId = set ∧ object.predecessorHeadDigest = head.digest ∧
    checkedAdd head.checkpointOrdinal 1 = some object.ordinal

instance (object : ArchiveObjectDescriptor) (set : BackupSetId) (head : ArchiveHead) :
    Decidable (object.Continues set head) := inferInstanceAs (Decidable (_ ∧ _ ∧ _))

end ArchiveObjectDescriptor

structure ArchiveAppendReservation where
  setId : BackupSetId
  expected : ArchiveHead
  object : ArchiveObjectDescriptor
  continues : object.Continues setId expected
  deriving DecidableEq

def ArchiveAppendReservation.new (set : BackupSetId) (expected : ArchiveHead)
    (object : ArchiveObjectDescriptor) : Except BackupArchiveError ArchiveAppendReservation :=
  if h : object.Continues set expected then .ok ⟨set, expected, object, h⟩
  else .error .archiveHeadMismatch

structure WalArchiveCheckpoint where
  object : ArchiveObjectDescriptor
  deriving DecidableEq

namespace WalArchiveCheckpoint

def fromReservation (reservation : ArchiveAppendReservation) : WalArchiveCheckpoint :=
  ⟨reservation.object⟩

def domain : Bytes := ascii "vestrace-wal-archive-checkpoint-v1"

def canonicalBytes (checkpoint : WalArchiveCheckpoint) : Bytes :=
  field domain ++ checkpoint.object.encode

def digest [Crypto] (checkpoint : WalArchiveCheckpoint) : SafetyJournalDigest :=
  .of checkpoint.canonicalBytes

def head [Crypto] (checkpoint : WalArchiveCheckpoint) : ArchiveHead :=
  ⟨checkpoint.object.ordinal, checkpoint.digest⟩

end WalArchiveCheckpoint

inductive RestoreHoldReleaseReason where
  | targetInitializationComplete (receipt : SafetyJournalDigest)
  | sourceResumePrepared (receipt : SafetyJournalDigest)
  | refusedTargetDestroyed (receipt : SafetyJournalDigest)
  | salvageInstallationCompleted (receipt : SafetyJournalDigest)
  deriving DecidableEq

namespace RestoreHoldReleaseReason

def code : RestoreHoldReleaseReason → UInt8
  | targetInitializationComplete _ => 0
  | sourceResumePrepared _ => 1
  | refusedTargetDestroyed _ => 2
  | salvageInstallationCompleted _ => 3

def receipt : RestoreHoldReleaseReason → SafetyJournalDigest
  | targetInitializationComplete receipt => receipt
  | sourceResumePrepared receipt => receipt
  | refusedTargetDestroyed receipt => receipt
  | salvageInstallationCompleted receipt => receipt

def encode (reason : RestoreHoldReleaseReason) : Bytes :=
  reason.code :: reason.receipt.asBytes

end RestoreHoldReleaseReason

structure RestoreHold where
  id : RestoreHoldId
  releaseReason : Option RestoreHoldReleaseReason
  deriving DecidableEq

def RestoreHold.active (hold : RestoreHold) : Bool := hold.releaseReason.isNone

structure BackupSetState where
  identity : BackupSetIdentity
  lifecycle : BackupSetLifecycle
  deletionRequested : Bool
  deletionPreparation : Option SafetyJournalDigest
  keyErasurePreparation : Option SafetyJournalDigest
  head : ArchiveHead
  checkpoints : List WalArchiveCheckpoint
  holds : SortedMap RestoreHoldId RestoreHold
  deriving DecidableEq

namespace BackupSetState

def started (identity : BackupSetIdentity) (head : ArchiveHead) : BackupSetState where
  identity := identity
  lifecycle := .streaming
  deletionRequested := false
  deletionPreparation := none
  keyErasurePreparation := none
  head := head
  checkpoints := []
  holds := .empty

def hasBaseCheckpoint (state : BackupSetState) : Bool :=
  state.checkpoints.head?.any fun checkpoint => checkpoint.object.kind == .baseChunk

def validateAppendKind (state : BackupSetState) (object : ArchiveObjectDescriptor) :
    Except BackupArchiveError Unit :=
  match state.hasBaseCheckpoint, object.kind with
  | false, .baseChunk => refuse (object.ordinal ≠ 1) .baseCheckpointMustBeFirst
  | false, _ => .error .baseCheckpointRequired
  | true, .baseChunk => .error .duplicateBaseCheckpoint
  | true, .walSegment => do
    let base ← okOr state.checkpoints.head? .baseCheckpointRequired
    refuse (object.timeline ≠ base.object.timeline ∨ object.startLsn < base.object.startLsn)
      .baseCheckpointAncestryMismatch
  | true, .timelineHistory => .ok ()

/-- What a later object owes the base: it is no second base, and a WAL segment is on the
base's timeline and starts no earlier. -/
def Descends (base object : ArchiveObjectDescriptor) : Prop :=
  object.kind ≠ .baseChunk ∧ (object.kind = .walSegment →
      object.timeline = base.timeline ∧ ¬ object.startLsn < base.startLsn)

variable {state : BackupSetState}

theorem hasBaseCheckpoint_iff : state.hasBaseCheckpoint = true ↔
      ∃ base rest, state.checkpoints = base :: rest ∧ base.object.kind = .baseChunk := by
  unfold hasBaseCheckpoint
  cases h : state.checkpoints with
  | nil | cons => simp

theorem validateAppendKind_eq_ok : state.validateAppendKind object = .ok () ↔
      (state.hasBaseCheckpoint = false ∧ object.kind = .baseChunk ∧ object.ordinal = 1) ∨
      (∃ base rest, state.checkpoints = base :: rest ∧ base.object.kind = .baseChunk ∧
        Descends base.object object) := by
  unfold validateAppendKind
  cases hbase : state.hasBaseCheckpoint with
  | false =>
    have hno : ¬ ∃ base rest, state.checkpoints = base :: rest ∧ base.object.kind = .baseChunk ∧
        Descends base.object object := by
      intro h
      obtain ⟨base, rest, hcons, hkind, -⟩ := h
      rw [hasBaseCheckpoint_iff.mpr ⟨base, rest, hcons, hkind⟩] at hbase
      cases hbase
    rw [or_iff_left hno]
    cases object.kind with
    | baseChunk | walSegment | timelineHistory => simp
  | true =>
    obtain ⟨base, rest, hcons, hbaseKind⟩ := hasBaseCheckpoint_iff.mp hbase
    cases hkind : object.kind with
    | baseChunk => simp [hcons, Descends, hkind]
    | walSegment => simp [hcons, hbaseKind, Descends, hkind, okOr, ok_bind]
    | timelineHistory => simp [hcons, hbaseKind, Descends, hkind]

def hasActiveHold (state : BackupSetState) : Bool := state.holds.values.any RestoreHold.active

theorem hasActiveHold_iff : state.hasActiveHold = true ↔
      ∃ id hold, state.holds.get id = some hold ∧ hold.active = true := by
  rw [hasActiveHold, List.any_eq_true]
  constructor
  · intro h
    obtain ⟨hold, hmem, hactive⟩ := h
    obtain ⟨id, hget⟩ := mem_values.mp hmem
    exact ⟨id, hold, hget, hactive⟩
  · intro h
    obtain ⟨id, hold, hget, hactive⟩ := h
    exact ⟨hold, mem_values.mpr ⟨id, hget⟩, hactive⟩

def append [Crypto] (state : BackupSetState) (checkpoint : WalArchiveCheckpoint) :
    BackupSetState :=
  { state with head := checkpoint.head, checkpoints := state.checkpoints ++ [checkpoint] }

def hold (state : BackupSetState) (id : RestoreHoldId) : BackupSetState :=
  { state with holds := state.holds.insert id ⟨id, none⟩ }

end BackupSetState

structure BackupArchiveStateV1 where
  sets : SortedMap BackupSetId BackupSetState
  deriving DecidableEq

namespace BackupArchiveStateV1

def empty : BackupArchiveStateV1 := ⟨.empty⟩

variable (s : BackupArchiveStateV1)

def set (id : BackupSetId) : Except BackupArchiveError BackupSetState :=
  okOr (s.sets.get id) .unknownBackupSet

def put (id : BackupSetId) (state : BackupSetState) : BackupArchiveStateV1 :=
  ⟨s.sets.insert id state⟩

/-- `sets.get_mut(..)` and the assignments that follow. -/
def update (id : BackupSetId) (f : BackupSetState → BackupSetState) :
    Except BackupArchiveError BackupArchiveStateV1 := do
  let state ← s.set id
  return s.put id (f state)

/-! ## Operations -/

def startStreaming (identity : BackupSetIdentity) (head : ArchiveHead) :
    Except BackupArchiveError BackupArchiveStateV1 := do
  refuse ((s.sets.get identity.setId).isSome = true) .duplicateBackupSet
  return s.put identity.setId (.started identity head)

variable (set : BackupSetId)

def reserveAppend (expected : ArchiveHead) (object : ArchiveObjectDescriptor) :
    Except BackupArchiveError ArchiveAppendReservation := do
  let current ← s.set set
  refuse (current.lifecycle ≠ .streaming) .notStreaming
  current.validateAppendKind object
  refuse (current.head ≠ expected ∨ ¬ object.Continues set expected) .archiveHeadMismatch
  ArchiveAppendReservation.new set expected object

def commitCheckpoint [Crypto] (s : BackupArchiveStateV1) (reservation : ArchiveAppendReservation)
    (checkpoint : WalArchiveCheckpoint) : Except BackupArchiveError BackupArchiveStateV1 := do
  let current ← s.set reservation.setId
  refuse (current.lifecycle ≠ .streaming ∨ current.head ≠ reservation.expected) .archiveHeadMismatch
  refuse (checkpoint.object ≠ reservation.object) .archiveHeadMismatch
  current.validateAppendKind checkpoint.object
  s.update reservation.setId fun state => state.append checkpoint

def acquireRestoreHold (holdId : RestoreHoldId) :
    Except BackupArchiveError BackupArchiveStateV1 := do
  let current ← s.set set
  refuse (current.lifecycle ≠ .streaming) .notRestorable
  refuse (current.hasBaseCheckpoint = false) .notRestorable
  refuse ((current.holds.get holdId).isSome = true) .duplicateRestoreHold
  s.update set fun state => state.hold holdId

def releaseRestoreHold (holdId : RestoreHoldId) (reason : RestoreHoldReleaseReason) :
    Except BackupArchiveError BackupArchiveStateV1 := do
  let state ← s.set set
  let hold ← okOr (state.holds.get holdId) .unknownBackupSet
  refuse (hold.active = false) .restoreHoldAlreadyReleased
  return s.put set
    { state with holds := state.holds.insert holdId { hold with releaseReason := some reason } }

def requireNoActiveHolds : Except BackupArchiveError Unit := do
  let current ← s.set set
  refuse (current.hasActiveHold = true) .restoreHoldPresent

def transition (next : BackupSetLifecycle) : Except BackupArchiveError BackupArchiveStateV1 :=
  s.update set fun state => { state with lifecycle := next }

def transitionFrom (expected next : BackupSetLifecycle) :
    Except BackupArchiveError BackupArchiveStateV1 := do
  let current ← s.set set
  refuse (current.lifecycle ≠ expected) .invalidLifecycleTransition
  s.transition set next

def beginSealing : Except BackupArchiveError BackupArchiveStateV1 := do
  let current ← s.set set
  refuse (current.lifecycle ≠ .streaming) .invalidLifecycleTransition
  refuse (current.hasBaseCheckpoint = false) .notRestorable
  refuse (current.hasActiveHold = true) .restoreHoldPresent
  s.transition set .sealing

def commitSealed : Except BackupArchiveError BackupArchiveStateV1 := do
  s.requireNoActiveHolds set
  s.transitionFrom set .sealing .sealed

def prepareDeletion (preparation : SafetyJournalDigest) :
    Except BackupArchiveError BackupArchiveStateV1 := do
  s.requireNoActiveHolds set
  let next ← s.transitionFrom set .sealed .deletionPrepared
  next.update set fun state => { state with deletionPreparation := some preparation }

def recordArchiveKeyErased : Except BackupArchiveError BackupArchiveStateV1 := do
  let current ← s.set set
  refuse (current.keyErasurePreparation = none ∨
    current.keyErasurePreparation ≠ current.deletionPreparation) .invalidLifecycleTransition
  s.transitionFrom set .deletionPrepared .archiveKeyErased

def prepareArchiveKeyErasure (preparation : SafetyJournalDigest) :
    Except BackupArchiveError BackupArchiveStateV1 := do
  let current ← s.set set
  refuse (current.lifecycle ≠ .deletionPrepared ∨ current.deletionPreparation ≠ some preparation ∨
    current.keyErasurePreparation.isSome = true) .invalidLifecycleTransition
  s.update set fun state => { state with keyErasurePreparation := some preparation }

def finalizeDeleted : Except BackupArchiveError BackupArchiveStateV1 :=
  s.transitionFrom set .archiveKeyErased .deleted

section

variable {s n : BackupArchiveStateV1} {set : BackupSetId} {current : BackupSetState}
  {reservation : ArchiveAppendReservation} {holdId : RestoreHoldId}

theorem set_eq_ok : s.set set = .ok current ↔ s.sets.get set = some current := okOr_eq_ok

theorem update_of_get (h : s.sets.get set = some current) (f : BackupSetState → BackupSetState) :
    s.update set f = .ok n ↔ n = s.put set (f current) := by
  rw [update, set_eq_ok.mpr h, ok_bind, pure_eq_ok, eq_comm]

theorem startStreaming_eq_ok {identity : BackupSetIdentity} {head : ArchiveHead}
    : s.startStreaming identity head = .ok n ↔
      s.sets.get identity.setId = none ∧ n = s.put identity.setId (.started identity head) := by
  rw [startStreaming, unit_bind_eq_ok, refuse_eq_ok, not_isSome_iff_eq_none, pure_eq_ok,
    eq_comm (a := n)]

theorem reserveAppend_eq_ok {expected : ArchiveHead} :
    s.reserveAppend set expected object = .ok reservation ↔
      ∃ current, s.sets.get set = some current ∧ current.lifecycle = .streaming ∧
        current.validateAppendKind object = .ok () ∧ current.head = expected ∧
        reservation.setId = set ∧ reservation.expected = expected ∧
        reservation.object = object := by
  rw [reserveAppend, bind_eq_ok]
  simp only [set_eq_ok, unit_bind_eq_ok, refuse_eq_ok, not_not, not_or]
  constructor
  · intro h
    obtain ⟨current, hget, hstream, hkind, ⟨hhead, hcont⟩, hnew⟩ := h
    rw [ArchiveAppendReservation.new, dif_pos hcont] at hnew
    cases hnew
    exact ⟨current, hget, hstream, hkind, hhead, rfl, rfl, rfl⟩
  · intro h
    obtain ⟨current, hget, hstream, hkind, hhead, rfl, rfl, rfl⟩ := h
    refine ⟨current, hget, hstream, hkind, ⟨hhead, reservation.continues⟩, ?_⟩
    rw [ArchiveAppendReservation.new, dif_pos reservation.continues]

theorem commitCheckpoint_eq_ok {checkpoint : WalArchiveCheckpoint}
    [Crypto] : s.commitCheckpoint reservation checkpoint = .ok n ↔
      ∃ current, s.sets.get reservation.setId = some current ∧ current.lifecycle = .streaming ∧
        current.head = reservation.expected ∧ checkpoint.object = reservation.object ∧
        current.validateAppendKind checkpoint.object = .ok () ∧
        n = s.put reservation.setId (current.append checkpoint) := by
  rw [commitCheckpoint, bind_eq_ok]
  simp only [set_eq_ok, unit_bind_eq_ok, refuse_eq_ok, not_not, not_or]
  refine exists_congr fun current => and_congr_right fun hget => ?_
  rw [update_of_get hget, and_assoc]

theorem acquireRestoreHold_eq_ok : s.acquireRestoreHold set holdId = .ok n ↔
      ∃ current, s.sets.get set = some current ∧ current.lifecycle = .streaming ∧
        current.hasBaseCheckpoint = true ∧ current.holds.get holdId = none ∧
        n = s.put set (current.hold holdId) := by
  simp only [acquireRestoreHold, bind_eq_ok, set_eq_ok, refuse_eq_ok, exists_const, not_not,
    not_isSome_iff_eq_none, Bool.not_eq_false]
  refine exists_congr fun current => and_congr_right fun hget => ?_
  rw [update_of_get hget]

theorem releaseRestoreHold_eq_ok {reason : RestoreHoldReleaseReason}
    : s.releaseRestoreHold set holdId reason = .ok n ↔
      ∃ current, s.sets.get set = some current ∧ ∃ hold, current.holds.get holdId = some hold ∧
        hold.active = true ∧
        n = s.put set { current with
          holds := current.holds.insert holdId { hold with releaseReason := some reason } } := by
  simp only [releaseRestoreHold, bind_eq_ok, set_eq_ok, okOr_eq_ok, refuse_eq_ok, exists_const,
    Bool.not_eq_false, pure_eq_ok]
  refine exists_congr fun current => and_congr_right fun _ => exists_congr fun hold => ?_
  rw [eq_comm (a := n)]

theorem requireNoActiveHolds_eq_ok : s.requireNoActiveHolds set = .ok () ↔
      ∃ current, s.sets.get set = some current ∧ current.hasActiveHold = false := by
  simp only [requireNoActiveHolds, bind_eq_ok, set_eq_ok, refuse_eq_ok, Bool.not_eq_true]

theorem transitionFrom_eq_ok {expected next : BackupSetLifecycle} :
    s.transitionFrom set expected next = .ok n ↔
      ∃ current, s.sets.get set = some current ∧ current.lifecycle = expected ∧
        n = s.put set { current with lifecycle := next } := by
  simp only [transitionFrom, transition, bind_eq_ok, set_eq_ok, refuse_eq_ok, exists_const, not_not]
  refine exists_congr fun current => and_congr_right fun hget => ?_
  rw [update_of_get hget]

theorem beginSealing_eq_ok : s.beginSealing set = .ok n ↔
      ∃ current, s.sets.get set = some current ∧ current.lifecycle = .streaming ∧
        current.hasBaseCheckpoint = true ∧ current.hasActiveHold = false ∧
        n = s.put set { current with lifecycle := .sealing } := by
  simp only [beginSealing, transition, bind_eq_ok, set_eq_ok, refuse_eq_ok, exists_const, not_not,
    Bool.not_eq_false, Bool.not_eq_true]
  refine exists_congr fun current => and_congr_right fun hget => ?_
  rw [update_of_get hget]

theorem commitSealed_eq_ok : s.commitSealed set = .ok n ↔
      ∃ current, s.sets.get set = some current ∧ current.hasActiveHold = false ∧
        current.lifecycle = .sealing ∧ n = s.put set { current with lifecycle := .sealed } := by
  rw [commitSealed, unit_bind_eq_ok, requireNoActiveHolds_eq_ok, transitionFrom_eq_ok]
  constructor
  · intro h
    obtain ⟨⟨state, hstate, hfree⟩, current, hget, hfrom, rfl⟩ := h
    obtain rfl := mem_unique hget hstate
    exact ⟨current, hget, hfree, hfrom, rfl⟩
  · intro h
    obtain ⟨current, hget, hfree, hfrom, rfl⟩ := h
    exact ⟨⟨current, hget, hfree⟩, current, hget, hfrom, rfl⟩

theorem prepareDeletion_eq_ok :
    s.prepareDeletion set preparation = .ok n ↔
      ∃ current, s.sets.get set = some current ∧ current.hasActiveHold = false ∧
        current.lifecycle = .sealed ∧
        n = s.put set { current with
          lifecycle := .deletionPrepared, deletionPreparation := some preparation } := by
  -- both assignments go to the same set, so the second one is what is left
  have htwice : ∀ (a b : BackupSetState), (s.put set a).put set b = s.put set b := by
    intro a b
    rw [put, put, put, insert_insert_self]
  have hmoved : ∀ a : BackupSetState, (s.put set a).sets.get set = some a :=
    fun a => get_insert_self s.sets set a
  rw [prepareDeletion, unit_bind_eq_ok, requireNoActiveHolds_eq_ok, bind_eq_ok]
  simp only [transitionFrom_eq_ok]
  constructor
  · intro h
    obtain ⟨⟨state, hstate, hfree⟩, next, ⟨current, hget, hfrom, rfl⟩, hnext⟩ := h
    obtain rfl := mem_unique hget hstate
    rw [update_of_get (hmoved _), htwice] at hnext
    exact ⟨current, hget, hfree, hfrom, hnext⟩
  · intro h
    obtain ⟨current, hget, hfree, hfrom, hnext⟩ := h
    refine ⟨⟨current, hget, hfree⟩, _, ⟨current, hget, hfrom, rfl⟩, ?_⟩
    rw [update_of_get (hmoved _), htwice]
    exact hnext

theorem recordArchiveKeyErased_eq_ok : s.recordArchiveKeyErased set = .ok n ↔
      ∃ current, s.sets.get set = some current ∧ current.keyErasurePreparation ≠ none ∧
        current.keyErasurePreparation = current.deletionPreparation ∧
        current.lifecycle = .deletionPrepared ∧
        n = s.put set { current with lifecycle := .archiveKeyErased } := by
  simp only [recordArchiveKeyErased, bind_eq_ok, set_eq_ok, refuse_eq_ok, exists_const, not_or,
    not_not, transitionFrom_eq_ok]
  constructor
  · intro h
    obtain ⟨current, hget, ⟨hsome, heq⟩, state, hstate, hfrom, rfl⟩ := h
    obtain rfl := mem_unique hget hstate
    exact ⟨current, hget, hsome, heq, hfrom, rfl⟩
  · intro h
    obtain ⟨current, hget, hsome, heq, hfrom, rfl⟩ := h
    exact ⟨current, hget, ⟨hsome, heq⟩, current, hget, hfrom, rfl⟩

theorem prepareArchiveKeyErasure_eq_ok :
    s.prepareArchiveKeyErasure set preparation = .ok n ↔
      ∃ current, s.sets.get set = some current ∧ current.lifecycle = .deletionPrepared ∧
        current.deletionPreparation = some preparation ∧ current.keyErasurePreparation = none ∧
        n = s.put set { current with keyErasurePreparation := some preparation } := by
  simp only [prepareArchiveKeyErasure, bind_eq_ok, set_eq_ok, refuse_eq_ok, exists_const, not_or,
    not_not, not_isSome_iff_eq_none]
  refine exists_congr fun current => and_congr_right fun hget => ?_
  rw [update_of_get hget, and_assoc, and_assoc]

theorem finalizeDeleted_eq_ok : s.finalizeDeleted set = .ok n ↔
      ∃ current, s.sets.get set = some current ∧ current.lifecycle = .archiveKeyErased ∧
        n = s.put set { current with lifecycle := .deleted } := transitionFrom_eq_ok

end

/-! ## Successor predicates -/

def checkpointChange [Crypto] (setId : BackupSetId) (before after : BackupSetState) : Bool :=
  after.identity == before.identity && after.lifecycle == .streaming &&
    after.deletionRequested == before.deletionRequested &&
    after.deletionPreparation == before.deletionPreparation &&
    after.keyErasurePreparation == before.keyErasurePreparation &&
    after.holds == before.holds &&
    after.checkpoints.length == before.checkpoints.length + 1 &&
    before.checkpoints.isPrefixOf after.checkpoints &&
    match after.checkpoints.getLast? with
    | none => false
    | some last =>
      last.object.setId == setId && (before.validateAppendKind last.object).isOk &&
        -- `checked_add(1).unwrap_or(u64::MAX)`
        last.object.ordinal ==
          (checkedAdd before.head.checkpointOrdinal 1).getD 0xFFFFFFFFFFFFFFFF &&
        last.object.predecessorHeadDigest == before.head.digest &&
        after.head == last.head

def isExactCheckpointSuccessorOf [Crypto] (next previous : BackupArchiveStateV1) : Bool :=
  next.sets.isOneChange checkpointChange previous.sets

/-- The set `is_exact_started_successor_of` allows to be new. -/
def startedAddition (_ : BackupSetId) (after : BackupSetState) : Bool :=
  after.lifecycle == .streaming && !after.deletionRequested &&
    after.deletionPreparation.isNone && after.keyErasurePreparation.isNone &&
    after.checkpoints.isEmpty && after.holds.entries.isEmpty &&
    after.head.checkpointOrdinal == 0

variable (next previous : BackupArchiveStateV1)

def isExactStartedSuccessorOf : Bool :=
  next.sets.isOneAddition startedAddition previous.sets

def holdChange (_ : BackupSetId) (before after : BackupSetState) : Bool :=
  after.identity == before.identity && after.lifecycle == .streaming &&
    after.deletionRequested == before.deletionRequested &&
    after.deletionPreparation == before.deletionPreparation &&
    after.keyErasurePreparation == before.keyErasurePreparation &&
    after.head == before.head && after.checkpoints == before.checkpoints &&
    before.hasBaseCheckpoint && after.holds.len == before.holds.len + 1 &&
    before.holds.entries.all (fun e => after.holds.get e.1 == some e.2) &&
    after.holds.entries.any fun e => (before.holds.get e.1).isNone && e.2.active

def isExactHoldSuccessorOf : Bool :=
  next.sets.isOneChange holdChange previous.sets

def lifecycleChange (source target : BackupSetLifecycle) (_ : BackupSetId)
    (before after : BackupSetState) : Bool :=
  before.lifecycle == source && after.lifecycle == target && after.identity == before.identity &&
    after.deletionRequested == before.deletionRequested &&
    after.deletionPreparation == before.deletionPreparation &&
    after.keyErasurePreparation == before.keyErasurePreparation &&
    after.head == before.head && after.checkpoints == before.checkpoints &&
    after.holds == before.holds && before.hasBaseCheckpoint

def isExactLifecycleSuccessorOf (source target : BackupSetLifecycle) : Bool :=
  next.sets.isOneChange (lifecycleChange source target) previous.sets

def preparedDeletionChange (_ : BackupSetId) (before after : BackupSetState) : Bool :=
  before.lifecycle == .sealed && after.lifecycle == .deletionPrepared &&
    before.deletionPreparation.isNone && after.deletionPreparation.isSome &&
    before.keyErasurePreparation.isNone && after.keyErasurePreparation.isNone &&
    after.identity == before.identity &&
    after.deletionRequested == before.deletionRequested &&
    after.head == before.head && after.checkpoints == before.checkpoints &&
    after.holds == before.holds

def isExactPreparedDeletionSuccessorOf : Bool :=
  next.sets.isOneChange preparedDeletionChange previous.sets

def keyErasurePreparedChange (_ : BackupSetId) (before after : BackupSetState) : Bool :=
  before.lifecycle == .deletionPrepared && after.lifecycle == .deletionPrepared &&
    before.keyErasurePreparation.isNone &&
    after.keyErasurePreparation == before.deletionPreparation &&
    after.identity == before.identity &&
    after.deletionRequested == before.deletionRequested &&
    after.deletionPreparation == before.deletionPreparation &&
    after.head == before.head && after.checkpoints == before.checkpoints &&
    after.holds == before.holds

def isExactKeyErasurePreparedSuccessorOf : Bool :=
  next.sets.isOneChange keyErasurePreparedChange previous.sets

end BackupArchiveStateV1

end Vestrace.Installation
