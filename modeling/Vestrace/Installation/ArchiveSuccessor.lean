import Vestrace.Installation.ArchiveFormat

/-!
# Successor predicates against the operations

The witness is shown the archive before and after an operation and asks a predicate whether the
one is an exact successor of the other. Six of the nine predicates accept what the operations
return, and nothing else. Those for checkpoints and holds do not ask that the set was streaming
before (`Reopens`), and that for lifecycles does not look at the holds (`SealsHeld`).
-/

namespace Vestrace.Installation

open Lib BackupArchiveStateV1 SortedMap List BackupSetState

variable {target source : BackupSetLifecycle} {set : BackupSetId}

/-! ## The change each predicate allows -/

section

variable {before after : BackupSetState}

theorem lifecycleChange_iff :
    lifecycleChange source target set before after = true ↔
      before.lifecycle = source ∧ before.hasBaseCheckpoint = true ∧
        after = { before with lifecycle := target } := by
  cases after
  simp only [lifecycleChange, Bool.and_eq_true, beq_iff_eq, BackupSetState.mk.injEq, and_assoc]
  constructor
  · intro h
    obtain ⟨hfrom, hto, hid, hreq, hdel, hera, hhead, hcps, hholds, hbase⟩ := h
    exact ⟨hfrom, hbase, hid, hto, hreq, hdel, hera, hhead, hcps, hholds⟩
  · intro h
    obtain ⟨hfrom, hbase, hid, hto, hreq, hdel, hera, hhead, hcps, hholds⟩ := h
    exact ⟨hfrom, hto, hid, hreq, hdel, hera, hhead, hcps, hholds, hbase⟩

theorem preparedDeletionChange_iff :
    preparedDeletionChange set before after = true ↔
      before.lifecycle = .sealed ∧ before.deletionPreparation = none ∧
        before.keyErasurePreparation = none ∧
        ∃ preparation, after = { before with
          lifecycle := .deletionPrepared, deletionPreparation := some preparation } := by
  cases after
  simp only [preparedDeletionChange, Bool.and_eq_true, beq_iff_eq, BackupSetState.mk.injEq,
    Option.isNone_iff_eq_none, Option.isSome_iff_exists, and_assoc]
  constructor
  · intro h
    obtain ⟨hfrom, hto, hdel, ⟨preparation, hdel'⟩, hera, hera', hid, hreq, hhead, hcps,
      hholds⟩ := h
    exact ⟨hfrom, hdel, hera, preparation, hid, hto, hreq, hdel', hera'.trans hera.symm, hhead,
      hcps, hholds⟩
  · intro h
    obtain ⟨hfrom, hdel, hera, preparation, hid, hto, hreq, hdel', hera', hhead, hcps, hholds⟩ := h
    exact ⟨hfrom, hto, hdel, ⟨preparation, hdel'⟩, hera, hera'.trans hera, hid, hreq,
      hhead, hcps, hholds⟩

theorem keyErasurePreparedChange_iff :
    keyErasurePreparedChange set before after = true ↔
      before.lifecycle = .deletionPrepared ∧ before.keyErasurePreparation = none ∧
        after = { before with keyErasurePreparation := before.deletionPreparation } := by
  cases after
  simp only [keyErasurePreparedChange, Bool.and_eq_true, beq_iff_eq, BackupSetState.mk.injEq,
    Option.isNone_iff_eq_none, and_assoc]
  constructor
  · intro h
    obtain ⟨hfrom, hto, hera, hera', hid, hreq, hdel, hhead, hcps, hholds⟩ := h
    exact ⟨hfrom, hera, hid, hto.trans hfrom.symm, hreq, hdel, hera', hhead, hcps, hholds⟩
  · intro h
    obtain ⟨hfrom, hera, hid, hto, hreq, hdel, hera', hhead, hcps, hholds⟩ := h
    exact ⟨hfrom, hto.trans hfrom, hera, hera', hid, hreq, hdel, hhead, hcps, hholds⟩

theorem startedAddition_iff :
    startedAddition set after = true ↔
      after.head.checkpointOrdinal = 0 ∧ after = .started after.identity after.head := by
  cases after
  simp only [startedAddition, Bool.and_eq_true, beq_iff_eq, started,
    BackupSetState.mk.injEq, Option.isNone_iff_eq_none, List.isEmpty_iff, Bool.not_eq_true',
    and_assoc]
  constructor
  · intro h
    obtain ⟨hlife, hreq, hdel, hera, hcps, hholds, hzero⟩ := h
    exact ⟨hzero, trivial, hlife, hreq, hdel, hera, trivial, hcps, eq_of_entries_eq hholds⟩
  · intro h
    obtain ⟨hzero, -, hlife, hreq, hdel, hera, -, hcps, hholds⟩ := h
    exact ⟨hlife, hreq, hdel, hera, hcps, congrArg entries hholds, hzero⟩

theorem holdChange_iff :
    holdChange set before after = true ↔
      before.hasBaseCheckpoint = true ∧ ∃ id hold, before.holds.get id = none ∧
        hold.active = true ∧ after = { before with
          lifecycle := .streaming, holds := before.holds.insert id hold } := by
  cases after with | mk identity lifecycle requested deletion erasure head checkpoints holds =>
  simp only [holdChange, Bool.and_eq_true, beq_iff_eq, BackupSetState.mk.injEq,
    all_eq_true, any_eq_true, Option.isNone_iff_eq_none, and_assoc]
  constructor
  · intro h
    obtain ⟨hid, hlife, hreq, hdel, hera, hhead, hcps, hbase, hlen, hall,
      ⟨id, hold⟩, hmem, hnew, hactive⟩ := h
    refine ⟨hbase, id, hold, hnew, hactive, hid, hlife, hreq, hdel, hera, hhead, hcps, ?_⟩
    refine Eq.symm (eq_of_get_le ?_ ?_)
    · intro j v hj
      by_cases hjid : j = id
      · subst hjid
        rw [get_insert_self] at hj
        obtain rfl := Option.some.inj hj
        exact mem_entries.mp hmem
      · rw [get_insert_ne _ hjid] at hj
        exact hall ⟨j, v⟩ (mem_entries.mpr hj)
    · rw [len_insert_of_get_none hnew, hlen]
  · intro h
    obtain ⟨hbase, id, hold, hnew, hactive, hid, hlife, hreq, hdel, hera, hhead, hcps, hholds⟩ := h
    subst hholds
    refine ⟨hid, hlife, hreq, hdel, hera, hhead, hcps, hbase,
      len_insert_of_get_none hnew _, ?_, ⟨id, hold⟩,
      mem_entries.mpr (get_insert_self _ _ _), hnew, hactive⟩
    intro e he
    have hget := mem_entries.mp he
    have hne : e.1 ≠ id := by
      intro heq
      rw [heq, hnew] at hget
      cases hget
    rw [get_insert_ne _ hne, hget]

theorem checkpointChange_iff [Crypto] :
    checkpointChange set before after = true ↔
      ∃ checkpoint : WalArchiveCheckpoint, checkpoint.object.setId = set ∧
        before.validateAppendKind checkpoint.object = .ok () ∧
        checkpoint.object.ordinal =
          (checkedAdd before.head.checkpointOrdinal 1).getD 0xFFFFFFFFFFFFFFFF ∧
        checkpoint.object.predecessorHeadDigest = before.head.digest ∧
        after = { before.append checkpoint with lifecycle := .streaming } := by
  cases after with | mk identity lifecycle requested deletion erasure head checkpoints holds =>
  have hok : ∀ x : Except BackupArchiveError Unit, x.isOk = true ↔ x = .ok () := by
    intro x
    cases x <;> simp [Except.isOk, Except.toBool]
  simp only [checkpointChange, append, Bool.and_eq_true, beq_iff_eq,
    BackupSetState.mk.injEq, isPrefixOf_iff_prefix, and_assoc]
  constructor
  · intro h
    obtain ⟨hid, hlife, hreq, hdel, hera, hholds, hlen, ⟨tail, htail⟩, hlast⟩ := h
    subst htail
    -- the tail has length one, so it is the last checkpoint
    obtain ⟨last, rfl⟩ : ∃ last, tail = [last] := by
      rw [length_append] at hlen
      exact length_eq_one_iff.mp (by omega)
    rw [List.getLast?_concat] at hlast
    simp only [Bool.and_eq_true, beq_iff_eq, hok, and_assoc] at hlast
    obtain ⟨hset, hkind, hord, hpred, hhead⟩ := hlast
    exact ⟨last, hset, hkind, hord, hpred, hid, hlife, hreq, hdel, hera, hhead, rfl, hholds⟩
  · intro h
    obtain ⟨last, hset, hkind, hord, hpred, hid, hlife, hreq, hdel, hera, hhead, rfl, hholds⟩ := h
    refine ⟨hid, hlife, hreq, hdel, hera, hholds, length_append,
      prefix_append _ _, ?_⟩
    rw [List.getLast?_concat]
    simp only [Bool.and_eq_true, beq_iff_eq, hok, and_assoc]
    exact ⟨hset, hkind, hord, hpred, hhead⟩

end

/-! ## The predicates and the operations, set by set -/

section

variable {p n : BackupArchiveStateV1}

def InOrder [Crypto] (p : BackupArchiveStateV1) : Prop :=
  ∀ set state, p.sets.get set = some state → ∃ start, SetInv set start state

theorem archiveRun_inOrder [Crypto] (calls : List ArchiveCall) : InOrder (archiveRun calls) := by
  intro set state hget
  obtain ⟨start, -, hinv⟩ := (archiveRun_inv calls).sets set state hget
  exact ⟨start, hinv⟩

theorem get_put_self (p : BackupArchiveStateV1) (set : BackupSetId) (state : BackupSetState) :
    (p.put set state).sets.get set = some state := get_insert_self _ _ _

theorem put_inj_set {a b : BackupSetId} {x X Y : BackupSetState} (ha : p.sets.get a = some x)
    (hX : X ≠ x) (h : p.put a X = p.put b Y) : a = b := by
  by_contra hne
  have hget := get_put_self p a X
  rw [h, put, get_insert_ne _ hne, ha] at hget
  exact hX (Option.some.inj hget).symm

theorem eq_put_iff {after : BackupSetState} :
    n.sets = p.sets.insert set after ↔ n = p.put set after := by
  cases n
  rw [put, BackupArchiveStateV1.mk.injEq]

def NextCheckpoint (set : BackupSetId) (before : BackupSetState)
    (checkpoint : WalArchiveCheckpoint) : Prop :=
  checkpoint.object.Continues set before.head ∧
    before.validateAppendKind checkpoint.object = .ok ()

theorem started_iff (hn : Admissible n) :
    n.isExactStartedSuccessorOf p = true ↔
      ∃ identity head, head.checkpointOrdinal = 0 ∧ p.startStreaming identity head = .ok n := by
  rw [isExactStartedSuccessorOf, isOneAddition_iff]
  simp only [startedAddition_iff, startStreaming_eq_ok, eq_put_iff]
  constructor
  · intro h
    obtain ⟨set, after, hnone, ⟨hzero, hafter⟩, rfl⟩ := h
    -- a set is filed under its own id
    have hkey : after.identity.setId = set := (hn set after (get_put_self p set after)).key
    refine ⟨after.identity, after.head, hzero, ?_, ?_⟩
    · rw [hkey, hnone]
    · rw [hkey, ← hafter]
  · intro h
    obtain ⟨identity, head, hzero, hnone, rfl⟩ := h
    exact ⟨identity.setId, .started identity head, hnone, ⟨hzero, rfl⟩, rfl⟩

theorem checkedAdd_of_getD [Crypto] {start : ArchiveHead} {before : BackupSetState}
    {checkpoint : WalArchiveCheckpoint} (hinv : SetInv set start before)
    (hkind : before.validateAppendKind checkpoint.object = .ok ())
    (hord : checkpoint.object.ordinal =
      (checkedAdd before.head.checkpointOrdinal 1).getD 0xFFFFFFFFFFFFFFFF)
    (hincr : (before.checkpoints ++ [checkpoint]).Pairwise
      fun a b => a.object.ordinal < b.object.ordinal) :
    checkedAdd before.head.checkpointOrdinal 1 = some checkpoint.object.ordinal := by
  cases hadd : checkedAdd before.head.checkpointOrdinal 1 with
  | some next =>
    rw [hord, hadd]
    rfl
  | none =>
    exfalso
    rw [hadd, Option.getD_none] at hord
    rcases validateAppendKind_eq_ok.mp hkind with ⟨-, -, hone⟩ | ⟨base, rest, hcons, -⟩
    · rw [hone] at hord
      exact absurd hord (by decide)
    · rcases eq_nil_or_concat before.checkpoints with hnil | ⟨front, last, hlast⟩
      · rw [hnil] at hcons
        cases hcons
      · rw [concat_eq_append] at hlast
        have hlt : last.object.ordinal < checkpoint.object.ordinal := by
          rw [hlast] at hincr
          exact (pairwise_append.mp hincr).2.2 last
            (mem_append_right _ (mem_singleton_self _)) checkpoint
            (mem_singleton_self _)
        have hhead : before.head.checkpointOrdinal = last.object.ordinal := by
          rw [hinv.head, hlast, headAfter_snoc]
          rfl
        -- the last ordinal is below `u64::MAX`, so there is a next one
        have hnext : last.object.ordinal.toNat + (1 : UInt64).toNat < 2 ^ 64 := by
          show last.object.ordinal.toNat + 1 < 2 ^ 64
          have hlt' := UInt64.lt_iff_toNat_lt.mp hlt
          have hmax := checkpoint.object.ordinal.toNat_lt
          omega
        rw [checkedAdd, hhead, if_pos hnext] at hadd
        cases hadd

theorem checkpoint_iff [Crypto] (hp : InOrder p) (hn : Admissible n) :
    n.isExactCheckpointSuccessorOf p = true ↔
      ∃ set before checkpoint, p.sets.get set = some before ∧
        NextCheckpoint set before checkpoint ∧
        n = p.put set { before.append checkpoint with lifecycle := .streaming } := by
  rw [isExactCheckpointSuccessorOf, isOneChange_iff]
  simp only [checkpointChange_iff, eq_put_iff]
  constructor
  · intro h
    obtain ⟨set, before, after, hget, -, ⟨checkpoint, hset, hkind, hord, hpred, rfl⟩, rfl⟩ := h
    obtain ⟨start, hinv⟩ := hp set before hget
    have hadd := checkedAdd_of_getD hinv hkind hord (hn set _ (get_put_self p set _)).ordinals
    exact ⟨set, before, checkpoint, hget, ⟨⟨hset, hpred, hadd⟩, hkind⟩, rfl⟩
  · intro h
    obtain ⟨set, before, checkpoint, hget, ⟨⟨hset, hpred, hadd⟩, hkind⟩, rfl⟩ := h
    have hne : { before.append checkpoint with lifecycle := .streaming } ≠ before := by
      intro heq
      have hlen := congrArg (fun state => state.checkpoints.length) heq
      simp [append] at hlen
    refine ⟨set, before, _, hget, hne, ⟨checkpoint, hset, hkind, ?_, hpred, rfl⟩, rfl⟩
    rw [hadd]
    rfl

theorem reserved_commit_iff [Crypto] :
    (∃ set expected object reservation checkpoint,
        p.reserveAppend set expected object = .ok reservation ∧
        p.commitCheckpoint reservation checkpoint = .ok n) ↔
      ∃ set before checkpoint, p.sets.get set = some before ∧ before.lifecycle = .streaming ∧
        NextCheckpoint set before checkpoint ∧ n = p.put set (before.append checkpoint) := by
  simp only [reserveAppend_eq_ok, commitCheckpoint_eq_ok]
  constructor
  · intro h
    obtain ⟨set, expected, object, reservation, checkpoint,
      ⟨current, hget, hstream, -, -, rfl, -, -⟩, state, hstate, -, hhead, hobject, hkind, rfl⟩ := h
    obtain rfl := Option.mem_unique hget hstate
    refine ⟨_, current, checkpoint, hget, hstream, ⟨?_, hkind⟩, rfl⟩
    rw [hobject, hhead]
    exact reservation.continues
  · intro h
    obtain ⟨set, before, checkpoint, hget, hstream, ⟨hcont, hkind⟩, rfl⟩ := h
    exact ⟨set, before.head, checkpoint.object, ⟨set, before.head, checkpoint.object, hcont⟩,
      checkpoint, ⟨before, hget, hstream, hkind, rfl, rfl, rfl, rfl⟩, before, hget, hstream, rfl,
      rfl, hkind, rfl⟩

theorem hold_iff (hn : Admissible n) :
    n.isExactHoldSuccessorOf p = true ↔
      ∃ set before id, p.sets.get set = some before ∧ before.hasBaseCheckpoint = true ∧
        before.holds.get id = none ∧
        n = p.put set { before.hold id with lifecycle := .streaming } := by
  rw [isExactHoldSuccessorOf, isOneChange_iff]
  simp only [holdChange_iff, eq_put_iff]
  constructor
  · intro h
    obtain ⟨set, before, after, hget, -, ⟨hbase, id, hold, hnew, hactive, rfl⟩, rfl⟩ := h
    -- a hold is filed under its own id, and an active one has no reason
    have hkey : hold.id = id := (hn set _ (get_put_self p set _)).holdKeys id hold
      (get_insert_self _ _ _)
    have hhold : hold = ⟨id, none⟩ := by
      obtain ⟨holdId, reason⟩ := hold
      obtain rfl : reason = none := Option.isNone_iff_eq_none.mp hactive
      obtain rfl : holdId = id := hkey
      rfl
    subst hhold
    exact ⟨set, before, id, hget, hbase, hnew, rfl⟩
  · intro h
    obtain ⟨set, before, id, hget, hbase, hnew, rfl⟩ := h
    have hne : { before.hold id with lifecycle := .streaming } ≠ before := by
      intro heq
      have hsame : before.holds.insert id ⟨id, none⟩ = before.holds :=
        congrArg holds heq
      have hself := get_insert_self before.holds id ⟨id, none⟩
      rw [hsame, hnew] at hself
      cases hself
    exact ⟨set, before, _, hget, hne, ⟨hbase, id, ⟨id, none⟩, hnew, rfl, rfl⟩, rfl⟩

theorem lifecycle_iff (hne : target ≠ source) :
    n.isExactLifecycleSuccessorOf p source target = true ↔
      ∃ set before, p.sets.get set = some before ∧ before.lifecycle = source ∧
        before.hasBaseCheckpoint = true ∧ n = p.put set { before with lifecycle := target } := by
  rw [isExactLifecycleSuccessorOf, isOneChange_iff]
  simp only [lifecycleChange_iff, eq_put_iff]
  constructor
  · intro h
    obtain ⟨set, before, after, hget, -, ⟨hfrom, hbase, rfl⟩, rfl⟩ := h
    exact ⟨set, before, hget, hfrom, hbase, rfl⟩
  · intro h
    obtain ⟨set, before, hget, hfrom, hbase, rfl⟩ := h
    have hdiff : { before with lifecycle := target } ≠ before := by
      intro heq
      exact hne ((congrArg lifecycle heq).trans hfrom)
    exact ⟨set, before, _, hget, hdiff, ⟨hfrom, hbase, rfl⟩, rfl⟩

theorem preparedDeletion_iff [Crypto] (hp : InOrder p) :
    n.isExactPreparedDeletionSuccessorOf p = true ↔
      ∃ set preparation, p.prepareDeletion set preparation = .ok n := by
  rw [isExactPreparedDeletionSuccessorOf, isOneChange_iff]
  simp only [preparedDeletionChange_iff, eq_put_iff, prepareDeletion_eq_ok]
  constructor
  · intro h
    obtain ⟨set, before, after, hget, -, ⟨hsealed, -, -, preparation, rfl⟩, rfl⟩ := h
    obtain ⟨start, hinv⟩ := hp set before hget
    have hfree : before.hasActiveHold = false := hinv.stage.free (by simp [hsealed])
    exact ⟨set, preparation, before, hget, hfree, hsealed, rfl⟩
  · intro h
    obtain ⟨set, preparation, before, hget, -, hsealed, rfl⟩ := h
    obtain ⟨start, hinv⟩ := hp set before hget
    obtain ⟨hdel, hera⟩ := hinv.stage.unprepared (.inr (.inr hsealed))
    refine ⟨set, before, _, hget, ?_, ⟨hsealed, hdel, hera, preparation, rfl⟩, rfl⟩
    intro heq
    have hlife := congrArg lifecycle heq
    rw [hsealed] at hlife
    cases hlife

theorem keyErasurePrepared_iff [Crypto] (hp : InOrder p) :
    n.isExactKeyErasurePreparedSuccessorOf p = true ↔
      ∃ set preparation, p.prepareArchiveKeyErasure set preparation = .ok n := by
  rw [isExactKeyErasurePreparedSuccessorOf, isOneChange_iff]
  simp only [keyErasurePreparedChange_iff, eq_put_iff, prepareArchiveKeyErasure_eq_ok]
  constructor
  · intro h
    obtain ⟨set, before, after, hget, -, ⟨hprep, hera, rfl⟩, rfl⟩ := h
    obtain ⟨start, hinv⟩ := hp set before hget
    obtain ⟨preparation, hdel⟩ := Option.isSome_iff_exists.mp (hinv.stage.deletion.mpr (.inl hprep))
    exact ⟨set, preparation, before, hget, hprep, hdel, hera, by rw [hdel]⟩
  · intro h
    obtain ⟨set, preparation, before, hget, hprep, hdel, hera, rfl⟩ := h
    refine ⟨set, before, _, hget, ?_, ⟨hprep, hera, by rw [hdel]⟩, rfl⟩
    intro heq
    have hsome := congrArg keyErasurePreparation heq
    rw [hera] at hsome
    cases hsome

theorem sealed_iff [Crypto] (hp : InOrder p) :
    n.isExactLifecycleSuccessorOf p .sealing .sealed = true ↔
      ∃ set, p.commitSealed set = .ok n := by
  rw [lifecycle_iff (by decide)]
  simp only [commitSealed_eq_ok]
  refine exists_congr fun set => exists_congr fun before => and_congr_right fun hget => ?_
  obtain ⟨start, hinv⟩ := hp set before hget
  constructor
  · intro h
    obtain ⟨hsealing, -, hnext⟩ := h
    exact ⟨hinv.stage.free (by simp [hsealing]), hsealing, hnext⟩
  · intro h
    obtain ⟨-, hsealing, hnext⟩ := h
    exact ⟨hsealing, hinv.stage.sealedBase (by simp [hsealing]), hnext⟩

theorem keyErased_iff [Crypto] (hp : InOrder p) (hn : Admissible n) :
    n.isExactLifecycleSuccessorOf p .deletionPrepared .archiveKeyErased = true ↔
      ∃ set, p.recordArchiveKeyErased set = .ok n := by
  rw [lifecycle_iff (by decide)]
  simp only [recordArchiveKeyErased_eq_ok]
  refine exists_congr fun set => exists_congr fun before => and_congr_right fun hget => ?_
  obtain ⟨start, hinv⟩ := hp set before hget
  constructor
  · intro h
    obtain ⟨hprep, -, rfl⟩ := h
    -- the next archive has the same preparations, and shows them in order
    obtain ⟨hsome, hsame⟩ := (hn set _ (get_put_self p set _)).erased rfl
    exact ⟨hsome, hsame, hprep, rfl⟩
  · intro h
    obtain ⟨-, -, hprep, hnext⟩ := h
    exact ⟨hprep, hinv.stage.sealedBase (by simp [hprep]), hnext⟩

theorem deleted_iff [Crypto] (hp : InOrder p) :
    n.isExactLifecycleSuccessorOf p .archiveKeyErased .deleted = true ↔
      ∃ set, p.finalizeDeleted set = .ok n := by
  rw [lifecycle_iff (by decide)]
  simp only [finalizeDeleted_eq_ok]
  refine exists_congr fun set => exists_congr fun before => and_congr_right fun hget => ?_
  obtain ⟨start, hinv⟩ := hp set before hget
  constructor
  · intro h
    exact ⟨h.1, h.2.2⟩
  · intro h
    exact ⟨h.1, hinv.stage.sealedBase (by simp [h.1]), h.2⟩

end

/-! ## Where a guard is missing -/

/-- The next archive has a set streaming again that had left streaming, with one more
checkpoint or one more active hold. -/
def Reopens [Crypto] (p n : BackupArchiveStateV1) : Prop :=
  ∃ set before, p.sets.get set = some before ∧ before.lifecycle ≠ .streaming ∧
    ((∃ checkpoint, NextCheckpoint set before checkpoint ∧
        n = p.put set { before.append checkpoint with lifecycle := .streaming }) ∨
      (before.hasBaseCheckpoint = true ∧ ∃ id, before.holds.get id = none ∧
        n = p.put set { before.hold id with lifecycle := .streaming }))

def SealsHeld (p n : BackupArchiveStateV1) : Prop :=
  ∃ set before, p.sets.get set = some before ∧ before.lifecycle = .streaming ∧
    before.hasBaseCheckpoint = true ∧ before.hasActiveHold = true ∧
    n = p.put set { before with lifecycle := .sealing }

/-- Each predicate accepts `n` behind `p` exactly when its operation takes `p` to `n`. -/
structure SuccessorsExact [Crypto] (p n : BackupArchiveStateV1) : Prop where
  started : n.isExactStartedSuccessorOf p = true ↔
    ∃ identity head, head.checkpointOrdinal = 0 ∧ p.startStreaming identity head = .ok n
  checkpoint : n.isExactCheckpointSuccessorOf p = true ↔
    ∃ set expected object reservation checkpoint,
      p.reserveAppend set expected object = .ok reservation ∧
      p.commitCheckpoint reservation checkpoint = .ok n
  hold : n.isExactHoldSuccessorOf p = true ↔
    ∃ set holdId, p.acquireRestoreHold set holdId = .ok n
  preparedDeletion : n.isExactPreparedDeletionSuccessorOf p = true ↔
    ∃ set preparation, p.prepareDeletion set preparation = .ok n
  keyErasurePrepared : n.isExactKeyErasurePreparedSuccessorOf p = true ↔
    ∃ set preparation, p.prepareArchiveKeyErasure set preparation = .ok n
  sealing : n.isExactLifecycleSuccessorOf p .streaming .sealing = true ↔
    ∃ set, p.beginSealing set = .ok n
  sealed : n.isExactLifecycleSuccessorOf p .sealing .sealed = true ↔
    ∃ set, p.commitSealed set = .ok n
  keyErased : n.isExactLifecycleSuccessorOf p .deletionPrepared .archiveKeyErased = true ↔
    ∃ set, p.recordArchiveKeyErased set = .ok n
  deleted : n.isExactLifecycleSuccessorOf p .archiveKeyErased .deleted = true ↔
    ∃ set, p.finalizeDeleted set = .ok n

section

variable [Crypto] {p n : BackupArchiveStateV1}

theorem checkpoint_exact (hp : InOrder p) (hn : Admissible n) (hopen : ¬ Reopens p n) :
    n.isExactCheckpointSuccessorOf p = true ↔
      ∃ set expected object reservation checkpoint,
        p.reserveAppend set expected object = .ok reservation ∧
        p.commitCheckpoint reservation checkpoint = .ok n := by
  rw [checkpoint_iff hp hn, reserved_commit_iff]
  refine exists_congr fun set => exists_congr fun before => exists_congr fun checkpoint => ?_
  constructor
  · intro h
    obtain ⟨hget, hnext, hput⟩ := h
    have hstream : before.lifecycle = .streaming := by
      by_contra hne
      exact hopen ⟨set, before, hget, hne, .inl ⟨checkpoint, hnext, hput⟩⟩
    refine ⟨hget, hstream, hnext, hput.trans ?_⟩
    rw [← hstream]
    rfl
  · intro h
    obtain ⟨hget, hstream, hnext, hput⟩ := h
    refine ⟨hget, hnext, hput.trans ?_⟩
    rw [← hstream]
    rfl

theorem hold_exact (hn : Admissible n) (hopen : ¬ Reopens p n) :
    n.isExactHoldSuccessorOf p = true ↔ ∃ set holdId, p.acquireRestoreHold set holdId = .ok n := by
  rw [hold_iff hn]
  simp only [acquireRestoreHold_eq_ok]
  constructor
  · intro h
    obtain ⟨set, before, id, hget, hbase, hnew, hput⟩ := h
    have hstream : before.lifecycle = .streaming := by
      by_contra hne
      exact hopen ⟨set, before, hget, hne, .inr ⟨hbase, id, hnew, hput⟩⟩
    refine ⟨set, id, before, hget, hstream, hbase, hnew, hput.trans ?_⟩
    rw [← hstream]
    rfl
  · intro h
    obtain ⟨set, id, before, hget, hstream, hbase, hnew, hput⟩ := h
    refine ⟨set, before, id, hget, hbase, hnew, hput.trans ?_⟩
    rw [← hstream]
    rfl

omit [Crypto] in
theorem sealing_exact (hheld : ¬ SealsHeld p n) :
    n.isExactLifecycleSuccessorOf p .streaming .sealing = true ↔
      ∃ set, p.beginSealing set = .ok n := by
  rw [lifecycle_iff (by decide)]
  simp only [beginSealing_eq_ok]
  refine exists_congr fun set => exists_congr fun before => and_congr_right fun hget => ?_
  constructor
  · intro h
    obtain ⟨hstream, hbase, hput⟩ := h
    have hfree : before.hasActiveHold = false := by
      cases hactive : before.hasActiveHold with
      | false => rfl
      | true => exact absurd ⟨set, before, hget, hstream, hbase, hactive, hput⟩ hheld
    exact ⟨hstream, hbase, hfree, hput⟩
  · intro h
    obtain ⟨hstream, hbase, -, hput⟩ := h
    exact ⟨hstream, hbase, hput⟩

theorem not_reopens (hp : InOrder p) (hn : Admissible n) (h : SuccessorsExact p n) :
    ¬ Reopens p n := by
  intro hopen
  obtain ⟨set, before, hget, hpast, hput⟩ := hopen
  rcases hput with ⟨checkpoint, hnext, hput⟩ | ⟨hbase, id, hnew, hput⟩
  · have hop := h.checkpoint.mp
      ((checkpoint_iff hp hn).mpr ⟨set, before, checkpoint, hget, hnext, hput⟩)
    obtain ⟨other, current, _, hcurrent, hstream, -, hput'⟩ := reserved_commit_iff.mp hop
    have hdiff : { before.append checkpoint with lifecycle := .streaming } ≠ before := fun heq =>
      hpast (congrArg lifecycle heq).symm
    obtain rfl := put_inj_set hget hdiff (hput.symm.trans hput')
    obtain rfl := Option.mem_unique hget hcurrent
    exact hpast hstream
  · obtain ⟨other, _, hop⟩ :=
      h.hold.mp ((hold_iff hn).mpr ⟨set, before, id, hget, hbase, hnew, hput⟩)
    obtain ⟨current, hcurrent, hstream, -, -, hput'⟩ := acquireRestoreHold_eq_ok.mp hop
    have hdiff : { before.hold id with lifecycle := .streaming } ≠ before := fun heq =>
      hpast (congrArg lifecycle heq).symm
    obtain rfl := put_inj_set hget hdiff (hput.symm.trans hput')
    obtain rfl := Option.mem_unique hget hcurrent
    exact hpast hstream

theorem not_sealsHeld (h : SuccessorsExact p n) : ¬ SealsHeld p n := by
  intro hheld
  obtain ⟨set, before, hget, hstream, hbase, hactive, hput⟩ := hheld
  obtain ⟨other, hop⟩ := h.sealing.mp ((lifecycle_iff (by decide)).mpr
    ⟨set, before, hget, hstream, hbase, hput⟩)
  obtain ⟨current, hcurrent, -, -, hfree, hput'⟩ := beginSealing_eq_ok.mp hop
  have hdiff : { before with lifecycle := .sealing } ≠ before := by
    intro heq
    have hlife := congrArg lifecycle heq
    rw [hstream] at hlife
    cases hlife
  obtain rfl := put_inj_set hget hdiff (hput.symm.trans hput')
  obtain rfl := Option.mem_unique hget hcurrent
  rw [hfree] at hactive
  cases hactive

/-- **What the predicates decide.** For every archive the operations reach and every
archive presented as the next one, the nine predicates agree with their operations if and
only if the next archive neither reopens a set nor starts to seal a held one. -/
theorem successors_exact_iff (calls : List ArchiveCall) (hn : Produced n) :
    SuccessorsExact (archiveRun calls) n ↔
      ¬ Reopens (archiveRun calls) n ∧ ¬ SealsHeld (archiveRun calls) n := by
  have hp := archiveRun_inOrder calls
  have hadm := hn.admissible
  constructor
  · intro h
    exact ⟨not_reopens hp hadm h, not_sealsHeld h⟩
  · intro h
    exact
      { started := started_iff hadm
        checkpoint := checkpoint_exact hp hadm h.1
        hold := hold_exact hadm h.1
        preparedDeletion := preparedDeletion_iff hp
        keyErasurePrepared := keyErasurePrepared_iff hp
        sealing := sealing_exact h.2
        sealed := sealed_iff hp
        keyErased := keyErased_iff hp hadm
        deleted := deleted_iff hp }

end

/-! ## A set with a base, and what may be presented as its next state -/

section

local instance : Crypto := plainCrypto

def sampleIdentity : BackupSetIdentity := ⟨⟨1⟩, ⟨2⟩, ⟨3⟩⟩

def sampleHead : ArchiveHead := ⟨0, ⟨0⟩⟩

def sampleBase : ArchiveObjectDescriptor where
  setId := ⟨1⟩
  objectId := ⟨4⟩
  kind := .baseChunk
  ordinal := 1
  timeline := 1
  startLsn := 8
  endLsn := 16
  ciphertextDigest := ⟨5⟩
  plaintextDigest := ⟨6⟩
  length := 10
  predecessorHeadDigest := sampleHead.digest
  ordinal_ne := by decide
  timeline_ne := by decide
  lsn_le := by decide
  length_ne := by decide

def sampleSegment : ArchiveObjectDescriptor where
  setId := ⟨1⟩
  objectId := ⟨7⟩
  kind := .walSegment
  ordinal := 2
  timeline := 1
  startLsn := 16
  endLsn := 24
  ciphertextDigest := ⟨8⟩
  plaintextDigest := ⟨9⟩
  length := 10
  predecessorHeadDigest := (WalArchiveCheckpoint.mk sampleBase).digest
  ordinal_ne := by decide
  timeline_ne := by decide
  lsn_le := by decide
  length_ne := by decide

def sampleCalls (calls : List ArchiveCall) : List ArchiveCall :=
  .startStreaming sampleIdentity sampleHead ::
    .commitCheckpoint ⟨⟨1⟩, sampleHead, sampleBase, by decide⟩ ⟨sampleBase⟩ :: calls

def sampleSealed : BackupArchiveStateV1 :=
  archiveRun (sampleCalls [.beginSealing ⟨1⟩, .commitSealed ⟨1⟩])

def sampleAppended : BackupArchiveStateV1 :=
  archiveRun (sampleCalls [.commitCheckpoint
    ⟨⟨1⟩, (WalArchiveCheckpoint.mk sampleBase).head, sampleSegment, by decide +kernel⟩
    ⟨sampleSegment⟩])

def sampleHeld : BackupArchiveStateV1 := archiveRun (sampleCalls [.acquireRestoreHold ⟨1⟩ ⟨9⟩])

def sampleHeldSealing : BackupArchiveStateV1 :=
  ⟨sampleHeld.sets.insert ⟨1⟩
    { (sampleHeld.sets.get ⟨1⟩).getD (.started sampleIdentity sampleHead) with
      lifecycle := .sealing }⟩

variable {state : BackupSetState}

theorem sampleSealed_past (h : sampleSealed.sets.get set = some state) :
    state.lifecycle ≠ .streaming := by
  have hall : ∀ state ∈ sampleSealed.sets.values, state.lifecycle ≠ .streaming := by decide +kernel
  exact hall state (mem_values.mpr ⟨set, h⟩)

theorem sampleHeld_held (h : sampleHeld.sets.get set = some state) :
    state.hasActiveHold = true := by
  have hall : ∀ state ∈ sampleHeld.sets.values, state.hasActiveHold = true := by decide +kernel
  exact hall state (mem_values.mpr ⟨set, h⟩)

/-- The sealed set is accepted back as streaming, with its next checkpoint and with a new
hold, and the held set as sealing; no operation does any of it. -/
theorem sealed_set_reopens_and_held_set_seals :
    (sampleAppended.isExactCheckpointSuccessorOf sampleSealed = true ∧
      ¬ ∃ set expected object reservation checkpoint,
        sampleSealed.reserveAppend set expected object = .ok reservation ∧
        sampleSealed.commitCheckpoint reservation checkpoint = .ok sampleAppended) ∧
    (sampleHeld.isExactHoldSuccessorOf sampleSealed = true ∧
      ¬ ∃ set holdId, sampleSealed.acquireRestoreHold set holdId = .ok sampleHeld) ∧
    (fromCanonicalBytes sampleHeldSealing.canonicalBytes = .ok sampleHeldSealing ∧
      sampleHeldSealing.isExactLifecycleSuccessorOf sampleHeld .streaming .sealing = true ∧
      ¬ ∃ set, sampleHeld.beginSealing set = .ok sampleHeldSealing) := by
  refine ⟨⟨by decide +kernel, ?_⟩, ⟨by decide +kernel, ?_⟩, by decide +kernel,
    by decide +kernel, ?_⟩
  · intro h
    obtain ⟨set, before, checkpoint, hget, hstream, -⟩ := reserved_commit_iff.mp h
    exact sampleSealed_past hget hstream
  · intro h
    obtain ⟨set, holdId, h⟩ := h
    obtain ⟨before, hget, hstream, -⟩ := acquireRestoreHold_eq_ok.mp h
    exact sampleSealed_past hget hstream
  · intro h
    obtain ⟨set, h⟩ := h
    obtain ⟨before, hget, -, -, hfree, -⟩ := beginSealing_eq_ok.mp h
    rw [sampleHeld_held hget] at hfree
    cases hfree

theorem successors_exact_iff_sampleHeld :
    SuccessorsExact (archiveRun (sampleCalls [])) sampleHeld := by
  have hstreaming : ∀ state ∈ (archiveRun (sampleCalls [])).sets.values,
      state.lifecycle = .streaming ∧ state.hasActiveHold = false := by decide +kernel
  refine (successors_exact_iff (sampleCalls []) (.inl ⟨_, rfl⟩)).mpr ⟨?_, ?_⟩
  · intro h
    obtain ⟨set, before, hget, hpast, -⟩ := h
    exact hpast (hstreaming before (mem_values.mpr ⟨set, hget⟩)).1
  · intro h
    obtain ⟨set, before, hget, -, -, hactive, -⟩ := h
    rw [(hstreaming before (mem_values.mpr ⟨set, hget⟩)).2] at hactive
    cases hactive

end

end Vestrace.Installation
