import Vestrace.Installation.Archive

/-!
# What holds in every archive

A run is any sequence of calls on an archive that starts empty; a refused call leaves
the archive as it was. `apply_cases` says once what an accepted call does: it adds a
fresh set, or it moves one set along by a `SetStep`. Everything else is about one set: its
checkpoints are a chain from the one base on (`ChainInv`), and a set that is held is streaming
(`StageInv`).
-/

namespace Vestrace.Installation

open Lib BackupSetLifecycle SortedMap BackupSetState Option BackupArchiveStateV1

variable {s : BackupArchiveStateV1} {state : BackupSetState} {checkpoint : WalArchiveCheckpoint}
open BackupArchiveStateV1 (startStreaming_eq_ok commitCheckpoint_eq_ok acquireRestoreHold_eq_ok
  releaseRestoreHold_eq_ok beginSealing_eq_ok commitSealed_eq_ok prepareDeletion_eq_ok
  prepareArchiveKeyErasure_eq_ok recordArchiveKeyErased_eq_ok finalizeDeleted_eq_ok)

/-! ## Calls and runs -/

/-- The calls that return a new archive. A reservation may come from any
`reserve_append`, of this state or an earlier one, or from its constructor. -/
inductive ArchiveCall where
  | startStreaming (identity : BackupSetIdentity) (head : ArchiveHead)
  | commitCheckpoint (reservation : ArchiveAppendReservation) (checkpoint : WalArchiveCheckpoint)
  | acquireRestoreHold (set : BackupSetId) (holdId : RestoreHoldId)
  | releaseRestoreHold (set : BackupSetId) (holdId : RestoreHoldId)
      (reason : RestoreHoldReleaseReason)
  | beginSealing (set : BackupSetId)
  | commitSealed (set : BackupSetId)
  | prepareDeletion (set : BackupSetId) (preparation : SafetyJournalDigest)
  | prepareArchiveKeyErasure (set : BackupSetId) (preparation : SafetyJournalDigest)
  | recordArchiveKeyErased (set : BackupSetId)
  | finalizeDeleted (set : BackupSetId)

def ArchiveCall.starts (set : BackupSetId) : ArchiveCall → Option ArchiveHead
  | startStreaming identity head => if identity.setId = set then some head else none
  | _ => none

def startHead (calls : List ArchiveCall) (set : BackupSetId) : Option ArchiveHead :=
  calls.findSome? (ArchiveCall.starts set)

theorem startHead_snoc (calls : List ArchiveCall) (call : ArchiveCall) (set : BackupSetId) :
    startHead (calls ++ [call]) set = (startHead calls set).or (call.starts set) := by
  rw [startHead, List.findSome?_append, List.findSome?_singleton, startHead]

/-! ## The stage of one set -/

/-- What the lifecycle of a set says of its holds and its two preparations. -/
structure StageInv (state : BackupSetState) : Prop where
  sealedBase : state.lifecycle ≠ .streaming → state.hasBaseCheckpoint = true
  heldStreaming : state.hasActiveHold = true → state.lifecycle = .streaming
  deletion : state.deletionPreparation.isSome = true ↔
    state.lifecycle = .deletionPrepared ∨ state.lifecycle = .archiveKeyErased ∨
      state.lifecycle = .deleted
  erasurePrepared : state.keyErasurePreparation ≠ none →
    state.keyErasurePreparation = state.deletionPreparation
  erased : state.lifecycle = .archiveKeyErased ∨ state.lifecycle = .deleted →
    state.keyErasurePreparation ≠ none ∧
      state.keyErasurePreparation = state.deletionPreparation

section

variable {before : BackupSetState}

theorem StageInv.append [Crypto] (h : StageInv before) (checkpoint : WalArchiveCheckpoint)
    (hstream : before.lifecycle = .streaming) : StageInv (before.append checkpoint) :=
  { h with
    sealedBase := fun hne => absurd hstream hne
    heldStreaming := fun _ => hstream }

theorem StageInv.hold (h : StageInv before) (holdId : RestoreHoldId)
    (hstream : before.lifecycle = .streaming) : StageInv (before.hold holdId) :=
  { h with heldStreaming := fun _ => hstream }

theorem StageInv.release (h : StageInv before) (holdId : RestoreHoldId) (hold : RestoreHold)
    (reason : RestoreHoldReleaseReason) :
    StageInv { before with
      holds := before.holds.insert holdId { hold with releaseReason := some reason } } := by
  refine { h with heldStreaming := fun hactive => h.heldStreaming ?_ }
  obtain ⟨id, other, hget, hother⟩ := hasActiveHold_iff.mp hactive
  by_cases hid : id = holdId
  · subst hid
    rw [get_insert_self] at hget
    obtain rfl := some.inj hget
    cases hother
  · rw [get_insert_ne _ hid] at hget
    exact hasActiveHold_iff.mpr ⟨id, other, hget, hother⟩

theorem StageInv.moved (lifecycle : BackupSetLifecycle)
    (deletion erasure : Option SafetyJournalDigest) (hbase : before.hasBaseCheckpoint = true)
    (hfree : before.hasActiveHold = false)
    (hdeletion : deletion.isSome = true ↔ lifecycle = .deletionPrepared ∨
      lifecycle = .archiveKeyErased ∨ lifecycle = .deleted)
    (herasure : erasure ≠ none → erasure = deletion)
    (herased : lifecycle = .archiveKeyErased ∨ lifecycle = .deleted → erasure ≠ none) :
    StageInv { before with
      lifecycle := lifecycle
      deletionPreparation := deletion
      keyErasurePreparation := erasure } where
  sealedBase := fun _ => hbase
  heldStreaming := fun h => absurd (hfree.symm.trans h) Bool.false_ne_true
  deletion := hdeletion
  erasurePrepared := herasure
  erased := fun h => ⟨herased h, herasure (herased h)⟩

theorem StageInv.free (h : StageInv before) (hne : before.lifecycle ≠ .streaming) :
    before.hasActiveHold = false := by
  cases hactive : before.hasActiveHold with
  | false => rfl
  | true => exact absurd (h.heldStreaming hactive) hne

theorem StageInv.unprepared (h : StageInv before)
    (hlife : before.lifecycle = .streaming ∨ before.lifecycle = .sealing ∨
      before.lifecycle = .sealed) :
    before.deletionPreparation = none ∧ before.keyErasurePreparation = none := by
  have hdeletion : before.deletionPreparation = none := by
    rw [← not_isSome_iff_eq_none, h.deletion]
    rcases hlife with hl | hl | hl <;> rw [hl] <;> simp
  refine ⟨hdeletion, ?_⟩
  by_contra hne
  exact hne ((h.erasurePrepared hne).trans hdeletion)

end

open StageInv

/-! ## What one call does -/

variable [Crypto] {call : ArchiveCall} {set : BackupSetId}

namespace ArchiveCall

def apply (s : BackupArchiveStateV1) : ArchiveCall → Except BackupArchiveError BackupArchiveStateV1
  | startStreaming identity head => s.startStreaming identity head
  | commitCheckpoint reservation checkpoint => s.commitCheckpoint reservation checkpoint
  | acquireRestoreHold set holdId => s.acquireRestoreHold set holdId
  | releaseRestoreHold set holdId reason => s.releaseRestoreHold set holdId reason
  | beginSealing set => s.beginSealing set
  | commitSealed set => s.commitSealed set
  | prepareDeletion set preparation => s.prepareDeletion set preparation
  | prepareArchiveKeyErasure set preparation => s.prepareArchiveKeyErasure set preparation
  | recordArchiveKeyErased set => s.recordArchiveKeyErased set
  | finalizeDeleted set => s.finalizeDeleted set

end ArchiveCall

def archiveStep (s : BackupArchiveStateV1) (call : ArchiveCall) : BackupArchiveStateV1 :=
  match call.apply s with
  | .ok next => next
  | .error _ => s

def archiveRun (calls : List ArchiveCall) : BackupArchiveStateV1 := calls.foldl archiveStep .empty

theorem archiveRun_snoc (calls : List ArchiveCall) (call : ArchiveCall) :
    archiveRun (calls ++ [call]) = archiveStep (archiveRun calls) call := List.foldl_concat ..

inductive SetStep (set : BackupSetId) (before : BackupSetState) : BackupSetState → Prop where
  | append (checkpoint : WalArchiveCheckpoint) (streaming : before.lifecycle = .streaming)
      (continues : checkpoint.object.Continues set before.head)
      (kind : before.validateAppendKind checkpoint.object = .ok ()) :
      SetStep set before (before.append checkpoint)
  | hold (holdId : RestoreHoldId) (streaming : before.lifecycle = .streaming)
      (base : before.hasBaseCheckpoint = true) (new : before.holds.get holdId = none) :
      SetStep set before (before.hold holdId)
  | release (holdId : RestoreHoldId) (hold : RestoreHold) (reason : RestoreHoldReleaseReason)
      (held : before.holds.get holdId = some hold) (active : hold.active = true) :
      SetStep set before { before with
        holds := before.holds.insert holdId { hold with releaseReason := some reason } }
  | beginSealing (streaming : before.lifecycle = .streaming)
      (base : before.hasBaseCheckpoint = true) (free : before.hasActiveHold = false) :
      SetStep set before { before with lifecycle := .sealing }
  | commitSealed (free : before.hasActiveHold = false) (sealing : before.lifecycle = .sealing) :
      SetStep set before { before with lifecycle := .sealed }
  | prepareDeletion (preparation : SafetyJournalDigest) (free : before.hasActiveHold = false)
      (sealed : before.lifecycle = .sealed) :
      SetStep set before { before with
        lifecycle := .deletionPrepared, deletionPreparation := some preparation }
  | prepareKeyErasure (preparation : SafetyJournalDigest)
      (prepared : before.lifecycle = .deletionPrepared)
      (deletion : before.deletionPreparation = some preparation)
      (new : before.keyErasurePreparation = none) :
      SetStep set before { before with keyErasurePreparation := some preparation }
  | keyErased (erasure : before.keyErasurePreparation ≠ none)
      (same : before.keyErasurePreparation = before.deletionPreparation)
      (prepared : before.lifecycle = .deletionPrepared) :
      SetStep set before { before with lifecycle := .archiveKeyErased }
  | finalize (erased : before.lifecycle = .archiveKeyErased) :
      SetStep set before { before with lifecycle := .deleted }

theorem apply_cases {next : BackupArchiveStateV1} (h : call.apply s = .ok next) :
    (∃ identity head, call = .startStreaming identity head ∧
      s.sets.get identity.setId = none ∧ next = s.put identity.setId (.started identity head)) ∨
    ((∀ set, call.starts set = none) ∧ ∃ set before after, s.sets.get set = some before ∧
      SetStep set before after ∧ next = s.put set after) := by
  cases call with
  | startStreaming identity head =>
    obtain ⟨hnew, hnext⟩ := startStreaming_eq_ok.mp h
    exact .inl ⟨identity, head, rfl, hnew, hnext⟩
  | commitCheckpoint reservation checkpoint =>
    obtain ⟨current, hget, hstream, hhead, hobject, hkind, hnext⟩ := commitCheckpoint_eq_ok.mp h
    have hcont : checkpoint.object.Continues reservation.setId current.head := by
      rw [hobject, hhead]
      exact reservation.continues
    exact .inr ⟨fun _ => rfl, _, current, _, hget, .append checkpoint hstream hcont hkind, hnext⟩
  | acquireRestoreHold set holdId =>
    obtain ⟨current, hget, hstream, hbase, hnew, hnext⟩ := acquireRestoreHold_eq_ok.mp h
    exact .inr ⟨fun _ => rfl, _, current, _, hget, .hold holdId hstream hbase hnew, hnext⟩
  | releaseRestoreHold set holdId reason =>
    obtain ⟨current, hget, hold, hheld, hactive, hnext⟩ := releaseRestoreHold_eq_ok.mp h
    exact .inr ⟨fun _ => rfl, _, current, _, hget, .release holdId hold reason hheld hactive, hnext⟩
  | beginSealing set =>
    obtain ⟨current, hget, hstream, hbase, hfree, hnext⟩ := beginSealing_eq_ok.mp h
    exact .inr ⟨fun _ => rfl, _, current, _, hget, .beginSealing hstream hbase hfree, hnext⟩
  | commitSealed set =>
    obtain ⟨current, hget, hfree, hsealing, hnext⟩ := commitSealed_eq_ok.mp h
    exact .inr ⟨fun _ => rfl, _, current, _, hget, .commitSealed hfree hsealing, hnext⟩
  | prepareDeletion set preparation =>
    obtain ⟨current, hget, hfree, hsealed, hnext⟩ := prepareDeletion_eq_ok.mp h
    exact .inr ⟨fun _ => rfl, _, current, _, hget, .prepareDeletion preparation hfree hsealed,
      hnext⟩
  | prepareArchiveKeyErasure set preparation =>
    obtain ⟨current, hget, hprep, hdel, hnew, hnext⟩ := prepareArchiveKeyErasure_eq_ok.mp h
    exact .inr ⟨fun _ => rfl, _, current, _, hget, .prepareKeyErasure preparation hprep hdel hnew,
      hnext⟩
  | recordArchiveKeyErased set =>
    obtain ⟨current, hget, hsome, hsame, hprep, hnext⟩ := recordArchiveKeyErased_eq_ok.mp h
    exact .inr ⟨fun _ => rfl, _, current, _, hget, .keyErased hsome hsame hprep, hnext⟩
  | finalizeDeleted set =>
    obtain ⟨current, hget, herased, hnext⟩ := finalizeDeleted_eq_ok.mp h
    exact .inr ⟨fun _ => rfl, _, current, _, hget, .finalize herased, hnext⟩

/-! ## The invariant of one set -/

def headAfter (start : ArchiveHead) (checkpoints : List WalArchiveCheckpoint) : ArchiveHead :=
  (checkpoints.getLast?.map WalArchiveCheckpoint.head).getD start

theorem headAfter_snoc (start : ArchiveHead) (checkpoints : List WalArchiveCheckpoint)
    (last : WalArchiveCheckpoint) : headAfter start (checkpoints ++ [last]) = last.head := by
  rw [headAfter, List.getLast?_concat]
  rfl

/-- The checkpoints of a set, from the head it was started with. -/
structure ChainInv (start : ArchiveHead) (checkpoints : List WalArchiveCheckpoint) : Prop where
  /-- the ordinals are `1..n` -/
  ordinals : checkpoints.map (fun c => c.object.ordinal.toNat) =
    List.range' 1 checkpoints.length
  /-- each names the digest of the one before it, the first the starting head's -/
  predecessors : ∀ front c rest, checkpoints = front ++ c :: rest →
    c.object.predecessorHeadDigest = (headAfter start front).digest
  /-- the first is the only base, and every WAL segment is on its timeline, from its start on -/
  base : ∀ first rest, checkpoints = first :: rest → first.object.kind = .baseChunk ∧
    ∀ c ∈ rest, BackupSetState.Descends first.object c.object

structure SetInv (set : BackupSetId) (start : ArchiveHead) (state : BackupSetState) : Prop where
  key : state.identity.setId = set
  holdKeys : ∀ id hold, state.holds.get id = some hold → hold.id = id
  objects : ∀ c ∈ state.checkpoints, c.object.setId = set
  head : state.head = headAfter start state.checkpoints
  chain : ChainInv start state.checkpoints
  stage : StageInv state

/-! ## The chain grows -/

section

variable {start : ArchiveHead} {checkpoints : List WalArchiveCheckpoint}

theorem ChainInv.nil : ChainInv start [] where
  ordinals := rfl
  predecessors := fun front c rest h => by simp at h
  base := fun first rest h => by simp at h

theorem ChainInv.last_ordinal {front : List WalArchiveCheckpoint} {last : WalArchiveCheckpoint}
    (h : ChainInv start (front ++ [last])) : last.object.ordinal.toNat = front.length + 1 := by
  have hord := h.ordinals
  rw [List.map_append, List.length_append, List.length_singleton, List.range'_concat] at hord
  have hlast := (List.append_inj' hord rfl).2
  rw [List.map_singleton, List.singleton_inj] at hlast
  omega

theorem ChainInv.hasBase (h : ChainInv start state.checkpoints)
    (hne : state.checkpoints ≠ []) : state.hasBaseCheckpoint = true := by
  obtain ⟨first, rest, hcons⟩ := List.exists_cons_of_ne_nil hne
  exact hasBaseCheckpoint_iff.mpr ⟨first, rest, hcons, (h.base first rest hcons).1⟩

theorem ChainInv.nil_of_noBase (h : ChainInv start state.checkpoints)
    (hno : state.hasBaseCheckpoint = false) : state.checkpoints = [] := by
  by_contra hne
  rw [h.hasBase hne] at hno
  cases hno

variable (h : ChainInv start state.checkpoints)
  (hhead : state.head = headAfter start state.checkpoints)
  (hcont : checkpoint.object.Continues set state.head)
  (hkind : state.validateAppendKind checkpoint.object = .ok ())

include h hhead hcont hkind

theorem ChainInv.next_ordinal :
    checkpoint.object.ordinal.toNat = state.checkpoints.length + 1 := by
  rcases validateAppendKind_eq_ok.mp hkind with ⟨hno, -, hone⟩ | ⟨base, rest, hcons, -⟩
  · rw [hone, h.nil_of_noBase hno]
    rfl
  · rcases List.eq_nil_or_concat state.checkpoints with hnil | ⟨front, last, hlast⟩
    · rw [hnil] at hcons
      cases hcons
    · rw [List.concat_eq_append] at hlast
      rw [hlast] at h
      rw [hhead, hlast, headAfter_snoc] at hcont
      have hnext := checkedAdd_one_eq_some hcont.2.2
      have hord := h.last_ordinal
      rw [hlast, List.length_append, List.length_singleton, hnext]
      exact congrArg (· + 1) hord

theorem ChainInv.append :
    ChainInv start (state.checkpoints ++ [checkpoint]) := by
  constructor
  · rw [List.map_append, h.ordinals, List.length_append, List.length_singleton, List.range'_concat,
      List.map_singleton, h.next_ordinal hhead hcont hkind, Nat.one_mul, Nat.add_comm 1]
  · intro front c rest hsplit
    -- the last of the new list, or one of the old list
    rcases List.eq_nil_or_concat rest with rfl | ⟨middle, last, rfl⟩
    · obtain ⟨hfront, hc⟩ := List.append_inj' hsplit rfl
      obtain rfl := List.singleton_inj.mp hc
      rw [← hfront, ← hhead]
      exact hcont.2.1
    · rw [List.concat_eq_append, ← List.cons_append, ← List.append_assoc] at hsplit
      exact h.predecessors front c middle (List.append_inj' hsplit rfl).1
  · intro first rest hcons
    rcases validateAppendKind_eq_ok.mp hkind with ⟨hno, hbase, -⟩ | hdesc
    · rw [h.nil_of_noBase hno, List.nil_append] at hcons
      obtain ⟨rfl, rfl⟩ := List.cons.inj hcons
      exact ⟨hbase, fun c hc => absurd hc List.not_mem_nil⟩
    · obtain ⟨base, tail, hold, -, hdesc⟩ := hdesc
      rw [hold, List.cons_append] at hcons
      obtain ⟨rfl, rfl⟩ := List.cons.inj hcons
      obtain ⟨hkindBase, htail⟩ := h.base base tail hold
      refine ⟨hkindBase, fun c hc => ?_⟩
      rcases List.mem_append.mp hc with hc | hc
      · exact htail c hc
      · obtain rfl := List.mem_singleton.mp hc
        exact hdesc

end

/-! ## One set along its lifecycle -/

theorem SetInv.started (identity : BackupSetIdentity) (head : ArchiveHead) :
    SetInv identity.setId head (.started identity head) where
  key := rfl
  holdKeys := fun id hold h => by cases h
  objects := fun c hc => absurd hc List.not_mem_nil
  head := rfl
  chain := ChainInv.nil
  stage :=
    { sealedBase := fun h => absurd rfl h
      heldStreaming := fun _ => rfl
      deletion := by simp [BackupSetState.started]
      erasurePrepared := fun h => absurd rfl h
      erased := by simp [BackupSetState.started] }

section

variable {start : ArchiveHead} {before after : BackupSetState}

theorem StageInv.step (h : StageInv before) (hstep : SetStep set before after) :
    StageInv after := by
  cases hstep with
  | append checkpoint hstream _ _ => exact h.append checkpoint hstream
  | hold holdId hstream _ _ => exact h.hold holdId hstream
  | release holdId hold reason _ _ => exact h.release holdId hold reason
  | beginSealing hstream hbase hfree =>
    obtain ⟨hdel, hera⟩ := h.unprepared (.inl hstream)
    exact moved _ _ _ hbase hfree (by simp [hdel]) (by simp [hera]) (by simp)
  | commitSealed hfree hsealing =>
    obtain ⟨hdel, hera⟩ := h.unprepared (.inr (.inl hsealing))
    exact moved _ _ _ (h.sealedBase (by simp [hsealing])) hfree (by simp [hdel]) (by simp [hera])
      (by simp)
  | prepareDeletion preparation hfree hsealed =>
    obtain ⟨-, hera⟩ := h.unprepared (.inr (.inr hsealed))
    exact moved _ _ _ (h.sealedBase (by simp [hsealed])) hfree (by simp) (by simp [hera]) (by simp)
  | prepareKeyErasure preparation hprep hdel _ =>
    have hne : before.lifecycle ≠ .streaming := by simp [hprep]
    have hmoved := moved before.lifecycle before.deletionPreparation (some preparation)
      (h.sealedBase hne) (h.free hne) h.deletion (fun _ => hdel.symm)
      (fun _ => some_ne_none preparation)
    exact hmoved
  | keyErased hsome hsame hprep =>
    have hne : before.lifecycle ≠ .streaming := by simp [hprep]
    have hdel := h.deletion.mpr (.inl hprep)
    exact moved _ _ _ (h.sealedBase hne) (h.free hne) (by simp [hdel]) (fun _ => hsame)
      (fun _ => hsome)
  | finalize herased =>
    have hne : before.lifecycle ≠ .streaming := by simp [herased]
    have hdel := h.deletion.mpr (.inr (.inl herased))
    obtain ⟨hsome, hsame⟩ := h.erased (.inl herased)
    exact moved _ _ _ (h.sealedBase hne) (h.free hne) (by simp [hdel]) (fun _ => hsame)
      (fun _ => hsome)

/-- One call keeps the invariant of the set it moves. -/
theorem SetInv.step (h : SetInv set start before) (hstep : SetStep set before after) :
    SetInv set start after := by
  have hstage := h.stage.step hstep
  cases hstep with
  | append checkpoint _ hcont hkind =>
    refine ⟨h.key, h.holdKeys, ?_, ?_, h.chain.append h.head hcont hkind, hstage⟩
    · intro c hc
      rcases List.mem_append.mp hc with hc | hc
      · exact h.objects c hc
      · obtain rfl := List.mem_singleton.mp hc
        exact hcont.1
    · exact (headAfter_snoc start before.checkpoints checkpoint).symm
  | hold holdId _ _ _ =>
    refine ⟨h.key, ?_, h.objects, h.head, h.chain, hstage⟩
    intro id hold hget
    rw [BackupSetState.hold, get_insert] at hget
    split_ifs at hget with hid
    · obtain rfl := some.inj hget
      exact hid.symm
    · exact h.holdKeys id hold hget
  | release holdId held reason hheld _ =>
    refine ⟨h.key, ?_, h.objects, h.head, h.chain, hstage⟩
    intro id hold hget
    rw [get_insert] at hget
    split_ifs at hget with hid
    · obtain rfl := some.inj hget
      rw [hid]
      exact h.holdKeys holdId held hheld
    · exact h.holdKeys id hold hget
  | beginSealing | commitSealed | prepareDeletion | prepareKeyErasure | keyErased | finalize =>
    exact ⟨h.key, h.holdKeys, h.objects, h.head, h.chain, hstage⟩

/-- No call moves a set's lifecycle back. -/
theorem SetStep.code_le (hstep : SetStep set before after) :
    before.lifecycle.code ≤ after.lifecycle.code := by
  cases hstep with
  | append | hold | release | prepareKeyErasure => exact UInt8.le_refl _
  | beginSealing hstream _ _ =>
    rw [hstream]
    exact (by decide : streaming.code ≤ sealing.code)
  | commitSealed _ hsealing =>
    rw [hsealing]
    exact (by decide : sealing.code ≤ sealed.code)
  | prepareDeletion _ _ hsealed =>
    rw [hsealed]
    exact (by decide : sealed.code ≤ deletionPrepared.code)
  | keyErased _ _ hprep =>
    rw [hprep]
    exact (by decide : deletionPrepared.code ≤
      archiveKeyErased.code)
  | finalize herased =>
    rw [herased]
    exact (by decide : archiveKeyErased.code ≤ deleted.code)

end

/-! ## Whole runs -/

/-- Every set of the archive keeps its invariant with respect to the head it was started
with, and only those sets were started. -/
structure ArchiveInv (calls : List ArchiveCall) (s : BackupArchiveStateV1) : Prop where
  sets : ∀ set state, s.sets.get set = some state →
    ∃ start, startHead calls set = some start ∧ SetInv set start state
  starts : ∀ set, s.sets.get set = none → startHead calls set = none

/-- No set disappears, and none goes back in its lifecycle. -/
def Advances (s later : BackupArchiveStateV1) : Prop :=
  ∀ set state, s.sets.get set = some state →
    ∃ moved, later.sets.get set = some moved ∧ state.lifecycle.code ≤ moved.lifecycle.code

theorem starts_of_refused {e : BackupArchiveError} (h : call.apply s = .error e)
    (hnone : s.sets.get set = none) : call.starts set = none := by
  cases call with
  | startStreaming identity head =>
    refine if_neg fun hset => ?_
    rw [← hset] at hnone
    have hok : s.startStreaming identity head = .ok _ := startStreaming_eq_ok.mpr ⟨hnone, rfl⟩
    rw [ArchiveCall.apply, hok] at h
    cases h
  | _ => rfl

theorem archiveStep_inv {calls : List ArchiveCall} (h : ArchiveInv calls s) (call : ArchiveCall) :
    ArchiveInv (calls ++ [call]) (archiveStep s call) := by
  -- a set that was started keeps its head, whatever is called
  have hkeep : ∀ {set start}, startHead calls set = some start →
      startHead (calls ++ [call]) set = some start := by
    intro set start hstart
    rw [startHead_snoc, hstart, some_or]
  unfold archiveStep
  cases hcall : call.apply s with
  | error e =>
    refine ⟨fun set state hget => ?_, fun set hnone => ?_⟩
    · obtain ⟨start, hstart, hinv⟩ := h.sets set state hget
      exact ⟨start, hkeep hstart, hinv⟩
    · rw [startHead_snoc, h.starts set hnone, starts_of_refused hcall hnone, or_none]
  | ok next =>
    rcases apply_cases hcall with ⟨identity, head, rfl, hnew, rfl⟩ | ⟨hno, set, before, after, hget,
      hstep, rfl⟩
    · refine ⟨fun set state hstate => ?_, fun set hnone => ?_⟩
      · by_cases hset : set = identity.setId
        · subst hset
          rw [put, get_insert_self] at hstate
          obtain rfl := some.inj hstate
          refine ⟨head, ?_, SetInv.started identity head⟩
          rw [startHead_snoc, h.starts _ hnew, none_or]
          exact if_pos rfl
        · rw [put, get_insert_ne _ hset] at hstate
          obtain ⟨start, hstart, hinv⟩ := h.sets set state hstate
          exact ⟨start, hkeep hstart, hinv⟩
      · by_cases hset : set = identity.setId
        · subst hset
          rw [put, get_insert_self] at hnone
          cases hnone
        · rw [put, get_insert_ne _ hset] at hnone
          rw [startHead_snoc, h.starts set hnone, none_or]
          exact if_neg (Ne.symm hset)
    · refine ⟨fun id state hstate => ?_, fun id hnone => ?_⟩
      · rw [put, get_insert] at hstate
        split_ifs at hstate with hid
        · obtain rfl := some.inj hstate
          rw [hid]
          obtain ⟨start, hstart, hinv⟩ := h.sets set before hget
          exact ⟨start, hkeep hstart, hinv.step hstep⟩
        · obtain ⟨start, hstart, hinv⟩ := h.sets id state hstate
          exact ⟨start, hkeep hstart, hinv⟩
      · rw [put, get_insert] at hnone
        split_ifs at hnone with hid
        rw [startHead_snoc, h.starts id hnone, hno id, or_none]

omit [Crypto] in
theorem Advances.refl (s : BackupArchiveStateV1) : Advances s s :=
  fun _ state hget => ⟨state, hget, UInt8.le_refl _⟩

omit [Crypto] in
theorem Advances.trans {a b c : BackupArchiveStateV1} (hab : Advances a b) (hbc : Advances b c) :
    Advances a c := by
  intro set state hget
  obtain ⟨moved, hmoved, hle⟩ := hab set state hget
  obtain ⟨last, hlast, hle'⟩ := hbc set moved hmoved
  exact ⟨last, hlast, UInt8.le_trans hle hle'⟩

theorem archiveStep_advances (s : BackupArchiveStateV1) (call : ArchiveCall) :
    Advances s (archiveStep s call) := by
  unfold archiveStep
  cases hcall : call.apply s with
  | error e => exact Advances.refl s
  | ok next =>
    intro id state hstate
    rcases apply_cases hcall with ⟨identity, head, -, hnew, rfl⟩ | ⟨-, set, before, after, hget,
      hstep, rfl⟩
    · have hid : id ≠ identity.setId := by
        intro hid
        rw [hid, hnew] at hstate
        cases hstate
      refine ⟨state, ?_, UInt8.le_refl _⟩
      rw [put, get_insert_ne _ hid, hstate]
    · by_cases hid : id = set
      · subst hid
        obtain rfl := mem_unique hget hstate
        exact ⟨after, get_insert_self _ _ _, hstep.code_le⟩
      · refine ⟨state, ?_, UInt8.le_refl _⟩
        rw [put, get_insert_ne _ hid, hstate]

theorem archiveRun_inv (calls : List ArchiveCall) : ArchiveInv calls (archiveRun calls) := by
  induction calls using List.reverseRecOn with
  | nil => exact ⟨fun set state h => absurd h nofun, fun set _ => rfl⟩
  | append_singleton calls call ih =>
    rw [archiveRun_snoc]
    exact archiveStep_inv ih call

theorem archiveRun_advances (calls more : List ArchiveCall) :
    Advances (archiveRun calls) (archiveRun (calls ++ more)) := by
  induction more using List.reverseRecOn with
  | nil =>
    rw [List.append_nil]
    exact Advances.refl _
  | append_singleton more call ih =>
    rw [← List.append_assoc, archiveRun_snoc]
    exact ih.trans (archiveStep_advances _ call)

/-- **The archive invariant.** After any sequence of calls every set is in order with
respect to the head it was started with, and whatever is called next, no set goes back in
its lifecycle. -/
theorem archive_sound (calls : List ArchiveCall) :
    ArchiveInv calls (archiveRun calls) ∧
      ∀ more, Advances (archiveRun calls) (archiveRun (calls ++ more)) :=
  ⟨archiveRun_inv calls, archiveRun_advances calls⟩

end Vestrace.Installation
