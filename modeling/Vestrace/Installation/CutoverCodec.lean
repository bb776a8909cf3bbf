import Vestrace.Installation.ArchiveFormat
import Vestrace.Installation.Cutover

/-!
# The decoder of signed records, and the restore values

`CanonicalDecoder` stands twice in the sources, once for each error type, with the same
methods: here it takes the error as a parameter. The restore values decode by running their
constructors again on what was read.
-/

namespace Vestrace.Installation

open Lib List
open Decoder hiding bind_eq_ok pure_eq_ok

variable {freeze : SourceFreezePoint} {targetGenerationId sourceGenerationId : DatabaseGenerationId}
  {attemptId : RestoreAttemptId} {plan : TargetActivationPlan} {targetId : RestoreTargetId}
  {backupSetId : BackupSetId}

/-! ## `CanonicalDecoder` -/

namespace CanonicalDecoder

variable {ε : Type}

/-- A field of a fixed length. -/
def fixed (e : ε) (n w : Nat) : Decoder ε (BitVec w) := do
  let bytes ← Decoder.fieldBytes e
  Decoder.check (refuse (bytes.length ≠ n) e)
  return BitVec.ofNat w (ofBeBytes bytes)

def uuid (e : ε) (s : Subject) : Decoder ε (SafetyId s) := do return ⟨← fixed e 16 128⟩

def digest (e : ε) : Decoder ε SafetyJournalDigest := do return ⟨← fixed e 32 256⟩

/-- The name a canonical encoding begins with. -/
def domain (e : ε) (expected : Bytes) : Decoder ε Unit := do
  let name ← Decoder.fieldBytes e
  Decoder.check (refuse (name ≠ expected) e)

/-- A flag, and the field if it is set. -/
def optionalField (e : ε) : Decoder ε (Option Bytes) := do
  match (← Decoder.u8 e).toNat with
  | 0 => return none
  | 1 => return some (← Decoder.fieldBytes e)
  | _ => Decoder.check (.error e)

variable {e : ε} {s t : Bytes}

/-- **A field of fixed length is read exactly**, and so are the values made of it. -/
theorem fixed_eq_ok {n w : Nat} (hn : n < 256 ^ 8) (hw : 2 ^ w = 256 ^ n) {v : BitVec w} :
    fixed e n w s = .ok (v, t) ↔ s = field (beBytes n v.toNat) ++ t := by
  simp only [fixed, Decoder.bind_eq_ok, fieldBytes_eq_ok, check_eq_ok,
    refuse_eq_ok, not_not, Decoder.pure_eq_ok]
  constructor
  · intro h
    obtain ⟨bytes, _, ⟨-, rfl⟩, ⟨⟩, _, ⟨rfl, rfl⟩, rfl, rfl⟩ := h
    have hlt : ofBeBytes bytes < 2 ^ w := hw ▸ ofBeBytes_lt bytes
    rw [BitVec.toNat_ofNat, Nat.mod_eq_of_lt hlt, beBytes_ofBeBytes]
  · intro h
    subst h
    have hlt : v.toNat < 256 ^ n := hw ▸ v.isLt
    refine ⟨_, _, ⟨(length_beBytes ..).trans_lt hn, rfl⟩, (), _, ⟨length_beBytes .., rfl⟩, ?_, rfl⟩
    rw [ofBeBytes_beBytes, Nat.mod_eq_of_lt hlt, BitVec.ofNat_toNat, BitVec.setWidth_eq]

theorem fixed16_eq_ok {v : BitVec 128} :
    fixed e 16 128 s = .ok (v, t) ↔ s = field (beBytes 16 v.toNat) ++ t :=
  fixed_eq_ok (by decide) (by decide)

theorem fixed32_eq_ok {v : BitVec 256} :
    fixed e 32 256 s = .ok (v, t) ↔ s = field (beBytes 32 v.toNat) ++ t :=
  fixed_eq_ok (by decide) (by decide)

theorem uuid_eq_ok {subject : Subject} {id : SafetyId subject} :
    uuid e subject s = .ok (id, t) ↔ s = field id.asBytes ++ t := by
  simp only [uuid, Decoder.bind_eq_ok, fixed16_eq_ok, Decoder.pure_eq_ok]
  constructor
  · intro h
    obtain ⟨v, _, rfl, rfl, rfl⟩ := h
    rfl
  · intro h
    exact ⟨id.asUuid, t, h, rfl, rfl⟩

theorem digest_eq_ok {d : SafetyJournalDigest} :
    digest e s = .ok (d, t) ↔ s = field d.asBytes ++ t := by
  simp only [digest, Decoder.bind_eq_ok, fixed32_eq_ok, Decoder.pure_eq_ok]
  constructor
  · intro h
    obtain ⟨v, _, rfl, rfl, rfl⟩ := h
    rfl
  · intro h
    exact ⟨d.bits, t, h, rfl, rfl⟩

theorem domain_eq_ok {expected : Bytes} (hlen : expected.length < 256 ^ 8) {u : Unit} :
    domain e expected s = .ok (u, t) ↔ s = field expected ++ t := by
  simp only [domain, Decoder.bind_eq_ok, fieldBytes_eq_ok, check_eq_ok, refuse_eq_ok, not_not]
  constructor
  · intro h
    obtain ⟨_, _, ⟨-, rfl⟩, rfl, rfl⟩ := h
    rfl
  · intro h
    exact ⟨expected, t, ⟨hlen, h⟩, rfl, rfl⟩

theorem optionalField_eq_ok {o : Option Bytes} : optionalField e s = .ok (o, t) ↔
      (∀ bytes ∈ o, bytes.length < 256 ^ 8) ∧ s = Lib.optionalField o ++ t := by
  simp only [optionalField, Decoder.bind_eq_ok, u8_eq_ok]
  constructor
  · intro h
    obtain ⟨flag, rest, rfl, h⟩ := h
    rcases hflag : flag.toNat with _ | _ | n <;> rw [hflag] at h
    · obtain ⟨rfl, rfl⟩ := Decoder.pure_eq_ok.mp h
      obtain rfl : flag = 0 := UInt8.toNat_inj.mp hflag
      exact ⟨fun _ => nofun, rfl⟩
    · simp only [Decoder.bind_eq_ok, fieldBytes_eq_ok, Decoder.pure_eq_ok] at h
      obtain ⟨bytes, _, ⟨hlen, rfl⟩, rfl, rfl⟩ := h
      obtain rfl : flag = 1 := UInt8.toNat_inj.mp hflag
      exact ⟨fun _ hmem => Option.some.inj hmem ▸ hlen, rfl⟩
    · cases (check_eq_ok.mp h).1
  · intro h
    obtain ⟨hlen, rfl⟩ := h
    cases o with
    | none => exact ⟨0, t, rfl, rfl⟩
    | some bytes =>
      refine ⟨1, field bytes ++ t, rfl, ?_⟩
      simp only [UInt8.reduceToNat, Decoder.bind_eq_ok, fieldBytes_eq_ok, Decoder.pure_eq_ok]
      exact ⟨bytes, t, ⟨hlen bytes rfl, rfl⟩, rfl, rfl⟩

end CanonicalDecoder

/-! ## The restore values -/

section

open CanonicalDecoder

abbrev CutoverDecoder := Decoder RestoreCutoverError

/-- Read, and checked by the constructor. -/
def SourceFreezePoint.decode : CutoverDecoder SourceFreezePoint := do
  domain .malformed (ascii "vestrace-source-freeze-point-v1")
  let generationId ← uuid .malformed .databaseGeneration
  let timeline ← Decoder.u32 .malformed
  let lsn ← Decoder.u64 .malformed
  let mutationWatermark ← Decoder.u64 .malformed
  Decoder.check (new generationId timeline lsn mutationWatermark)

def SourceFreezePoint.fromCanonicalBytes : Bytes → Except RestoreCutoverError SourceFreezePoint :=
  Decoder.whole do
    let value ← decode
    Decoder.finish .malformed
    return value

/-- The four reasons a hold can be released for. -/
def RestoreHoldReleaseReason.fromCode (kind : UInt8) (receipt : SafetyJournalDigest) :
    Except RestoreCutoverError RestoreHoldReleaseReason :=
  match kind.toNat with
  | 0 => .ok (.targetInitializationComplete receipt)
  | 1 => .ok (.sourceResumePrepared receipt)
  | 2 => .ok (.refusedTargetDestroyed receipt)
  | 3 => .ok (.salvageInstallationCompleted receipt)
  | _ => .error .malformed

def RestoreTerminalReceipt.fromCanonicalBytes :
    Bytes → Except RestoreCutoverError RestoreTerminalReceipt :=
  Decoder.whole do
    domain .malformed (ascii "vestrace-restore-terminal-receipt-v1")
    let attemptId ← uuid .malformed .restoreAttempt
    let targetId ← uuid .malformed .restoreTarget
    let kind ← Decoder.u8 .malformed
    let receipt ← digest .malformed
    Decoder.finish .malformed
    let releaseReason ← Decoder.check (RestoreHoldReleaseReason.fromCode kind receipt)
    return ⟨attemptId, targetId, releaseReason⟩

/-- A step of the attempt that may have been taken, taken again on what was read. -/
def optionalStep {α : Type} (progress : RestoreAttemptProgress)
    (fromBytes : Bytes → Except RestoreCutoverError α)
    (record : RestoreAttemptProgress → α → Except RestoreCutoverError RestoreAttemptProgress) :
    CutoverDecoder RestoreAttemptProgress := do
  match ← optionalField .malformed with
  | none => return progress
  | some bytes =>
    let value ← Decoder.check (fromBytes bytes)
    Decoder.check (record progress value)

/-- The attempt is prepared, frozen and ended once more. -/
def RestoreAttemptProgress.fromCanonicalBytes :
    Bytes → Except RestoreCutoverError RestoreAttemptProgress :=
  Decoder.whole do
    domain .malformed (ascii "vestrace-restore-attempt-progress-v1")
    let attemptId ← uuid .malformed .restoreAttempt
    let targetId ← uuid .malformed .restoreTarget
    let backupSetId ← uuid .malformed .backupSet
    let holdId ← uuid .malformed .restoreHold
    let sourceGenerationId ← uuid .malformed .databaseGeneration
    let targetGenerationId ← uuid .malformed .databaseGeneration
    let prepared ← Decoder.check
      (prepare attemptId targetId backupSetId holdId sourceGenerationId targetGenerationId)
    let frozen ← optionalStep prepared SourceFreezePoint.fromCanonicalBytes recordSourceFreeze
    let value ← optionalStep frozen RestoreTerminalReceipt.fromCanonicalBytes recordTerminalReceipt
    Decoder.finish .malformed
    return value

def TargetActivationPlan.fromCanonicalBytes :
    Bytes → Except RestoreCutoverError TargetActivationPlan :=
  Decoder.whole do
    domain .malformed (ascii "vestrace-target-activation-plan-v1")
    let attemptId ← uuid .malformed .restoreAttempt
    let targetId ← uuid .malformed .restoreTarget
    let backupSetId ← uuid .malformed .backupSet
    let sourceGenerationId ← uuid .malformed .databaseGeneration
    let targetGenerationId ← uuid .malformed .databaseGeneration
    let sourceFreeze ← Decoder.check
      (SourceFreezePoint.fromCanonicalBytes (← Decoder.fieldBytes .malformed))
    let archiveHeadDigest ← CanonicalDecoder.digest .malformed
    Decoder.finish .malformed
    Decoder.check (new attemptId targetId backupSetId sourceGenerationId targetGenerationId
      sourceFreeze archiveHeadDigest)

/-! ## What they read -/

variable {s t : Bytes}

theorem SourceFreezePoint.new_eq_ok {generationId : DatabaseGenerationId} {timeline : UInt32}
    {lsn mutationWatermark : UInt64} :
    new generationId timeline lsn mutationWatermark = .ok freeze ↔
      freeze.generationId = generationId ∧ freeze.timeline = timeline ∧ freeze.lsn = lsn ∧
        freeze.mutationWatermark = mutationWatermark := by
  unfold new
  constructor
  · intro h
    split at h
    · cases h
      exact ⟨rfl, rfl, rfl, rfl⟩
    · cases h
  · intro h
    obtain ⟨rfl, rfl, rfl, rfl⟩ := h
    rw [dif_pos ⟨freeze.timeline_ne, freeze.lsn_ne⟩]

theorem SourceFreezePoint.decode_eq_ok :
    decode s = .ok (freeze, t) ↔ s = freeze.canonicalBytes ++ t := by
  have hdomain : (ascii "vestrace-source-freeze-point-v1").length < 256 ^ 8 := by decide
  simp only [decode, Decoder.bind_eq_ok, domain_eq_ok hdomain, uuid_eq_ok, u32_eq_ok,
    u64_eq_ok, check_eq_ok, new_eq_ok]
  constructor
  · intro h
    obtain ⟨⟨⟩, _, rfl, _, _, rfl, _, _, rfl, _, _, rfl, _, _, rfl, ⟨rfl, rfl, rfl, rfl⟩, rfl⟩ := h
    simp [canonicalBytes]
  · intro h
    subst h
    refine ⟨(), _, ?_, _, _, rfl, _, _, rfl, _, _, rfl, _, _, rfl, ⟨rfl, rfl, rfl, rfl⟩, rfl⟩
    simp [canonicalBytes]

/-- **Freeze points are read exactly.** -/
theorem SourceFreezePoint.fromCanonicalBytes_eq_ok :
    fromCanonicalBytes s = .ok freeze ↔ s = freeze.canonicalBytes := by
  simp only [fromCanonicalBytes, whole_eq_ok, Decoder.bind_eq_ok, decode_eq_ok,
    finish_eq_ok, Decoder.pure_eq_ok]
  constructor
  · intro h
    obtain ⟨_, _, _, rfl, ⟨⟩, _, ⟨rfl, rfl⟩, rfl, rfl⟩ := h
    exact append_nil _
  · intro h
    exact ⟨[], freeze, [], h.trans (append_nil _).symm, (), [], ⟨rfl, rfl⟩, rfl, rfl⟩

theorem RestoreHoldReleaseReason.fromCode_eq_ok {reason : RestoreHoldReleaseReason}
    {kind : UInt8} {receipt : SafetyJournalDigest} :
    fromCode kind receipt = .ok reason ↔ kind = reason.code ∧ receipt = reason.receipt := by
  constructor
  · intro h
    unfold fromCode at h
    split at h <;> cases h <;> exact ⟨UInt8.toNat_inj.mp ‹_›, rfl⟩
  · intro h
    obtain ⟨rfl, rfl⟩ := h
    cases reason <;> rfl

/-- **Terminal receipts are read exactly.** -/
theorem RestoreTerminalReceipt.fromCanonicalBytes_eq_ok {receipt : RestoreTerminalReceipt} :
    fromCanonicalBytes s = .ok receipt ↔ s = receipt.canonicalBytes := by
  have hdomain : (ascii "vestrace-restore-terminal-receipt-v1").length < 256 ^ 8 := by decide
  simp only [fromCanonicalBytes, whole_eq_ok, Decoder.bind_eq_ok, domain_eq_ok hdomain,
    uuid_eq_ok, u8_eq_ok, digest_eq_ok, finish_eq_ok, check_eq_ok,
    RestoreHoldReleaseReason.fromCode_eq_ok, Decoder.pure_eq_ok]
  constructor
  · intro h
    obtain ⟨_, ⟨⟩, _, rfl, _, _, rfl, _, _, rfl, _, _, rfl, _, _, rfl, ⟨⟩, _, ⟨rfl, rfl⟩, reason, _,
      ⟨⟨rfl, rfl⟩, rfl⟩, rfl, rfl⟩ := h
    simp [canonicalBytes]
  · intro h
    subst h
    refine ⟨[], (), _, ?_, _, _, rfl, _, _, rfl, _, _, rfl, _, [], (append_nil _).symm, (), _,
      ⟨rfl, rfl⟩, receipt.releaseReason, _, ⟨⟨rfl, rfl⟩, rfl⟩, rfl, rfl⟩
    simp [canonicalBytes]

theorem SourceFreezePoint.length_canonicalBytes (freeze : SourceFreezePoint) :
    freeze.canonicalBytes.length = 83 := by
  have hdomain : (ascii "vestrace-source-freeze-point-v1").length = 31 := by decide
  simp [canonicalBytes, field, hdomain]

theorem RestoreTerminalReceipt.length_canonicalBytes (receipt : RestoreTerminalReceipt) :
    receipt.canonicalBytes.length = 133 := by
  have hdomain : (ascii "vestrace-restore-terminal-receipt-v1").length = 36 := by decide
  simp [canonicalBytes, field, hdomain]

theorem TargetActivationPlan.new_eq_ok
    {sourceFreeze : SourceFreezePoint} {archiveHeadDigest : SafetyJournalDigest} :
    new attemptId targetId backupSetId sourceGenerationId targetGenerationId sourceFreeze
        archiveHeadDigest = .ok plan ↔
      (plan.attemptId = attemptId ∧ plan.targetId = targetId ∧ plan.backupSetId = backupSetId) ∧
        plan.sourceGenerationId = sourceGenerationId ∧
        plan.targetGenerationId = targetGenerationId ∧ plan.sourceFreeze = sourceFreeze ∧
        plan.archiveHeadDigest = archiveHeadDigest := by
  unfold new
  constructor
  · intro h
    split at h
    · split at h
      · cases h
        exact ⟨⟨rfl, rfl, rfl⟩, rfl, rfl, rfl, rfl⟩
      · cases h
    · cases h
  · intro h
    obtain ⟨⟨rfl, rfl, rfl⟩, rfl, rfl, rfl, rfl⟩ := h
    rw [dif_pos plan.generation_ne, dif_pos plan.freeze_generation]

/-- **Activation plans are read exactly.** -/
theorem TargetActivationPlan.fromCanonicalBytes_eq_ok :
    fromCanonicalBytes s = .ok plan ↔ s = plan.canonicalBytes := by
  have hdomain : (ascii "vestrace-target-activation-plan-v1").length < 256 ^ 8 := by decide
  have hfreeze : plan.sourceFreeze.canonicalBytes.length < 256 ^ 8 := by
    rw [plan.sourceFreeze.length_canonicalBytes]
    decide
  simp only [fromCanonicalBytes, whole_eq_ok, Decoder.bind_eq_ok, domain_eq_ok hdomain,
    uuid_eq_ok, fieldBytes_eq_ok, digest_eq_ok, finish_eq_ok, check_eq_ok,
    SourceFreezePoint.fromCanonicalBytes_eq_ok, new_eq_ok]
  constructor
  · intro h
    obtain ⟨_, ⟨⟩, _, rfl, _, _, rfl, _, _, rfl, _, _, rfl, _, _, rfl, _, _, rfl, _, _, ⟨-, rfl⟩, _,
      _, ⟨rfl, rfl⟩, _, _, rfl, ⟨⟩, _, ⟨rfl, rfl⟩, ⟨⟨rfl, rfl, rfl⟩, rfl, rfl, rfl, rfl⟩, -⟩ := h
    simp [canonicalBytes]
  · intro h
    subst h
    refine ⟨[], (), _, ?_, _, _, rfl, _, _, rfl, _, _, rfl, _, _, rfl, _, _, rfl, _, _,
      ⟨hfreeze, rfl⟩, _, _, ⟨rfl, rfl⟩, _, [], (append_nil _).symm, (), _, ⟨rfl, rfl⟩,
      ⟨⟨rfl, rfl, rfl⟩, rfl, rfl, rfl, rfl⟩, rfl⟩
    simp [canonicalBytes]

theorem TargetActivationPlan.length_canonicalBytes (plan : TargetActivationPlan) :
    plan.canonicalBytes.length = 293 := by
  have hdomain : (ascii "vestrace-target-activation-plan-v1").length = 34 := by decide
  simp [canonicalBytes, field, hdomain, plan.sourceFreeze.length_canonicalBytes]

theorem TargetActivationPlan.length_canonicalBytes_lt (plan : TargetActivationPlan) :
    plan.canonicalBytes.length < 256 ^ 8 := by
  rw [plan.length_canonicalBytes]
  decide

/-! ### The progress of an attempt -/

/-- Either way it is read exactly, if the value is. -/
theorem optionalStep_eq_ok {α : Type} {progress next : RestoreAttemptProgress}
    {fromBytes : Bytes → Except RestoreCutoverError α}
    {record : RestoreAttemptProgress → α → Except RestoreCutoverError RestoreAttemptProgress}
    {encode : α → Bytes} (hfrom : ∀ bytes value, fromBytes bytes = .ok value ↔ bytes = encode value)
    (hlen : ∀ value, (encode value).length < 256 ^ 8) :
    optionalStep progress fromBytes record s = .ok (next, t) ↔
      (s = Lib.optionalField none ++ t ∧ next = progress) ∨
        ∃ value, s = Lib.optionalField (some (encode value)) ++ t ∧
          record progress value = .ok next := by
  simp only [optionalStep, Decoder.bind_eq_ok, optionalField_eq_ok]
  constructor
  · intro h
    obtain ⟨o, _, ⟨-, rfl⟩, h⟩ := h
    cases o with
    | none =>
      obtain ⟨rfl, rfl⟩ := Decoder.pure_eq_ok.mp h
      exact .inl ⟨rfl, rfl⟩
    | some bytes =>
      simp only [Decoder.bind_eq_ok, check_eq_ok, hfrom] at h
      obtain ⟨value, _, ⟨rfl, rfl⟩, hrecord, rfl⟩ := h
      exact .inr ⟨value, rfl, hrecord⟩
  · intro h
    rcases h with ⟨rfl, rfl⟩ | ⟨value, rfl, hrecord⟩
    · exact ⟨none, t, ⟨fun _ => nofun, rfl⟩, rfl⟩
    · refine ⟨some (encode value), t, ⟨fun _ hmem => Option.some.inj hmem ▸ hlen value, rfl⟩, ?_⟩
      simp only [Decoder.bind_eq_ok, check_eq_ok, hfrom]
      exact ⟨value, t, ⟨rfl, rfl⟩, hrecord, rfl⟩

namespace RestoreAttemptProgress

theorem eq_of_identity {progress other : RestoreAttemptProgress}
    (hidentity : progress.identity = other.identity)
    (hfreeze : progress.sourceFreeze = other.sourceFreeze)
    (hterminal : progress.terminalReceipt = other.terminalReceipt) : progress = other := by
  cases progress
  cases other
  simp_all [identity]

theorem canonicalBytes_eq (progress : RestoreAttemptProgress) :
    progress.canonicalBytes = field (ascii "vestrace-restore-attempt-progress-v1") ++
      (field progress.identity.attemptId.asBytes ++ (field progress.identity.targetId.asBytes ++
      (field progress.identity.backupSetId.asBytes ++ (field progress.identity.holdId.asBytes ++
      (field progress.identity.sourceGenerationId.asBytes ++
      (field progress.identity.targetGenerationId.asBytes ++
      (Lib.optionalField (progress.sourceFreeze.map SourceFreezePoint.canonicalBytes) ++
      Lib.optionalField (progress.terminalReceipt.map
        RestoreTerminalReceipt.canonicalBytes)))))))) := by
  simp only [canonicalBytes, identity, append_assoc]

theorem prepare_eq_ok {progress : RestoreAttemptProgress} {holdId : RestoreHoldId} :
    prepare attemptId targetId backupSetId holdId sourceGenerationId targetGenerationId =
        .ok progress ↔
      progress.identity = ⟨attemptId, targetId, backupSetId, holdId, sourceGenerationId,
        targetGenerationId⟩ ∧ progress.sourceFreeze = none ∧ progress.terminalReceipt = none := by
  unfold prepare
  constructor
  · intro h
    split at h
    · cases h
      exact ⟨rfl, rfl, rfl⟩
    · cases h
  · intro h
    obtain ⟨hidentity, hfreeze, hterminal⟩ := h
    have hne := progress.generation_ne
    rw [show progress.sourceGenerationId = sourceGenerationId from
        congrArg RestoreAttemptIdentity.sourceGenerationId hidentity,
      show progress.targetGenerationId = targetGenerationId from
        congrArg RestoreAttemptIdentity.targetGenerationId hidentity] at hne
    rw [dif_pos hne, Except.ok.injEq]
    exact eq_of_identity hidentity.symm hfreeze.symm hterminal.symm

variable {progress next : RestoreAttemptProgress}

theorem frozenStep_eq_ok (hfree : progress.sourceFreeze = none) :
    optionalStep progress SourceFreezePoint.fromCanonicalBytes recordSourceFreeze s =
        .ok (next, t) ↔
      (next.identity = progress.identity ∧ next.terminalReceipt = progress.terminalReceipt) ∧
        s = Lib.optionalField (next.sourceFreeze.map SourceFreezePoint.canonicalBytes) ++ t := by
  have hlen : ∀ freeze : SourceFreezePoint, freeze.canonicalBytes.length < 256 ^ 8 := by
    intro freeze
    rw [freeze.length_canonicalBytes]
    decide
  rw [optionalStep_eq_ok (fun _ _ => SourceFreezePoint.fromCanonicalBytes_eq_ok) hlen]
  constructor
  · intro h
    rcases h with ⟨rfl, rfl⟩ | ⟨freeze, rfl, hrecord⟩
    · rw [hfree]
      exact ⟨⟨rfl, rfl⟩, rfl⟩
    · obtain ⟨-, hfreeze, hterminal, hidentity⟩ := recordSourceFreeze_eq_ok hrecord
      rw [hfreeze]
      exact ⟨⟨hidentity, hterminal⟩, rfl⟩
  · intro h
    obtain ⟨⟨hidentity, hterminal⟩, rfl⟩ := h
    cases hfreeze : next.sourceFreeze with
    | none => exact .inl ⟨rfl, eq_of_identity hidentity (hfreeze.trans hfree.symm) hterminal⟩
    | some freeze =>
      -- the freeze point of an attempt is of its source
      have hsource : next.sourceGenerationId = progress.sourceGenerationId :=
        congrArg RestoreAttemptIdentity.sourceGenerationId hidentity
      have hgeneration := (next.freeze_generation freeze hfreeze).trans hsource
      refine .inr ⟨freeze, rfl, ?_⟩
      rw [recordSourceFreeze, dif_pos ⟨hfree, hgeneration⟩, Except.ok.injEq]
      exact eq_of_identity hidentity.symm hfreeze.symm hterminal.symm

theorem terminalStep_eq_ok (hopen : progress.terminalReceipt = none) :
    optionalStep progress RestoreTerminalReceipt.fromCanonicalBytes recordTerminalReceipt s =
        .ok (next, t) ↔
      (next.identity = progress.identity ∧ next.sourceFreeze = progress.sourceFreeze) ∧
        s = Lib.optionalField
          (next.terminalReceipt.map RestoreTerminalReceipt.canonicalBytes) ++ t := by
  have hlen : ∀ receipt : RestoreTerminalReceipt, receipt.canonicalBytes.length < 256 ^ 8 := by
    intro receipt
    rw [receipt.length_canonicalBytes]
    decide
  rw [optionalStep_eq_ok (fun _ _ => RestoreTerminalReceipt.fromCanonicalBytes_eq_ok) hlen]
  constructor
  · intro h
    rcases h with ⟨rfl, rfl⟩ | ⟨receipt, rfl, hrecord⟩
    · rw [hopen]
      exact ⟨⟨rfl, rfl⟩, rfl⟩
    · obtain ⟨-, hterminal, hfreeze, hidentity⟩ := recordTerminalReceipt_eq_ok hrecord
      rw [hterminal]
      exact ⟨⟨hidentity, hfreeze⟩, rfl⟩
  · intro h
    obtain ⟨⟨hidentity, hfreeze⟩, rfl⟩ := h
    cases hterminal : next.terminalReceipt with
    | none => exact .inl ⟨rfl, eq_of_identity hidentity hfreeze (hterminal.trans hopen.symm)⟩
    | some receipt =>
      have hattempt : next.attemptId = progress.attemptId :=
        congrArg RestoreAttemptIdentity.attemptId hidentity
      have htarget : next.targetId = progress.targetId :=
        congrArg RestoreAttemptIdentity.targetId hidentity
      obtain ⟨hfrozen, hreceipt, hreceiptTarget⟩ := next.terminal_frozen receipt hterminal
      refine .inr ⟨receipt, rfl, ?_⟩
      rw [recordTerminalReceipt, dif_pos ⟨hfreeze ▸ hfrozen, hopen, hreceipt.trans hattempt,
        hreceiptTarget.trans htarget⟩, Except.ok.injEq]
      exact eq_of_identity hidentity.symm hfreeze.symm hterminal.symm

/-- **Restore attempts are read exactly.** -/
theorem fromCanonicalBytes_eq_ok :
    fromCanonicalBytes s = .ok progress ↔ s = progress.canonicalBytes := by
  have hdomain : (ascii "vestrace-restore-attempt-progress-v1").length < 256 ^ 8 := by decide
  simp only [fromCanonicalBytes, whole_eq_ok, Decoder.bind_eq_ok, domain_eq_ok hdomain,
    uuid_eq_ok, check_eq_ok, prepare_eq_ok, finish_eq_ok, Decoder.pure_eq_ok,
    canonicalBytes_eq]
  constructor
  · intro h
    obtain ⟨_, ⟨⟩, _, rfl, _, _, rfl, _, _, rfl, _, _, rfl, _, _, rfl, _, _, rfl, _, _, rfl,
      prepared, _, ⟨⟨hprepared, hfree, hopen⟩, rfl⟩, frozen, _, hfrozen, _, _, hended, ⟨⟩, _,
      ⟨rfl, rfl⟩, rfl, rfl⟩ := h
    obtain ⟨⟨hfrozenIdentity, hfrozenOpen⟩, rfl⟩ := (frozenStep_eq_ok hfree).mp hfrozen
    obtain ⟨⟨hendedIdentity, hendedFreeze⟩, rfl⟩ :=
      (terminalStep_eq_ok (hfrozenOpen.trans hopen)).mp hended
    rw [hendedIdentity, hfrozenIdentity, hprepared, hendedFreeze, append_nil]
  · intro h
    subst h
    -- the attempt without its receipt, and without its freeze point
    let frozen : RestoreAttemptProgress :=
      { progress with terminalReceipt := none, terminal_frozen := fun _ => nofun }
    let prepared : RestoreAttemptProgress :=
      { frozen with sourceFreeze := none, freeze_generation := fun _ => nofun
                    terminal_frozen := fun _ => nofun }
    exact ⟨[], (), _, rfl, _, _, rfl, _, _, rfl, _, _, rfl, _, _, rfl, _, _, rfl, _, _, rfl,
      prepared, _, ⟨⟨rfl, rfl, rfl⟩, rfl⟩, frozen, _,
      (frozenStep_eq_ok rfl).mpr ⟨⟨rfl, rfl⟩, rfl⟩, progress, [],
      (terminalStep_eq_ok rfl).mpr ⟨⟨rfl, rfl⟩, (append_nil _).symm⟩, (), _, ⟨rfl, rfl⟩, rfl,
      rfl⟩

theorem length_canonicalBytes_le (progress : RestoreAttemptProgress) :
    progress.canonicalBytes.length ≤ 422 := by
  have hdomain : (ascii "vestrace-restore-attempt-progress-v1").length = 36 := by decide
  have hfreeze : (Lib.optionalField
      (progress.sourceFreeze.map SourceFreezePoint.canonicalBytes)).length ≤ 92 := by
    cases progress.sourceFreeze with
    | none => exact Nat.le_of_ble_eq_true rfl
    | some freeze => simp [Lib.optionalField, field, freeze.length_canonicalBytes]
  have hterminal : (Lib.optionalField
      (progress.terminalReceipt.map RestoreTerminalReceipt.canonicalBytes)).length ≤ 142 := by
    cases progress.terminalReceipt with
    | none => exact Nat.le_of_ble_eq_true rfl
    | some receipt => simp [Lib.optionalField, field, receipt.length_canonicalBytes]
  simp only [canonicalBytes, length_append, field, length_beBytes,
    SafetyId.length_asBytes, hdomain]
  omega

theorem length_canonicalBytes_lt (progress : RestoreAttemptProgress) :
    progress.canonicalBytes.length < 256 ^ 8 :=
  lt_of_le_of_lt progress.length_canonicalBytes_le (by decide)

end RestoreAttemptProgress

end

end Vestrace.Installation
