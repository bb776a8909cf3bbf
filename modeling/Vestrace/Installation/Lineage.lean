import Vestrace.Installation.Witness

/-!
# Each witnessed event and its own section of the state

An event should change its own section of the witnessed state and no other. The
predicates for the restore events compare the whole state; those for the nine archive
events compare the archive alone, so an archive entry may carry anything in the other sections.
-/

namespace Vestrace.Installation

open Lib WitnessStateV1 List

/-- The four sections outside the archive are as they were. -/
structure KeepsSections (before after : WitnessStateV1) : Prop where
  lineage : after.generationLineageState = before.generationLineageState
  plan : after.targetActivationPlan = before.targetActivationPlan
  progress : after.restoreAttemptProgress = before.restoreAttemptProgress
  started : after.targetActivationStarted = before.targetActivationStarted

/-- The lineage ends with the active generation and has one element more than the activation
epoch. -/
structure Anchored (head : WitnessHead) : Prop where
  last : head.state.generationLineageState.getLast? = some head.activeGenerationId
  length : head.state.generationLineageState.length = head.activationEpoch.toNat + 1

/-- The lineage grows by one generation at a registration, and is left alone otherwise. -/
def LineageMove (step : WitnessStep) : Prop :=
  if step.entry.eventKind = .generationRegistered then
    ∃ generation, step.after.state.generationLineageState =
      step.before.state.generationLineageState ++ [generation]
  else step.after.state.generationLineageState = step.before.state.generationLineageState

def WitnessStep.ArchiveBuilt (step : WitnessStep) : Prop :=
  step.entry.eventKind.isArchive = true →
    ∃ archive, step.entry.state = step.before.state.withBackupArchiveState archive

structure SectionsKept (steps : List WitnessStep) (head : WitnessHead) : Prop where
  archive : ∀ step ∈ steps, step.entry.eventKind.isArchive = true →
    KeepsSections step.before.state step.after.state
  lineage : ∀ step ∈ steps, LineageMove step
  anchored : ∀ step ∈ steps, Anchored step.before ∧ Anchored step.after
  head : Anchored head

theorem keepsSections_iff {before after : WitnessStateV1} :
    KeepsSections before after ↔ ∃ archive, after = before.withBackupArchiveState archive := by
  constructor
  · intro h
    exact ⟨after.backupArchiveState, WitnessStateV1.ext h.lineage rfl h.plan h.progress h.started⟩
  · intro h
    obtain ⟨archive, rfl⟩ := h
    exact ⟨rfl, rfl, rfl, rfl⟩

section

variable [Crypto] {binding : SafetyBootstrapBinding} {witness : Crypto.Ed25519KeyPair}
  {head next : WitnessHead} {entry : SignedJournalEntry}

theorem Accepted.lineage_kept (h : Accepted head entry)
    (hkind : entry.eventKind ≠ .generationRegistered)
    (hbuilt : WitnessStep.ArchiveBuilt ⟨head, entry, next⟩) :
    head.SameGeneration entry ∧
      entry.state.generationLineageState = head.state.generationLineageState := by
  cases h with
  | initialized _ same state => exact ⟨same, by rw [state]⟩
  | registered kind => exact absurd kind hkind
  | archive kind same =>
    obtain ⟨archive, hstate⟩ := hbuilt kind
    exact ⟨same, (congrArg generationLineageState hstate :)⟩
  | planned _ same successor => exact ⟨same, (of_decide_eq_true successor).1⟩
  | ended _ same receipt state =>
    obtain ⟨before, after, -, -, hstate⟩ :=
      withRestoreTerminalReceipt_eq_ok.mp state
    exact ⟨same, by rw [hstate]⟩
  | prepared _ same progress state =>
    obtain ⟨-, -, -, hstate⟩ := withRestoreAttemptProgress_eq_ok.mp state
    exact ⟨same, by rw [hstate]⟩
  | frozen _ same freeze state =>
    obtain ⟨before, after, -, -, hstate⟩ := withSourceFreeze_eq_ok.mp state
    exact ⟨same, by rw [hstate]⟩
  | activating _ same successor => exact ⟨same, (of_decide_eq_true successor).1⟩

theorem Anchored.step (hhead : Anchored head) (h : head.advance binding witness entry = .ok next)
    (hbuilt : WitnessStep.ArchiveBuilt ⟨head, entry, next⟩) :
    LineageMove ⟨head, entry, next⟩ ∧ Anchored next := by
  obtain ⟨haccepted, hgeneration, hepoch, hstate⟩ := advance_eq_ok h
  by_cases hkind : entry.eventKind = .generationRegistered
  · obtain ⟨hgrown, hregistered, -⟩ := haccepted.of_registered hkind
    have hlineage := (registerGeneration_eq_ok hregistered).1
    have hcount := checkedAdd_one_eq_some hgrown
    rw [← hstate] at hlineage
    refine ⟨?_, ?_, ?_⟩
    · rw [LineageMove, if_pos hkind]
      exact ⟨entry.generationId, hlineage⟩
    · rw [hlineage, hgeneration, List.getLast?_concat]
    · have hlength := hhead.length
      rw [hlineage, hepoch, length_append, length_singleton]
      omega
  · obtain ⟨hsame, hlineage⟩ := haccepted.lineage_kept hkind hbuilt
    rw [← hstate] at hlineage
    refine ⟨?_, ?_, ?_⟩
    · rw [LineageMove, if_neg hkind]
      exact hlineage
    · rw [hlineage, hgeneration, hsame.1]
      exact hhead.last
    · rw [hlineage, hepoch, hsame.2]
      exact hhead.length

end

/-! ## Runs -/

section

variable [Crypto] {binding : SafetyBootstrapBinding} {witness : Crypto.Ed25519KeyPair}
  {start head : WitnessHead} {steps : List WitnessStep}

theorem Chain.entry_state (h : Chain binding witness start steps head) :
    ∀ step ∈ steps, step.after.state = step.entry.state := by
  induction h with
  | start => exact fun step hstep => absurd hstep not_mem_nil
  | accept _ accepted ih =>
    exact forall_mem_append.mpr ⟨ih, forall_mem_singleton.mpr (advance_eq_ok accepted).2.2.2⟩

theorem Chain.sectionsKept (h : Chain binding witness start steps head) (hstart : Anchored start)
    (hbuilt : ∀ step ∈ steps, step.ArchiveBuilt) : SectionsKept steps head := by
  induction h with
  | start =>
    exact ⟨fun step hstep => absurd hstep not_mem_nil,
      fun step hstep => absurd hstep not_mem_nil,
      fun step hstep => absurd hstep not_mem_nil, hstart⟩
  | @accept steps head next entry _ accepted ih =>
    obtain ⟨hbefore, hlast⟩ := forall_mem_append.mp hbuilt
    have hkept := ih hbefore
    rw [forall_mem_singleton] at hlast
    obtain ⟨hmove, hnext⟩ := hkept.head.step accepted hlast
    -- each clause: the steps before by induction, the last one by the step lemma
    refine ⟨forall_mem_append.mpr ⟨hkept.archive, forall_mem_singleton.mpr ?_⟩,
      forall_mem_append.mpr ⟨hkept.lineage, forall_mem_singleton.mpr hmove⟩,
      forall_mem_append.mpr ⟨hkept.anchored, forall_mem_singleton.mpr ⟨hkept.head, hnext⟩⟩, hnext⟩
    intro hkind
    rw [keepsSections_iff, (advance_eq_ok accepted).2.2.2]
    exact hlast hkind

/-- In a run from genesis every event keeps to its section, and the lineage to the
generations registered, exactly when the archive entries were built from the state of
the head that accepts them. -/
theorem sections_kept_iff {installationId : InstallationId} {fingerprintKeyId : FingerprintKeyId}
    {continuityProof : FingerprintKeyContinuityProof} {generationId : DatabaseGenerationId}
    {journalPublicKey : JournalPublicKey}
    (h : Chain binding witness (.genesis installationId fingerprintKeyId continuityProof
      generationId journalPublicKey) steps head) :
    SectionsKept steps head ↔ ∀ step ∈ steps, step.ArchiveBuilt := by
  constructor
  · intro hkept step hstep hkind
    rw [← h.entry_state step hstep]
    exact keepsSections_iff.mp (hkept.archive step hstep hkind)
  · exact h.sectionsKept ⟨rfl, rfl⟩

end

/-! ## A set started by an honest and by a forged entry -/

section

local instance lineageCrypto : Crypto := plainCrypto

def journalKey : BitVec 256 := 7

def witnessKey : BitVec 256 := 8

def sampleBinding : SafetyBootstrapBinding := ⟨⟨1⟩, ⟨2⟩, ⟨3⟩, ⟨journalKey⟩, ⟨witnessKey⟩⟩

def genesisHead : WitnessHead := .genesis ⟨1⟩ ⟨2⟩ ⟨3⟩ ⟨10⟩ ⟨journalKey⟩

def inputAfter (head : WitnessHead) (eventKind : SafetyEventKind)
    (generationId : DatabaseGenerationId) (activationEpoch : UInt64) (state : WitnessStateV1) :
    JournalEntryToSign where
  installationId := head.installationId
  fingerprintKeyId := head.fingerprintKeyId
  continuityProof := head.continuityProof
  requestId := ⟨4⟩
  sequence := head.sequence + 1
  previousDigest := head.chainDigest
  eventKind := eventKind
  generationId := generationId
  activationEpoch := activationEpoch
  state := state

def entryAfter (head : WitnessHead) (eventKind : SafetyEventKind)
    (generationId : DatabaseGenerationId) (activationEpoch : UInt64) (state : WitnessStateV1) :
    SignedJournalEntry :=
  .sign journalKey (inputAfter head eventKind generationId activationEpoch state)

theorem advance_entryAfter {eventKind : SafetyEventKind} {generationId : DatabaseGenerationId}
    {head : WitnessHead} (hbound : head.BoundBy sampleBinding)
    {activationEpoch : UInt64} {state : WitnessStateV1}
    (hsequence : checkedAdd head.sequence 1 = some (head.sequence + 1))
    (hcheck : head.checkTransition (entryAfter head eventKind generationId activationEpoch state) =
      .ok ()) : head.advance sampleBinding witnessKey
        (entryAfter head eventKind generationId activationEpoch state) =
      .ok (head.opened (entryAfter head eventKind generationId activationEpoch state)) :=
  advance_of_precedes hbound rfl ⟨rfl, rfl, rfl, hsequence, rfl, hbound.journal⟩ hcheck

theorem genesisHead_boundBy : genesisHead.BoundBy sampleBinding := ⟨rfl, rfl, rfl, rfl⟩

def startedArchive : BackupArchiveStateV1 :=
  archiveRun [.startStreaming ⟨⟨1⟩, ⟨1⟩, ⟨10⟩⟩ ⟨0, ⟨0⟩⟩]

def honestStart : SignedJournalEntry :=
  entryAfter genesisHead .backupSetStarted ⟨10⟩ 0
    (genesisHead.state.withBackupArchiveState startedArchive)

/-- The same event over another lineage, with an activation already marked. -/
def forgedStart : SignedJournalEntry :=
  entryAfter genesisHead .backupSetStarted ⟨10⟩ 0
    { WitnessStateV1.genesis ⟨11⟩ with
      backupArchiveState := startedArchive
      targetActivationStarted := some ⟨5⟩ }

/-- Starting a backup set replaces the lineage and marks an activation. -/
theorem started_set_rewrites_lineage : Chain sampleBinding witnessKey genesisHead
        [⟨genesisHead, forgedStart, genesisHead.opened forgedStart⟩]
        (genesisHead.opened forgedStart) ∧
      ¬ SectionsKept [⟨genesisHead, forgedStart, genesisHead.opened forgedStart⟩]
        (genesisHead.opened forgedStart) ∧
      (genesisHead.opened forgedStart).activeGenerationId = ⟨10⟩ ∧
      (genesisHead.opened forgedStart).state.generationLineageState = [⟨11⟩] ∧
      (genesisHead.opened forgedStart).state.targetActivationStarted = some ⟨5⟩ := by
  refine ⟨Chain.start.accept (advance_entryAfter genesisHead_boundBy rfl (by decide +kernel)), ?_,
    rfl, rfl, rfl⟩
  intro h
  have hlast := h.head.last
  exact absurd hlast (by decide)

theorem sections_kept_iff_honestStart :
    SectionsKept [⟨genesisHead, honestStart, genesisHead.opened honestStart⟩]
      (genesisHead.opened honestStart) := by
  refine (sections_kept_iff (Chain.start.accept
    (advance_entryAfter genesisHead_boundBy rfl (by decide +kernel)))).mpr ?_
  intro step hstep _
  obtain rfl := mem_singleton.mp hstep
  exact ⟨startedArchive, rfl⟩

end

end Vestrace.Installation
