import Vestrace.Installation.AppendWal

/-!
# What the pieces of an append do

One lemma for each piece of `append_wal` and of `reconcile`: which calls it can make
(`…_makes`), and when it succeeds and what it leaves (`…_run_ok`).
-/

namespace Vestrace.Installation

open Lib SupervisorHost Prog Function

variable {reservation : ArchiveAppendReservation} {object : ArchiveObjectDescriptor}
  {digest : SafetyJournalDigest}

variable {call : HostCall} {path : ArchivePath} {set : BackupSetId} {Q : HostCall → Prop}
  {staged : StagedArchiveObject} {entry : SignedJournalEntry}

section

variable [Crypto] {host next : SupervisorHost} {ε α : Type} {p : HostProg ε α} {id : Uuid}

/-! ## Calls -/

/-- The calls that leave the tables and the witness alone. -/
def HostCall.onFiles : HostCall → Bool
  | .createNew _ | .append _ _ | .read _ | .removeFile _ | .openEnvelope _ | .createJournal _ _
  | .writeJournal _ | .readJournal _ _ | .readHead | .durableReceipt => true
  | .reserveAppend _ | .abandonAppend _ | .cancelPending _ | .commitCheckpoint _ _ _
  | .replay _ _ _ | .compareAndAdvance _ _ => false

/-- What stays when only files were worked on. -/
structure SameRecords (host next : SupervisorHost) : Prop where
  tables : next.tables = host.tables
  witness : next.witness = host.witness
  key : next.witnessKey = host.witnessKey
  journal : ∀ place entry, host.journal place = some (.entry entry) →
    next.journal place = some (.entry entry)

theorem SameRecords.refl (host : SupervisorHost) : SameRecords host host :=
  ⟨rfl, rfl, rfl, fun _ _ h => h⟩

theorem SameRecords.trans {last : SupervisorHost} (h : SameRecords host next)
    (h' : SameRecords next last) : SameRecords host last :=
  ⟨h'.tables.trans h.tables, h'.witness.trans h.witness, h'.key.trans h.key,
    fun place entry hentry => h'.journal place entry (h.journal place entry hentry)⟩

theorem SameRecords.journal_update {file : JournalFile} {place : UInt64 × SafetyJournalDigest}
    (h : ∀ entry, host.journal place ≠ some (.entry entry)) :
    SameRecords host { host with journal := Function.update host.journal place (some file) } := by
  refine ⟨rfl, rfl, rfl, ?_⟩
  intro other entry hentry
  have hne : other ≠ place := by
    rintro rfl
    exact h entry hentry
  show Function.update host.journal place (some file) other = _
  rw [update_of_ne hne, hentry]

/-- They never take a record out of the journal either. -/
theorem sameRecords_exec (h : call.onFiles = true) (host : SupervisorHost) :
    SameRecords host (exec call host).2 := by
  cases call with
  | createNew path =>
    simp only [exec]
    cases host.files path with
    | some _ => exact .refl host
    | none => exact ⟨rfl, rfl, rfl, fun _ _ h => h⟩
  | append | read | removeFile | openEnvelope | readJournal | readHead | durableReceipt =>
    exact ⟨rfl, rfl, rfl, fun _ _ h => h⟩
  | createJournal sequence digest =>
    simp only [exec]
    cases hfile : host.journal (sequence, digest) with
    | some _ => exact .refl host
    | none =>
      refine .journal_update fun entry hentry => ?_
      cases hfile.symm.trans hentry
  | writeJournal entry =>
    simp only [exec]
    rcases hfile : host.journal (entry.sequence, entry.digest) with _ | _ | other
    · exact .refl host
    · refine .journal_update fun entry hentry => ?_
      cases hfile.symm.trans hentry
    · exact .refl host
  | reserveAppend | abandonAppend | cancelPending | commitCheckpoint | replay
  | compareAndAdvance => cases h

abbrev OnFiles {ε α : Type} (p : HostProg ε α) : Prop :=
  p.Makes fun call : HostCall => call.onFiles = true

theorem OnFiles.sameRecords (hp : OnFiles p) (host : SupervisorHost) :
    SameRecords host (p.run host).2 := by
  refine (hp.always (I := SameRecords host) ?_ (.refl host)).run (.refl host)
  intro call middle hcall hmiddle
  exact hmiddle.trans (sameRecords_exec hcall middle)

/-- Only `stage_encrypted` creates a staging frame and writes into it. -/
def HostCall.sparesStaging : HostCall → Prop
  | .createNew (.staging _ _) | .append (.staging _ _) _ => False
  | _ => True

/-- The program writes into no staging frame. -/
abbrev SparesStaging {ε α : Type} (p : HostProg ε α) : Prop :=
  p.Makes fun call : HostCall => call.sparesStaging

theorem onTables_files (t : SafetyTables → Except ε (α × SafetyTables)) :
    (host.onTables t).2.files = host.files := by
  refine transact_state (Q := fun after : SupervisorHost => after.files = host.files) rfl ?_
  intro a after h
  obtain ⟨⟨b, tables⟩, -, h⟩ := bind_eq_ok.mp h
  obtain ⟨-, rfl⟩ := Prod.mk.inj (pure_eq_ok.mp h)
  rfl

theorem setFile_self (path : ArchivePath) (content : Option Bytes) :
    (host.setFile path content).files path = content := update_self ..

theorem setFile_ne {other : ArchivePath} (h : other ≠ path) (content : Option Bytes) :
    (host.setFile path content).files other = host.files other := update_of_ne h ..

theorem setFile_setFile (path : ArchivePath) (content later : Option Bytes) :
    (host.setFile path content).setFile path later = host.setFile path later := by
  simp only [setFile, update_idem]

/-- What such a call leaves in a staging frame was in it before. -/
theorem staging_exec (h : call.sparesStaging) {frame : Bytes}
    (hframe : (exec call host).2.files (.staging set id) = some frame) :
    host.files (.staging set id) = some frame := by
  cases call with
  | reserveAppend | abandonAppend | cancelPending | commitCheckpoint | replay =>
    exact (congrFun (onTables_files _) _).symm.trans hframe
  | createNew path =>
    cases path with
    | staging => exact h.elim
    | object kept kind ordinal digest =>
      cases hfile : host.files (.object kept kind ordinal digest) with
      | some _ =>
        simp only [exec, hfile] at hframe
        exact hframe
      | none =>
        simp only [exec, hfile] at hframe
        rwa [setFile_ne (by exact nofun)] at hframe
  | append path byte =>
    cases path with
    | staging => exact h.elim
    | object kept kind ordinal digest =>
      exact (setFile_ne (by exact nofun) _).symm.trans hframe
  | removeFile path =>
    have hframe : (host.setFile path none).files (.staging set id) = some frame := hframe
    by_cases heq : ArchivePath.staging set id = path
    · rw [← heq, setFile_self] at hframe
      cases hframe
    · rwa [setFile_ne heq] at hframe
  | read | openEnvelope | readJournal | readHead | durableReceipt => exact hframe
  | createJournal sequence digest =>
    cases hfile : host.journal (sequence, digest) <;>
      simp only [exec, hfile] at hframe <;> exact hframe
  | writeJournal entry =>
    have hfiles : (exec (.writeJournal entry) host).2.files = host.files := by
      simp only [exec]
      split <;> rfl
    rwa [hfiles] at hframe
  | compareAndAdvance expected advance =>
    have hfiles : (exec (.compareAndAdvance expected advance) host).2.files =
        host.files := by
      refine transact_state (Q := fun after : SupervisorHost => after.files = host.files) rfl ?_
      intro a after h
      obtain ⟨current, -, h⟩ := bind_eq_ok.mp h
      obtain ⟨⟨receipt, opened⟩, -, h⟩ := bind_eq_ok.mp h
      obtain ⟨-, rfl⟩ := Prod.mk.inj (pure_eq_ok.mp h)
      rfl
    rwa [hfiles] at hframe

/-! ## The archive's files -/

section

variable {β : Type} {sequence : UInt64}

theorem makes_ask (h : Q call) : (ask call : HostProg ε call.Answer).Makes Q := Makes.perform h

theorem run_ask_bind (call : HostCall) (f : call.Answer → HostProg ε β) :
    (ask call >>= f).run host = (f (exec call host).1).run (exec call host).2 := rfl

theorem always_ask_bind {I : SupervisorHost → Prop} {f : call.Answer → HostProg ε β}
    (h : I (exec call host).2) (hf : (f (exec call host).1).Always I (exec call host).2) :
    (ask call >>= f).Always I host := ⟨h, hf⟩

theorem verifyFrame_run_ok {descriptor : ArchiveObjectDescriptor}
    : (verifyFrame path descriptor).run host = (.ok (), next) ↔
      checkFrame (host.files path) descriptor = .ok () ∧ next = host := by
  show (checkFrame (host.files path) descriptor, host) = (Except.ok (), next) ↔ _
  rw [Prod.mk.injEq, eq_comm (a := host)]

theorem createNew_run_ok {operation : String} :
    (createNew path operation).run host = (.ok (), next) ↔
      host.files path = none ∧ next = host.setFile path (some []) := by
  show (checkCreated operation (exec (.createNew path) host).1, _) = _ ↔ _
  rw [Prod.mk.injEq, checkCreated, refuse_eq_ok, Bool.not_eq_false]
  cases hfile : host.files path with
  | some _ => simp [exec, hfile]
  | none => simp [exec, hfile, eq_comm]

/-- Byte by byte, the whole of the bytes. -/
theorem writeAll_run (path : ArchivePath) (bytes : Bytes) (host : SupervisorHost) :
    (writeAll path bytes).run host =
      (.ok (), host.setFile path ((host.files path).map (· ++ bytes))) := by
  induction bytes generalizing host with
  | nil =>
    show ((.ok () : AppResult Unit), host) = _
    have hsame : (host.files path).map (· ++ ([] : Bytes)) = host.files path := by simp
    rw [hsame, setFile, update_eq_self]
  | cons byte bytes ih =>
    refine (ih (host.setFile path ((host.files path).map (· ++ [byte])))).trans ?_
    rw [setFile_self, setFile_setFile, Option.map_map]
    congr 3
    funext frame
    exact List.append_assoc frame [byte] bytes

/-- A promotion finds the frame and no object, and leaves the object and no frame. -/
theorem promoteAfterCheckpoint_run_ok : (promoteAfterCheckpoint staged).run host = (.ok (), next) ↔
      checkFrame (host.files staged.path) staged.descriptor = .ok () ∧
        host.files staged.descriptor.finalPath = none ∧
        next = (host.setFile staged.descriptor.finalPath (host.files staged.path)).setFile
          staged.path none := by
  have hne : staged.path ≠ staged.descriptor.finalPath := nofun
  -- a file that is created and then written holds what was written
  have hwritten : ∀ frame, (host.setFile staged.descriptor.finalPath (some [])).setFile
      staged.descriptor.finalPath (((host.setFile staged.descriptor.finalPath (some [])).files
        staged.descriptor.finalPath).map (· ++ frame)) =
      host.setFile staged.descriptor.finalPath (some frame) := by
    intro frame
    rw [setFile_self, setFile_setFile]
    rfl
  rw [promoteAfterCheckpoint, run_bind_ok]
  constructor
  · intro h
    obtain ⟨_, checked, hverify, h⟩ := h
    obtain ⟨hframe, rfl⟩ := verifyFrame_run_ok.mp hverify
    rw [run_ask_bind] at h
    obtain ⟨frame, opened, hopen, h⟩ := run_bind_ok.mp h
    obtain ⟨hread, rfl⟩ := run_lift_ok.mp hopen
    have hfile : checked.files staged.path = some frame := okOr_eq_ok.mp hread
    obtain ⟨_, created, hcreate, h⟩ := run_bind_ok.mp h
    obtain ⟨hfree, rfl⟩ := createNew_run_ok.mp hcreate
    obtain ⟨_, written, hwrite, h⟩ := run_bind_ok.mp h
    rw [writeAll_run] at hwrite
    obtain ⟨-, rfl⟩ := Prod.mk.inj hwrite
    rw [run_ask_bind] at h
    obtain ⟨-, rfl⟩ := run_lift_ok.mp h
    refine ⟨hframe, hfree, ?_⟩
    rw [hfile, ← hwritten]
    rfl
  · intro h
    obtain ⟨hframe, hfree, rfl⟩ := h
    obtain ⟨frame, hread, -⟩ := bind_eq_ok.mp hframe
    have hfile : host.files staged.path = some frame := okOr_eq_ok.mp hread
    refine ⟨(), host, verifyFrame_run_ok.mpr ⟨hframe, rfl⟩, ?_⟩
    rw [run_ask_bind]
    refine run_bind_ok.mpr ⟨frame, host, run_lift_ok.mpr ⟨okOr_eq_ok.mpr hfile, rfl⟩, ?_⟩
    refine run_bind_ok.mpr ⟨(), _, createNew_run_ok.mpr ⟨hfree, rfl⟩, ?_⟩
    refine run_bind_ok.mpr ⟨(), _, writeAll_run _ _ _, ?_⟩
    rw [hwritten, hfile, run_ask_bind]
    refine run_lift_ok.mpr ⟨refuse_eq_ok.mpr (ne_false_of_eq_true ?_), rfl⟩
    show ((host.setFile _ _).files staged.path).isSome = true
    rw [setFile_ne hne, hfile]
    rfl

theorem promoteAfterCheckpoint_makes (staged : StagedArchiveObject) (hread : Q (.read staged.path))
    (hcreate : Q (.createNew staged.descriptor.finalPath))
    (happend : ∀ byte, Q (.append staged.descriptor.finalPath byte))
    (hremove : Q (.removeFile staged.path)) : (promoteAfterCheckpoint staged).Makes Q := by
  have hwrite : ∀ bytes, (writeAll staged.descriptor.finalPath bytes).Makes Q := by
    intro bytes
    induction bytes with
    | nil => exact .pure ()
    | cons byte bytes ih => exact .bind (makes_ask (happend byte)) fun _ => ih
  refine .bind (.bind (makes_ask hread) fun _ => .lift _) fun _ => .bind (makes_ask hread) ?_
  intro content
  refine .bind (.lift _) fun frame => .bind (.bind (makes_ask hcreate) fun _ => .lift _) ?_
  intro _
  exact .bind (hwrite frame) fun _ => .bind (makes_ask hremove) fun _ => .lift _

theorem promoteAfterCheckpoint_onFiles (staged : StagedArchiveObject) :
    OnFiles (promoteAfterCheckpoint staged) :=
  promoteAfterCheckpoint_makes staged rfl rfl (fun _ => rfl) rfl

theorem promoteAfterCheckpoint_sparesStaging (staged : StagedArchiveObject) :
    SparesStaging (promoteAfterCheckpoint staged) :=
  promoteAfterCheckpoint_makes staged trivial trivial (fun _ => trivial) trivial

theorem stageEncrypted_onFiles (write : ArchiveObjectWrite) : OnFiles (stageEncrypted write) := by
  have hwrite : ∀ path bytes, OnFiles (writeAll path bytes) := by
    intro path bytes
    induction bytes with
    | nil => exact .pure ()
    | cons byte bytes ih => exact .bind (makes_ask rfl) fun _ => ih
  refine .bind (.bind (makes_ask rfl) fun _ => .lift _) fun _ => .bind (hwrite _ _) fun _ => ?_
  exact .bind (.lift _) fun _ => .pure _

/-! ## The journal -/

theorem readExact_run_ok : (readExact sequence digest).run host = (.ok entry, next) ↔
      checkRecord sequence digest (host.journal (sequence, digest)) = .ok entry ∧ next = host := by
  show (checkRecord sequence digest (host.journal (sequence, digest)), host) = _ ↔ _
  rw [Prod.mk.injEq, eq_comm (a := host)]

theorem checkRecord_eq_ok {file : Option JournalFile} :
    checkRecord sequence digest file = .ok entry ↔
      file = some (.entry entry) ∧ entry.sequence = sequence ∧ entry.digest = digest := by
  cases file with
  | none => exact iff_of_false nofun fun h => nomatch h.1
  | some file =>
    cases file with
    | torn => exact iff_of_false nofun fun h => nomatch h.1
    | entry other =>
      rw [checkRecord, unit_bind_eq_ok, refuse_eq_ok, not_or, not_not, not_not, pure_eq_ok]
      constructor
      · intro h
        obtain ⟨⟨hsequence, hdigest⟩, rfl⟩ := h
        exact ⟨rfl, hsequence, hdigest⟩
      · intro h
        obtain ⟨hentry, hsequence, hdigest⟩ := h
        obtain rfl := JournalFile.entry.inj (Option.some.inj hentry)
        exact ⟨⟨hsequence, hdigest⟩, rfl⟩

theorem journalAppend_makes (entry : SignedJournalEntry)
    (hcreate : Q (.createJournal entry.sequence entry.digest)) (hwrite : Q (.writeJournal entry))
    (hread : Q (.readJournal entry.sequence entry.digest)) : (journalAppend entry).Makes Q := by
  refine .bind (.lift _) fun _ => .bind (makes_ask hcreate) ?_
  intro created
  cases created with
  | true => exact .bind (makes_ask hwrite) fun _ => .pure _
  | false => exact .bind (makes_ask hread) fun _ => .lift _

/-- An append leaves the record, or finds it there. -/
theorem journalAppend_run_ok (h : (journalAppend entry).run host = (.ok (), next)) :
    next.journal (entry.sequence, entry.digest) = some (.entry entry) := by
  obtain ⟨_, verified, hverify, h⟩ := run_bind_ok.mp h
  obtain ⟨-, rfl⟩ := run_lift_ok.mp hverify
  rw [run_ask_bind] at h
  cases hfile : host.journal (entry.sequence, entry.digest) with
  | none =>
    simp only [exec, hfile, ↓reduceIte] at h
    rw [run_ask_bind] at h
    obtain ⟨-, rfl⟩ := run_pure_ok.mp h
    simp only [exec, update_self]
  | some file =>
    simp only [exec, hfile, Bool.false_eq_true, ↓reduceIte] at h
    rw [run_ask_bind] at h
    obtain ⟨hcheck, rfl⟩ := run_lift_ok.mp h
    obtain ⟨hsame, -⟩ := unit_bind_eq_ok.mp hcheck
    exact not_not.mp (refuse_eq_ok.mp hsame)

/-! ## Up to the journal entry -/

/-- If the frame is there, it is the object's. -/
def StagedVerified (object : ArchiveObjectDescriptor) (path : ArchivePath)
    (host : SupervisorHost) : Prop :=
  ∀ frame, host.files path = some frame → checkFrame (some frame) object = .ok ()

theorem StagedVerified.exec (h : StagedVerified object (.staging set id) host)
    (hcall : call.sparesStaging) : StagedVerified object (.staging set id) (exec call host).2 :=
  fun frame hframe => h frame (staging_exec hcall hframe)

theorem SparesStaging.run (hp : SparesStaging p)
    (h : StagedVerified object (.staging set id) host) :
    StagedVerified object (.staging set id) (p.run host).2 :=
  (hp.always (I := StagedVerified object (.staging set id)) (fun _ _ hcall h => h.exec hcall)
    h).run h

/-- What abandons the append on a failure has not failed when it succeeds. -/
theorem orAbandon_run_ok
    {staged : Option StagedArchiveObject} {p : HostProg ApplicationError α} {a : α} :
    (orAbandon reservation staged p).run host = (.ok a, next) ↔ p.run host = (.ok a, next) := by
  rw [orAbandon, run_bind, run_attempt]
  rcases hp : p.run host with ⟨e | b, after⟩
  · refine iff_of_false ?_ (by rintro ⟨⟩)
    intro h
    obtain ⟨_, _, -, h⟩ := run_bind_ok.mp h
    obtain ⟨_, -, h⟩ := run_lift_bind_ok.mp h
    cases staged with
    | none => cases (run_lift_ok.mp h).1
    | some staged =>
      obtain ⟨_, _, -, h⟩ := run_bind_ok.mp h
      cases (run_lift_ok.mp h).1
  · exact Iff.rfl

theorem journalCheckpoint_onFiles (entry : SignedJournalEntry)
    (reservation : ArchiveAppendReservation) (staged : StagedArchiveObject) :
    OnFiles (journalCheckpoint entry reservation staged) := by
  refine .bind (.lift _) fun _ => .bind (.bind (makes_ask rfl) fun _ => .lift _) fun _ => ?_
  refine .bind (makes_ask rfl) fun _ => .bind (.lift _) fun _ => .bind (.lift _) fun _ => ?_
  refine .bind (.lift _) fun _ => .bind (.lift _) fun _ => .bind (.mapError ?_) fun _ => .pure _
  exact journalAppend_makes entry rfl rfl rfl

theorem journalCheckpoint_run_ok {advance : WitnessAdvance} {head : WitnessHead}
    (h : (journalCheckpoint entry reservation staged).run host = (.ok (head, advance), next)) :
    host.head = .ok head ∧
      head.state.backupArchiveState.commitCheckpoint reservation (.fromReservation reservation) =
        .ok entry.state.backupArchiveState ∧
      head.acceptSigned entry = .ok advance ∧
      next.journal (entry.sequence, entry.digest) = some (.entry entry) ∧
      StagedVerified staged.descriptor staged.path next := by
  obtain ⟨_, -, h⟩ := run_lift_bind_ok.mp h
  obtain ⟨_, checked, hverify, h⟩ := run_bind_ok.mp h
  obtain ⟨hframe, hchecked⟩ := verifyFrame_run_ok.mp hverify
  rw [hchecked, run_ask_bind] at h
  obtain ⟨current, hcurrent, h⟩ := run_lift_bind_ok.mp h
  obtain ⟨expected, hexpected, h⟩ := run_lift_bind_ok.mp h
  obtain ⟨_, hstate, h⟩ := run_lift_bind_ok.mp h
  obtain ⟨accepted, haccept, h⟩ := run_lift_bind_ok.mp h
  obtain ⟨_, journalled, hjournal, h⟩ := run_bind_ok.mp h
  obtain ⟨hreturned, hnext⟩ := run_pure_ok.mp h
  obtain ⟨rfl, rfl⟩ := Prod.mk.inj hreturned
  have hstate : entry.state.backupArchiveState = expected := not_not.mp (refuse_eq_ok.mp hstate)
  have happend : (journalAppend entry).run host = (.ok (), next) := by
    rw [← hnext]
    exact run_mapError_ok.mp hjournal
  refine ⟨mapError_eq_ok.mp hcurrent, ?_, mapError_eq_ok.mp haccept, journalAppend_run_ok happend,
    ?_⟩
  · rw [hstate]
    exact mapError_eq_ok.mp hexpected
  · have hspares : SparesStaging (journalAppend entry) :=
      journalAppend_makes entry trivial trivial trivial
    have hstaged : StagedVerified staged.descriptor
        (.staging staged.descriptor.setId staged.stagingId) host := by
      intro frame hfile
      rw [← hfile]
      exact hframe
    have hkept := hspares.run hstaged
    rw [happend] at hkept
    exact hkept

/-! ## `reconcile` -/

theorem removeCancelled_makes (hremove : ∀ path, Q (.removeFile path))
    (intents : List PendingArchiveAppend) : (removeCancelled intents).Makes Q := by
  induction intents with
  | nil => exact .pure ()
  | cons intent intents ih => exact .bind (makes_ask (hremove _)) fun _ => ih

theorem predecessorState_run_ok {before : SignedJournalEntry} (hsequence : entry.sequence ≠ 0)
    (hread : host.journal (entry.sequence - 1, entry.previousDigest) = some (.entry before) ∧
      before.sequence = entry.sequence - 1 ∧ before.digest = entry.previousDigest) :
    (predecessorState entry).run host = (.ok before.state, host) := by
  simp only [predecessorState, run_bind_ok, run_mapError_ok, readPredecessor,
    run_lift_ok, refuse_eq_ok, readExact_run_ok, checkRecord_eq_ok, run_pure_ok]
  exact ⟨before, host, ⟨(), host, ⟨hsequence, rfl⟩, hread, rfl⟩, rfl, rfl⟩

theorem planReplay_makes (hfile : ∀ path, Q (.read path))
    (hjournal : ∀ sequence digest, Q (.readJournal sequence digest))
    (hkey : ∀ set, Q (.openEnvelope set)) (binding : SafetyBootstrapBinding)
    (entry : SignedJournalEntry) : (planReplay binding entry).Makes Q := by
  have hbefore : (predecessorState entry).Makes Q := by
    refine .bind (.mapError (.bind (.lift _) fun _ => .bind (makes_ask (hjournal _ _)) ?_))
      fun _ => .pure _
    exact fun _ => .lift _
  unfold planReplay
  cases entry.eventKind with
  | installationInitialized | generationRegistered | targetActivationPlanned | targetActivating =>
    exact .pure _
  | backupSetStarted =>
    refine .bind hbefore fun _ => .bind (.lift _) fun _ => .bind (makes_ask (hkey _)) fun _ => ?_
    exact .bind (.lift _) fun _ => .pure _
  | archiveCheckpointCommitted =>
    refine .bind hbefore fun _ => .bind (.lift _) fun _ => .bind (.mapError ?_) fun _ => ?_
    · exact .bind (makes_ask (hfile _)) fun _ => .lift _
    · exact .bind (.lift _) fun _ => .pure _
  | archiveRestoreHoldAcquired | archiveSealingStarted | archiveSealed
  | managedBackupDeletionPrepared | preparedArchiveKeyErasure | archiveKeyErased
  | managedBackupDeleted | restoreAttemptPrepared | sourceFreezeRecorded
  | restoreTerminalRecorded =>
    exact .bind hbefore fun _ => .bind (.lift _) fun _ => .pure _

end

end

end Vestrace.Installation
