import Vestrace.Installation.AppendStages
import Vestrace.Installation.RestoreHolds

/-!
# Recovery of an interrupted append

From which states a reconciliation that is left alone returns and leaves an interrupted append
either undone or done (`recovery_completes`). Not from all:

- a reconciliation that finds the object's file cannot create it again, and one that finds the
  staging frame gone has nothing to verify (`reconcile_advanced_run_ok`);
- of a witness that was not advanced the entry before the append is replayed, although it was
  recorded long ago. Few events can be (`Replayable`);
- an intent that was cancelled is not listed again, so its staging frame stays;
- the tables may have no room for a checkpoint that is witnessed already (`CheckpointFits`).
-/

namespace Vestrace.Installation

open Lib Prog SafetyTables Except SupervisorHost WitnessHead Prod Option

variable {promotion : Option StagedArchiveObject} {binding : SafetyBootstrapBinding}

variable {transaction : SafetyTransaction} {tables : SafetyTables} {entry : SignedJournalEntry}

section

variable [Crypto] {start host next : SupervisorHost} {head : WitnessHead}
  {receipt made : WitnessReceipt} {last : SignedJournalEntry} {command : AppendWal}
  {reservation : ArchiveAppendReservation}

/-! ## After the witness was advanced -/

section

variable (hrest : AtRest start head receipt last)
  (h : Advanced start head command reservation made host)

include hrest h in
theorem Advanced.opens : host.head = .ok (head.opened command.signedEntry) := by
  obtain ⟨hkey, -, -, -⟩ := hrest.opened
  obtain ⟨hinstallation, hfingerprint, hcontinuity, hsequence, hdigest, hgeneration, hepoch,
    hstate⟩ := h.witnessed.binds
  refine (head_eq_ok_iff h.witness).mpr ⟨?_, fromDurableReceipt_iff.mpr ⟨?_, ?_, ?_, ?_⟩⟩
  · rw [h.key]
    exact hkey
  · exact h.witnessed.receipted
  · intro hzero
    have hnext := h.witnessed.sequence
    rw [← hsequence, hzero] at hnext
    cases hnext
  · refine ⟨?_, ?_, ?_, rfl⟩
    · exact hinstallation.trans (h.witnessed.installation.trans h.witnessed.bound.installation)
    · exact hfingerprint.trans (h.witnessed.fingerprint.trans h.witnessed.bound.fingerprint)
    · exact hcontinuity.trans (h.witnessed.continuity.trans h.witnessed.bound.continuity)
  · simp only [opened, ofReceipt, hinstallation, hfingerprint, hcontinuity,
      hsequence, hdigest, hgeneration, hepoch, hstate, h.witnessed.installation,
      h.witnessed.fingerprint, h.witnessed.continuity, ← h.witnessed.bound.journal]

include h in
theorem Advanced.cancelPending :
    host.tables.cancelPending command.signedEntry.state.backupArchiveState =
      .ok ([], host.tables) := by
  rcases h.tables with hpending | hrecorded
  · rw [cancelPending_singleton hpending.intents hpending.live, if_neg]
    obtain ⟨current, -, -, -, -, -, hafter⟩ :=
      BackupArchiveStateV1.commitCheckpoint_eq_ok.mp h.witnessed.archive
    rw [hafter, archiveHead_eq (get_put_self _ _ _)]
    intro heq
    exact ordinal_ne_of_continues (congrArg ArchiveHead.checkpointOrdinal (ok.inj heq))
  · exact cancelPending_nil hrecorded.intents _

include h in
theorem Advanced.exec_cancelPending :
    SupervisorHost.exec (.cancelPending
      (head.opened command.signedEntry).state.backupArchiveState) host = (.ok [], host) :=
  onTables_of_ok (t := fun t => t.cancelPending _) h.cancelPending

theorem reconcileUnjournalled_run {intents : List PendingArchiveAppend}
    (hopens : host.head = .ok head)
    (hcancel : exec (.cancelPending head.state.backupArchiveState) host =
      (.ok intents, next)) :
    reconcileUnjournalledPendingAppends.run host = (removeCancelled intents).run next := by
  rw [reconcileUnjournalledPendingAppends, run_ask_bind]
  show ((liftM (orSay WitnessError.display "witness is unavailable" host.head) :
    HostProg String _) >>= _).run host = _
  rw [hopens]
  show ((liftM (exec (.cancelPending _) host).1 : HostProg String _) >>= _).run
    (exec (.cancelPending _) host).2 = _
  rw [hcancel]
  rfl

include hrest h in
theorem reconcileUnjournalled_advanced :
    reconcileUnjournalledPendingAppends.Always (Stage start head command) host ∧
      reconcileUnjournalledPendingAppends.run host = (.ok (), host) := by
  have hstage : Stage start head command host := .inr ⟨_, _, h⟩
  have hcancel := h.exec_cancelPending
  constructor
  · refine always_ask_bind hstage (.lift_bind fun current hcurrent => ?_)
    obtain rfl := ok.inj ((h.opens hrest).symm.trans (mapError_eq_ok.mp hcurrent))
    refine always_ask_bind ?_ (.lift_bind fun intents hintents => ?_)
    · show Stage _ _ _ (exec (.cancelPending _) host).2
      rw [hcancel]
      exact hstage
    · have hintents : (exec (.cancelPending
          (head.opened command.signedEntry).state.backupArchiveState) host).1 = .ok intents :=
        hintents
      rw [hcancel] at hintents
      obtain rfl := ok.inj hintents
      trivial
  · exact reconcileUnjournalled_run (h.opens hrest) hcancel

theorem replayedCheckpoint_run_ok {before after : BackupArchiveStateV1}
    (hreservation : after.checkpointReservation before = .ok reservation) :
    (replayedCheckpoint before after).run host = (.ok (transaction, promotion), next) ↔
      checkFrame (host.files reservation.staged.path) reservation.object = .ok () ∧
        transaction = .commitCheckpoint ⟨reservation, reservation.staged, rfl⟩ ∧
        promotion = some reservation.staged ∧ next = host := by
  have hcommand : CommitArchiveCheckpoint.new reservation reservation.staged =
      .ok ⟨reservation, reservation.staged, rfl⟩ := dif_pos rfl
  rw [replayedCheckpoint, hreservation, run_lift_bind_ok]
  constructor
  · intro h
    obtain ⟨found, hfound, h⟩ := h
    obtain rfl := ok.inj hfound
    obtain ⟨_, checked, hverify, h⟩ := run_bind_ok.mp h
    obtain ⟨hframe, hchecked⟩ := verifyFrame_run_ok.mp (run_mapError_ok.mp hverify)
    obtain ⟨made, hmade, h⟩ := run_lift_bind_ok.mp h
    obtain rfl := ok.inj (hcommand.symm.trans (mapError_eq_ok.mp hmade))
    obtain ⟨hreturned, hnext⟩ := run_pure_ok.mp h
    obtain ⟨htransaction, hpromotion⟩ := mk.inj hreturned
    exact ⟨hframe, htransaction.symm, hpromotion.symm, hnext.symm.trans hchecked⟩
  · intro h
    obtain ⟨hframe, rfl, rfl, rfl⟩ := h
    refine ⟨reservation, rfl, run_bind_ok.mpr ⟨(), next, ?_, ?_⟩⟩
    · exact run_mapError_ok.mpr (verifyFrame_run_ok.mpr ⟨hframe, rfl⟩)
    · exact run_lift_bind_ok.mpr ⟨_, mapError_eq_ok.mpr hcommand, rfl⟩

include hrest h in
theorem Advanced.predecessor :
    (predecessorState command.signedEntry).run host = (.ok head.state, host) := by
  obtain ⟨-, -, -, hhead⟩ := hrest.opened
  obtain ⟨-, -, -, hsequence, hdigest, -, -, hstate⟩ := hrest.binds
  have hnext := h.witnessed.sequence
  have hlast : head.sequence = receipt.sequence := by
    rw [hhead]
    rfl
  have hplace : command.signedEntry.sequence - 1 = receipt.sequence := by
    have hone : (1 : UInt64).toNat = 1 := rfl
    have hle : (1 : UInt64) ≤ command.signedEntry.sequence := by
      rw [UInt64.le_iff_toNat_le]
      omega
    apply UInt64.toNat_inj.mp
    rw [UInt64.toNat_sub_of_le _ _ hle, ← hlast]
    omega
  have hprevious : command.signedEntry.previousDigest = receipt.journalDigest := by
    rw [h.witnessed.previous, hhead]
    rfl
  have hlastState : last.state = head.state := by
    rw [← hstate, hhead]
    rfl
  rw [← hlastState]
  refine predecessorState_run_ok ?_ ⟨?_, ?_, ?_⟩
  · intro hzero
    rw [hzero] at hnext
    cases hnext
  · rw [hplace, hprevious]
    exact h.journal _ _ hrest.journalled
  · rw [hplace, hsequence]
  · rw [hprevious, hdigest]

include hrest h in
theorem planReplay_advanced (binding : SafetyBootstrapBinding) :
    (planReplay binding command.signedEntry).run host = (.ok (transaction, promotion), next) ↔
      checkFrame (host.files reservation.staged.path) reservation.object = .ok () ∧
        transaction = .commitCheckpoint ⟨reservation, reservation.staged, rfl⟩ ∧
        promotion = some reservation.staged ∧ next = host := by
  rw [← replayedCheckpoint_run_ok (checkpointReservation_of_commit h.witnessed.archive)]
  simp only [planReplay, h.witnessed.kind, run_bind, h.predecessor hrest]

include h in
theorem Advanced.replay {commit : CommitArchiveCheckpoint} :
    host.tables.replay (.commitCheckpoint commit) command.signedEntry made = .ok tables ↔
      host.tables.commitCheckpointIn commit command.signedEntry made = .ok tables := by
  have hplain : isRestoreEvent command.signedEntry.eventKind = false := by
    rw [h.witnessed.kind]
    rfl
  rw [SafetyTables.replay, bind_eq_ok]
  simp only [hplain, Bool.false_eq_true, if_false, pure_eq_ok]
  constructor
  · intro hok
    obtain ⟨_, happlied, rfl⟩ := hok
    exact mapError_eq_ok.mp happlied
  · intro hok
    exact ⟨tables, mapError_eq_ok.mpr hok, rfl⟩

theorem reconcileWitnessed_run_ok
    (hdurable : exec .durableReceipt host = (.ok receipt, host))
    (hread : (readExact receipt.sequence receipt.journalDigest).run host = (.ok entry, host)) :
    (reconcileWitnessed binding).run host = (.ok (), next) ↔
      ∃ transaction promotion planned tables,
        (planReplay binding entry).run host = (.ok (transaction, promotion), planned) ∧
        planned.tables.replay transaction entry receipt = .ok tables ∧
        (promoteReplayed promotion).run { planned with tables } = (.ok (), next) := by
  rw [reconcileWitnessed, run_ask_bind, hdurable]
  show run (liftM (orSay WitnessError.display "witness is unavailable" (.ok receipt)) >>= _)
    host = _ ↔ _
  rw [run_lift_bind_ok]
  constructor
  · intro h
    obtain ⟨found, hfound, h⟩ := h
    obtain rfl := ok.inj (mapError_eq_ok.mp hfound)
    obtain ⟨_, after, hrecord, h⟩ := run_bind_ok.mp h
    rw [run_mapError_ok, hread] at hrecord
    obtain ⟨hentry, hafter⟩ := mk.inj hrecord
    obtain rfl := ok.inj hentry
    obtain ⟨⟨transaction, promotion⟩, planned, hplan, h⟩ := run_bind_ok.mp h
    rw [← hafter] at hplan
    rw [run_ask_bind] at h
    obtain ⟨_, hreplayed, h⟩ := run_lift_bind_ok.mp h
    obtain ⟨tables, hreplay, hnext⟩ := exec_replay_ok.mp (Prod.ext hreplayed rfl)
    refine ⟨transaction, promotion, planned, tables, hplan, hreplay, ?_⟩
    rw [← hnext]
    exact h
  · intro h
    obtain ⟨transaction, promotion, planned, tables, hplan, hreplay, h⟩ := h
    refine ⟨receipt, rfl, run_bind_ok.mpr ⟨entry, host, run_mapError_ok.mpr hread, ?_⟩⟩
    refine run_bind_ok.mpr ⟨(transaction, promotion), planned, hplan, ?_⟩
    have hexec : exec (.replay transaction entry receipt) planned =
        (.ok (), { planned with tables }) := exec_replay_ok.mpr ⟨tables, hreplay, rfl⟩
    rw [run_ask_bind, hexec]
    exact h

def SupervisorHost.promoted (host : SupervisorHost) (staged : StagedArchiveObject) :
    SupervisorHost :=
  (host.setFile staged.descriptor.finalPath (host.files staged.path)).setFile staged.path none

include h in
theorem Advanced.durableReceipt : SupervisorHost.exec .durableReceipt host = (.ok made, host) := by
  show ((match host.witness.state with | _ => _), host) = _
  rw [h.witness]

include h in
theorem Advanced.readExact :
    (readExact made.sequence made.journalDigest).run host = (.ok command.signedEntry, host) := by
  obtain ⟨-, -, -, hsequence, hdigest, -, -, -⟩ := h.witnessed.binds
  refine readExact_run_ok.mpr ⟨checkRecord_eq_ok.mpr ⟨?_, hsequence.symm, hdigest.symm⟩, rfl⟩
  rw [hsequence, hdigest]
  exact h.journalled

include hrest h in
theorem reconcile_advanced_run_ok (binding : SafetyBootstrapBinding) :
    (reconcile binding).run host = (.ok (), next) ↔
      checkFrame (host.files reservation.staged.path) reservation.object = .ok () ∧
        host.files reservation.object.finalPath = none ∧
        ∃ tables, host.tables.commitCheckpointIn ⟨reservation, reservation.staged, rfl⟩
            command.signedEntry made = .ok tables ∧
          next = SupervisorHost.promoted { host with tables } reservation.staged := by
  have hpromote : ∀ tables, (promoteReplayed (some reservation.staged)).run { host with tables } =
      (.ok (), next) ↔ checkFrame (host.files reservation.staged.path) reservation.object = .ok () ∧
        host.files reservation.object.finalPath = none ∧
        next = promoted { host with tables } reservation.staged := by
    intro tables
    exact run_mapError_ok.trans promoteAfterCheckpoint_run_ok
  rw [reconcile, run_bind, (reconcileUnjournalled_advanced hrest h).2]
  show (reconcileWitnessed binding).run host = _ ↔ _
  rw [reconcileWitnessed_run_ok h.durableReceipt h.readExact]
  simp only [planReplay_advanced hrest h]
  constructor
  · intro hrun
    obtain ⟨_, _, _, tables, ⟨-, rfl, rfl, rfl⟩, hreplay, hrun⟩ := hrun
    obtain ⟨hframe, hfree, hnext⟩ := (hpromote tables).mp hrun
    exact ⟨hframe, hfree, tables, h.replay.mp hreplay, hnext⟩
  · intro hrun
    obtain ⟨hframe, hfree, tables, hcommit, hnext⟩ := hrun
    exact ⟨_, _, host, tables, ⟨hframe, rfl, rfl, rfl⟩, h.replay.mpr hcommit,
      (hpromote tables).mpr ⟨hframe, hfree, hnext⟩⟩

/-! ## Every stop is at a stage -/

theorem reconcileWitnessed_always {J : SupervisorHost → Prop}
    (hfiles : ∀ call host, call.onFiles = true → call.sparesStaging → J host →
      J (exec call host).2)
    (hreplay : ∀ {receipt entry transaction promotion planned tables},
      exec .durableReceipt host = (.ok receipt, host) →
      (readExact receipt.sequence receipt.journalDigest).run host = (.ok entry, host) →
      (planReplay binding entry).run host = (.ok (transaction, promotion), planned) →
      J planned → planned.tables.replay transaction entry receipt = .ok tables →
      J { planned with tables })
    (h : J host) : (reconcileWitnessed binding).Always J host := by
  have hkeep : ∀ {ε α : Type} {p : HostProg ε α} {host}, OnFiles p → SparesStaging p → J host →
      p.Always J host := fun hp hp' hJ => (hp.and hp').always
    (fun call host hcall hJ => hfiles call host hcall.1 hcall.2 hJ) hJ
  refine always_ask_bind h (.lift_bind fun receipt hreceipt => ?_)
  have hdurable : exec .durableReceipt host = (.ok receipt, host) :=
    Prod.ext (mapError_eq_ok.mp hreceipt) rfl
  have hreads : ∀ {Q : HostCall → Prop}, (∀ sequence digest, Q (.readJournal sequence digest)) →
      (readExact receipt.sequence receipt.journalDigest).Makes Q :=
    fun hQ => .bind (makes_ask (hQ _ _)) fun _ => .lift _
  refine .bind (hkeep (.mapError (hreads fun _ _ => rfl)) (.mapError (hreads fun _ _ => trivial)) h)
    fun entry read hread => ?_
  have hread := run_mapError_ok.mp hread
  obtain ⟨-, rfl⟩ := readExact_run_ok.mp hread
  have hplans : ∀ {Q : HostCall → Prop}, (∀ path, Q (.read path)) →
      (∀ sequence digest, Q (.readJournal sequence digest)) → (∀ set, Q (.openEnvelope set)) →
      (planReplay binding entry).Makes Q := fun h h' h'' => planReplay_makes h h' h'' binding entry
  have hplan := hkeep (hplans (fun _ => rfl) (fun _ _ => rfl) fun _ => rfl)
    (hplans (fun _ => trivial) (fun _ _ => trivial) fun _ => trivial) h
  refine .bind hplan fun planned after hrun => ?_
  obtain ⟨transaction, promotion⟩ := planned
  have hplanned : J after := by
    have hafter := hplan.run h
    rwa [hrun] at hafter
  have hreplayed : ∀ {tables}, after.tables.replay transaction entry receipt = .ok tables →
      J { after with tables } := fun hok => hreplay hdurable hread hrun hplanned hok
  refine always_ask_bind ?_ (.lift_bind fun _ hok => ?_)
  · refine onTables_state hplanned fun _ tables hok => ?_
    obtain ⟨changed, hchanged, hok⟩ := bind_eq_ok.mp hok
    obtain ⟨-, rfl⟩ := mk.inj (pure_eq_ok.mp hok)
    exact hreplayed hchanged
  · obtain ⟨tables, hok, hnext⟩ := exec_replay_ok.mp (Prod.ext hok rfl)
    refine Eq.mpr (congrArg (Always J (promoteReplayed promotion)) hnext) ?_
    cases promotion with
    | none => trivial
    | some staged =>
      exact (hkeep (promoteAfterCheckpoint_onFiles staged)
        (promoteAfterCheckpoint_sparesStaging staged) (hreplayed hok)).mapError

include hrest h in
theorem reconcile_always_advanced (binding : SafetyBootstrapBinding) :
    (reconcile binding).Always (Stage start head command) host := by
  obtain ⟨hpending, hrun⟩ := reconcileUnjournalled_advanced hrest h
  refine .bind hpending fun _ after hafter => ?_
  rw [hrun] at hafter
  obtain ⟨-, rfl⟩ := mk.inj hafter
  refine (reconcileWitnessed_always (J := Advanced start head command reservation made)
    (fun _ _ hcall hspares hadvanced => hadvanced.exec hcall hspares) ?_ h).mono
    fun _ hadvanced => .inr ⟨reservation, made, hadvanced⟩
  intro found entry transaction promotion planned tables hdurable hread hplan hadvanced hreplay
  -- the last entry is the append's, and what is replayed is its checkpoint
  obtain rfl := ok.inj (congrArg fst (h.durableReceipt.symm.trans hdurable))
  obtain rfl := ok.inj (congrArg fst (h.readExact.symm.trans hread))
  obtain ⟨-, rfl, -, rfl⟩ := (planReplay_advanced hrest h binding).mp hplan
  exact h.commit rfl (h.replay.mp hreplay)

end

section

variable (hrest : AtRest start head receipt last) (h : Unadvanced start command host)

include hrest h in
theorem Unadvanced.durableReceipt :
    exec .durableReceipt host = (.ok receipt, host) := by
  show ((match host.witness.state with | _ => _), host) = _
  rw [h.witness, hrest.witness]

include hrest h in
theorem Unadvanced.settled (hsequence : entry.sequence = receipt.sequence) :
    host.tables.Settled entry receipt := by
  obtain ⟨-, -, -, hhead⟩ := hrest.opened
  have hlast : head.sequence = receipt.sequence := by
    rw [hhead]
    rfl
  have hsafety : host.tables.safety = start.tables.safety := by
    rw [h.tables]
  refine ⟨⟨_, hsafety.trans hrest.safety, ?_⟩, hsequence, hlast ▸ hrest.sequence⟩
  show (head.sequence.toNat : ℤ) = _
  rw [hlast]

include h in
theorem Unadvanced.replayed (hsettled : host.tables.Settled entry receipt)
    (hreplay : host.tables.replay transaction entry receipt = .ok tables) :
    Unadvanced start command { host with tables } := by
  have hsame : tables = { host.tables with attempts := tables.attempts } :=
    replay_settled hsettled hreplay
  have hintents : tables.intents = host.tables.intents := by rw [hsame]
  refine ⟨h.witness, h.key, h.journal, ?_, ?_⟩
  · show tables = { start.tables with attempts := tables.attempts, intents := tables.intents }
    rw [hintents]
    refine hsame.trans ?_
    rw [h.tables]
  · show tables.intents = [] ∨ _
    rw [hintents]
    exact h.intents

include hrest h in
theorem reconcile_always_unadvanced (binding : SafetyBootstrapBinding) :
    (reconcile binding).Always (Unadvanced start command) host := by
  have hpending : reconcileUnjournalledPendingAppends.Makes HostCall.gentle := by
    refine .bind (makes_ask trivial) fun _ => .bind (.lift _) fun _ => ?_
    refine .bind (makes_ask trivial) fun _ => .bind (.lift _) fun intents => ?_
    exact removeCancelled_makes (fun _ => trivial) intents
  refine .bind (h.always hpending) fun _ after hafter => ?_
  have hunadvanced : Unadvanced start command after := by
    have hkept := (h.always hpending).run h
    rwa [hafter] at hkept
  refine reconcileWitnessed_always ?_ ?_ hunadvanced
  · intro call host hcall _ hunadvanced
    exact hunadvanced.sameRecords (sameRecords_exec hcall host)
  · intro found entry transaction promotion planned tables hdurable hread _ hplanned hreplay
    obtain rfl := ok.inj
      (congrArg fst ((hunadvanced.durableReceipt hrest).symm.trans hdurable))
    obtain ⟨hrecord, -⟩ := readExact_run_ok.mp hread
    obtain ⟨-, hsequence, -⟩ := checkRecord_eq_ok.mp hrecord
    exact hplanned.replayed (hplanned.settled hrest hsequence) hreplay

/-- A crash of the append, and any number of reconciliations that crashed themselves. -/
inductive Reached (start : SupervisorHost) (command : AppendWal) : SupervisorHost → Prop where
  | append (calls : ℕ) : Reached start command ((appendWal command).stoppedAfter calls start)
  | reconcile {host : SupervisorHost} (h : Reached start command host) (calls : ℕ) :
      Reached start command ((reconcile host.witness.binding).stoppedAfter calls host)

include hrest in
theorem Reached.stage (h : Reached start command host) : Stage start head command host := by
  induction h with
  | append calls =>
    exact (appendWal_always hrest).stoppedAfter
      (.inl ⟨rfl, rfl, fun _ _ h => h, rfl, .inl hrest.idle⟩) calls
  | reconcile _ calls ih =>
    refine Always.stoppedAfter ?_ ih calls
    rcases ih with hunadvanced | ⟨reservation, made, hadvanced⟩
    · exact (reconcile_always_unadvanced hrest hunadvanced _).mono fun _ h => .inl h
    · exact reconcile_always_advanced hrest hadvanced _

/-! ## Before the witness was advanced -/

def AppendWal.staged (command : AppendWal) : StagedArchiveObject :=
  ⟨command.write.descriptor.objectId.asUuid, command.write.descriptor⟩

theorem ReserveArchiveAppend.Makes.staged (h : command.reservation.Makes reservation) :
    reservation.staged = command.staged := by
  rw [ArchiveAppendReservation.staged, h.object, command.object_eq]
  rfl

omit [Crypto] in
theorem ReserveArchiveAppend.Makes.unique {command : ReserveArchiveAppend}
    {other : ArchiveAppendReservation} (h : command.Makes reservation) (h' : command.Makes other) :
    reservation = other := by
  cases reservation
  cases other
  obtain ⟨rfl, rfl, rfl⟩ := h
  obtain ⟨rfl, rfl, rfl⟩ := h'
  rfl

include hrest in
theorem AtRest.archiveHead (hlive : start.tables.Live reservation) :
    head.state.backupArchiveState.archiveHead reservation.setId = .ok reservation.expected := by
  obtain ⟨hfound, -⟩ := Bool.and_eq_true_iff.mp hlive.head
  obtain ⟨row, hrow, hexpected⟩ := (any_eq_true _ _).mp hfound
  obtain ⟨hordinal, hdigest⟩ := of_decide_eq_true hexpected
  have hset : row.backupSetId = reservation.setId := by simpa using List.find?_some hrow
  obtain ⟨state, hget, hmirrored, hsame⟩ := hrest.heads row (List.mem_of_find?_eq_some hrow)
  rw [archiveHead_eq (hset ▸ hget)]
  have hordinals : state.head.checkpointOrdinal = reservation.expected.checkpointOrdinal := by
    apply UInt64.toNat_inj.mp
    omega
  have hdigests : state.head.digest = reservation.expected.digest := hsame.symm.trans hdigest
  cases hhead : state.head
  cases hother : reservation.expected
  simp_all

def SupervisorHost.cancelled (host : SupervisorHost) (path : ArchivePath) : SupervisorHost :=
  { host with tables := { host.tables with intents := [] } }.setFile path none

include hrest h in
theorem reconcileUnjournalled_unadvanced
    (hlisted : host.tables.intents ≠ [] ∨ host.files command.staged.path = none) :
    reconcileUnjournalledPendingAppends.run host =
      (.ok (), host.cancelled command.staged.path) := by
  have hopens : host.head = .ok head := by
    rw [SupervisorHost.head, h.witness, h.key]
    exact hrest.opens
  rcases h.intents with hnone | ⟨reservation, hmakes, hlive, hone⟩
  · -- nothing is listed, so nothing may be in staging
    have hfree : host.files command.staged.path = none := hlisted.resolve_left (not_not.mpr hnone)
    have hsame : host.cancelled command.staged.path = host := by
      rw [cancelled, ← hnone, setFile, ← hfree]
      exact congrArg (fun files => { host with files }) (Function.update_eq_self _ _)
    have hcancel : exec (.cancelPending head.state.backupArchiveState) host =
        (.ok [], host) :=
      onTables_of_ok (t := fun t => t.cancelPending _) (cancelPending_nil hnone _)
    rw [reconcileUnjournalled_run hopens hcancel, hsame]
    rfl
  · have htables : host.tables.cancelPending head.state.backupArchiveState =
        .ok ([reservation.pending], { host.tables with intents := [] }) := by
      rw [cancelPending_singleton hone (h.live hlive), if_pos (hrest.archiveHead hlive)]
    have hcancel : exec (.cancelPending head.state.backupArchiveState) host =
        (.ok [reservation.pending], { host with tables := { host.tables with intents := [] } }) :=
      onTables_of_ok (t := fun t => t.cancelPending _) htables
    have hpath : ArchivePath.staging reservation.setId reservation.object.objectId.asUuid =
        command.staged.path := by
      rw [← hmakes.staged, ← reservation.continues.1]
      rfl
    rw [reconcileUnjournalled_run hopens hcancel, ← hpath]
    rfl

omit [Crypto] in
def RestoreHoldReleaseReason.endState : RestoreHoldReleaseReason → Option RestoreAttemptState
  | .targetInitializationComplete _ => some .targetInitialized
  | .sourceResumePrepared _ => some .sourceResumePrepared
  | .refusedTargetDestroyed _ | .salvageInstallationCompleted _ => none

def TerminalRecorded (host : SupervisorHost) (last : SignedJournalEntry) : Prop :=
  ∃ before attempt ended terminal endState row,
    last.sequence ≠ 0 ∧
    host.journal (last.sequence - 1, last.previousDigest) = some (.entry before) ∧
    before.sequence = last.sequence - 1 ∧ before.digest = last.previousDigest ∧
    before.state.restoreAttemptProgress = some attempt ∧
    last.state.restoreAttemptProgress = some ended ∧
    ended.terminalReceipt = some terminal ∧ attempt.recordTerminalReceipt terminal = .ok ended ∧
    terminal.releaseReason.endState = some endState ∧
    row ∈ host.tables.attempts ∧ row.attemptId = attempt.attemptId ∧
    (row.state = endState ∨ row.state = .released) ∧
    row.terminalReceipt = some terminal.releaseReason.receipt

def Replayable (host : SupervisorHost) (last : SignedJournalEntry) : Prop :=
  match last.eventKind with
  | .targetActivationPlanned | .targetActivating => True
  | .restoreTerminalRecorded => TerminalRecorded host last
  | _ => False

theorem TerminalRecorded.plan (h : TerminalRecorded host last)
    (hkind : last.eventKind = .restoreTerminalRecorded) (binding : SafetyBootstrapBinding)
    (receipt : WitnessReceipt) :
    ∃ transaction, (planReplay binding last).run host = (.ok (transaction, none), host) ∧
      host.tables.applyTransaction transaction last receipt = .ok host.tables := by
  obtain ⟨before, attempt, ended, terminal, endState, row, hfollows, hjournal, hsequence, hdigest,
    hattempt, hended, hterminal, hrecord, hreason, hrow, hid, hstate, hreceipt⟩ := h
  obtain ⟨hopen, -, hfreeze, -⟩ := RestoreAttemptProgress.recordTerminalReceipt_eq_ok hrecord
  have hfrozen : ¬ attempt.sourceFreeze.isNone = true := by
    rw [← hfreeze, isNone_iff_eq_none]
    exact (ended.terminal_frozen terminal hterminal).1
  have hplan : ∀ {transaction}, terminalTransaction before.state last.state = .ok transaction →
      (planReplay binding last).run host = (.ok (transaction, none), host) := by
    intro transaction htransaction
    simp only [planReplay, hkind]
    refine run_bind_ok.mpr ⟨before.state, host, predecessorState_run_ok hfollows
      ⟨hjournal, hsequence, hdigest⟩, ?_⟩
    exact run_lift_bind_ok.mpr ⟨transaction, htransaction, rfl⟩
  -- the attempt has ended this way, so it is left as it is
  have hended' : ∀ {refusal}, host.tables.recordTerminal attempt.attemptId
      terminal.releaseReason.receipt endState refusal = .ok host.tables := by
    intro refusal
    rw [recordTerminal, if_pos]
    · rfl
    · exact List.any_eq_true.mpr ⟨row, hrow, decide_eq_true ⟨hid, hstate, hreceipt⟩⟩
  cases hreleased : terminal.releaseReason with
  | targetInitializationComplete digest =>
    rw [hreleased] at hended' hreason
    obtain rfl := some.inj hreason
    have htransaction : terminalTransaction before.state last.state =
        .ok (.targetInitialized attempt digest) := by
      rw [terminalTransaction, hattempt, hended]
      simp only [okOr, ok_bind, hterminal, refuse_bind_neg (not_not.mpr hrecord), hreleased]
      rfl
    exact ⟨_, hplan htransaction, unit_bind_eq_ok.mpr ⟨refuse_neg hfrozen, hended'⟩⟩
  | sourceResumePrepared digest =>
    rw [hreleased] at hended' hreason
    obtain rfl := some.inj hreason
    have htransaction : terminalTransaction before.state last.state =
        .ok (.sourceResumePrepared attempt digest) := by
      rw [terminalTransaction, hattempt, hended]
      simp only [okOr, ok_bind, hterminal, refuse_bind_neg (not_not.mpr hrecord), hreleased]
      rfl
    refine ⟨_, hplan htransaction, unit_bind_eq_ok.mpr ⟨refuse_neg ?_, hended'⟩⟩
    rw [hopen, not_or]
    refine ⟨hfrozen, fun h => ?_⟩
    cases h
  | refusedTargetDestroyed | salvageInstallationCompleted =>
    rw [hreleased] at hreason
    cases hreason

theorem Replayable.plan (h : Replayable host last) (binding : SafetyBootstrapBinding)
    (receipt : WitnessReceipt) :
    isRestoreEvent last.eventKind = true ∧
      ∃ transaction, (planReplay binding last).run host = (.ok (transaction, none), host) ∧
        host.tables.applyTransaction transaction last receipt = .ok host.tables := by
  unfold Replayable at h
  cases hkind : last.eventKind with
  | targetActivationPlanned | targetActivating =>
    refine ⟨rfl, .nothing, ?_, rfl⟩
    simp only [planReplay, hkind]
    rfl
  | restoreTerminalRecorded =>
    rw [hkind] at h
    exact ⟨rfl, h.plan hkind binding receipt⟩
  | _ =>
    rw [hkind] at h
    exact h.elim

include hrest in
theorem AtRest.recordRestoreSafetyEventIn (hsafety : tables.safety = start.tables.safety)
    (hkind : isRestoreEvent last.eventKind = true) :
    tables.recordRestoreSafetyEventIn last receipt = .ok tables := by
  obtain ⟨-, -, -, hhead⟩ := hrest.opened
  obtain ⟨hinstallation, hfingerprint, hcontinuity, -, -, -, -, -⟩ := hrest.binds
  have hsequence : receipt.sequence.toNat < 2 ^ 63 := by
    have hfits := hrest.sequence
    rwa [hhead] at hfits
  have hepoch : receipt.activationEpoch.toNat < 2 ^ 63 := by
    have hfits := hrest.epoch
    rwa [hhead] at hfits
  have hfound := hsafety.trans hrest.safety
  rw [hhead] at hfound
  refine unit_bind_eq_ok.mpr ⟨refuse_neg (by rw [hkind]; decide), ?_⟩
  refine bind_eq_ok.mpr ⟨_, okOr_eq_ok.mpr hfound, unit_bind_eq_ok.mpr ⟨refuse_neg ?_, ?_⟩⟩
  · exact not_not.mpr ⟨hinstallation, hfingerprint, hcontinuity⟩
  · have hrecorded : isRestoreEventRecorded (bindSafetyAuthority last receipt)
        ((ofReceipt start.witness.binding receipt).safetyState
          start.witness.binding) := by
      simp only [isRestoreEventRecorded, safetyState,
        ofReceipt, bindSafetyAuthority, wrapI64_of_lt hsequence,
        wrapI64_of_lt hepoch, and_self]
    rw [if_pos hrecorded]
    rfl

include hrest h in
theorem reconcileWitnessed_unadvanced (hreplayable : Replayable host last)
    (binding : SafetyBootstrapBinding) :
    (reconcileWitnessed binding).run host = (.ok (), host) := by
  obtain ⟨hkind, transaction, hplan, happly⟩ := hreplayable.plan binding receipt
  obtain ⟨-, -, -, hsequence, hdigest, -, -, -⟩ := hrest.binds
  have hread : (readExact receipt.sequence receipt.journalDigest).run host = (.ok last, host) :=
    readExact_run_ok.mpr ⟨checkRecord_eq_ok.mpr
      ⟨h.journal _ _ hrest.journalled, hsequence.symm, hdigest.symm⟩, rfl⟩
  have hsafety : host.tables.safety = start.tables.safety := by rw [h.tables]
  refine (reconcileWitnessed_run_ok (h.durableReceipt hrest) hread).mpr
    ⟨transaction, none, host, host.tables, hplan, bind_eq_ok.mpr ⟨_, mapError_eq_ok.mpr happly, ?_⟩,
      rfl⟩
  rw [if_pos hkind]
  exact mapError_eq_ok.mpr (hrest.recordRestoreSafetyEventIn hsafety hkind)

/-! ## Recovery -/

end

structure Undone (command : AppendWal) (host : SupervisorHost) : Prop where
  abandoned : host.tables.intents = []
  unstaged : host.files command.staged.path = none

structure Done (command : AppendWal) (current : WitnessHead) (host : SupervisorHost) : Prop where
  opens : host.head = .ok current
  entry : current.chainDigest = command.signedEntry.digest
  safety : host.tables.safety = some (current.safetyState host.witness.binding)
  head : ∃ archived, current.state.backupArchiveState.archiveHead command.reservation.setId =
      .ok archived ∧ host.tables.headRow command.reservation.setId =
        some ⟨command.reservation.setId, archived.checkpointOrdinal.toNat, archived.digest⟩
  frame : checkFrame (host.files command.write.descriptor.finalPath) command.write.descriptor =
    .ok ()
  unstaged : host.files command.staged.path = none

def Recovered (start : SupervisorHost) (command : AppendWal) (host : SupervisorHost) : Prop :=
  (host.witness = start.witness ∧ Undone command host) ∨
    (host.witness ≠ start.witness ∧ ∃ current, Done command current host)

structure Recoverable (start : SupervisorHost) (command : AppendWal) (last : SignedJournalEntry)
    (host : SupervisorHost) : Prop where
  /-- The frame of a cancelled intent is gone. -/
  listed : host.witness = start.witness →
    host.tables.intents ≠ [] ∨ host.files command.staged.path = none
  /-- The entry before the append can be replayed. -/
  replayable : host.witness = start.witness → Replayable host last
  /-- No promotion has begun. -/
  staged : host.witness ≠ start.witness →
    host.files command.staged.path ≠ none ∧ host.files command.write.descriptor.finalPath = none
  /-- The tables have the checkpoint or room for it. -/
  fits : host.witness ≠ start.witness → host.tables.safety = start.tables.safety →
    ∀ reservation, command.reservation.Makes reservation →
      CheckpointFits host.tables command.signedEntry reservation

theorem Advanced.witness_ne (hrest : AtRest start head receipt last)
    (h : Advanced start head command reservation made host) : host.witness ≠ start.witness := by
  obtain ⟨-, -, -, hhead⟩ := hrest.opened
  obtain ⟨-, -, -, hsequence, -, -, -, -⟩ := h.witnessed.binds
  intro hsame
  have hstate := congrArg StoredWitnessRecord.state hsame
  rw [h.witness, hrest.witness] at hstate
  obtain rfl := StoredState.receipt.inj hstate
  have hnext : made.sequence.toNat = made.sequence.toNat + 1 := by
    have hsucc := h.witnessed.sequence
    rwa [← hsequence, hhead] at hsucc
  omega

theorem Advanced.done (hrest : AtRest start head receipt last)
    (h : Advanced start head command reservation made host)
    (htables : tables.Recorded start.witness.binding head command.signedEntry reservation made)
    (hframe : checkFrame (host.files command.staged.path) command.write.descriptor = .ok ()) :
    Done command (head.opened command.signedEntry)
      (promoted { host with tables } command.staged) where
  opens := (h.opens hrest :)
  entry := rfl
  safety := by
    show tables.safety = some (safetyState _ host.witness.binding)
    rw [h.witness]
    exact htables.safety
  head := by
    obtain ⟨current, -, -, -, -, -, hafter⟩ :=
      BackupArchiveStateV1.commitCheckpoint_eq_ok.mp h.witnessed.archive
    rw [← h.makes.set]
    refine ⟨(WalArchiveCheckpoint.fromReservation reservation).head, ?_, htables.headRow⟩
    show command.signedEntry.state.backupArchiveState.archiveHead reservation.setId = _
    rw [hafter]
    exact archiveHead_eq (get_put_self _ _ _)
  frame := by
    have hne : command.write.descriptor.finalPath ≠ command.staged.path := nofun
    rw [promoted, setFile_ne hne]
    exact (congrArg (checkFrame · _) (setFile_self _ _)).trans hframe
  unstaged := setFile_self _ _

/-- From every stop at which it finds what it needs, a reconciliation that is left alone
returns, and the append is undone or done. -/
theorem recovery_completes (hrest : AtRest start head receipt last)
    (hreached : Reached start command host) (hfound : Recoverable start command last host) :
    ∃ next, (reconcile host.witness.binding).run host = (.ok (), next) ∧
      next.witness = host.witness ∧ Recovered start command next := by
  rcases hreached.stage hrest with h | ⟨reservation, made, h⟩
  · have hcancel := reconcileUnjournalled_unadvanced hrest h (hfound.listed h.witness)
    have hkept : Unadvanced start command (host.cancelled command.staged.path) :=
      h.cancelled.sameRecords ⟨rfl, rfl, rfl, fun _ _ hentry => hentry⟩
    have hreplay := reconcileWitnessed_unadvanced hrest hkept (hfound.replayable h.witness)
      host.witness.binding
    refine ⟨host.cancelled command.staged.path, ?_, rfl, .inl ⟨h.witness, rfl, ?_⟩⟩
    · rw [reconcile, run_bind, hcancel]
      exact hreplay
    · exact setFile_self _ _
  · have hne := h.witness_ne hrest
    obtain ⟨hstaged, hfree⟩ := hfound.staged hne
    obtain ⟨frame, hframe⟩ := ne_none_iff_exists'.mp hstaged
    have hobject : reservation.object = command.write.descriptor :=
      h.makes.object.trans command.object_eq
    have hverified : checkFrame (host.files command.staged.path) command.write.descriptor =
        .ok () := by
      rw [hframe, ← hobject]
      exact h.staged frame (h.makes.staged ▸ hframe)
    have hcommits : ∃ tables, host.tables.commitCheckpointIn ⟨reservation, reservation.staged, rfl⟩
        command.signedEntry made = .ok tables := by
      rcases h.tables with hpending | hrecorded
      · have hfits := hfound.fits hne (hpending.safety.trans hrest.safety.symm) _ h.makes
        exact ⟨_, (commitCheckpointIn_pending h.witnessed hpending _ rfl).mpr
          ⟨hfits, rfl⟩⟩
      · exact ⟨_, commitCheckpointIn_recorded h.witnessed hrecorded _ rfl⟩
    obtain ⟨tables, hcommit⟩ := hcommits
    refine ⟨promoted { host with tables } command.staged, ?_, rfl, .inr ⟨hne, _,
      h.done hrest (h.recorded rfl hcommit) hverified⟩⟩
    rw [← h.makes.staged, ← hobject] at hverified
    rw [← hobject] at hfree
    rw [← h.makes.staged]
    exact (reconcile_advanced_run_ok hrest h _).mpr ⟨hverified, hfree, tables, hcommit, rfl⟩

end

/-! ## An append to a set that has its base -/

/-- A scheme whose digest is a residue, so that every byte counts, and whose signature is the
signer's key. -/
@[reducible] def residueCrypto : Crypto where
  sha256 bytes := BitVec.ofNat 256 (ofBeBytes bytes % (2 ^ 256 - 189))
  Ed25519KeyPair := BitVec 256
  publicKey key := key
  sign key _ := key.setWidth 512
  verify key _ signature := signature == key.setWidth 512
  verify_sign := verify_setWidth

section

local instance appendRecoveryCrypto : Crypto := residueCrypto

def enrolledHead : WitnessHead := .genesis ⟨1⟩ ⟨2⟩ ⟨3⟩ ⟨10⟩ ⟨journalKey⟩

def requested (request : RequestId) (head : WitnessHead) (eventKind : SafetyEventKind)
    (archive : BackupArchiveStateV1) : SignedJournalEntry :=
  .sign journalKey { inputAfter head eventKind ⟨10⟩ 0 (stateHolding archive none) with
    requestId := request }

def receiptFor (entry : SignedJournalEntry) : WitnessReceipt where
  installationId := entry.installationId
  fingerprintKeyId := entry.fingerprintKeyId
  continuityProof := entry.continuityProof
  sequence := entry.sequence
  journalDigest := entry.digest
  generationId := entry.generationId
  activationEpoch := entry.activationEpoch
  state := entry.state
  witnessPublicKey := ⟨witnessKey⟩
  signature := BitVec.setWidth 512 witnessKey

theorem sampleBase_continues : sampleBase.Continues ⟨1⟩ sampleHead := by decide

def baseReservation : ArchiveAppendReservation :=
  ⟨⟨1⟩, sampleHead, sampleBase, sampleBase_continues⟩

def nextSegment : ArchiveObjectDescriptor :=
  { sampleSegment with predecessorHeadDigest := (WalArchiveCheckpoint.mk sampleBase).digest }

def segmentReservation : ArchiveAppendReservation :=
  ⟨⟨1⟩, (WalArchiveCheckpoint.mk sampleBase).head, nextSegment, by decide +kernel⟩

def basedRun (calls : List ArchiveCall) : BackupArchiveStateV1 :=
  archiveRun (.startStreaming ⟨⟨1⟩, ⟨1⟩, ⟨10⟩⟩ sampleHead ::
    .commitCheckpoint baseReservation ⟨sampleBase⟩ :: calls)

def setStarted : SignedJournalEntry := requested ⟨1⟩ enrolledHead .backupSetStarted startedArchive

def baseCommitted : SignedJournalEntry :=
  requested ⟨2⟩ (enrolledHead.opened setStarted) .archiveCheckpointCommitted (basedRun [])

def basedHead : WitnessHead := (enrolledHead.opened setStarted).opened baseCommitted

def segmentCommitted : SignedJournalEntry :=
  requested ⟨3⟩ basedHead .archiveCheckpointCommitted
    (basedRun [.commitCheckpoint segmentReservation ⟨nextSegment⟩])

def basedHost : SupervisorHost where
  tables :=
    { continuity := []
      safety := some (basedHead.safetyState sampleBinding)
      journalEvents :=
        [(archiveAuthority setStarted (receiptFor setStarted)).eventRow .backupSetStarted
            setStarted.previousDigest,
          checkpointEvent baseCommitted (receiptFor baseCommitted)]
      generations := []
      sets := [⟨⟨1⟩, ⟨1⟩, ⟨10⟩, .streaming⟩]
      heads := [⟨⟨1⟩, 1, (WalArchiveCheckpoint.mk sampleBase).digest⟩]
      objects := [archiveRow baseReservation]
      intents := []
      holds := []
      preparations := []
      backupEvents := [(⟨1⟩, .backupStarted), (⟨1⟩, .checkpointCommitted)]
      attempts := [] }
  journal place :=
    if place = (baseCommitted.sequence, baseCommitted.digest) then some (.entry baseCommitted)
    else if place = (setStarted.sequence, setStarted.digest) then some (.entry setStarted)
    else none
  witness := ⟨sampleBinding, .receipt (receiptFor baseCommitted)⟩
  witnessKey := witnessKey
  files _ := none
  envelopes := [⟨1⟩]

def appendsSegment : AppendWal where
  reservation := ⟨⟨1⟩, (WalArchiveCheckpoint.mk sampleBase).head, nextSegment, rfl,
    segmentReservation.continues.2.1⟩
  write := ⟨nextSegment, [0, 0, 0, 0, 0, 0, 0, 0, 0, 8], .inr rfl⟩
  signedEntry := segmentCommitted
  object_eq := rfl

def segmentStopped (calls : ℕ) : SupervisorHost :=
  (appendWal appendsSegment).stoppedAfter calls basedHost

theorem basedHost_opens : basedHost.head = .ok basedHead := by
  have hwitness : basedHost.witness = ⟨sampleBinding, .receipt (receiptFor baseCommitted)⟩ := rfl
  refine (head_eq_ok_iff hwitness).mpr ⟨rfl, fromDurableReceipt_iff.mpr ⟨?_, ?_, ?_, rfl⟩⟩
  · decide +kernel
  · decide +kernel
  · exact ⟨rfl, rfl, rfl, rfl⟩

theorem basedHost_atRest : AtRest basedHost basedHead (receiptFor baseCommitted) baseCommitted where
  witness := rfl
  opens := basedHost_opens
  journalled := by simp only [basedHost, receiptFor, if_true]
  verified := SignedJournalEntry.verify_sign _ _
  binds := ⟨rfl, rfl, rfl, rfl, rfl, rfl, rfl, rfl⟩
  safety := rfl
  sequence := by decide +kernel
  epoch := by decide +kernel
  heads := by
    intro row hrow
    obtain rfl := List.mem_singleton.mp hrow
    exact ⟨((basedRun []).sets.get ⟨1⟩).getD (.started sampleIdentity sampleHead),
      by decide +kernel, by decide +kernel, by decide +kernel⟩
  idle := rfl

/-- Stopped after its reservation, after it has created the object's file, or after all of its
calls, the append is not recovered. -/
theorem stopped_append_not_recovered :
    AtRest basedHost basedHead (receiptFor baseCommitted) baseCommitted ∧
      ∀ calls ∈ [1, 26, 42], Reached basedHost appendsSegment (segmentStopped calls) ∧
        ((reconcile (segmentStopped calls).witness.binding).run
          (segmentStopped calls)).1.toOption = none := by
  have hfails : ∀ calls ∈ [1, 26, 42], ((reconcile (segmentStopped calls).witness.binding).run
      (segmentStopped calls)).1.toOption = none := by decide +kernel
  exact ⟨basedHost_atRest, fun calls hcalls => ⟨.append calls, hfails calls hcalls⟩⟩

/-- Stopped right after the witness was advanced, it is. -/
theorem recovery_completes_witnessed :
    ∃ next, (reconcile (segmentStopped 22).witness.binding).run (segmentStopped 22) =
      (.ok (), next) ∧ next.witness = (segmentStopped 22).witness ∧
      Recovered basedHost appendsSegment next := by
  -- where the append is then: its frame is staged, and the tables have room
  obtain ⟨hsequence, hstaged, hfree, hbase, hobject, hevent⟩ :
      (segmentStopped 22).witness.head.toOption.map sequence ≠
          basedHost.witness.head.toOption.map sequence ∧
        (segmentStopped 22).files appendsSegment.staged.path ≠ none ∧
        (segmentStopped 22).files appendsSegment.write.descriptor.finalPath = none ∧
        (segmentStopped 22).tables.violatesBase (archiveRow segmentReservation) = false ∧
        (∀ row ∈ (segmentStopped 22).tables.objects,
          (archiveRow segmentReservation).clashes row = false) ∧
        ∀ row ∈ (segmentStopped 22).tables.journalEvents,
          row.installationId = segmentCommitted.installationId →
            row.sequence ≠ segmentCommitted.sequence.toNat ∧
              row.requestId ≠ segmentCommitted.requestId ∧
              row.journalDigest ≠ segmentCommitted.digest := by
    decide +kernel
  have hne : (segmentStopped 22).witness ≠ basedHost.witness := by
    intro hsame
    rw [hsame] at hsequence
    exact hsequence rfl
  have hfits : CheckpointFits (segmentStopped 22).tables segmentCommitted segmentReservation :=
    ⟨⟨by decide, by decide, by decide, by decide, by decide⟩, by decide +kernel, by decide +kernel,
      hbase, hobject, hevent⟩
  refine recovery_completes basedHost_atRest (.append 22) ⟨fun h => absurd h hne,
    fun h => absurd h hne, fun _ => ⟨hstaged, hfree⟩, ?_⟩
  intro _ _ reservation hmakes
  rw [hmakes.unique (show appendsSegment.reservation.Makes segmentReservation from ⟨rfl, rfl, rfl⟩)]
  exact hfits

end

end Vestrace.Installation
