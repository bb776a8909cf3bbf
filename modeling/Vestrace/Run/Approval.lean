import Vestrace.Legacy.Approval
import Vestrace.Run.Agreement
import Vestrace.Run.Serial
import Vestrace.Run.Wakeup

/-!
# Approvals in the coordinator

`approve_run` is the one command that records an approval, and it checks that one is pending.
But `resume_run` and `transition_run` ask only the transition table, and the table leads from
`WaitingForApproval` to `Running`, directly and through `Paused`. And `approve_run` takes two
commits, the transition first: if a worker commits in between, the run is at work and no approval
was recorded.
-/

namespace Vestrace.Run

open Lib RunVersion List RunWorld Job

variable {status : RunStatus}

/-- An approval has been asked for and not been granted since. -/
def awaitsApproval (log : List RunEvent) : Bool :=
  log.foldl (fun awaits event =>
    match event.payload with
    | .runStatusChanged _ .waitingForApproval _ => true
    | .approvalGranted _ => false
    | _ => awaits) false

theorem awaitsApproval_snoc (log : List RunEvent) (event : RunEvent) :
    awaitsApproval (log ++ [event]) =
      match event.payload with
      | .runStatusChanged _ .waitingForApproval _ => true
      | .approvalGranted _ => false
      | _ => awaitsApproval log := by
  rw [awaitsApproval, foldl_append]
  rfl

/-- Where a run is that waits for an approval, or where the table leads it from there. -/
def Withheld (status : RunStatus) : Prop :=
  status = .waitingForApproval ∨ status = .paused ∨ status = .cancelled ∨ status = .expired

theorem Withheld.not_running (h : Withheld status) : status ≠ .running := by
  intro hrunning
  rw [hrunning] at h
  rcases h with h | h | h | h <;> cases h

/-- From there the table leads nowhere else, but for `Running`. -/
theorem Withheld.transitionTo {target : RunStatus} (h : Withheld status)
    (htransition : status.transitionTo target = .ok ()) (hrunning : target ≠ .running) :
    Withheld target := by
  rcases h with rfl | rfl | rfl | rfl <;> revert htransition hrunning <;> cases target <;>
    simp [RunStatus.transitionTo, RunStatus.allowed, RunStatus.isTerminal, Withheld]

/-! ## Commits while an approval is pending -/

/-- The commit of `approve_run` that records the approval. -/
def grants (m : RunMade) : Bool :=
  match m.call with
  | .commit _ commit =>
    match commit.event.payload with
    | .approvalGranted _ => true
    | _ => false
  | _ => false

/-- A command that is there to set the run going, while an approval is pending: `resume_run`,
a `transition_run` to `Running`, or `approve_run` before it has recorded the approval. -/
def restartsPending (m : RunMade) : Bool :=
  m.job.restarts && awaitsApproval m.before.log && !grants m

/-- If such a commit is accepted, the next one to be accepted records the approval: it was
made by `approve_run`, and nobody else's was accepted in between. -/
def RespectsApproval (log : List RunMade) : Prop :=
  (log.filter committed).IsChain fun m next => restartsPending m = true → grants next = true

instance (log : List RunMade) : Decidable (RespectsApproval log) :=
  inferInstanceAs (Decidable (List.IsChain _ _))

/-- An approval that is pending holds the run back, but between the two commits of
`approve_run`. And what a job was shown last is the run's row, or an earlier version of it. -/
def approvalAccount : Account conduct where
  Inv log db := Plain db.steps ∧ ∃ run, db.run = some run ∧
    (RespectsApproval log → awaitsApproval db.log = true → Withheld run.status ∨
      ∃ m ∈ (log.filter committed).getLast?, restartsPending m = true)
  Knows _ db _ _ l := ∀ version status run, l.shown = some (version, status) →
    db.run = some run →
      version.toNat ≤ run.version.toNat ∧ (version = run.version → status = run.status)
  sound h := h.1
  fresh _ _ _ _ _ _ _ h := nomatch h

section

variable {log : List RunMade} {m : RunMade} {w : RunWorld} {memory : ℕ → Memory}
  {ctx : RequestContext} {commit : CommitRun}

theorem log_written (db : RunDb) (row : AgentRun) :
    (db.written row commit).log = db.log ++ [commit.event] := by
  show (db.events ++ [RunEventRow.canonical commit.event]).filterMap RunEventRow.canonical? = _
  rw [filterMap_append]
  rfl

theorem Quiet.approval_renews (hquiet : Quiet m.before m.after) (hm : committed m = false)
    (hlearn : ∀ shown, (conduct.learn (memory m.thread) m.call m.answer).shown = some shown →
      (memory m.thread).shown = some shown ∨
        ∃ run, m.before.run = some run ∧ shown = (run.version, run.status))
    (hinv : approvalAccount.Inv log m.before)
    (hknows : approvalAccount.Knows log m.before m.thread m.job (memory m.thread)) :
    approvalAccount.Renews log w memory m := by
  have hcommits : (log ++ [m]).filter committed = log.filter committed := by
    rw [filter_append, filter_singleton, hm]
    exact append_nil _
  obtain ⟨hplain, run, hrun, hheld⟩ := hinv
  refine ⟨⟨?_, run, hquiet.run.trans hrun, ?_⟩, ?_, ?_⟩
  · rw [hquiet.steps]
    exact hplain
  · unfold RespectsApproval RunDb.log
    rw [hcommits, hquiet.events]
    exact hheld
  · intro version status row hshown hrow
    rw [hquiet.run] at hrow
    rcases hlearn _ hshown with hold | ⟨run', hrun', heq⟩
    · exact hknows version status row hold hrow
    · cases Option.some.inj (hrun'.symm.trans hrow)
      cases heq
      exact ⟨le_rfl, fun _ => rfl⟩
  · intro k thread _ _ hknows' version status row hshown hrow
    rw [hquiet.run] at hrow
    exact hknows' version status row hshown hrow

/-- What a commit on a run that is held back leads to. -/
theorem Builds.held {version : RunVersion} (h : Builds version status commit)
    (hwithheld : Withheld status) : Withheld commit.run.status ∨ ¬ Leaves status commit := by
  by_cases hrunning : commit.run.status = .running
  · right
    intro hleaves
    obtain ⟨hwaiting, hpaused⟩ := hleaves hrunning
    have hmoves := h.moves
    rw [hrunning] at hmoves
    rcases hwithheld with rfl | rfl | rfl | rfl
    · exact hwaiting rfl
    · exact hpaused rfl
    all_goals
      split at hmoves
      · obtain ⟨rfl, htransition⟩ := hmoves
        cases htransition
      · cases hmoves
  · left
    have hmoves := h.moves
    split at hmoves
    · rw [← hmoves.1] at hmoves
      exact hwithheld.transitionTo hmoves.2 hrunning
    · rw [hmoves]
      exact hwithheld

theorem grants_eq_false (hcall : m.call = .commit ctx commit)
    (h : ∀ id, commit.event.payload ≠ .approvalGranted id) : grants m = false := by
  -- `h` discharges the last arm of the match
  simp only [grants, hcall]

/-- An approval that is pending after a commit was asked for by it or pending before. -/
theorem Builds.pending_before {version : RunVersion} {events : List RunEvent}
    (h : Builds version status commit) (hwaiting : commit.run.status ≠ .waitingForApproval)
    (hawaits : awaitsApproval (events ++ [commit.event]) = true) :
    awaitsApproval events = true ∧ ∀ id, commit.event.payload ≠ .approvalGranted id := by
  have hmoves := h.moves
  rw [awaitsApproval_snoc] at hawaits
  split at hawaits
  next hpayload =>
    rw [hpayload] at hmoves
    exact absurd hmoves.1 hwaiting
  next => cases hawaits
  next _ hgranted => exact ⟨hawaits, hgranted⟩

theorem Builds.held_or_restarts {version : RunVersion} (h : Builds version status commit)
    (hwithheld : Withheld status) (hleaves : m.job.restarts = false → Leaves status commit)
    (hawaits : awaitsApproval m.before.log = true) (hgrants : grants m = false) :
    Withheld commit.run.status ∨ restartsPending m = true := by
  refine (h.held hwithheld).imp_right fun hsets => ?_
  have hrestarts : m.job.restarts = true := by
    by_contra hnot
    exact hsets (hleaves (Bool.eq_false_iff.mpr hnot))
  rw [restartsPending, hrestarts, hawaits, hgrants]
  rfl

theorem approval_renews_commit {row : AgentRun} {version : RunVersion}
    (hm : committed m = true) (hcall : m.call = .commit ctx commit)
    (hcommits : RunDb.Commits ctx m.before commit row)
    (hafter : m.after = m.before.written (RunDb.writeRun row commit.run) commit)
    (hlearn : (conduct.learn (memory m.thread) m.call m.answer).shown =
      some (commit.run.version, commit.run.status))
    (hshown : (memory m.thread).shown = some (version, status))
    (hbuilds : Builds version status commit)
    (hleaves : m.job.restarts = false → Leaves status commit)
    (hinv : approvalAccount.Inv log m.before)
    (hknows : approvalAccount.Knows log m.before m.thread m.job (memory m.thread)) :
    approvalAccount.Renews log w memory m := by
  obtain ⟨hplain, run, hrun, hheld⟩ := hinv
  cases Option.some.inj (hrun.symm.trans hcommits.found)
  -- the commit was built on the very row it replaces
  have hnext := next_eq_ok.mp hbuilds.next
  have hversion := hcommits.version
  have hstatus : status = row.status :=
    (hknows version status row hshown hrun).2 (toNat_inj.mp (by omega))
  have hcommitted : (log ++ [m]).filter committed = log.filter committed ++ [m] := by
    rw [filter_append, filter_singleton, hm]
    rfl
  have hwritten : m.after.run = some (RunDb.writeRun row commit.run) := congrArg RunDb.run hafter
  refine ⟨⟨?_, _, hwritten, ?_⟩, ?_, ?_⟩
  · rw [hafter]
    exact plain_foldl hplain hbuilds.plain
  · intro hrespects hawaits
    rw [RespectsApproval, hcommitted, isChain_append] at hrespects
    obtain ⟨hbefore, -, hlast⟩ := hrespects
    rw [hafter, log_written] at hawaits
    rw [hcommitted, getLast?_concat]
    show Withheld commit.run.status ∨ _
    by_cases hwaiting : commit.run.status = .waitingForApproval
    · exact .inl (.inl hwaiting)
    obtain ⟨hpending, hpayload⟩ := hbuilds.pending_before hwaiting hawaits
    have hgrants := grants_eq_false hcall hpayload
    rcases hheld hbefore hpending with hwithheld | ⟨prev, hprev, hpast⟩
    · rw [← hstatus] at hwithheld
      exact (hbuilds.held_or_restarts hwithheld hleaves hpending hgrants).imp_right
        fun hrestarts => ⟨m, rfl, hrestarts⟩
    · have hgranted := hlast prev hprev m rfl hpast
      rw [hgrants] at hgranted
      cases hgranted
  · intro version' status' run hshown' hrun'
    cases hlearn.symm.trans hshown'
    cases hwritten.symm.trans hrun'
    exact ⟨le_rfl, fun _ => rfl⟩
  · intro k thread _ _ hknows' version' status' run hshown' hrun'
    obtain ⟨hle, -⟩ := hknows' version' status' row hshown' hrun
    cases hwritten.symm.trans hrun'
    have hlater : version'.toNat < commit.run.version.toNat := by omega
    refine ⟨hlater.le, fun heq => absurd hlater ?_⟩
    rw [heq]
    exact lt_irrefl _

theorem approval_renews (hinv : approvalAccount.Inv log m.before)
    (hmay : conduct.May m.job (memory m.thread) m.call)
    (hknows : approvalAccount.Knows log m.before m.thread m.job (memory m.thread)) :
    approvalAccount.Renews log w memory m := by
  obtain ⟨k, job, call, db⟩ := m
  by_cases hcall : call.isQuiet = true
  · refine Quiet.approval_renews (exec_quiet hcall db) (PortCall.commits_of_quiet hcall _)
      (fun shown hshown => ?_) hinv hknows
    cases call with
    | load ctx runId =>
      have hshown : (Memory.learn (memory k) (.load ctx runId) (db.load ctx runId)).shown =
        some shown := hshown
      cases hload : db.load ctx runId with
      | none =>
        rw [hload] at hshown
        exact .inl hshown
      | some snapshot =>
        rw [hload] at hshown
        exact .inr ⟨snapshot.run, (RunDb.load_stores hload).1.1, (Option.some.inj hshown).symm⟩
    | create | commit => cases hcall
    | _ => exact .inl hshown
  · cases call with
    | create ctx commit => exact absurd hmay id
    | commit ctx commit =>
      obtain ⟨version, status, hshown, hbuilds, hleaves⟩ := hmay
      rcases exec_commit ctx commit db with ⟨e, hexec⟩ | ⟨row, hcommits, hexec⟩
      · have hafter : ((PortCall.commit ctx commit).exec db).2 = db := congrArg Prod.snd hexec
        refine Quiet.approval_renews ?_ ?_ (fun shown hshown' => .inl ?_) hinv hknows
        · show Quiet db ((PortCall.commit ctx commit).exec db).2
          rw [hafter]
          exact Quiet.refl db
        · show Except.isOk ((PortCall.commit ctx commit).exec db).1 = false
          rw [hexec]
          rfl
        · have hlearned : (Memory.learn (memory k) (.commit ctx commit)
            ((PortCall.commit ctx commit).exec db).1).shown = some shown := hshown'
          rw [hexec] at hlearned
          exact hlearned
      · refine approval_renews_commit ?_ rfl hcommits (congrArg Prod.snd hexec) ?_ hshown hbuilds
          hleaves hinv hknows
        · show Except.isOk ((PortCall.commit ctx commit).exec db).1 = true
          rw [hexec]
          rfl
        · show (Memory.learn (memory k) (.commit ctx commit)
            ((PortCall.commit ctx commit).exec db).1).shown = _
          rw [hexec]
          rfl
    | _ => exact absurd rfl hcall

end

theorem created_approval {ctx : RequestContext} {command : CreateRun} {runId : AgentRunId}
    {draw : Draw} {created : RunSnapshot} {db : RunDb}
    (h : (createRun ctx command runId draw).run .empty = (.ok created, db)) :
    approvalAccount.Upheld [] (still db) fun _ => conduct.fresh := by
  obtain ⟨run, event, hrun, hevent, rfl⟩ := createRun_ok h
  refine ⟨⟨forall_mem_nil _, _, rfl, fun _ hawaits => ?_⟩, fun k thread hthread => ?_⟩
  · rw [Draw.event_ok hevent] at hawaits
    cases hawaits
  · cases hthread

def moveTo (version : UInt64) (target : RunStatus) : Job :=
  .client reportContext (.transitionRun
    ⟨none, ⟨1⟩, ⟨version⟩, target, none, .system, none⟩ (drawAt (version.toNat + 1)))

def waitForApproval : List (Action Job) :=
  alone addDraftStep ++ alone (moveTo 2 .preparing) ++ alone (moveTo 3 .running) ++
    alone (moveTo 4 .waitingForApproval)

def resumeWaiting : List (Action Job) :=
  alone (.client reportContext (.resumeRun ⟨none, ⟨1⟩, ⟨5⟩, .system⟩ (drawAt 15) (drawAt 16)))

def approveWaiting : Job :=
  .client reportContext (.approveRun ⟨none, ⟨1⟩, ⟨5⟩, ⟨1⟩, .system⟩ (drawAt 15) (drawAt 16))

def approveAlone : List (Action Job) := waitForApproval ++ alone approveWaiting

/-- A worker takes the item that the first commit of the approval has queued, and commits before
the second. -/
def approveOvertaken : List (Action Job) :=
  .start 0 approveWaiting :: replicate 3 (.step 0) ++
    .start 1 (workOn 15 20) :: replicate 7 (.step 1) ++ [.step 0]

def issue (version : UInt64) (command : Legacy.RunCommand) : Legacy.IssuedCommand where
  context := reportContext
  command := ⟨⟨3⟩, none, ⟨1⟩, ⟨2⟩, .system "scheduler", ⟨version⟩, ⟨4⟩, 60, command⟩
  freshId _ := ⟨0⟩
  recordedAt := 61
  stored := true

def issueWait : List Legacy.IssuedCommand :=
  [issue 0 (.create ⟨7⟩ "report"), issue 1 .prepare, issue 2 .start, issue 3 (.waitForApproval ⟨9⟩)]

end Vestrace.Run
