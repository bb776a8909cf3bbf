import Vestrace.Lib.Discipline
import Vestrace.Run.Frame
import Vestrace.Run.Worker

/-!
# The conduct of clients and workers

What a command or an iteration of the worker calls depends on what it was told before.
It commits only what it has built on the version it was last shown, and never sets a run going
again that is paused or waits for an approval, unless it was started to do so; it completes,
retries and dead-letters only the item it was handed, and only once.
-/

namespace Vestrace.Run

open Lib Discipline Follows List RunChange

variable {at_ : Timestamp} {runId : AgentRunId} {version : RunVersion} {commit : CommitRun}

/-! ## Conduct -/

/-- What a job has been told so far. -/
structure Memory where
  /-- The version it was last shown, by a load or by its own commit, and the status of the run. -/
  shown : Option (RunVersion × RunStatus)
  /-- The item it was handed and has not settled. -/
  held : Option WorkItemId
  deriving DecidableEq, Repr

def Job.workerId : Job → Option WorkerId
  | .client .. => none
  | .worker _ _ turn => some turn.workerId

/-- The commands that are there to set a run going. -/
def Job.restarts : Job → Bool
  | .client _ (.transitionRun command _) => command.target == .running
  | .client _ (.resumeRun ..) | .client _ (.approveRun ..) => true
  | _ => false

/-- A commit built on a version of the run with this status. -/
structure Builds (version : RunVersion) (status : RunStatus) (commit : CommitRun) : Prop where
  next : version.next = .ok commit.run.version
  eventVersion : commit.event.runVersion = commit.run.version
  sequence : commit.event.sequence = .fromVersion commit.run.version
  plain : Plain commit.newSteps
  attempts : ∀ item ∈ commit.workItems, item.attempt = 1
  /-- The status moves as the table allows, and the event says so, or it stays. -/
  moves : match commit.event.payload with
    | .runStatusChanged _ target _ =>
      commit.run.status = target ∧ status.transitionTo target = .ok ()
    | _ => commit.run.status = status

/-- The commit does not set a run going that is paused or waits for an approval. -/
def Leaves (status : RunStatus) (commit : CommitRun) : Prop :=
  commit.run.status = .running → status ≠ .waitingForApproval ∧ status ≠ .paused

namespace Memory

def May (job : Job) (l : Memory) : PortCall → Prop
  | .create .. => False
  | .commit _ commit => ∃ version status, l.shown = some (version, status) ∧
      Builds version status commit ∧ (job.restarts = false → Leaves status commit)
  | .leaseNext _ _ workerId _ _ => job.workerId = some workerId
  | .complete _ item | .retry _ item _ _ | .deadLetter _ item _ => l.held = some item.id
  | _ => True

def learn (l : Memory) : (call : PortCall) → call.Answer → Memory
  | .load .., (answer : Option RunSnapshot) =>
    match answer with
    | some snapshot => { l with shown := some (snapshot.run.version, snapshot.run.status) }
    | none => l
  | .commit .., (answer : AppResult RunSnapshot) =>
    match answer with
    | .ok snapshot => { l with shown := some (snapshot.run.version, snapshot.run.status) }
    | .error _ => l
  | .leaseNext .., (answer : Option WorkItem) => { l with held := answer.map (·.id) }
  | .complete .., _ | .retry .., _ | .deadLetter .., _ => { l with held := none }
  | _, _ => l

end Memory

/-- No step of the run is an agent's, so no iteration calls the executor of agent steps. -/
def conduct : Discipline runPorts Job Memory where
  Sound db := Plain db.steps
  fresh := ⟨none, none⟩
  May := Memory.May
  learn := Memory.learn

/-! ## Building -/

section

variable {ctx : RequestContext} {snapshot : RunSnapshot} {item : WorkItem} {draw : Draw}
  {change : RunChange} {kind : WorkItemKind}

theorem Makes.builds (h : Makes ctx snapshot change at_ commit)
    (hplain : Plain snapshot.steps) (hattempts : ∀ item ∈ commit.workItems, item.attempt = 1) :
    Builds snapshot.run.version snapshot.run.status commit := by
  refine ⟨h.next, h.eventVersion, h.sequence, ?_, hattempts, ?_⟩
  · rw [h.steps]
    exact plain_steps h.valid hplain
  · rw [h.payload, h.run, apply_status]
    cases change with
    | status target result => exact ⟨rfl, h.valid.2⟩
    | _ => rfl

theorem Makes.leaves (h : Makes ctx snapshot change at_ commit)
    (hchange : ∀ result, change ≠ .status .running result) : Leaves snapshot.run.status commit := by
  intro hrunning
  rw [h.run, apply_status] at hrunning
  cases change with
  | status target result => exact absurd (congrArg (RunChange.status · result) hrunning) (hchange _)
  | _ =>
    have hstatus : snapshot.run.status = .running := hrunning
    rw [hstatus]
    exact ⟨nofun, nofun⟩

theorem advanceRunPlan_leaves {plan : AdvancePlan}
    (h : advanceRunPlan ctx snapshot item draw = .ok plan) (hbusy : plan ≠ .done)
    (commit : CommitRun) : Leaves snapshot.run.status commit := by
  simp only [advanceRunPlan, bind_eq_ok] at h
  obtain ⟨next, -, h⟩ := h
  refine fun _ => ⟨fun hstatus => ?_, fun hstatus => ?_⟩ <;>
  · rw [hstatus] at h
    exact hbusy (pure_eq_ok.mp h).symm

theorem executeItems_attempt {steps : List RunStepId} {built : WorkItem}
    (h : built ∈ executeItems draw runId version steps) : built.attempt = 1 := by
  obtain ⟨i, hi, rfl⟩ := mem_mapIdx.mp h
  rfl

theorem attempts_singleton {i : ℕ} (h : commit.workItems = [draw.workItem i runId kind version]) :
    ∀ item ∈ commit.workItems, item.attempt = 1 := by
  intro built hbuilt
  rw [h, mem_singleton] at hbuilt
  rw [hbuilt]
  rfl

theorem startRunPlan_attempts {next : RunVersion}
    (h : startRunPlan ctx snapshot item next draw = .ok (.commit commit)) :
    ∀ item ∈ commit.workItems, item.attempt = 1 := by
  simp only [startRunPlan, bind_eq_ok, Prod.exists] at h
  obtain ⟨run, event, -, h⟩ := h
  split at h
  next =>
    simp only [bind_eq_ok, pure_eq_ok] at h
    obtain ⟨_, -, heq⟩ := h
    cases heq
  next =>
    cases h
    intro built hbuilt
    rcases mem_append.mp hbuilt with hexecute | hadvance
    · exact executeItems_attempt hexecute
    · rw [mem_singleton.mp hadvance]
      rfl

theorem advanceRunPlan_attempts (hversion : item.expectedRunVersion = snapshot.run.version)
    (h : advanceRunPlan ctx snapshot item draw = .ok (.commit commit)) :
    ∀ item ∈ commit.workItems, item.attempt = 1 := by
  have hadvances := advanceRunPlan_advances hversion h
  simp only [advanceRunPlan, bind_eq_ok, mapError_eq_ok] at h
  obtain ⟨next, hnext, h⟩ := h
  split at h
  next =>
    simp only [bind_eq_ok, pure_eq_ok] at h
    obtain ⟨_, hcommit, heq⟩ := h
    cases heq
    exact attempts_singleton (prepareRunCommit_makes hnext hcommit).2
  next => exact startRunPlan_attempts h
  next hrunning =>
    cases hadvances with
    | moved hstatus => exact absurd hrunning hstatus
    | pointed _ _ _ _ hitems =>
      intro built hbuilt
      rw [hitems] at hbuilt
      exact executeItems_attempt hbuilt
  next => cases h

end

/-! ## Calls -/

section

variable {job : Job} {l : Memory} {ctx : RequestContext} {status : RunStatus}

/-- What a snapshot just read, or just committed, tells. -/
def Tells (l : Memory) (runId : AgentRunId) (x : AppResult RunSnapshot)
    (l' : Memory) : Prop :=
  l'.held = l.held ∧ ∀ s, x = .ok s →
    l'.shown = some (s.run.version, s.run.status) ∧ s.run.id = runId ∧ Plain s.steps

theorem Tells.error {e : ApplicationError} {l' : Memory} (h : l'.held = l.held) :
    Tells l runId (.error e) l' := by
  refine ⟨h, fun s hs => ?_⟩
  cases hs

theorem follows_loadRun (runId : AgentRunId) :
    conduct.Follows job (loadRun ctx runId) l (Tells l runId) := by
  refine ⟨trivial, fun db hplain => ?_⟩
  show Tells l runId (okOr (db.load ctx runId) _)
    (Memory.learn l (.load ctx runId) (db.load ctx runId))
  cases hload : db.load ctx runId with
  | none => exact Tells.error rfl
  | some snapshot =>
    obtain ⟨hstores, -, hid⟩ := RunDb.load_stores hload
    refine ⟨rfl, fun s hs => ?_⟩
    cases hs
    refine ⟨rfl, hid, ?_⟩
    rw [← hstores.2]
    exact hplain

theorem follows_commitRun (hshown : l.shown = some (version, status))
    (hbuilds : Builds version status commit)
    (hleaves : job.restarts = false → Leaves status commit) :
    conduct.Follows job (commitRun ctx commit) l fun x l' =>
      Tells l commit.run.id x l' ∧ ∀ s, x = .ok s →
        (s.run.version, s.run.status) = (commit.run.version, commit.run.status) := by
  refine ⟨⟨version, status, hshown, hbuilds, hleaves⟩, fun db hplain => ?_⟩
  show (Tells l commit.run.id ((PortCall.commit ctx commit).exec db).1
      (Memory.learn l (.commit ctx commit) ((PortCall.commit ctx commit).exec db).1)) ∧
    ∀ s, ((PortCall.commit ctx commit).exec db).1 = .ok s →
      (s.run.version, s.run.status) = (commit.run.version, commit.run.status)
  rcases exec_commit ctx commit db with ⟨e, hexec⟩ | ⟨row, hcommits, hexec⟩
  · rw [hexec]
    refine ⟨Tells.error rfl, fun s hs => ?_⟩
    cases hs
  · rw [hexec]
    refine ⟨⟨rfl, fun s hs => ?_⟩, fun s hs => ?_⟩
    · cases hs
      exact ⟨rfl, hcommits.id, plain_foldl hplain hbuilds.plain⟩
    · cases hs
      rfl

theorem follows_cancelQueue :
    conduct.Follows job (cancelQueue ctx runId at_) l fun _ l' => l' = l :=
  ⟨trivial, fun _ _ => rfl⟩

end

/-! ## Commands -/

section

variable {job : Job} {l : Memory} {ctx : RequestContext} {draw : Draw}

theorem follows_commit (runId : AgentRunId)
    {build : RunSnapshot → AppResult CommitRun}
    (hbuild : ∀ snapshot commit, snapshot.run.id = runId → Plain snapshot.steps →
      build snapshot = .ok commit → Builds snapshot.run.version snapshot.run.status commit ∧
        Leaves snapshot.run.status commit) :
    conduct.Follows job (do
      let snapshot ← loadRun ctx runId
      let commit ← build snapshot
      commitRun ctx commit) l fun _ _ => True := by
  refine (follows_loadRun runId).bind (fun snapshot l' htells => ?_) fun _ _ _ => trivial
  obtain ⟨hshown, hid, hplain⟩ := htells.2 snapshot rfl
  refine lift_bind (fun commit hcommit => ?_) fun _ _ => trivial
  obtain ⟨hbuilds, hleaves⟩ := hbuild snapshot commit hid hplain hcommit
  exact (follows_commitRun hshown hbuilds fun _ => hleaves).mono fun _ _ _ => trivial

theorem follows_transitionRunWith {command : TransitionRun} {extra : List WorkItem}
    (hextra : ∀ item ∈ extra, item.attempt = 1)
    (hjob : job.restarts = false → command.target ≠ .running) :
    conduct.Follows job (transitionRunWith ctx command extra draw) l
      (Tells l command.runId) := by
  unfold transitionRunWith
  refine (follows_loadRun command.runId).bind (fun snapshot l' htells => ?_)
    fun _ _ htells => .error htells.1
  obtain ⟨hheld, hloaded⟩ := htells
  obtain ⟨hshown, hid, hplain⟩ := hloaded snapshot rfl
  refine lift_bind (fun commit hcommit => ?_) fun _ _ => .error hheld
  obtain ⟨hmakes, -, hitems⟩ := transitionRunCommit_makes hcommit hid
  have hrun : commit.run.id = command.runId := by rw [hmakes.run, apply_id, hid]
  have hbuilds : Builds snapshot.run.version snapshot.run.status commit := by
    refine hmakes.builds hplain fun built hbuilt => ?_
    rw [hitems] at hbuilt
    rcases mem_append.mp hbuilt with hold | hadvance
    · exact hextra built hold
    · split at hadvance
      · rw [mem_singleton.mp hadvance]
        rfl
      · cases hadvance
  have hcommitted : conduct.Follows job (commitRun ctx commit) l' (Tells l command.runId) := by
    have hleaves : job.restarts = false → Leaves snapshot.run.status commit := fun hnot =>
      hmakes.leaves fun result heq => hjob hnot (status.inj heq).1
    refine (follows_commitRun hshown hbuilds hleaves).mono fun x l'' htells' => ?_
    rw [hrun] at htells'
    exact ⟨htells'.1.1.trans hheld, htells'.1.2⟩
  by_cases hterminal : command.target.isTerminal = true
  · rw [if_pos hterminal]
    refine follows_cancelQueue.bind (fun _ l'' hsame => ?_) fun _ _ hsame => .error ?_
    · rw [hsame]
      exact hcommitted
    · rw [hsame]
      exact hheld
  · rw [if_neg hterminal]
    exact hcommitted

theorem follows_addSteps (command : AddRunSteps) :
    conduct.Follows job (addSteps ctx command draw) l fun _ _ => True := by
  refine follows_commit command.runId fun snapshot commit hid hplain hcommit => ?_
  obtain ⟨hmakes, -, hitems⟩ := addStepsCommit_makes hcommit hid
  refine ⟨hmakes.builds hplain fun built hbuilt => ?_, hmakes.leaves nofun⟩
  rw [hitems] at hbuilt
  exact executeItems_attempt hbuilt

theorem follows_transitionStep (command : TransitionRunStep) :
    conduct.Follows job (transitionStep ctx command draw) l fun _ _ => True := by
  refine follows_commit command.runId fun snapshot commit hid hplain hcommit => ?_
  obtain ⟨found, settled, -, hmakes⟩ := transitionStepCommit_makes hcommit hid
  refine ⟨hmakes.builds hplain ?_, hmakes.leaves nofun⟩
  simp only [transitionStepCommit, bind_eq_ok, pure_eq_ok] at hcommit
  obtain ⟨_, -, _, -, _, -, _, -, _, -, rfl⟩ := hcommit
  exact forall_mem_nil _

theorem follows_createCheckpoint (command : CreateCheckpoint) :
    conduct.Follows job (createCheckpoint ctx command draw) l fun _ _ => True := by
  refine follows_commit command.runId fun snapshot commit hid hplain hcommit => ?_
  have hmakes := createCheckpointCommit_makes hcommit hid
  refine ⟨hmakes.builds hplain ?_, hmakes.leaves nofun⟩
  simp only [createCheckpointCommit, bind_eq_ok, pure_eq_ok] at hcommit
  obtain ⟨_, -, _, -, _, -, _, -, rfl⟩ := hcommit
  exact forall_mem_nil _

theorem follows_resumeRun (command : PauseOrResumeRun) (itemDraw : Draw)
    (hjob : job.restarts = true) :
    conduct.Follows job (resumeRun ctx command itemDraw draw) l fun _ _ => True := by
  unfold resumeRun
  refine lift_bind (fun item hitem => ?_) fun _ _ => trivial
  simp only [resumeItem, bind_eq_ok, pure_eq_ok] at hitem
  obtain ⟨_, -, rfl⟩ := hitem
  refine (follows_transitionRunWith (fun built hbuilt => ?_) fun hnot => ?_).mono
    fun _ _ _ => trivial
  · rw [mem_singleton.mp hbuilt]
    rfl
  · rw [hjob] at hnot
    cases hnot

theorem follows_approveRun (command : ApproveRun) (secondDraw : Draw)
    (hjob : job.restarts = true) :
    conduct.Follows job (approveRun ctx command draw secondDraw) l fun _ _ => True := by
  unfold approveRun
  refine (follows_loadRun command.runId).bind (fun snapshot l' _ => ?_) fun _ _ _ => trivial
  refine lift_bind (fun _ _ => ?_) fun _ _ => trivial
  have hnot : job.restarts ≠ false := by
    rw [hjob]
    nofun
  refine (follows_transitionRunWith (forall_mem_nil _) fun h => absurd h hnot).bind
    (fun approved l'' htells => ?_) fun _ _ _ => trivial
  obtain ⟨hshown, hid, hplain⟩ := htells.2 approved rfl
  refine lift_bind (fun commit hcommit => ?_) fun _ _ => trivial
  refine (follows_commitRun hshown ((approvalCommit_makes hcommit hid).builds hplain ?_)
    fun h => absurd h hnot).mono fun _ _ _ => trivial
  simp only [approvalCommit, bind_eq_ok, pure_eq_ok] at hcommit
  obtain ⟨_, -, _, -, rfl⟩ := hcommit
  exact forall_mem_nil _

end

/-! ## The worker -/

section

variable {job : Job} {l : Memory} {ctx : RequestContext} {model : Option StepModelExecutor}
variable {turn : Iteration} {item : WorkItem} {snapshot : RunSnapshot} {draw secondDraw : Draw}
  {error : RunFailure}

theorem follows_handlerCommit {α : Type} {rest : RunSnapshot → RunProg α}
    {post : AppResult α → Memory → Prop}
    (hshown : l.shown = some (snapshot.run.version, snapshot.run.status))
    (hbuilds : Builds snapshot.run.version snapshot.run.status commit)
    (hleaves : Leaves snapshot.run.status commit)
    (hrest : ∀ s l', l'.shown = some (commit.run.version, commit.run.status) → l'.held = l.held →
      conduct.Follows job (rest s) l' post)
    (herror : ∀ e l', l'.held = l.held → post (.error e) l') :
    conduct.Follows job (commitRun ctx commit >>= rest) l post := by
  refine (follows_commitRun hshown hbuilds fun _ => hleaves).bind (fun s l' h => ?_)
    fun e l' h => ?_
  · obtain ⟨⟨hheld, htells⟩, hrow⟩ := h
    refine hrest s l' ?_ hheld
    rw [(htells s rfl).1, hrow s rfl]
  · exact herror e l' h.1.1

theorem follows_advanceRun (hshown : l.shown = some (snapshot.run.version, snapshot.run.status))
    (hplain : Plain snapshot.steps) (hversion : snapshot.run.version = item.expectedRunVersion) :
    conduct.Follows job (advanceRun ctx snapshot item draw) l fun _ l' => l'.held = l.held := by
  unfold advanceRun
  refine lift_bind (fun plan hplan => ?_) fun _ _ => rfl
  have hadvances := advanceRunPlan_advances hversion.symm hplan
  have hleaves := advanceRunPlan_leaves hplan
  cases plan with
  | done => rfl
  | commit commit =>
    have hattempts := advanceRunPlan_attempts hversion.symm hplan
    have hbuilds : Builds snapshot.run.version snapshot.run.status commit := by
      cases hadvances with
      | moved _ hmakes => exact hmakes.builds hplain hattempts
      | pointed _ _ _ hmakes => exact hmakes.builds hplain hattempts
    exact follows_handlerCommit hshown hbuilds (hleaves nofun commit)
      (fun _ _ _ hheld => hheld) fun _ _ hheld => hheld
  | finalize commit =>
    cases hadvances with
    | finalized _ hmakes hitems =>
      have hbuilds := hmakes.builds hplain (by
        rw [hitems]
        exact forall_mem_nil _)
      refine follows_handlerCommit hshown hbuilds (hleaves nofun commit)
        (fun _ l' _ hheld => ?_) fun _ _ hheld => hheld
      refine follows_cancelQueue.bind (fun _ l'' hsame => ?_) fun _ l'' hsame => ?_
      · rw [hsame]
        exact hheld
      · rw [hsame]
        exact hheld

theorem follows_resumeRunHandler
    (hshown : l.shown = some (snapshot.run.version, snapshot.run.status))
    (hplain : Plain snapshot.steps) (hpaused : snapshot.run.status ≠ .paused) :
    conduct.Follows job (resumeRunHandler ctx snapshot item draw) l
      fun _ l' => l'.held = l.held := by
  unfold resumeRunHandler
  refine lift_bind (fun plan hplan => ?_) fun _ _ => rfl
  cases plan with
  | none => rfl
  | some commit =>
    obtain ⟨hmakes, hitems⟩ := resumeRunCommit_makes hplan
    have hleaves : Leaves snapshot.run.status commit := by
      refine fun _ => ⟨fun hwaiting => ?_, hpaused⟩
      rw [resumeRunCommit, hwaiting] at hplan
      cases hplan
    exact follows_handlerCommit hshown (hmakes.builds hplain (attempts_singleton hitems)) hleaves
      (fun _ _ _ hheld => hheld) fun _ _ hheld => hheld

theorem follows_finishStep {after : RunSnapshot} {step : RunStep}
    (hshown : l.shown = some (after.run.version, after.run.status))
    (hplain : Plain after.steps)
    (hstep : after.steps.find? (fun row => row.id == step.id) = some step) :
    conduct.Follows job (finishStep ctx model after.run step at_ draw) l
      fun _ l' => l'.held = l.held := by
  have hactor := hplain step (mem_of_find?_eq_some hstep)
  unfold finishStep
  rw [if_neg (by rw [hactor]; nofun)]
  refine lift_bind (fun commit hcommit => ?_) fun _ _ => rfl
  obtain ⟨hmakes, hitems⟩ := completeStepCommit_makes hstep hcommit
  exact follows_handlerCommit hshown (hmakes.builds hplain (attempts_singleton hitems))
    (hmakes.leaves nofun) (fun _ _ _ hheld => hheld) fun _ _ hheld => hheld

section

variable (hshown : l.shown = some (snapshot.run.version, snapshot.run.status))
  (hplain : Plain snapshot.steps)
  (hversion : snapshot.run.version = item.expectedRunVersion)

include hshown hplain hversion

theorem follows_executeStep :
    conduct.Follows job (executeStep ctx model snapshot item draw secondDraw) l
      fun _ l' => l'.held = l.held := by
  unfold executeStep
  refine lift_bind (fun first hfirst => ?_) fun _ _ => rfl
  cases first with
  | none => rfl
  | some started =>
    obtain ⟨commit, run, step⟩ := started
    obtain ⟨found, -, -, rfl, rfl, hmakes, hitems⟩ :=
      startStepCommit_makes hversion.symm hfirst
    let change := stepMoved found (startedStep found draw.at_) (some found.id)
    have hbuilds := hmakes.builds hplain (attempts_singleton hitems)
    have hrun : commit.run = (change.after snapshot commit.run.version draw.at_).run := hmakes.run
    refine follows_handlerCommit hshown hbuilds (hmakes.leaves nofun)
      (fun _ l' hshown' hheld => ?_) fun _ _ hheld => hheld
    rw [← hheld]
    show conduct.Follows job (finishStep ctx model commit.run _ _ _) l' _
    rw [hrun] at hshown' ⊢
    exact follows_finishStep hshown'
      (plain_foldl hplain (plain_steps hmakes.valid hplain))
      (find?_insertStep hmakes.valid.1 hmakes.valid.2)

theorem follows_handle (hpaused : snapshot.run.status ≠ .paused) :
    conduct.Follows job (handle ctx model snapshot item draw secondDraw) l
      fun _ l' => l'.held = l.held := by
  unfold handle
  split
  · exact follows_advanceRun hshown hplain hversion
  · exact follows_resumeRunHandler hshown hplain hpaused
  · exact follows_executeStep hshown hplain hversion

end

/-! ### Settling -/

theorem follows_completeItem (h : l.held = some item.id) :
    conduct.Follows job (completeItem ctx item) l fun _ _ => True :=
  ⟨h, fun _ _ => trivial⟩

theorem follows_retryItem {availableAt : Timestamp} (h : l.held = some item.id) :
    conduct.Follows job (retryItem ctx item availableAt error) l fun _ _ => True :=
  ⟨h, fun _ _ => trivial⟩

theorem follows_deadLetterItem (h : l.held = some item.id) :
    conduct.Follows job (deadLetterItem ctx item error) l fun _ _ => True :=
  ⟨h, fun _ _ => trivial⟩

theorem follows_settleItem {now : Timestamp} {outcome : AppResult RunWorkOutcome}
    (h : l.held = some item.id) :
    conduct.Follows job (settleItem ctx item now outcome) l fun _ _ => True := by
  unfold settleItem
  split
  · exact follows_completeItem h
  · exact follows_retryItem h
  · exact follows_deadLetterItem h
  · exact follows_completeItem h
  · exact follows_retryItem h
  · split
    · exact follows_retryItem h
    · exact follows_deadLetterItem h

theorem follows_handleLeased (hheld : l.held = some item.id)
    (hshown : l.shown = some (snapshot.run.version, snapshot.run.status))
    (hplain : Plain snapshot.steps) (hversion : snapshot.run.version = item.expectedRunVersion)
    (hpaused : snapshot.run.status ≠ .paused) :
    conduct.Follows job (handleLeased ctx model turn item snapshot) l fun _ _ => True := by
  unfold handleLeased
  refine bind (Q := fun _ l' => l' = l)
    (perform trivial fun _ _ => rfl) (fun lease l' hsame => ?_)
    fun _ _ _ => trivial
  rw [hsame]
  split
  · exact follows_retryItem hheld
  · trivial
  next lease =>
    refine bind (Q := fun _ l' => l'.held = l.held)
      (follows_handle hshown hplain hversion hpaused).attempt (fun outcome l' hheld' => ?_)
      fun _ _ _ => trivial
    refine (follows_settleItem (hheld'.trans hheld)).bind (fun _ _ _ => ?_) fun _ _ _ => trivial
    refine bind (Q := fun _ _ => True)
      (perform trivial fun _ _ => trivial) (fun _ _ _ => trivial)
      fun _ _ _ => trivial

theorem follows_processItem (hheld : l.held = some item.id) :
    conduct.Follows job (processItem ctx model turn item) l fun _ _ => True := by
  unfold processItem
  refine bind (Q := fun x l' => l'.held = l.held ∧ ∀ s, x = .ok (some s) →
      l'.shown = some (s.run.version, s.run.status) ∧ Plain s.steps)
    (perform trivial fun db hplain => ?_) (fun loaded l' h => ?_)
    fun _ _ _ => trivial
  · show (Memory.learn l (.load ctx item.runId) (db.load ctx item.runId)).held = l.held ∧
      ∀ s, Except.ok (db.load ctx item.runId) = .ok (some s) →
        (Memory.learn l (.load ctx item.runId) (db.load ctx item.runId)).shown =
          some (s.run.version, s.run.status) ∧ Plain s.steps
    cases hload : db.load ctx item.runId with
    | none =>
      refine ⟨rfl, fun s hs => ?_⟩
      cases hs
    | some snapshot =>
      refine ⟨rfl, fun s hs => ?_⟩
      cases hs
      refine ⟨rfl, ?_⟩
      rw [← (RunDb.load_stores hload).1.2]
      exact hplain
  · obtain ⟨hheld', hloaded⟩ := h
    rw [hheld] at hheld'
    cases loaded with
    | none => exact follows_deadLetterItem hheld'
    | some snapshot =>
      obtain ⟨hshown, hplain⟩ := hloaded snapshot rfl
      dsimp only
      split
      next =>
        refine bind (Q := fun _ _ => True)
          (perform hheld' fun _ _ => trivial) (fun result _ _ => ?_)
          fun _ _ _ => trivial
        split <;> trivial
      next hversion =>
        split
        next => exact follows_cancelQueue.mono fun _ _ _ => trivial
        next hopen =>
          exact follows_handleLeased hheld' hshown hplain (not_not.mp hversion)
            fun hpaused => hopen (.inr hpaused)

theorem follows_runOnce (hworker : job.workerId = some turn.workerId) :
    conduct.Follows job (runOnce ctx model turn) l fun _ _ => True := by
  unfold runOnce
  refine bind (Q := fun x l' => ∀ item, x = .ok (some item) → l'.held = some item.id)
    (perform hworker fun db _ item hitem => ?_) (fun leased l' hheld => ?_)
    fun _ _ _ => trivial
  · show ((db.leaseNext ctx turn.pick turn.workerId turn.leasedAt
      (turn.leasedAt + turn.leaseTtl)).1.map (·.id)) = some item.id
    have hanswer : (db.leaseNext ctx turn.pick turn.workerId turn.leasedAt
        (turn.leasedAt + turn.leaseTtl)).1 = some item := Except.ok.inj hitem
    rw [hanswer]
    rfl
  · cases leased with
    | none => trivial
    | some item =>
      have hheld' := hheld item rfl
      dsimp only
      split
      · exact (follows_processItem hheld').bind (fun _ _ _ => trivial) fun _ _ _ => trivial
      · exact (follows_deadLetterItem hheld').bind (fun _ _ _ => trivial) fun _ _ _ => trivial
      · trivial

end

theorem follows_program (job : Job) :
    conduct.Follows job job.program conduct.fresh fun _ _ => True := by
  have hunit : ∀ {α : Type} {p : RunProg α} {Q : AppResult α → Memory → Prop},
      conduct.Follows job p conduct.fresh Q →
      conduct.Follows job (do let _ ← p) conduct.fresh fun _ _ => True :=
    fun hp => hp.bind (fun _ _ _ => trivial) fun _ _ _ => trivial
  cases job with
  | worker ctx model turn => exact hunit (follows_runOnce rfl)
  | client ctx command =>
    cases command with
    | transitionRun command draw =>
      exact hunit (follows_transitionRunWith (forall_mem_nil _) ne_of_beq_false)
    | pauseRun | cancelRun =>
      exact hunit (follows_transitionRunWith (forall_mem_nil _) fun _ => nofun)
    | addSteps command draw => exact hunit (follows_addSteps command)
    | transitionStep command draw => exact hunit (follows_transitionStep command)
    | createCheckpoint command draw => exact hunit (follows_createCheckpoint command)
    | resumeRun command itemDraw draw => exact hunit (follows_resumeRun command itemDraw rfl)
    | approveRun command draw secondDraw => exact hunit (follows_approveRun command secondDraw rfl)

end Vestrace.Run
