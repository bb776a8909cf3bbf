import Vestrace.Run.Advance
import Vestrace.Run.Worker
import Vestrace.Lib.Exclusive

/-!
# No lost wake-up

Every commit moves the run's version and so turns every queued item into a no-op. A run that
waits for a worker stays alive only if an item was enqueued for the very version it is at
(`Awake`). An item may be dead-lettered, exhausted or cancelled while the run still needs it, and
two commands enqueue nothing useful (`Careful`).
-/

namespace Vestrace.Run

open Lib Pact.Safe RunVersion List RunDb RunChange RunWorld Job

variable {set : WorkItemRow → WorkItemRow} {where_ : WorkItemRow → Bool}

variable {s : RunSnapshot} {runId : AgentRunId} {steps : List RunStep} {stepId : RunStepId}
  {command : AddRunSteps} {db db' : RunDb} {ctx : RequestContext} {call : PortCall}
  {item : WorkItem} {id : WorkItemId} {at_ : Timestamp}

/-! ## Awake -/

/-- There is something for a worker to do: start the run, start a step, or end the run. -/
def Awaits (s : RunSnapshot) : Prop :=
  s.run.status.isDriven = true ∧ ((s.steps = [] ∧ s.run.status ≠ .running) ∨
      (∃ step ∈ s.steps, step.pendingReady = true) ∨ allStepsTerminal s.steps = true)

def WorkItemRow.Live (row : WorkItemRow) : Prop := row.status = .ready ∨ row.status = .leased

/-- An item on which a handler makes a commit, if the run waits at all. -/
def Productive (steps : List RunStep) : WorkItemKind → Prop
  | .advanceRun => True
  | .executeStep stepId => ∃ status, statusOf steps stepId = some status ∧ status.isTerminal = false
  | .resumeRun => False

structure Serves (s : RunSnapshot) (row : WorkItemRow) : Prop where
  live : row.Live
  version : row.item.expectedRunVersion = s.run.version
  productive : Productive s.steps row.item.kind

/-- While there is something for a worker to do, a ready or leased item for the run's current
version will do it. -/
def Awake (db : RunDb) : Prop :=
  ∀ s, db.Stores s → Awaits s → ∃ row ∈ db.workItems, Serves s row

structure Needs (s : RunSnapshot) (item : WorkItem) : Prop where
  awaits : Awaits s
  version : item.expectedRunVersion = s.run.version
  productive : Productive s.steps item.kind

/-- The run can do without this item: if it waits at all, another one will wake it. -/
def Spare (db : RunDb) (id : WorkItemId) : Prop :=
  ∀ s, db.Stores s → Awaits s → ∃ row ∈ db.workItems, Serves s row ∧ row.item.id ≠ id

/-! ## The contract -/

/-- `add_steps` brings work that can start at once, or leaves the run waiting for nothing. -/
def BringsWork (s : RunSnapshot) (command : AddRunSteps) : Prop :=
  (∃ dto ∈ command.steps, dto.inputReferences = []) ∨
    command.steps ≠ [] ∧ (∀ step ∈ s.steps, step.pendingReady = false) ∧
      ∀ dto ∈ command.steps, ∀ step ∈ s.steps, step.id ≠ dto.id

/-- Advancing is refused: all steps ended before the run was started, and there is no
transition from `Preparing` to the outcome. -/
structure Stuck (s : RunSnapshot) (item : WorkItem) : Prop where
  kind : item.kind = .advanceRun
  version : s.run.version = item.expectedRunVersion
  status : s.run.status = .preparing
  steps : allStepsTerminal s.steps = true
  outcome : (finalOutcome s.steps).1 ≠ .failed

def Careful (db : RunDb) : Job → PortCall → Prop
  | .client _ (.addSteps command _), .commit .. =>
    ∀ s, db.Stores s → s.run.version = command.expectedVersion → s.run.status.isDriven = true →
      BringsWork s command
  | .client _ (.resumeRun command _ _), .commit .. =>
    ∀ s, db.Stores s → s.run.version = command.expectedVersion → s.run.status = .running →
      ¬ Awaits s
  | .client _ (.cancelRun command _), .cancelForRun .. =>
    ∀ s, db.Stores s → Awaits s →
      (s.run.version = command.expectedVersion ∧ s.run.version.toNat + 1 < bigintLimit) ∧
        storable command.reason.toList = true ∧ db.resultPrepared = []
  | .worker .., .cancelForRun .. => ∀ s, db.Stores s → ¬ Awaits s
  | .worker _ _ turn, .deadLetter _ item _ =>
    ∀ s, db.Stores s → ¬ Stuck s item ∧
      ((∃ message, turn.verdict = .error (.policy message)) → ¬ Needs s item)
  | .worker .., .retry _ item _ _ =>
    (∃ row ∈ db.workItems, row.item.id = item.id ∧ row.status = .leased ∧
      row.maxAttempts ≤ row.item.attempt) → ∀ s, db.Stores s → ¬ Needs s item
  | _, _ => True

def Job.Orchestrated : Job → Prop
  | .client _ (.addSteps ..) | .client _ (.pauseRun ..) | .client _ (.resumeRun ..)
  | .client _ (.approveRun ..) | .client _ (.cancelRun ..) => True
  | .client _ _ => False
  | .worker .. => True

def Clearing (db : RunDb) (job : Job) (call : PortCall) : Prop :=
  ∃ context command draw commit row, job = .client context (.cancelRun command draw) ∧
    call = .commit context commit ∧ RunDb.Commits context db commit row

def wakeContract : Contract runPorts Job where
  Inv db := ∃ s, Tidy db s
  Rely := Moved
  Goal := Awake
  Owes := Clearing
  Job := Job.Orchestrated
  Allowed := Careful
  rely_refl := Moved.refl
  rely_trans := Moved.trans

/-! ## Quiet calls -/

theorem Quiet.commits {commit : CommitRun} (h : Quiet db db') {row : AgentRun}
    (hcommits : RunDb.Commits ctx db commit row) : RunDb.Commits ctx db' commit row := by
  obtain ⟨hfound, hworkspace, hid, hpositive, hversion, hbound, hresult, htexts, hversionBound,
    hsequenceBound, hsequence, ⟨hpair, hfresh⟩, hresults⟩ := hcommits
  refine ⟨h.run.trans hfound, hworkspace, hid, hpositive, hversion, hbound, hresult, htexts,
    hversionBound, hsequenceBound, ?_, ⟨hpair, ?_⟩, ?_⟩
  · rw [h.events]
    exact hsequence
  · intro item hitem row' hrow'
    have hmem : row'.item.identity ∈ db'.identities := mem_map.mpr ⟨row', hrow', rfl⟩
    rw [h.items] at hmem
    obtain ⟨old, hold, hidentity⟩ := mem_map.mp hmem
    obtain ⟨hids, -, -, -, hkeys⟩ := WorkItem.identity_inj.mp hidentity
    rw [← hids, ← hkeys]
    exact hfresh item hitem old hold
  · rw [resultBlocks, h.prepared]
    exact hresults

theorem Quiet.clearing {job : Job} (h : Quiet db db') (howes : Clearing db job call) :
    Clearing db' job call := by
  obtain ⟨ctx, command, draw, commit, row, hjob, hcall, hcommits⟩ := howes
  exact ⟨ctx, command, draw, commit, row, hjob, hcall, h.commits hcommits⟩

section

variable {job : Job} {error : RunFailure}

theorem safe_quiet {post : AppResult call.Answer → RunDb → Prop}
    (hquiet : call.isQuiet = true)
    (hgoal : ∀ t s, Moved db t → Tidy t s → Careful t job call → Awake t → Awake (call.exec t).2)
    (hpost : ∀ t s, Moved db t → Tidy t s → post (.ok (call.exec t).1) (call.exec t).2) :
    wakeContract.Safe job (Prog.perform (P := runPorts) call) db post := by
  intro t hmoved hinv hcareful
  obtain ⟨s, htidy⟩ := hinv
  have hq := exec_quiet hquiet t
  refine ⟨⟨⟨s, hq.tidy htidy⟩, fun _ _ _ => hq.moved, fun hbefore => ?_,
    fun _ _ _ howes => .inr (hq.clearing howes)⟩, hpost t s hmoved htidy⟩
  rcases hbefore with hawake | howes
  · exact .inl (hgoal t s hmoved htidy hcareful hawake)
  · obtain ⟨_, _, _, _, _, -, rfl, -⟩ := howes
    cases hquiet

theorem awake_updateItems (hset : ∀ row, (set row).item.identity = row.item.identity)
    (h : ∀ s, db.Stores s → Awaits s →
      ∃ row ∈ db.workItems, Serves s row ∧ (where_ row = true → (set row).Live)) :
    Awake (db.updateItems ctx where_ set).2 := by
  intro s hs hawaits
  obtain ⟨row, hrow, hserves, hlive⟩ := h s hs hawaits
  refine ⟨_, mem_map.mpr ⟨row, hrow, rfl⟩, ?_⟩
  by_cases hselected : (db.sees ctx && where_ row) = true
  · rw [if_pos hselected]
    have hwhere : where_ row = true := (Bool.and_eq_true_iff.mp hselected).2
    obtain ⟨-, -, hkind, hversion, -⟩ := WorkItem.identity_inj.mp (hset row)
    refine ⟨hlive hwhere, hversion.trans hserves.version, ?_⟩
    rw [hkind]
    exact hserves.productive
  · rw [if_neg hselected]
    exact hserves

theorem Tidy.spare (htidy : Tidy db s) (hknown : Known item db) (hawake : Awake db)
    (h : ¬ Needs s item) : Spare db item.id := by
  intro s' hs' hawaits
  obtain ⟨row, hrow, hserves⟩ := hawake s' hs' hawaits
  rw [hs'.unique htidy.stores] at hawaits hserves ⊢
  refine ⟨row, hrow, hserves, fun hid => ?_⟩
  -- the row would be this very item's
  have hmem : row.item.identity ∈ db.identities := mem_map.mpr ⟨row, hrow, rfl⟩
  obtain ⟨-, -, hkind, hversion, -⟩ :=
    WorkItem.identity_inj.mp (inj_on_of_nodup_map htidy.itemIds hmem hknown hid)
  have hproductive := hserves.productive
  rw [hkind] at hproductive
  exact h ⟨hawaits, hversion.symm.trans hserves.version, hproductive⟩

theorem Spare.awake (h : Spare db id) (hset : ∀ row, (set row).item.identity = row.item.identity)
    (hwhere : ∀ row, where_ row = true → row.item.id = id) :
    Awake (db.updateItems ctx where_ set).2 := by
  refine awake_updateItems hset fun s hs hawaits => ?_
  obtain ⟨row, hrow, hserves, hid⟩ := h s hs hawaits
  exact ⟨row, hrow, hserves, fun hselected => absurd (hwhere row hselected) hid⟩

theorem safe_complete (hspare : ∀ t s, Moved db t → Tidy t s → Awake t → Spare t item.id) :
    wakeContract.Safe (ε := ApplicationError) job
      (Prog.perform (P := runPorts) (.complete ctx item)) db fun _ _ => True := by
  refine safe_quiet rfl (fun t s hmoved htidy _ hawake => ?_) fun _ _ _ _ => trivial
  show Awake (transact (fun db => db.complete ctx item) t).2
  unfold complete
  rw [affected_state]
  refine (hspare t s hmoved htidy hawake).awake (fun _ => rfl) fun row hselected => ?_
  simp only [Bool.and_eq_true, beq_iff_eq] at hselected
  exact hselected.1

theorem safe_deadLetterItem
    (hspare : ∀ t s, Moved db t → Tidy t s → Careful t job (.deadLetter ctx item error) →
      Awake t → Spare t item.id) :
    wakeContract.Safe job (deadLetterItem ctx item error) db fun _ _ => True := by
  refine Pact.Safe.seq ?_ fun _ _ => trivial
  refine safe_quiet rfl (fun t s hmoved htidy hcareful hawake => ?_) fun _ _ _ _ => trivial
  show Awake (transact (fun db => db.deadLetter ctx item error) t).2
  unfold deadLetter
  rw [affected_state]
  refine (hspare t s hmoved htidy hcareful hawake).awake (fun _ => rfl) fun row hselected => ?_
  simp only [Bool.and_eq_true, beq_iff_eq] at hselected
  exact hselected.1

theorem safe_retryItem {model : Option StepModelExecutor} {turn : Iteration}
    {availableAt : Timestamp} (hknown : Known item db) :
    wakeContract.Safe (.worker ctx model turn) (retryItem ctx item availableAt error) db
      fun _ _ => True := by
  refine Pact.Safe.seq ?_ fun _ _ => trivial
  refine safe_quiet rfl (fun t s hmoved htidy hcareful hawake => ?_) fun _ _ _ _ => trivial
  show Awake (transact (fun db => db.retry ctx item availableAt error) t).2
  unfold retry
  rw [affected_state]
  by_cases hexhausted : ∃ row ∈ t.workItems, row.item.id = item.id ∧ row.status = .leased ∧
      row.maxAttempts ≤ row.item.attempt
  · have hspare := htidy.spare (hknown.moved hmoved) hawake (hcareful hexhausted s htidy.stores)
    refine hspare.awake (fun _ => rfl) fun row hselected => ?_
    simp only [Bool.and_eq_true, beq_iff_eq] at hselected
    exact hselected.1
  · refine awake_updateItems (fun _ => rfl) fun s' hs' hawaits => ?_
    obtain ⟨row, hrow, hserves⟩ := hawake s' hs' hawaits
    refine ⟨row, hrow, hserves, fun hselected => .inl ?_⟩
    simp only [Bool.and_eq_true, beq_iff_eq] at hselected
    exact if_neg fun hattempts => hexhausted ⟨row, hrow, hselected.1, hselected.2, hattempts⟩

/-- Clearing the queue of a run that waits for nothing. -/
theorem safe_cancelQueue
    (h : ∀ t s, Moved db t → Tidy t s → Careful t job (.cancelForRun ctx runId at_) →
      ¬ Awaits s) : wakeContract.Safe job (cancelQueue ctx runId at_) db fun _ _ => True := by
  refine Pact.Safe.seq ?_ fun _ _ => trivial
  refine safe_quiet rfl (fun t s hmoved htidy hcareful _ => ?_) fun _ _ _ _ => trivial
  intro s' hs' hawaits
  have hstores : t.Stores s' := hs'
  rw [hstores.unique htidy.stores] at hawaits
  exact absurd hawaits (h t s hmoved htidy hcareful)

/-! ## Commits -/

structure Handover (job : Job) (context : RequestContext) (snapshot : RunSnapshot)
    (change : RunChange) (at_ : Timestamp) (commit : CommitRun) : Prop where
  makes : Makes context snapshot change at_ commit
  addressed : Addressed snapshot commit
  approval : ∀ result, change ≠ .status .waitingForApproval result
  wakes : ∀ t, t.Stores snapshot → Careful t job (.commit context commit) → Proper snapshot →
    Awaits (change.after snapshot commit.run.version at_) → ∃ item ∈ commit.workItems,
        Productive (change.after snapshot commit.run.version at_).steps item.kind

section

variable {snapshot : RunSnapshot} {change : RunChange}
variable {commit : CommitRun}

theorem Handover.awake (h : Handover job ctx snapshot change at_ commit)
    (htidy : Tidy db snapshot) (hcareful : Careful db job (.commit ctx commit)) :
    Awake (db.written (change.apply snapshot.run commit.run.version at_) commit) := by
  intro s hs hawaits
  have hstores := h.makes.written_stores htidy.stores
  rw [hs.unique hstores] at hawaits ⊢
  obtain ⟨item, hitem, hproductive⟩ := h.wakes db htidy.stores hcareful htidy.proper hawaits
  refine ⟨readyRow item, ?_, .inl rfl, ?_, hproductive⟩
  · exact mem_append_right _ (mem_map.mpr ⟨item, hitem, rfl⟩)
  · show item.expectedRunVersion = (change.apply snapshot.run commit.run.version at_).version
    rw [apply_version]
    exact (h.addressed item hitem).1

def Answers (after : RunSnapshot) : AppResult RunSnapshot → RunDb → Prop
  | .ok committed, db => committed = after ∧ db.Stores after
  | .error e, _ => StoreError e

theorem safe_commitRun (h : Handover job ctx snapshot change at_ commit)
    (hseen : Seen snapshot db) :
    wakeContract.Safe job (commitRun ctx commit) db
      (Answers (change.after snapshot commit.run.version at_)) := by
  intro t hmoved hinv hcareful
  obtain ⟨s, htidy⟩ := hinv
  let exec := transact (fun db : RunDb => db.commitOn ctx commit) t
  show wakeContract.pact.Guar t exec.2 job (.commit ctx commit) (Prog.ret exec.1) ∧
    Answers _ exec.1 exec.2
  cases hok : t.commitOn ctx commit with
  | error e =>
    have hexec : exec = (.error e, t) := by
      show transact _ t = _
      rw [transact, hok]
    rw [hexec]
    refine ⟨⟨⟨s, htidy⟩, fun _ _ _ => Moved.refl t, ?_, fun _ _ _ howes => .inr howes⟩,
      commitOn_fails t ctx commit e hok⟩
    intro hbefore
    rcases hbefore with hawake | howes
    · exact .inl hawake
    · -- what a cancellation owes is a commit that is accepted
      obtain ⟨_, _, _, _, row, -, hcall, hcommits⟩ := howes
      cases hcall
      rw [commitOn_ok.mpr ⟨row, hcommits, rfl, rfl⟩] at hok
      cases hok
  | ok result =>
    obtain ⟨after, t'⟩ := result
    have hexec : exec = (.ok after, t') := by
      show transact _ t = _
      rw [transact, hok]
    rw [hexec]
    obtain ⟨hstores, hcommits, rfl, rfl⟩ := h.makes.accepted (hseen.moved hmoved) hok
    rw [htidy.stores.unique hstores] at htidy
    have hawake := h.awake htidy hcareful
    exact ⟨⟨⟨_, h.makes.tidy htidy hcommits h.addressed h.approval⟩,
      fun _ _ _ => h.makes.moved hstores, fun _ => .inl hawake,
      fun _ _ _ _ => .inl hawake⟩, rfl, h.makes.written_stores hstores⟩

end

end

/-! ## The worker -/

structure Taken (item : WorkItem) (snapshot : RunSnapshot) (db : RunDb) : Prop where
  known : Known item db
  seen : Seen snapshot db
  version : snapshot.run.version = item.expectedRunVersion
  proper : Proper snapshot

def Passed (item : WorkItem) (db : RunDb) : Prop :=
  ∃ s, db.Stores s ∧ item.expectedRunVersion.toNat < s.run.version.toNat

def Unneeded (item : WorkItem) (snapshot : RunSnapshot) (db : RunDb) : Prop :=
  Passed item db ∨ (Awaits snapshot → ¬ Productive snapshot.steps item.kind)

section

variable {model : Option StepModelExecutor} {turn : Iteration}
variable {snapshot : RunSnapshot} {draw secondDraw : Draw} {job : Job} {commit : CommitRun}
  {e : ApplicationError} {change : RunChange} {version : RunVersion} {step : RunStep}

theorem Taken.moved (h : Taken item snapshot db) (hmoved : Moved db db') :
    Taken item snapshot db' :=
  ⟨h.known.moved hmoved, h.seen.moved hmoved, h.version, h.proper⟩

theorem Passed.moved (h : Passed item db) (hmoved : Moved db db') : Passed item db' := by
  obtain ⟨s, hs, hlt⟩ := h
  obtain ⟨s', hs', hlater⟩ := hmoved.run s hs
  exact ⟨s', hs', hlt.trans_le hlater.version⟩

theorem Unneeded.moved (h : Unneeded item snapshot db) (hmoved : Moved db db') :
    Unneeded item snapshot db' := h.imp_left fun hpassed => hpassed.moved hmoved

theorem Taken.current_or_passed (h : Taken item snapshot db) :
    db.Stores snapshot ∨ Passed item db := by
  obtain ⟨s, hs, hlater⟩ := h.seen
  by_cases hversion : s.run.version = snapshot.run.version
  · rw [hlater.same hversion] at hs
    exact .inl hs
  · refine .inr ⟨s, hs, ?_⟩
    rw [← h.version]
    exact lt_of_le_of_ne hlater.version fun heq => hversion (toNat_inj.mp heq.symm)

theorem Passed.spare (h : Passed item db) (htidy : Tidy db s) (hknown : Known item db)
    (hawake : Awake db) : Spare db item.id := by
  refine htidy.spare hknown hawake fun hneeds => ?_
  obtain ⟨s', hs', hlt⟩ := h
  rw [hs'.unique htidy.stores, hneeds.version] at hlt
  exact lt_irrefl _ hlt

theorem Taken.spare (h : Taken item snapshot db) (hunneeded : Unneeded item snapshot db)
    (htidy : Tidy db s) (hawake : Awake db) : Spare db item.id := by
  rcases h.current_or_passed with hstores | hpassed
  · rcases hunneeded with hpassed | hidle
    · exact hpassed.spare htidy h.known hawake
    · refine htidy.spare h.known hawake fun hneeds => ?_
      rw [htidy.stores.unique hstores] at hneeds
      exact hidle hneeds.awaits hneeds.productive
  · exact hpassed.spare htidy h.known hawake

/-- What a handler's answer says about its item. -/
def Settled (item : WorkItem) (snapshot : RunSnapshot) : AppResult RunWorkOutcome → RunDb → Prop
  | .ok .completed, db => Unneeded item snapshot db
  | .ok .noopStaleVersion, db => Unneeded item snapshot db
  | .ok (.retry ..), _ => True
  | .ok (.deadLetter _), _ => False
  | .error e, db => StoreError e ∨ Unneeded item snapshot db ∨ Stuck snapshot item

theorem safe_settleItem {now : Timestamp} {outcome : AppResult RunWorkOutcome}
    (htaken : Taken item snapshot db) (hsettled : Settled item snapshot outcome db) :
    wakeContract.Safe (.worker ctx model turn) (settleItem ctx item now outcome) db
      fun _ _ => True := by
  have hcomplete : Unneeded item snapshot db →
      wakeContract.Safe (.worker ctx model turn) (completeItem ctx item) db
        fun _ _ => True := by
    intro hunneeded
    refine (safe_complete fun t s hmoved htidy hawake => ?_).seq fun _ _ => trivial
    exact (htaken.moved hmoved).spare (hunneeded.moved hmoved) htidy hawake
  cases outcome with
  | ok outcome =>
    cases outcome with
    | completed | noopStaleVersion => exact hcomplete hsettled
    | retry availableAt error => exact safe_retryItem htaken.known
    | deadLetter error => exact hsettled.elim
  | error e =>
    -- the store's errors are retried, all others are not
    have hdead : ¬ StoreError e → wakeContract.Safe (.worker ctx model turn)
        (deadLetterItem ctx item (handlerError e)) db fun _ _ => True := by
      intro hstore
      refine safe_deadLetterItem fun t s hmoved htidy hcareful hawake => ?_
      have htaken' := htaken.moved hmoved
      rcases hsettled with hstore' | hunneeded | hstuck
      · exact absurd hstore' hstore
      · exact htaken'.spare (hunneeded.moved hmoved) htidy hawake
      · rcases htaken'.current_or_passed with hstores | hpassed
        · exact absurd hstuck (hcareful snapshot hstores).1
        · exact htaken'.spare (.inl hpassed) htidy hawake
    cases e with
    | conflict | storage => exact safe_retryItem htaken.known
    | _ =>
      refine hdead fun hstore => ?_
      rcases hstore with ⟨message, heq⟩ | ⟨message, heq⟩ <;> cases heq

/-! ### Advancing -/

theorem advanceRunPlan_error (htaken : Taken item snapshot db) (hkind : item.kind = .advanceRun)
    (h : advanceRunPlan ctx snapshot item draw = .error e) : Stuck snapshot item := by
  by_contra hnot
  have hroom : snapshot.run.version.toNat + 1 < 2 ^ 64 := by
    have hbound := htaken.proper.bound
    rw [bigintLimit] at hbound
    omega
  obtain ⟨plan, hplan⟩ := advanceRunPlan_exists ctx draw htaken.version htaken.proper.positive
    hroom fun hpreparing hterminal => by_contra fun houtcome =>
      hnot ⟨hkind, htaken.version, hpreparing, hterminal, houtcome⟩
  rw [hplan] at h
  cases h

theorem RunStatus.not_driven_of_terminal {s : RunStatus} (h : s.isTerminal = true) :
    s.isDriven = false := by
  cases s <;> first | rfl | cases h

theorem pendingReadySteps_eq_nil :
    pendingReadySteps steps = [] ↔ ∀ step ∈ steps, step.pendingReady = false := by
  simp [pendingReadySteps]

theorem Advances.not_awaits (h : Advances ctx snapshot draw .done) : ¬ Awaits snapshot := by
  cases h with
  | idle hidle =>
    intro hawaits
    obtain ⟨hcreated, hpreparing, hidle⟩ := hidle
    obtain ⟨hdriven, hwork⟩ := hawaits
    rcases RunStatus.isDriven_iff.mp hdriven with hstatus | hstatus | hrunning
    · exact hcreated hstatus
    · exact hpreparing hstatus
    · obtain ⟨hterminal, hready⟩ := hidle hrunning
      rcases hwork with ⟨-, hstatus⟩ | ⟨step, hstep, hpending⟩ | hended
      · exact hstatus hrunning
      · rw [pendingReadySteps_eq_nil.mp hready step hstep] at hpending
        cases hpending
      · rw [hterminal] at hended
        cases hended

theorem handover_of_advance (job : Job) {i : ℕ} (hmakes : Makes ctx snapshot change at_ commit)
    (haddressed : Addressed snapshot commit)
    (happroval : ∀ result, change ≠ .status .waitingForApproval result)
    (hitem : draw.workItem i runId .advanceRun version ∈ commit.workItems) :
    Handover job ctx snapshot change at_ commit :=
  ⟨hmakes, haddressed, happroval, fun _ _ _ _ _ => ⟨_, hitem, trivial⟩⟩

theorem handover_of_single (job : Job) (hmakes : Makes ctx snapshot change at_ commit)
    (hitems : commit.workItems = [draw.workItem 0 snapshot.run.id .advanceRun commit.run.version])
    (happroval : ∀ result, change ≠ .status .waitingForApproval result) :
    Handover job ctx snapshot change at_ commit := by
  refine handover_of_advance job hmakes ?_ happroval (hitems ▸ mem_cons_self)
  intro built hbuilt
  rw [hitems, mem_singleton] at hbuilt
  rw [hbuilt]
  exact ⟨rfl, rfl⟩

theorem handover_of_not_driven (job : Job) {target : RunStatus} {result : Option RunTerminalResult}
    (hmakes : Makes ctx snapshot (.status target result) at_ commit)
    (hitems : commit.workItems = []) (htarget : target.isDriven = false)
    (happroval : target ≠ .waitingForApproval) :
    Handover job ctx snapshot (.status target result) at_ commit := by
  refine ⟨hmakes, ?_, ?_, ?_⟩
  · unfold Addressed
    rw [hitems]
    exact forall_mem_nil _
  · intro result' heq
    cases heq
    exact happroval rfl
  · intro t _ _ _ hawaits
    have hdriven : (apply snapshot.run commit.run.version at_
      (.status target result)).status.isDriven = true := hawaits.1
    rw [apply_status] at hdriven
    exact absurd (hdriven.symm.trans htarget) nofun

theorem statusOf_of_mem (hnodup : (steps.map (·.id)).Nodup) (hmem : step ∈ steps) :
    statusOf steps step.id = some step.status := by
  induction steps with
  | nil => cases hmem
  | cons head steps ih =>
    rw [map_cons, nodup_cons] at hnodup
    rw [statusOf_cons]
    rcases mem_cons.mp hmem with rfl | htail
    · exact if_pos rfl
    · rw [if_neg fun hid => hnodup.1 (mem_map.mpr ⟨step, htail, hid.symm⟩)]
      exact ih hnodup.2 htail

theorem mem_executeItems {steps : List RunStepId} (h : stepId ∈ steps) :
    ∃ i, draw.workItem i runId (.executeStep stepId) version ∈
      executeItems draw runId version steps := by
  obtain ⟨i, hi, rfl⟩ := mem_iff_getElem.mp h
  exact ⟨i, mem_mapIdx.mpr ⟨i, hi, rfl⟩⟩

theorem Advances.handover (hproper : Proper snapshot)
    (h : Advances ctx snapshot draw (.commit commit)) :
    ∃ change, Handover job ctx snapshot change draw.at_ commit := by
  cases h with
  | moved hstatus hmakes hitem haddressed =>
    refine ⟨_, handover_of_advance job hmakes haddressed ?_ hitem⟩
    intro result heq
    cases heq
    -- no other status leads to `WaitingForApproval`
    have hallowed := hmakes.valid.2
    cases hcase : snapshot.run.status with
    | waitingForApproval => exact hproper.approval hcase
    | running => exact hstatus hcase
    | _ =>
      rw [hcase] at hallowed
      cases hallowed
  | pointed hstatus hsteps hready hmakes hitems =>
    refine ⟨_, hmakes, ?_, nofun, ?_⟩
    · intro built hbuilt
      rw [hitems] at hbuilt
      exact executeItems_addressed hbuilt
    · intro t _ _ _ _
      obtain ⟨stepId, hmem⟩ := exists_mem_of_ne_nil _ hready
      obtain ⟨step, hstep, rfl⟩ := mem_map.mp hmem
      obtain ⟨hstep, hpending⟩ := mem_filter.mp hstep
      obtain ⟨i, hitem⟩ := mem_executeItems hmem
      rw [← hitems] at hitem
      refine ⟨_, hitem, step.status, statusOf_of_mem hproper.stepIds hstep, ?_⟩
      simp only [RunStep.pendingReady, Bool.and_eq_true, beq_iff_eq] at hpending
      rw [hpending.2]
      rfl

section

variable (htaken : Taken item snapshot db)

include htaken

theorem Passed.of_after (hmakes : Makes ctx snapshot change at_ commit)
    (hstores : db'.Stores (change.after snapshot commit.run.version at_)) : Passed item db' := by
  refine ⟨_, hstores, ?_⟩
  show item.expectedRunVersion.toNat <
    (change.apply snapshot.run commit.run.version at_).version.toNat
  rw [apply_version, ← htaken.version, next_eq_ok.mp hmakes.next]
  exact Nat.lt_succ_self _

theorem safe_advanceRun (hkind : item.kind = .advanceRun) :
    wakeContract.Safe job (advanceRun ctx snapshot item draw) db (Settled item snapshot) := by
  unfold advanceRun
  refine lift_bind (fun plan hplan => ?_)
    fun e he => .inr (.inr (advanceRunPlan_error htaken hkind he))
  have hadvances := advanceRunPlan_advances htaken.version.symm hplan
  cases plan with
  | done => exact .inr fun hawaits => absurd hawaits hadvances.not_awaits
  | commit commit =>
    obtain ⟨change, hhandover⟩ := hadvances.handover htaken.proper
    refine (safe_commitRun hhandover htaken.seen).bind (fun after t hmoved hanswer => ?_)
      fun e t hmoved hanswer => .inl hanswer
    exact .inl (Passed.of_after htaken hhandover.makes hanswer.2)
  | finalize commit =>
    cases hadvances with
    | finalized hsteps hmakes hitems =>
      have hterminal : (finalOutcome snapshot.steps).1.isTerminal = true := hmakes.valid.1.mpr rfl
      have happroval : (finalOutcome snapshot.steps).1 ≠ .waitingForApproval := by
        intro heq
        rw [heq] at hterminal
        cases hterminal
      have hhandover := handover_of_not_driven job hmakes hitems
        (RunStatus.not_driven_of_terminal hterminal) happroval
      refine (safe_commitRun hhandover htaken.seen).bind (fun after t hmoved hanswer => ?_)
        fun e t hmoved hanswer => .inl hanswer
      have hpassed : Passed item t := Passed.of_after htaken hmakes hanswer.2
      refine (safe_cancelQueue fun u s hmoved' htidy _ hawaits => ?_).bind
        (fun _ u hmoved' _ => ?_) fun _ u hmoved' _ => ?_
      · -- the run is over, and stays over
        obtain ⟨s', hs', hlater⟩ := hmoved'.run _ hanswer.2
        rw [htidy.stores.unique hs'] at hawaits
        have hover : s'.run.status.isTerminal = true := by
          refine hlater.terminal ?_
          show (apply _ _ _ _).status.isTerminal = true
          rw [apply_status]
          exact hterminal
        exact absurd (hawaits.1.symm.trans (RunStatus.not_driven_of_terminal hover)) nofun
      · exact .inl (hpassed.moved hmoved')
      · exact .inr (.inl (.inl (hpassed.moved hmoved')))

/-! ### Executing and resuming -/

theorem safe_resumeRunHandler (hkind : item.kind = .resumeRun) :
    wakeContract.Safe job (resumeRunHandler ctx snapshot item draw) db
      (Settled item snapshot) := by
  have hunneeded : ∀ t, Unneeded item snapshot t := by
    intro t
    refine .inr fun _ hproductive => ?_
    rw [hkind] at hproductive
    exact hproductive
  unfold resumeRunHandler
  refine lift_bind (fun plan hplan => ?_) fun e _ => .inr (.inl (hunneeded db))
  cases plan with
  | none => exact hunneeded db
  | some commit =>
    obtain ⟨hmakes, hitems⟩ := resumeRunCommit_makes hplan
    have hhandover := handover_of_single job hmakes hitems nofun
    exact (safe_commitRun hhandover htaken.seen).bind (fun after t hmoved hanswer => hunneeded t)
      fun e t hmoved hanswer => .inl hanswer

theorem startStepCommit_error (hkind : item.kind = .executeStep stepId)
    (h : startStepCommit ctx snapshot item draw = .error e) :
    snapshot.steps.find? (fun row => row.id == stepId) = none := by
  by_contra hfound
  obtain ⟨found, hfound⟩ := Option.ne_none_iff_exists'.mp hfound
  have hbound := htaken.proper.bound
  have hpositive := htaken.proper.positive
  rw [htaken.version] at hbound hpositive
  rw [bigintLimit] at hbound
  obtain ⟨next, hnext⟩ := next_exists (v := item.expectedRunVersion) (by omega)
  have hlater : 1 < next.toNat := by
    have := next_eq_ok.mp hnext
    omega
  obtain ⟨event, hevent⟩ := event_exists draw snapshot.run.id ctx.workspaceId .system
    (.stepStatusChanged stepId found.status .running found.attempt) draw.correlationId rfl hlater
  unfold startStepCommit at h
  rw [hkind] at h
  dsimp only at h
  rw [hfound, hnext] at h
  dsimp only [okOr, Except.mapError] at h
  rw [ok_bind, ok_bind, hevent] at h
  split at h <;> cases h

end

theorem safe_finishStep {after : RunSnapshot} (hseen : Seen after db)
    (hactor : isAgentStep step.assignedActor = false)
    (hstep : after.steps.find? (fun row => row.id == step.id) = some step)
    (hpassed : Passed item db) :
    wakeContract.Safe job (finishStep ctx model after.run step at_ draw) db
      (Settled item snapshot) := by
  unfold finishStep
  rw [if_neg (by rw [hactor]; nofun)]
  refine lift_bind (fun commit hcommit => ?_)
    fun e _ => .inr (.inl (.inl hpassed))
  obtain ⟨hmakes, hitems⟩ := completeStepCommit_makes hstep hcommit
  refine (safe_commitRun (handover_of_single job hmakes hitems nofun) hseen).bind
    (fun _ t hmoved _ => ?_) fun e t hmoved hanswer => .inl hanswer
  exact .inl (hpassed.moved hmoved)

theorem safe_executeStep (htaken : Taken item snapshot db)
    (hkind : item.kind = .executeStep stepId) :
    wakeContract.Safe job (executeStep ctx model snapshot item draw secondDraw) db
      (Settled item snapshot) := by
  unfold executeStep
  refine lift_bind (fun first hfirst => ?_) fun e he => ?_
  · cases first with
    | none =>
      -- the step is over
      refine .inr fun _ hproductive => ?_
      rw [hkind] at hproductive
      obtain ⟨status, hstatus, hterminal⟩ := hproductive
      obtain ⟨step, hstep, rfl⟩ := Option.map_eq_some_iff.mp hstatus
      rw [startStepCommit_none hkind hfirst hstep] at hterminal
      cases hterminal
    | some started =>
      obtain ⟨commit, run, step⟩ := started
      obtain ⟨found, hkind', hterminal, rfl, rfl, hmakes, hitems⟩ :=
        startStepCommit_makes htaken.version.symm hfirst
      have hhandover := handover_of_single job hmakes hitems nofun
      refine (safe_commitRun hhandover htaken.seen).bind (fun after t hmoved hanswer => ?_)
        fun e t hmoved hanswer => .inl hanswer
      obtain ⟨rfl, hstores⟩ := hanswer
      have hrun : commit.run = (after (.stepMoved found (startedStep found draw.at_)
          (some found.id)) snapshot commit.run.version draw.at_).run := hmakes.run
      have hactor := htaken.proper.plain found (mem_of_find?_eq_some hmakes.valid.1)
      show wakeContract.Safe job (finishStep ctx model commit.run _ _ _) t _
      rw [hrun]
      exact safe_finishStep hstores.seen hactor
        (find?_insertStep hmakes.valid.1 hmakes.valid.2) (Passed.of_after htaken hmakes hstores)
  · refine .inr (.inl (.inr fun _ hproductive => ?_))
    rw [hkind] at hproductive
    obtain ⟨status, hstatus, -⟩ := hproductive
    rw [statusOf, startStepCommit_error htaken hkind he] at hstatus
    cases hstatus

theorem safe_handle (htaken : Taken item snapshot db) :
    wakeContract.Safe job (handle ctx model snapshot item draw secondDraw) db
      (Settled item snapshot) := by
  unfold handle
  split
  next hkind => exact safe_advanceRun htaken hkind
  next hkind => exact safe_resumeRunHandler htaken hkind
  next hkind => exact safe_executeStep htaken hkind

/-! ### One iteration -/

structure Held (context : RequestContext) (item : WorkItem) (db : RunDb) : Prop where
  known : Known item db
  workspace : ∃ s, db.Stores s ∧ s.run.workspaceId = context.workspaceId

theorem Held.moved (h : Held ctx item db) (hmoved : Moved db db') : Held ctx item db' := by
  obtain ⟨s, hs, hworkspace⟩ := h.workspace
  obtain ⟨s', hs', hlater⟩ := hmoved.run s hs
  exact ⟨h.known.moved hmoved, s', hs', hlater.workspace.trans hworkspace⟩

theorem Held.load (h : Held ctx item db) (htidy : Tidy db s) :
    db.load ctx item.runId = some s := by
  obtain ⟨s', hs', hworkspace⟩ := h.workspace
  rw [hs'.unique htidy.stores] at hworkspace
  have hid : item.runId = s.run.id := (htidy.items _ h.known).2
  refine load_eq_some.mpr ⟨s.run, htidy.stores.1, hworkspace, hid.symm, ?_⟩
  rw [htidy.stores.2]

theorem leaseNext_held {workerId : WorkerId}
    {now leaseUntil : Timestamp} (hstores : db.Stores snapshot)
    (h : (db.leaseNext ctx id workerId now leaseUntil).1 = some item) :
    Held ctx item (db.leaseNext ctx id workerId now leaseUntil).2 := by
  obtain ⟨row, hfind, rfl⟩ := Option.map_eq_some_iff.mp h
  have hquiet : Quiet db (db.leaseNext ctx id workerId now leaseUntil).2 :=
    updateItems_quiet fun _ => rfl
  refine ⟨?_, snapshot, (hquiet.stores snapshot).mpr hstores, ?_⟩
  · show (attempted row.item).identity ∈ _
    rw [hquiet.items]
    exact mem_map.mpr ⟨row, mem_of_find?_eq_some hfind, rfl⟩
  · have hselected := List.find?_some hfind
    simp only [sees, hstores.1, Option.any_some, Bool.and_eq_true, beq_iff_eq] at hselected
    exact hselected.1

theorem safe_load {post : AppResult (Option RunSnapshot) → RunDb → Prop}
    (hpost : ∀ t s, Moved db t → Tidy t s → post (.ok (t.load ctx runId)) t) :
    wakeContract.Safe job (Prog.perform (P := runPorts) (.load ctx runId)) db post :=
  safe_quiet rfl (fun _ _ _ _ _ hawake => hawake) hpost

theorem safe_handleLeased (htaken : Taken item snapshot db) :
    wakeContract.Safe (.worker ctx model turn)
      (handleLeased ctx model turn item snapshot) db fun _ _ => True := by
  unfold handleLeased
  refine Contract.Safe.bind (Q := fun _ _ => True) ?_ (fun lease t hmoved _ => ?_)
    fun _ _ _ _ => trivial
  · refine safe_quiet rfl (fun t s _ _ _ hawake => ?_) fun _ _ _ _ => trivial
    obtain ⟨held, hstate⟩ := acquire_state t ctx item.runId turn.workerId turn.now
      (turn.now + turn.leaseTtl)
    rw [hstate]
    exact hawake
  · split
    next => exact safe_retryItem (htaken.moved hmoved).known
    next => trivial
    next lease =>
      refine Contract.Safe.bind (Q := fun x t => ∃ outcome, x = .ok outcome ∧
        Settled item snapshot outcome t) ?_ (fun outcome u hmoved' hsettled => ?_)
        fun _ _ _ _ => trivial
      · exact ((safe_handle (htaken.moved hmoved)).mono fun x t hx => ⟨x, rfl, hx⟩).attempt
      · obtain ⟨_, heq, hsettled⟩ := hsettled
        cases heq
        have htaken' := htaken.moved (hmoved.trans hmoved')
        refine (safe_settleItem htaken' hsettled).bind (fun _ v _ _ => ?_) fun _ _ _ _ => trivial
        refine Pact.Safe.seq ?_ fun _ _ => trivial
        refine safe_quiet rfl (fun t s _ _ _ hawake => ?_) fun _ _ _ _ => trivial
        obtain ⟨held, hstate⟩ := release_state t ctx lease
        rw [hstate]
        exact hawake

theorem safe_processItem (hheld : Held ctx item db) :
    wakeContract.Safe (.worker ctx model turn) (processItem ctx model turn item) db
      fun _ _ => True := by
  unfold processItem
  refine Contract.Safe.bind (Q := fun x t => ∃ s, x = .ok (some s) ∧ Tidy t s) ?_
    (fun loaded t hmoved hloaded => ?_) fun _ _ _ _ => trivial
  · refine safe_load fun t s hmoved htidy => ⟨s, ?_, htidy⟩
    rw [(hheld.moved hmoved).load htidy]
  · obtain ⟨snapshot, heq, htidy⟩ := hloaded
    cases heq
    have hknown := (hheld.moved hmoved).known
    dsimp only
    split
    next hstale =>
      -- items are never for a version to come
      have hpassed : Passed item t := by
        refine ⟨snapshot, htidy.stores, lt_of_le_of_ne (htidy.items _ hknown).1 fun heq => ?_⟩
        exact hstale (toNat_inj.mp heq.symm)
      refine (safe_complete fun u s hmoved' htidy' hawake => ?_).bind (fun result u _ _ => ?_)
        fun _ _ _ _ => trivial
      · exact (hpassed.moved hmoved').spare htidy' (hknown.moved hmoved') hawake
      · split <;> trivial
    next hversion =>
      split
      next => exact safe_cancelQueue fun u s _ htidy' hcareful => hcareful s htidy'.stores
      next =>
        exact safe_handleLeased ⟨hknown, htidy.stores.seen, not_not.mp hversion, htidy.proper⟩

theorem safe_runOnce :
    wakeContract.Safe (.worker ctx model turn) (runOnce ctx model turn) db
      fun _ _ => True := by
  unfold runOnce
  refine Contract.Safe.bind (Q := fun x t => ∀ item, x = .ok (some item) → Held ctx item t) ?_
    (fun leased t hmoved hheld => ?_) fun _ _ _ _ => trivial
  · refine safe_quiet rfl (fun t s _ _ _ hawake => ?_) fun t s hmoved htidy item heq => ?_
    · refine awake_updateItems (fun _ => rfl) fun s hs hawaits => ?_
      obtain ⟨row, hrow, hserves⟩ := hawake s hs hawaits
      exact ⟨row, hrow, hserves, fun _ => .inr rfl⟩
    · exact leaseNext_held htidy.stores (Except.ok.inj heq)
  · cases leased with
    | none => trivial
    | some item =>
      have hheld := hheld item rfl
      dsimp only
      split
      next => exact (safe_processItem hheld).seq fun _ _ => trivial
      next message hverdict =>
        refine Pact.Safe.seq (safe_deadLetterItem fun u s hmoved' htidy hcareful hawake => ?_)
          fun _ _ => trivial
        have hdenied := (hcareful s htidy.stores).2 ⟨message, hverdict⟩
        exact htidy.spare (hheld.known.moved hmoved') hawake hdenied
      next => trivial

end

/-! ## The commands -/

section

variable {job : Job} {snapshot : RunSnapshot}
variable {draw : Draw} {commit : CommitRun} {added : List RunStep}

def Loaded (context : RequestContext) (runId : AgentRunId) : AppResult RunSnapshot → RunDb → Prop
  | .ok snapshot, db => Tidy db snapshot ∧ snapshot.run.id = runId ∧
      snapshot.run.workspaceId = context.workspaceId
  | .error _, _ => True

theorem safe_loadRun (ctx : RequestContext) (runId : AgentRunId) :
    wakeContract.Safe job (loadRun ctx runId) db (Loaded ctx runId) := by
  refine Contract.Safe.bind (Q := fun x t => ∃ s, x = .ok (t.load ctx runId) ∧ Tidy t s) ?_
    (fun loaded t _ h => ?_) fun _ _ _ _ => trivial
  · exact safe_load fun t s _ htidy => ⟨s, rfl, htidy⟩
  · obtain ⟨s, heq, htidy⟩ := h
    cases heq
    show Loaded ctx runId (okOr (t.load ctx runId) _) t
    cases hload : t.load ctx runId with
    | none => trivial
    | some snapshot =>
      obtain ⟨hstores, hworkspace, hid⟩ := load_stores hload
      rw [htidy.stores.unique hstores] at htidy
      exact ⟨htidy, hid, hworkspace⟩

/-! ### Adding steps -/

theorem statusOf_added_pending {id : RunStepId} (hpending : ∀ step ∈ added, step.status = .pending)
    (h : statusOf steps id = some .pending ∨ ∃ step ∈ added, step.id = id) :
    statusOf (added.foldl insertStep steps) id = some .pending := by
  induction added generalizing steps with
  | nil =>
    rcases h with h | ⟨step, hstep, -⟩
    · exact h
    · cases hstep
  | cons head added ih =>
    obtain ⟨hhead, hrest⟩ := forall_mem_cons.mp hpending
    refine ih hrest ?_
    rw [statusOf_insertStep, hhead]
    by_cases hid : head.id = id
    · exact .inl (if_pos hid)
    · rw [if_neg hid]
      refine h.imp_right fun hadded => ?_
      obtain ⟨step, hstep, hstepId⟩ := hadded
      rcases mem_cons.mp hstep with rfl | htail
      · exact absurd hstepId hid
      · exact ⟨step, htail, hstepId⟩

theorem not_pendingReady_added (hadded : ∀ step ∈ added, step.inputReferences ≠ [])
    (hsteps : ∀ row ∈ steps, row.pendingReady = false ∧
      ∀ step ∈ added, row.id = step.id → row.inputReferences ≠ []) :
    ∀ row ∈ added.foldl insertStep steps, row.pendingReady = false := by
  induction added generalizing steps with
  | nil => exact fun row hrow => (hsteps row hrow).1
  | cons head added ih =>
    have hinput : ∀ row : RunStep, row.inputReferences ≠ [] → row.pendingReady = false := by
      intro row hne
      simp [RunStep.pendingReady, hne]
    refine ih (fun step hstep => hadded step (mem_cons_of_mem _ hstep)) ?_
    intro row hrow
    unfold insertStep at hrow
    split at hrow
    next =>
      obtain ⟨old, hold, rfl⟩ := mem_map.mp hrow
      obtain ⟨hready, hrefs⟩ := hsteps old hold
      by_cases hid : old.id = head.id
      · have hne : old.inputReferences ≠ [] := hrefs head mem_cons_self hid
        rw [if_pos hid]
        exact ⟨hinput (progressStep old head) hne, fun _ _ _ => hne⟩
      · rw [if_neg hid]
        exact ⟨hready, fun step hstep => hrefs step (mem_cons_of_mem _ hstep)⟩
    next =>
      rcases mem_cons.mp ((placeStep_perm head steps).mem_iff.mp hrow) with rfl | hold
      · have hne := hadded row mem_cons_self
        exact ⟨hinput row hne, fun _ _ _ => hne⟩
      · obtain ⟨hready, hrefs⟩ := hsteps row hold
        exact ⟨hready, fun step hstep => hrefs step (mem_cons_of_mem _ hstep)⟩

def addedSteps (snapshot : RunSnapshot) (command : AddRunSteps) (at_ : Timestamp) : List RunStep :=
  (command.steps.map (createdStep command.runId at_)).foldl insertStep snapshot.steps

theorem statusOf_addedSteps {dto : NewRunStepDto}
    (snapshot : RunSnapshot) (at_ : Timestamp) (h : dto ∈ command.steps) :
    statusOf (addedSteps snapshot command at_) dto.id = some .pending := by
  refine statusOf_added_pending (fun step hstep => ?_) (.inr ⟨_, mem_map.mpr ⟨dto, h, rfl⟩, rfl⟩)
  obtain ⟨_, -, rfl⟩ := mem_map.mp hstep
  rfl

theorem not_waiting_addedSteps (hinput : ∀ dto ∈ command.steps, dto.inputReferences ≠ [])
    (hne : command.steps ≠ []) (hold : ∀ step ∈ snapshot.steps, step.pendingReady = false)
    (hfresh : ∀ dto ∈ command.steps, ∀ step ∈ snapshot.steps, step.id ≠ dto.id) :
    addedSteps snapshot command at_ ≠ [] ∧
      (∀ step ∈ addedSteps snapshot command at_, step.pendingReady = false) ∧
      allStepsTerminal (addedSteps snapshot command at_) = false := by
  obtain ⟨dto, hdto⟩ := exists_mem_of_ne_nil _ hne
  obtain ⟨row, hrow, hstatus⟩ := Option.map_eq_some_iff.mp (statusOf_addedSteps snapshot at_ hdto)
  have hmem := mem_of_find?_eq_some hrow
  refine ⟨ne_nil_of_mem hmem, not_pendingReady_added ?_ ?_, ?_⟩
  · intro added hadded
    obtain ⟨dto', hdto', rfl⟩ := mem_map.mp hadded
    exact hinput dto' hdto'
  · intro old hold'
    refine ⟨hold old hold', fun added hadded heq => ?_⟩
    obtain ⟨dto', hdto', rfl⟩ := mem_map.mp hadded
    exact absurd heq (hfresh dto' hdto' old hold')
  · rw [← Bool.not_eq_true]
    intro hterminal
    have hover := all_eq_true.mp (Bool.and_eq_true_iff.mp hterminal).2 row hmem
    rw [hstatus] at hover
    cases hover

theorem addSteps_handover (h : addStepsCommit ctx snapshot command draw = .ok commit)
    (hid : snapshot.run.id = command.runId) :
    Handover (.client ctx (.addSteps command draw)) ctx snapshot
      (.stepsAdded (command.steps.map (createdStep command.runId draw.at_))) draw.at_ commit := by
  obtain ⟨hmakes, hversion, hitems⟩ := addStepsCommit_makes h hid
  refine ⟨hmakes, ?_, nofun, ?_⟩
  · intro built hbuilt
    rw [hitems] at hbuilt
    rw [hid]
    exact executeItems_addressed hbuilt
  · intro t hstores hcareful _ hawaits
    by_cases hready : ∃ dto ∈ command.steps, dto.inputReferences = []
    · obtain ⟨dto, hdto, hinput⟩ := hready
      have hmem : dto.id ∈ ((command.steps.map (createdStep command.runId draw.at_)).filter
          fun step => step.inputReferences.isEmpty).map (·.id) := by
        refine mem_map.mpr ⟨createdStep command.runId draw.at_ dto, ?_, rfl⟩
        exact mem_filter.mpr ⟨mem_map.mpr ⟨dto, hdto, rfl⟩, isEmpty_iff.mpr hinput⟩
      obtain ⟨i, hitem⟩ := mem_executeItems hmem
      rw [← hitems] at hitem
      exact ⟨_, hitem, .pending, statusOf_addedSteps snapshot draw.at_ hdto, rfl⟩
    · rcases hcareful snapshot hstores hversion hawaits.1 with hready' | ⟨hne, hold, hfresh⟩
      · exact absurd hready' hready
      obtain ⟨hnil, hnone, hover⟩ := not_waiting_addedSteps
        (fun dto hdto hinput => hready ⟨dto, hdto, hinput⟩) hne hold hfresh
      rcases hawaits.2 with ⟨hnil', -⟩ | ⟨step, hstep, hpendingReady⟩ | hterminal
      · exact absurd hnil' hnil
      · exact absurd (hpendingReady.symm.trans (hnone step hstep)) nofun
      · exact absurd (hterminal.symm.trans hover) nofun

theorem safe_addSteps (command : AddRunSteps) :
    wakeContract.Safe (.client ctx (.addSteps command draw)) (addSteps ctx command draw) db
      fun _ _ => True := by
  unfold addSteps
  refine (safe_loadRun ctx command.runId).bind (fun snapshot t _ hloaded => ?_)
    fun _ _ _ _ => trivial
  obtain ⟨htidy, hid, -⟩ := hloaded
  refine lift_bind (fun commit hcommit => ?_) fun _ _ => trivial
  exact (safe_commitRun (addSteps_handover hcommit hid) htidy.stores.seen).mono
    fun _ _ _ => trivial

/-! ### Transitions -/

theorem safe_transitionRunWith {command : TransitionRun} {extra : List WorkItem}
    (htarget : command.target.isTerminal = false)
    (h : ∀ snapshot commit, snapshot.run.id = command.runId →
      transitionRunCommit ctx snapshot command extra draw = .ok commit →
      Handover job ctx snapshot (.status command.target command.result) draw.at_ commit) :
    wakeContract.Safe job (transitionRunWith ctx command extra draw) db fun _ _ => True := by
  unfold transitionRunWith
  refine (safe_loadRun ctx command.runId).bind (fun snapshot t _ hloaded => ?_)
    fun _ _ _ _ => trivial
  obtain ⟨htidy, hid, -⟩ := hloaded
  refine lift_bind (fun commit hcommit => ?_) fun _ _ => trivial
  rw [htarget]
  have hhandover := h snapshot commit hid hcommit
  exact (safe_commitRun hhandover htidy.stores.seen).mono fun _ _ _ => trivial

theorem resumeRun_handover {itemDraw : Draw} {command : PauseOrResumeRun}
    (hitem : resumeItem command itemDraw = .ok item) (hid : snapshot.run.id = command.runId)
    (h : transitionRunCommit ctx snapshot (resumeTransition command) [item] draw = .ok commit) :
    Handover (.client ctx (.resumeRun command itemDraw draw)) ctx snapshot
      (.status .running none) draw.at_ commit := by
  obtain ⟨hmakes, hversion, hitems⟩ := transitionRunCommit_makes h hid
  have hversion : snapshot.run.version = command.expectedVersion := hversion
  simp only [resumeItem, bind_eq_ok, mapError_eq_ok, pure_eq_ok] at hitem
  obtain ⟨next, hnext, rfl⟩ := hitem
  have hcommit : commit.run.version = next := by
    have hmade := hmakes.next
    rw [hversion, hnext] at hmade
    exact (Except.ok.inj hmade).symm
  refine ⟨hmakes, ?_, nofun, ?_⟩
  · intro built hbuilt
    rw [hitems] at hbuilt
    rcases mem_append.mp hbuilt with hresume | hadvance
    · rw [mem_singleton.mp hresume]
      exact ⟨hcommit.symm, hid.symm⟩
    · split at hadvance
      · rw [mem_singleton.mp hadvance]
        exact ⟨rfl, hid.symm⟩
      · cases hadvance
  · intro t hstores hcareful _ hawaits
    by_cases hrunning : snapshot.run.status = .running
    · -- a run that was running already is left with the item to resume it, which does nothing
      refine absurd ⟨?_, hawaits.2.imp_left fun hnone => absurd rfl hnone.2⟩
        (hcareful snapshot hstores hversion hrunning)
      rw [hrunning]
      rfl
    · have hadvance : draw.workItem 1 command.runId .advanceRun commit.run.version ∈
          commit.workItems := by
        rw [hitems, if_pos ⟨rfl, hrunning⟩]
        exact mem_append_right _ mem_cons_self
      exact ⟨_, hadvance, trivial⟩

theorem safe_approveRun (command : ApproveRun) (secondDraw : Draw) :
    wakeContract.Safe job (approveRun ctx command draw secondDraw) db fun _ _ => True := by
  unfold approveRun
  refine (safe_loadRun ctx command.runId).bind (fun snapshot t _ hloaded => ?_)
    fun _ _ _ _ => trivial
  refine lift_bind (fun u happroval => ?_) fun _ _ => trivial
  rw [requireAwaitingApproval, refuse_eq_ok, not_not] at happroval
  exact absurd happroval hloaded.1.proper.approval

theorem safe_cancelRun (command : CancelRun) :
    wakeContract.Safe (.client ctx (.cancelRun command draw)) (cancelRun ctx command draw)
      db fun _ _ => True := by
  unfold cancelRun transitionRun transitionRunWith
  refine (safe_loadRun ctx command.runId).bind (fun snapshot t _ hloaded => ?_)
    fun _ _ _ _ => trivial
  obtain ⟨htidy, hid, hworkspace⟩ := hloaded
  refine lift_bind (fun commit hcommit => ?_) fun _ _ => trivial
  obtain ⟨hmakes, hversion, hitems⟩ := transitionRunCommit_makes hcommit hid
  have hversion : snapshot.run.version = command.expectedVersion := hversion
  have hseen : Seen snapshot t := htidy.stores.seen
  intro u hmoved hinv hcareful
  obtain ⟨s, htidy'⟩ := hinv
  have hquiet : Quiet u ((PortCall.cancelForRun ctx command.runId draw.at_).exec u).2 :=
    exec_quiet rfl u
  refine ⟨⟨⟨s, hquiet.tidy htidy'⟩, fun _ _ _ => hquiet.moved, fun _ => ?_,
    fun _ _ _ howes => .inr (hquiet.clearing howes)⟩, ?_⟩
  · by_cases hawaits : Awaits s
    · -- nothing has been committed since the load, so the commit will be accepted
      obtain ⟨⟨hcurrent, hbound⟩, hreason, hprepared⟩ := hcareful s htidy'.stores hawaits
      obtain ⟨s', hs', hlater⟩ := hseen.moved hmoved
      rw [htidy'.stores.unique hs'] at hcurrent hbound htidy'
      rw [hlater.same (hcurrent.trans hversion.symm)] at hbound htidy'
      have hresult : commit.run.result = some (.cancelled command.reason) := by
        rw [hmakes.run]
        rfl
      have hsteps : commit.newSteps = [] := hmakes.steps
      have htexts : storable commit.texts = true := by
        have hitems : commit.workItems = [] := hitems
        rw [CommitRun.texts, hmakes.payload, hsteps, hitems]
        simpa [cancelTransition, RunEventPayload.texts, RunTerminalResult.texts, payload]
          using hreason
      have hresults : u.resultBlocks commit = false := by
        rw [resultBlocks, hprepared, hsteps]
        simp
      refine .inr ⟨ctx, command, draw, commit, snapshot.run, rfl, rfl, hquiet.commits ?_⟩
      refine hmakes.commits htidy'.stores htidy'.proper.positive htidy'.events hworkspace hbound
        hitems ?_ htexts hresults
      rw [hresult]
      exact hreason
    · refine .inl fun s' hs' hawaits' => absurd hawaits' ?_
      rw [((hquiet.stores s').mp hs').unique htidy'.stores]
      exact hawaits
  · exact (safe_commitRun (handover_of_not_driven _ hmakes hitems rfl nofun)
      (hseen.moved (hmoved.trans hquiet.moved))).mono fun _ _ _ => trivial

end

/-! ## Every interleaving -/

theorem safe_program {job : Job} (h : job.Orchestrated) :
    wakeContract.Safe job job.program db fun _ _ => True := by
  have hunit : ∀ {α : Type} {p : RunProg α}, wakeContract.Safe job p db (fun _ _ => True) →
      wakeContract.Safe job (do let _ ← p) db fun _ _ => True :=
    fun hp => hp.seq fun _ _ => trivial
  cases job with
  | worker ctx model turn => exact hunit safe_runOnce
  | client ctx command =>
    cases command with
    | addSteps command draw => exact hunit (safe_addSteps command)
    | pauseRun command draw =>
      refine hunit (safe_transitionRunWith rfl fun snapshot commit hid hcommit => ?_)
      obtain ⟨hmakes, -, hitems⟩ := transitionRunCommit_makes hcommit hid
      exact handover_of_not_driven _ hmakes hitems rfl nofun
    | resumeRun command itemDraw draw =>
      refine hunit (lift_bind (fun item hitem => ?_) fun _ _ => trivial)
      exact safe_transitionRunWith rfl fun snapshot commit hid hcommit =>
        resumeRun_handover hitem hid hcommit
    | approveRun command draw secondDraw => exact hunit (safe_approveRun command secondDraw)
    | cancelRun command draw => exact hunit (safe_cancelRun command)
    | transitionRun | transitionStep | createCheckpoint => exact h.elim

theorem created_upheld {draw : Draw} {snapshot : RunSnapshot} {command : CreateRun}
    (h : (createRun ctx command runId draw).run .empty = (.ok snapshot, db)) :
    wakeContract.pact.Upheld (still db) := by
  obtain ⟨run, event, hrun, hevent, rfl⟩ := createRun_ok h
  obtain ⟨hid, hstatus, hversion⟩ := create_fields hrun
  have hproper : Proper ⟨insertedRun ctx run, []⟩ := by
    refine ⟨?_, ?_, ?_, nodup_nil, forall_mem_nil _⟩
    · show 1 ≤ run.version.toNat
      rw [hversion]
      decide
    · show run.version.toNat < bigintLimit
      rw [hversion]
      decide
    · show run.status ≠ .waitingForApproval
      rw [hstatus]
      nofun
  have hversion' : RunVersion.initial.toNat ≤ run.version.toNat := by rw [hversion]
  refine Pact.Upheld.still ⟨_, ⟨rfl, rfl⟩, hproper, nodup_singleton _, ?_, ?_⟩ ?_
  · intro item hitem
    rw [mem_singleton.mp hitem]
    exact ⟨hversion', hid.symm⟩
  · intro row hrow
    rw [mem_singleton.mp hrow]
    show event.sequence.value.toNat ≤ run.version.toNat
    rw [Draw.event_ok hevent]
    exact hversion'
  · intro s hs _
    refine ⟨_, mem_cons_self, .inl rfl, ?_, trivial⟩
    rw [← Option.some.inj hs.1]
    exact hversion.symm

/-- **No lost wake-up.** If every call is made with care, and no cancellation stops between
clearing the queue and its commit, then whenever none is under way and the run waits for a worker,
a ready or leased item is there for its version, whoever acts on it in whatever order. -/
theorem no_lost_wakeup {context : RequestContext} {command : CreateRun} {runId : AgentRunId}
    {draw : Draw} {created : RunSnapshot} {db : RunDb}
    (hcreate : (createRun context command runId draw).run .empty = (.ok created, db))
    {actions : List (Action Job)}
    (hkept : wakeContract.Kept program (still db) actions)
    (hcancel : ∀ k thread, ((still db).run program actions).threads k = some thread →
        ∀ context command draw, thread.job ≠ .client context (.cancelRun command draw))
    {s : RunSnapshot} (hstores : ((still db).run program actions).state.Stores s)
    (hawaits : Awaits s) :
    ∃ row ∈ ((still db).run program actions).state.workItems,
      row.Live ∧ row.item.runId = s.run.id ∧ row.item.expectedRunVersion = s.run.version := by
  have hupheld := (created_upheld hcreate).run (fun job db h => safe_program h.known) hkept.pact
  rcases hupheld.goal with hawake | ⟨k, thread, hthread, howes⟩
  · obtain ⟨row, hrow, hserves⟩ := hawake s hstores hawaits
    obtain ⟨s', htidy⟩ := hupheld.inv
    rw [htidy.stores.unique hstores] at htidy
    have hrun := (htidy.items _ (mem_map.mpr ⟨row, hrow, rfl⟩)).2
    exact ⟨row, hrow, hserves.live, hrun, hserves.version⟩
  · obtain ⟨context, command, draw, _, _, hjob, -⟩ := howes
    exact absurd hjob (hcancel k thread hthread context command draw)

/-! One step, added while the run is still being prepared. -/

/-- A job that has the tables to itself; a step after its last call does nothing. -/
def alone (job : Job) : List (Action Job) := .start 0 job :: List.replicate 7 (.step 0)

def addDraftStep : Job :=
  .client reportContext (.addSteps
    ⟨none, ⟨1⟩, .initial, [⟨⟨7⟩, none, .system, [], .none⟩], .system⟩ (drawAt 2))

/-- An iteration at time `n` that is handed the item `pick`. -/
def workOn (pick n : ℕ) : Job :=
  .worker reportContext none ⟨⟨1⟩, 60000000000, n, ⟨pick⟩, .ok (), n, drawAt n, drawAt (n + 1)⟩

/-- The worker executes the step before the run is started, and `Preparing` does not lead to
`Succeeded`: the item to advance the run goes to the dead letters. -/
def draftHistory : List (Action Job) :=
  alone addDraftStep ++ alone (workOn 1 3) ++ alone (workOn 2 4) ++ alone (workOn 4 6) ++
    alone (workOn 5 7) ++ alone (workOn 7 8)

theorem draftHistory_thread : ∀ action ∈ draftHistory, action.thread = 0 := by
  intro action haction
  simp only [draftHistory, alone, mem_append, mem_cons, mem_replicate] at haction
  rcases haction with ((((h | h) | h) | h) | h) | h <;> rcases h with rfl | ⟨-, rfl⟩ <;> rfl

/-- All steps have ended, and no live item is left to end the run. -/
def stranded (db : RunDb) : Bool :=
  db.run.any fun run => run.status.isDriven && allStepsTerminal db.steps &&
    db.workItems.all fun row => !(row.item.expectedRunVersion == run.version) ||
      !(row.status == .ready || row.status == .leased)

theorem stranded_awaits (h : stranded db = true) : ∃ s, db.Stores s ∧ Awaits s ∧
      ∀ row ∈ db.workItems, row.item.expectedRunVersion = s.run.version → ¬ row.Live := by
  unfold stranded at h
  cases hrun : db.run with
  | none =>
    rw [hrun] at h
    cases h
  | some run =>
    simp only [hrun, Option.any_some, Bool.and_eq_true, all_eq_true] at h
    obtain ⟨⟨hdriven, hterminal⟩, hitems⟩ := h
    refine ⟨⟨run, db.steps⟩, ⟨hrun, rfl⟩, ⟨hdriven, .inr (.inr hterminal)⟩, ?_⟩
    intro row hrow hversion hlive
    have hcheck := hitems row hrow
    rcases hlive with hlive | hlive <;> simp [hversion, hlive] at hcheck

/-- Everybody has stopped, and no item is left for the run's version. -/
theorem wakeup_lost_when_prepared_late :
    ∃ created db, ReportCreated created db ∧
      (∀ k, ((still db).run program draftHistory).threads k = none) ∧
      ∃ s, ((still db).run program draftHistory).state.Stores s ∧ Awaits s ∧
        ∀ row ∈ ((still db).run program draftHistory).state.workItems,
          row.item.expectedRunVersion = s.run.version → ¬ row.Live := by
  refine ⟨_, _, rfl, fun k => ?_, stranded_awaits ?_⟩
  · by_cases hk : k = 0
    · rw [hk, ← Option.isNone_iff_eq_none]
      decide +kernel
    · refine World.run_threads_of_ne fun action haction => ?_
      rw [draftHistory_thread action haction]
      exact hk
  · decide +kernel

/-- A worker that takes the first item and is never heard of again. -/
def leaseAndCrash : List (Action Job) := [.start 0 (workOn 1 2), .step 0, .crash 0]

theorem leaseAndCrash_kept (db : RunDb) :
    wakeContract.Kept program (still db) leaseAndCrash := by
  refine ⟨trivial, ?_, ?_, trivial⟩
  · intro thread hthread
    cases hthread
    trivial
  · intro thread hthread howes
    obtain ⟨_, _, _, _, _, hjob, -⟩ := howes
    have hworker : thread.job = workOn 1 2 := (Thread.of_eq_some hthread).1
    exact nomatch hworker.symm.trans hjob

theorem no_lost_wakeup_after_crash :
    ∃ created db, ReportCreated created db ∧
      ∃ s, ((still db).run program leaseAndCrash).state.Stores s ∧ Awaits s ∧
        ∃ row ∈ ((still db).run program leaseAndCrash).state.workItems,
          row.Live ∧ row.item.runId = s.run.id ∧ row.item.expectedRunVersion = s.run.version := by
  have hcreated : ∃ created db, ReportCreated created db ∧ ∃ s, db.Stores s ∧ Awaits s :=
    ⟨_, _, rfl, ⟨_, []⟩, ⟨rfl, rfl⟩, rfl, .inl ⟨rfl, nofun⟩⟩
  obtain ⟨created, db, hcreate, s, hstores, hawaits⟩ := hcreated
  have hstores' : ((still db).run program leaseAndCrash).state.Stores s := hstores
  refine ⟨created, db, hcreate, s, hstores', hawaits,
    no_lost_wakeup hcreate (leaseAndCrash_kept db) ?_ hstores' hawaits⟩
  intro k thread hthread
  by_cases hk : k = 0
  · rw [hk] at hthread
    cases hthread
  · rw [World.run_threads_of_ne] at hthread
    · cases hthread
    · intro action haction
      simp only [leaseAndCrash, mem_cons, not_mem_nil, or_false] at haction
      rcases haction with rfl | rfl | rfl <;> exact hk

end Vestrace.Run
