import Vestrace.Run.Frame

/-!
# The log and the row

Every writer updates the run's row and its steps, and says what it did in an event; nothing
compares the two. Three changes set them at odds: a step that starts makes itself the row's current
step and no event says so; an advance that names a current step says so and does not write it; and
steps added under ids that exist are merged by the store and refused by the replay.
-/

namespace Vestrace.Run

open Lib List RunChange RunDb RunCommand

variable {ctx : RequestContext} {found settled : RunStep} {current : Option RunStepId}
  {change : RunChange} {db mid db' : RunDb} {model : Option StepModelExecutor}
  {steps known added : List RunStep} {run : AgentRun} {at_ : Timestamp} {draw : Draw}
  {stepId : RunStepId} {snapshot : RunSnapshot} {item : WorkItem} {secondDraw : Draw}
  {outcome : RunWorkOutcome}

def RunDb.log (db : RunDb) : List RunEvent := db.events.filterMap RunEventRow.canonical?

structure Matches (projection : RunProjection) (run : AgentRun) (steps : List RunStep) : Prop where
  runId : projection.runId = run.id
  workspace : projection.workspaceId = run.workspaceId
  status : projection.status = run.status
  version : projection.version = run.version
  result : projection.result = run.result
  objective : projection.objective = run.objective
  currentStep : projection.currentStepId = run.currentStepId
  checkpoint : projection.checkpointId = run.checkpointId
  finished : projection.finishedAt = run.finishedAt
  steps : ∀ id, statusOf projection.knownSteps id = statusOf steps id

def Agrees (db : RunDb) : Prop :=
  ∃ run projection, db.run = some run ∧ replayRun db.log = .ok projection ∧
    Matches projection run db.steps

/-! ## One commit -/

/-- One accepted commit, whatever else happened to the queue. -/
inductive Applied (context : RequestContext) (change : RunChange) (db db' : RunDb) : Prop where
  | intro {row : AgentRun} {commit : CommitRun} {at_ : Timestamp} (hrow : db.run = some row)
      (hworkspace : row.workspaceId = context.workspaceId)
      (hmakes : Makes context ⟨row, db.steps⟩ change at_ commit)
      (hbound : commit.run.version.toNat < bigintLimit)
      (hrun : db'.run = some (change.apply row commit.run.version at_))
      (hevents : db'.events = db.events ++ [.canonical commit.event])
      (hsteps : db'.steps = change.steps.foldl RunDb.insertStep db.steps)

theorem replayRun_snoc {event : RunEvent}
    {events : List RunEvent} {p : RunProjection} (h : replayRun events = .ok p)
    (hrun : event.runId = p.runId) (hws : event.workspaceId = p.workspaceId)
    (hversion : p.version.next = .ok event.runVersion)
    (hbound : event.runVersion.toNat < bigintLimit) (q : RunProjection) :
    replayRun (events ++ [event]) = .ok q ↔ ∃ p', applyEvent p event = .ok p' ∧
      { p' with version := event.runVersion, updatedAt := event.occurredAt } = q := by
  obtain ⟨expected, hstate⟩ := replayRun_ok.mp h
  cases events with
  | nil => cases hstate
  | cons first rest =>
    have hnext := (replayState_follows hstate).next
    have hexpected : event.runVersion = expected := by
      rw [hversion] at hnext
      exact Except.ok.inj hnext
    rw [replayRun_ok, replayState_append (cons_ne_nil _ _), hstate]
    show (∃ next, replayStep (p, expected) event = .ok (q, next)) ↔ _
    simp only [replayStep_ok]
    constructor
    · rintro ⟨_, -, -, -, p', happly, -, hq⟩
      exact ⟨p', happly, hq⟩
    · rintro ⟨p', happly, hq⟩
      -- the counter has room for one more: stored versions stay below the column's limit
      have hroom : ∃ next, expected.next = .ok next := by
        unfold RunVersion.next
        rw [if_pos]
        · exact ⟨_, rfl⟩
        · rw [← hexpected]
          unfold bigintLimit at hbound
          omega
      obtain ⟨next, hnext'⟩ := hroom
      exact ⟨next, hrun, hws, hexpected, p', happly, hnext', hq⟩

def RunChange.Replays (row : AgentRun) (steps : List RunStep) : RunChange → Prop
  | status _ _ => True
  | stepsAdded added => (added.map (·.id)).Nodup ∧ ∀ step ∈ added, ∀ old ∈ steps, old.id ≠ step.id
  | stepMoved found settled current =>
    found.status.transitionTo settled.status = .ok () ∧ current = row.currentStepId
  | currentStep current => current = row.currentStepId
  | checkpoint _ => True
  | approval _ => True

theorem statusOf_snoc {step : RunStep} (hfresh : ∀ old ∈ steps, old.id ≠ step.id) (id : RunStepId) :
    statusOf (steps ++ [step]) id =
      if step.id = id then some step.status else statusOf steps id := by
  induction steps with
  | nil => rw [nil_append, statusOf_cons]
  | cons old steps ih =>
    have hold : old.id ≠ step.id := hfresh old mem_cons_self
    rw [cons_append, statusOf_cons, statusOf_cons,
      ih fun other hother => hfresh other (mem_cons_of_mem _ hother)]
    by_cases hid : old.id = id
    · have hstep : step.id ≠ id := fun h => hold (hid.trans h.symm)
      simp [hid, hstep]
    · simp [hid]

/-- Steps under new ids end up with the same statuses on both sides. -/
theorem statusOf_added (hsame : ∀ id, statusOf known id = statusOf steps id)
    (hnodup : (added.map (·.id)).Nodup) (hfresh : ∀ step ∈ added, ∀ old ∈ known, old.id ≠ step.id)
    (id : RunStepId) :
    statusOf (known ++ added) id = statusOf (added.foldl RunDb.insertStep steps) id := by
  induction added generalizing known steps with
  | nil => simpa using hsame id
  | cons step added ih =>
    rw [map_cons, nodup_cons] at hnodup
    obtain ⟨hhead, htail⟩ := hnodup
    have hstep : ∀ old ∈ known, old.id ≠ step.id := hfresh step mem_cons_self
    rw [foldl_cons, ← singleton_append, ← append_assoc]
    refine ih ?_ htail ?_
    · intro id
      rw [statusOf_snoc hstep, statusOf_insertStep, hsame]
    · intro other hother old hold
      rcases mem_append.mp hold with hknown | hnew
      · exact hfresh other (mem_cons_of_mem _ hother) old hknown
      · rw [mem_singleton.mp hnew]
        intro hid
        exact hhead (mem_map.mpr ⟨other, hother, hid.symm⟩)

theorem fresh_congr (hsame : ∀ id, statusOf known id = statusOf steps id) (id : RunStepId) :
    (∀ old ∈ known, old.id ≠ id) ↔ ∀ old ∈ steps, old.id ≠ id := by
  rw [← statusOf_eq_none, ← statusOf_eq_none, hsame]

/-- What replay makes of an event, stamped, against the row and the steps of the change. -/
def Rebuilds (row : AgentRun) (steps : List RunStep) (change : RunChange) (at_ : Timestamp)
    (version : RunVersion) (p' : RunProjection) : Prop :=
  Matches { p' with version := version, updatedAt := at_ } (change.apply row version at_)
    (change.steps.foldl RunDb.insertStep steps)

section

variable {row : AgentRun} {p : RunProjection} {event : RunEvent}
variable {version : RunVersion}

section

variable (h : Matches p row steps)

include h

theorem rebuilds_status {target : RunStatus} {result : Option RunTerminalResult}
    (htable : row.status.transitionTo target = .ok ())
    (hpayload : event.payload = .runStatusChanged row.status target result)
    (hat : event.occurredAt = at_) :
    ∃ p', applyEvent p event = .ok p' ∧
      Rebuilds row steps (.status target result) at_ version p' := by
  have hevent : applyEvent p event = if target.isTerminal = true
      then .ok { p with status := target, result := result, finishedAt := some event.occurredAt }
      else .ok { p with status := target } := by
    unfold applyEvent
    rw [hpayload]
    dsimp only
    rw [refuse_bind_neg (not_not.mpr h.status), htable]
    rfl
  rw [hevent, hat]
  by_cases ht : target.isTerminal = true
  · refine ⟨_, if_pos ht, ?_⟩
    simp only [Rebuilds, apply, AgentRun.entered, if_pos ht]
    exact ⟨h.runId, h.workspace, rfl, rfl, rfl, h.objective, h.currentStep, h.checkpoint, rfl,
      h.steps⟩
  · refine ⟨_, if_neg ht, ?_⟩
    simp only [Rebuilds, apply, AgentRun.entered, if_neg ht]
    exact ⟨h.runId, h.workspace, rfl, rfl, h.result, h.objective, h.currentStep, h.checkpoint,
      h.finished, h.steps⟩

theorem rebuilds_stepsAdded (hpayload : event.payload = .stepsAdded added) :
    (∃ p', applyEvent p event = .ok p' ∧ Rebuilds row steps (.stepsAdded added) at_ version p') ↔
    RunChange.Replays row steps (.stepsAdded added) := by
  have hfresh : (∀ step ∈ added, ∀ old ∈ p.knownSteps, old.id ≠ step.id) ↔
      ∀ step ∈ added, ∀ old ∈ steps, old.id ≠ step.id := by
    constructor
    · exact fun hold step hstep => (fresh_congr h.steps step.id).mp (hold step hstep)
    · exact fun hold step hstep => (fresh_congr h.steps step.id).mpr (hold step hstep)
  have hevent : applyEvent p event = addKnownSteps p.knownSteps added >>= fun known =>
      pure { p with knownSteps := known } := by
    unfold applyEvent
    rw [hpayload]
  simp only [hevent, bind_eq_ok, pure_eq_ok, addKnownSteps_ok]
  constructor
  · rintro ⟨_, ⟨_, ⟨hnodup, hnew, -⟩, -⟩, -⟩
    exact ⟨hnodup, hfresh.mp hnew⟩
  · rintro ⟨hnodup, hnew⟩
    refine ⟨_, ⟨_, ⟨hnodup, hfresh.mpr hnew, rfl⟩, rfl⟩, ?_⟩
    exact ⟨h.runId, h.workspace, h.status, rfl, h.result, h.objective, h.currentStep,
      h.checkpoint, h.finished, statusOf_added h.steps hnodup (hfresh.mpr hnew)⟩

theorem rebuilds_stepMoved (hfound : steps.find? (fun step => step.id == found.id) = some found)
    (hid : settled.id = found.id)
    (hpayload : event.payload =
      .stepStatusChanged found.id found.status settled.status settled.attempt) :
    (∃ p', applyEvent p event = .ok p' ∧
      Rebuilds row steps (.stepMoved found settled current) at_ version p') ↔
    RunChange.Replays row steps (.stepMoved found settled current) := by
  have hstatus : statusOf p.knownSteps found.id = some found.status := by
    rw [h.steps, statusOf, hfound]
    rfl
  obtain ⟨known, hknown, hsame⟩ := Option.map_eq_some_iff.mp hstatus
  have hevent : applyEvent p event =
      ((found.status.transitionTo settled.status).mapError .domain >>= fun _ =>
        pure { p with knownSteps := p.knownSteps.map fun step => if step.id = found.id
          then moveKnownStep step settled.status settled.attempt event.occurredAt else step }) := by
    unfold applyEvent
    rw [hpayload]
    dsimp only
    rw [hknown]
    show (refuse (known.status ≠ found.status) _ >>= _) = _
    rw [refuse_bind_neg (not_not.mpr hsame)]
  simp only [hevent, bind_eq_ok, mapError_eq_ok, pure_eq_ok]
  constructor
  · rintro ⟨_, ⟨_, htable, rfl⟩, hmatches⟩
    exact ⟨htable, hmatches.currentStep.symm.trans h.currentStep⟩
  · rintro ⟨htable, rfl⟩
    refine ⟨_, ⟨(), htable, rfl⟩, ?_⟩
    refine ⟨h.runId, h.workspace, h.status, rfl, h.result, h.objective, h.currentStep,
      h.checkpoint, h.finished, fun id => ?_⟩
    show statusOf (p.knownSteps.map _) id = statusOf (insertStep steps settled) id
    have hmap := @statusOf_map p.knownSteps found.id (fun step => if step.id = found.id
      then moveKnownStep step settled.status settled.attempt event.occurredAt else step)
      settled.status
    rw [hmap, statusOf_insertStep, hid, h.steps]
    · by_cases heq : found.id = id
      · subst heq
        rw [if_pos rfl, if_pos rfl, ← h.steps, hstatus]
        rfl
      · rw [if_neg (Ne.symm heq), if_neg heq]
    · intro step
      by_cases heq : step.id = found.id <;> simp [heq, moveKnownStep]
    · intro step _ heq
      simp [heq, moveKnownStep]
    · intro step _ heq
      simp [heq]

theorem rebuilds_currentStep
    (hpayload : event.payload = .currentStepChanged row.currentStepId current) :
    (∃ p', applyEvent p event = .ok p' ∧ Rebuilds row steps (.currentStep current) at_ version p') ↔
    RunChange.Replays row steps (.currentStep current) := by
  have hevent : applyEvent p event = .ok { p with currentStepId := current } := by
    unfold applyEvent
    rw [hpayload]
    dsimp only
    rw [refuse_bind_neg (not_not.mpr h.currentStep)]
    rfl
  simp only [hevent, Except.ok.injEq, exists_eq_left']
  constructor
  · exact fun hmatches => hmatches.currentStep
  · intro hcurrent
    exact ⟨h.runId, h.workspace, h.status, rfl, h.result, h.objective, hcurrent, h.checkpoint,
      h.finished, h.steps⟩

theorem rebuilds_checkpoint {cursor : ResumeCursor} {id : RunCheckpointId}
    (hpayload : event.payload = .checkpointCreated id cursor) :
    ∃ p', applyEvent p event = .ok p' ∧ Rebuilds row steps (.checkpoint id) at_ version p' := by
  refine ⟨{ p with checkpointId := some id }, ?_, ?_⟩
  · unfold applyEvent
    rw [hpayload]
  · exact ⟨h.runId, h.workspace, h.status, rfl, h.result, h.objective, h.currentStep, rfl,
      h.finished, h.steps⟩

theorem rebuilds_approval {approverId : PrincipalId}
    (hpayload : event.payload = .approvalGranted approverId) :
    ∃ p', applyEvent p event = .ok p' ∧
      Rebuilds row steps (.approval approverId) at_ version p' := by
  refine ⟨p, ?_, ?_⟩
  · unfold applyEvent
    rw [hpayload]
  · exact ⟨h.runId, h.workspace, h.status, rfl, h.result, h.objective, h.currentStep,
      h.checkpoint, h.finished, h.steps⟩

end

end

/-- **What becomes of the agreement in one commit.** -/
theorem Applied.agrees_iff (happlied : Applied ctx change db db') (h : Agrees db)
    (hrun : db.run = some run) : Agrees db' ↔ change.Replays run db.steps := by
  obtain @⟨row, commit, at_, hrow, hworkspace, hmakes, hbound, hrun', hevents, hsteps⟩ := happlied
  obtain ⟨_, p, hfound, hreplay, hmatches⟩ := h
  rw [hrow] at hfound hrun
  cases hfound
  obtain rfl : row = run := Option.some.inj hrun
  have hlog : db'.log = db.log ++ [commit.event] := by
    unfold log
    rw [hevents, filterMap_append]
    rfl
  have hsnoc := replayRun_snoc hreplay (hmakes.runId.trans hmatches.runId.symm)
    (by rw [hmakes.workspace, hmatches.workspace, hworkspace])
    (by rw [hmakes.eventVersion, hmatches.version]; exact hmakes.next)
    (by rw [hmakes.eventVersion]; exact hbound)
  have hagrees : Agrees db' ↔ ∃ p', applyEvent p commit.event = .ok p' ∧
      Rebuilds row db.steps change at_ commit.run.version p' := by
    unfold Agrees Rebuilds
    rw [hlog, hrun', hsteps]
    constructor
    · rintro ⟨_, q, hsome, hq, hm⟩
      obtain ⟨p', happly, rfl⟩ := (hsnoc q).mp hq
      cases hsome
      rw [hmakes.eventVersion, hmakes.occurredAt] at hm
      exact ⟨p', happly, hm⟩
    · rintro ⟨p', happly, hm⟩
      refine ⟨_, _, rfl, (hsnoc _).mpr ⟨p', happly, rfl⟩, ?_⟩
      rw [hmakes.eventVersion, hmakes.occurredAt]
      exact hm
  rw [hagrees]
  have hvalid := hmakes.valid
  have hpayload := hmakes.payload
  cases change with
  | status target result =>
    exact iff_of_true (rebuilds_status hmatches hvalid.2 hpayload hmakes.occurredAt) trivial
  | stepsAdded added => exact rebuilds_stepsAdded hmatches hpayload
  | stepMoved found settled current =>
    exact rebuilds_stepMoved hmatches hvalid.1 (by rw [hvalid.2]; rfl) hpayload
  | currentStep current => exact rebuilds_currentStep hmatches hpayload
  | checkpoint id => exact iff_of_true (rebuilds_checkpoint hmatches hpayload) trivial
  | approval approverId => exact iff_of_true (rebuilds_approval hmatches hpayload) trivial

/-! ## Calls -/

inductive RunCall where
  | command (command : RunCommand)
  | work (model : Option StepModelExecutor) (item : WorkItem) (draw secondDraw : Draw)

def RunCall.program (context : RequestContext) : RunCall → RunProg Unit
  | command c => do
    let _ ← c.program context
  | work model item draw secondDraw => do
    let _ ← handleLoaded context model item draw secondDraw

structure SameRun (db db' : RunDb) : Prop where
  run : db'.run = db.run
  events : db'.events = db.events
  steps : db'.steps = db.steps

theorem SameRun.agrees (h : SameRun db db') : Agrees db' ↔ Agrees db := by
  unfold Agrees log
  rw [h.run, h.events, h.steps]

theorem Applied.of_same (hsame : SameRun db mid) (h : Applied ctx change mid db') :
    Applied ctx change db db' := by
  obtain ⟨hrow, hworkspace, hmakes, hbound, hrun', hevents, hsteps⟩ := h
  rw [hsame.run] at hrow
  rw [hsame.steps] at hmakes hsteps
  rw [hsame.events] at hevents
  exact ⟨hrow, hworkspace, hmakes, hbound, hrun', hevents, hsteps⟩

theorem Applied.then_same (h : Applied ctx change db mid) (hsame : SameRun mid db') :
    Applied ctx change db db' := by
  obtain ⟨hrow, hworkspace, hmakes, hbound, hrun', hevents, hsteps⟩ := h
  exact ⟨hrow, hworkspace, hmakes, hbound, hsame.run.trans hrun', hsame.events.trans hevents,
    hsame.steps.trans hsteps⟩

theorem Makes.applied {commit : CommitRun}
    {after : RunSnapshot} (h : Makes ctx ⟨run, db.steps⟩ change at_ commit)
    (hrun : db.run = some run) (hok : db.commitOn ctx commit = .ok (after, db')) :
    Applied ctx change db db' ∧ db'.run = some after.run ∧ db'.steps = after.steps ∧
      after.run.id = run.id := by
  have hstored : db.Stores ⟨run, db.steps⟩ := ⟨hrun, rfl⟩
  obtain ⟨hstores, hcommits, rfl, rfl⟩ := h.accepted hstored.seen hok
  have hsteps := (h.written_stores hstores).2
  exact ⟨⟨hrun, hcommits.workspace, h, hcommits.bound, rfl, rfl, hsteps⟩, rfl, hsteps,
    apply_id ..⟩

theorem transitionRunWith_applied {command : TransitionRun} {extra : List WorkItem}
    (h : (transitionRunWith ctx command extra draw).run db = (.ok snapshot, db')) :
    Applied ctx (.status command.target command.result) db db' ∧
      db'.run = some snapshot.run ∧ db'.steps = snapshot.steps ∧
      snapshot.run.id = command.runId := by
  simp only [transitionRunWith, Prog.run_bind_ok, loadRun_ok, Prog.run_lift_ok] at h
  obtain ⟨loaded, _, ⟨hload, rfl⟩, commit, _, ⟨hcommit, rfl⟩, h⟩ := h
  obtain ⟨run, hrun, -, hid, rfl⟩ := load_eq_some.mp hload
  obtain ⟨hmakes, -, -⟩ := transitionRunCommit_makes hcommit hid
  split at h
  next =>
    simp only [Prog.run_bind_ok, cancelQueue_ok, commitRun_ok] at h
    obtain ⟨_, _, rfl, hok⟩ := h
    -- cancelling the queue has moved nothing the commit was built from
    have hsame : SameRun db (db.cancelForRun ctx command.runId draw.at_).2 := ⟨rfl, rfl, rfl⟩
    have hmakes' : Makes ctx
        ⟨run, (db.cancelForRun ctx command.runId draw.at_).2.steps⟩ _ _ commit := hmakes
    obtain ⟨happlied, hrun', hsteps', hid'⟩ := hmakes'.applied hrun hok
    exact ⟨happlied.of_same hsame, hrun', hsteps', hid'.trans hid⟩
  next =>
    rw [commitRun_ok] at h
    obtain ⟨happlied, hrun', hsteps', hid'⟩ := hmakes.applied hrun h
    exact ⟨happlied, hrun', hsteps', hid'.trans hid⟩

/-- What a turn of `AdvanceRunHandler` comes to. -/
theorem advanceRun_applied (hrun : db.run = some run)
    (hversion : item.expectedRunVersion = run.version)
    (h : (advanceRun ctx ⟨run, db.steps⟩ item draw).run db = (.ok outcome, db')) :
    (SameRun db db' ∧ (run.status = .running → allStepsTerminal db.steps = false →
        pendingReadySteps db.steps = [])) ∨
    (∃ target result, Applied ctx (.status target result) db db' ∧
      (run.status = .running → allStepsTerminal db.steps = true)) ∨
    (run.status = .running ∧ allStepsTerminal db.steps = false ∧ pendingReadySteps db.steps ≠ [] ∧
      Applied ctx (.currentStep (pendingReadySteps db.steps).head?) db db') := by
  simp only [advanceRun, Prog.run_bind_ok, Prog.run_lift_ok] at h
  obtain ⟨plan, _, ⟨hplan, rfl⟩, h⟩ := h
  cases advanceRunPlan_advances hversion hplan with
  | idle hidle =>
    rw [Prog.run_pure_ok] at h
    obtain ⟨-, rfl⟩ := h
    exact .inl ⟨⟨rfl, rfl, rfl⟩, fun hrunning _ => (hidle.2.2 hrunning).2⟩
  | moved hstatus hmakes hitem haddressed =>
    simp only [Prog.run_bind_ok, commitRun_ok, Prog.run_pure_ok] at h
    obtain ⟨after, _, hok, -, rfl⟩ := h
    exact .inr (.inl ⟨_, _, (hmakes.applied hrun hok).1, fun hrunning =>
      absurd hrunning hstatus⟩)
  | pointed hstatus hsteps hready hmakes hitems =>
    simp only [Prog.run_bind_ok, commitRun_ok, Prog.run_pure_ok] at h
    obtain ⟨after, _, hok, -, rfl⟩ := h
    exact .inr (.inr ⟨hstatus, hsteps, hready, (hmakes.applied hrun hok).1⟩)
  | finalized hsteps hmakes hitems =>
    simp only [Prog.run_bind_ok, commitRun_ok, cancelQueue_ok, Prog.run_pure_ok] at h
    obtain ⟨after, mid, hok, _, _, rfl, -, rfl⟩ := h
    exact .inr (.inl ⟨_, _, (hmakes.applied hrun hok).1.then_same ⟨rfl, rfl, rfl⟩,
      fun _ => hsteps⟩)

theorem resumeRunHandler_applied (hrun : db.run = some run)
    (h : (resumeRunHandler ctx ⟨run, db.steps⟩ item draw).run db = (.ok outcome, db')) :
    SameRun db db' ∨ Applied ctx (.status .running none) db db' := by
  simp only [resumeRunHandler, Prog.run_bind_ok, Prog.run_lift_ok] at h
  obtain ⟨plan, _, ⟨hplan, rfl⟩, h⟩ := h
  cases plan with
  | none =>
    rw [Prog.run_pure_ok] at h
    obtain ⟨-, rfl⟩ := h
    exact .inl ⟨rfl, rfl, rfl⟩
  | some commit =>
    simp only [Prog.run_bind_ok, commitRun_ok, Prog.run_pure_ok] at h
    obtain ⟨after, _, hok, -, rfl⟩ := h
    exact .inr ((resumeRunCommit_makes hplan).1.applied hrun hok).1

/-- What a turn of `ExecuteStepHandler` comes to: nothing, or two commits. -/
theorem executeStep_applied (hkind : item.kind = .executeStep stepId) (hplain : Plain db.steps)
    (hrun : db.run = some run) (hversion : item.expectedRunVersion = run.version)
    (h : (executeStep ctx model ⟨run, db.steps⟩ item draw secondDraw).run db =
      (.ok outcome, db')) :
    (SameRun db db' ∧ ∀ step, db.steps.find? (fun row => row.id == stepId) = some step →
      step.status.isTerminal = true) ∨
    ∃ found mid settled, db.steps.find? (fun row => row.id == stepId) = some found ∧
      found.status.isTerminal = false ∧
      Applied ctx (.stepMoved found (startedStep found draw.at_) (some stepId)) db mid ∧
      Applied ctx (.stepMoved (startedStep found draw.at_) settled (some stepId)) mid db' := by
  simp only [executeStep, Prog.run_bind_ok, Prog.run_lift_ok] at h
  obtain ⟨first, _, ⟨hfirst, rfl⟩, h⟩ := h
  cases first with
  | none =>
    rw [Prog.run_pure_ok] at h
    obtain ⟨-, rfl⟩ := h
    refine .inl ⟨⟨rfl, rfl, rfl⟩, ?_⟩
    exact fun step hstep => startStepCommit_none hkind hfirst hstep
  | some started =>
    obtain ⟨commit, run', step⟩ := started
    obtain ⟨found, hkind', hterminal, rfl, rfl, hmakes, -⟩ := startStepCommit_makes hversion hfirst
    rw [hkind] at hkind'
    cases hkind'
    simp only [Prog.run_bind_ok, commitRun_ok] at h
    obtain ⟨after, mid, hok, h⟩ := h
    obtain ⟨happlied, hrun', hsteps', -⟩ := hmakes.applied hrun hok
    have hstored : db.Stores ⟨run, db.steps⟩ := ⟨hrun, rfl⟩
    obtain ⟨-, -, hmid, -⟩ := hmakes.accepted hstored.seen hok
    have hfound := hmakes.valid.1
    have hactor := hplain found (mem_of_find?_eq_some hfound)
    -- the second commit starts from the run the first one wrote
    have hrow : mid.run = some commit.run := by
      rw [hmid, hmakes.run, apply_version]
      rfl
    have hstored : mid.steps.find? (fun row => row.id == (startedStep found draw.at_).id) =
        some (startedStep found draw.at_) := by
      rw [hmid]
      show (commit.newSteps.foldl insertStep db.steps).find? _ = _
      rw [hmakes.steps]
      exact find?_insertStep hfound hmakes.valid.2
    have hcurrent : commit.run.currentStepId = some found.id := by
      rw [hmakes.run]
      rfl
    unfold finishStep at h
    rw [if_neg (by rw [show isAgentStep (startedStep found draw.at_).assignedActor = _ from hactor]
                   nofun)] at h
    simp only [Prog.run_bind_ok, Prog.run_lift_ok, commitRun_ok, Prog.run_pure_ok] at h
    obtain ⟨second, _, ⟨hsecond, rfl⟩, _, _, hok', -, rfl⟩ := h
    have hmakes' : Makes ctx ⟨commit.run, mid.steps⟩ _ _ second :=
      (completeStepCommit_makes hstored hsecond).1
    rw [hcurrent] at hmakes'
    exact .inr ⟨found, mid, _, hfound, hterminal, happlied, (hmakes'.applied hrow hok').1⟩

open RunCall

/-! ## Sequences of calls -/

/-- A turn on this item starts no step and names none: the step it would execute is over,
or a running run has no step waiting. -/
def NothingToStart (run : AgentRun) (steps : List RunStep) : WorkItemKind → Prop
  | .executeStep stepId => ∀ step, steps.find? (fun row => row.id == stepId) = some step →
      step.status.isTerminal = true
  | .advanceRun => run.status = .running → allStepsTerminal steps = false →
      pendingReadySteps steps = []
  | .resumeRun => True

/-- What a call may meet, if the log is to go on agreeing: steps are added under ids that
are new, and a handler whose turn it is has nothing to start. -/
def RunCall.Sound (db : RunDb) : RunCall → Prop
  | command (.addSteps add _) =>
    (add.steps.map (·.id)).Nodup ∧ ∀ dto ∈ add.steps, ∀ old ∈ db.steps, old.id ≠ dto.id
  | command _ => True
  | work _ item _ _ => ∀ run, db.run = some run → run.version = item.expectedRunVersion →
      run.status.isTerminal = false → run.status ≠ .paused →
      NothingToStart run db.steps item.kind

def AllSucceed (db : RunDb) : List (RequestContext × RunCall) → Prop
  | [] => True
  | (context, call) :: calls =>
    ((call.program context).run db).1 = .ok () ∧ AllSucceed ((call.program context).run db).2 calls

/-- The log and the row agree at the start and after every call. -/
def AgreesThroughout (db : RunDb) : List (RequestContext × RunCall) → Prop
  | [] => Agrees db
  | (context, call) :: calls =>
    Agrees db ∧ AgreesThroughout ((call.program context).run db).2 calls

def SoundThroughout (db : RunDb) : List (RequestContext × RunCall) → Prop
  | [] => True
  | (context, call) :: calls =>
    call.Sound db ∧ SoundThroughout ((call.program context).run db).2 calls

/-- What holds as long as every call has been sound: the agreement, and that no step has
ever been started. -/
structure Tracked (db : RunDb) : Prop where
  agrees : Agrees db
  plain : Plain db.steps
  current : ∀ run, db.run = some run → run.currentStepId = none

theorem RunChange.apply_currentStepId {version : RunVersion}
    {row : AgentRun} (h : change.Replays row steps) :
    (change.apply row version at_).currentStepId = row.currentStepId := by
  cases change with
  | status target result =>
    by_cases ht : target.isTerminal = true
    · simp [apply, AgentRun.entered, ht]
    · simp [apply, AgentRun.entered, ht]
  | stepMoved found settled current => exact h.2
  | _ => rfl

theorem Tracked.same (h : Tracked db) (hsame : SameRun db db') : Tracked db' := by
  refine ⟨hsame.agrees.mpr h.agrees, ?_, ?_⟩
  · rw [hsame.steps]
    exact h.plain
  · rw [hsame.run]
    exact h.current

theorem Tracked.applied {P : Prop} (h : Tracked db) (happlied : Applied ctx change db db')
    (hP : ∀ run, run.currentStepId = none → (change.Replays run db.steps ↔ P)) :
    (Agrees db' ↔ P) ∧ (P → Tracked db') := by
  obtain @⟨row, commit, at_, hrow, -, hmakes, -, hrun', -, hsteps⟩ := id happlied
  have hcurrent := h.current row hrow
  have hiff := (happlied.agrees_iff h.agrees hrow).trans (hP row hcurrent)
  refine ⟨hiff, fun hp => ⟨hiff.mpr hp, ?_, ?_⟩⟩
  · rw [hsteps]
    exact plain_foldl h.plain (plain_steps hmakes.valid h.plain)
  · intro run hrun
    rw [hrun'] at hrun
    cases hrun
    rw [apply_currentStepId ((hP row hcurrent).mpr hp), hcurrent]

theorem Applied.projection_currentStep
    {q : RunProjection} (happlied : Applied ctx (.stepMoved found settled current) db db')
    (hlog : db.log ≠ []) (h : replayRun db'.log = .ok q) :
    ∃ p, replayRun db.log = .ok p ∧ q.currentStepId = p.currentStepId := by
  obtain @⟨row, commit, at_, -, -, hmakes, -, -, hevents, -⟩ := happlied
  have hlog' : db'.log = db.log ++ [commit.event] := by
    unfold log
    rw [hevents, filterMap_append]
    rfl
  rw [hlog', replayRun_ok] at h
  obtain ⟨next, h⟩ := h
  rw [replayState_append hlog, bind_eq_ok] at h
  obtain ⟨⟨p, expected⟩, hp, hstep⟩ := h
  obtain ⟨-, -, -, p', happly, -, rfl⟩ := replayStep_ok.mp hstep
  refine ⟨p, replayRun_ok.mpr ⟨expected, hp⟩, ?_⟩
  unfold applyEvent at happly
  rw [hmakes.payload] at happly
  simp only [payload, bind_eq_ok, pure_eq_ok] at happly
  obtain ⟨_, -, _, -, _, -, rfl⟩ := happly
  rfl

theorem Agrees.log_ne_nil (h : Agrees db) : db.log ≠ [] := by
  obtain ⟨_, p, -, hreplay, -⟩ := h
  intro hnil
  rw [hnil] at hreplay
  cases hreplay

theorem Tracked.not_agrees_of_executed {started : RunStep} (h : Tracked db)
    (hfirst : Applied ctx (.stepMoved found started (some stepId)) db mid)
    (hsecond : Applied ctx (.stepMoved started settled (some stepId)) mid db') :
    ¬ Agrees db' := by
  rintro ⟨run, q, hrun, hreplay, hmatches⟩
  have hmid : mid.log ≠ [] := by
    obtain @⟨_, commit, _, -, -, -, -, -, hevents, -⟩ := hfirst
    unfold log
    rw [hevents, filterMap_append]
    simp [RunEventRow.canonical?]
  obtain ⟨p, hp, hqp⟩ := hsecond.projection_currentStep hmid hreplay
  obtain ⟨o, ho, hpo⟩ := hfirst.projection_currentStep h.agrees.log_ne_nil hp
  obtain ⟨row, o', hrow, ho', hmatches'⟩ := h.agrees
  rw [ho] at ho'
  cases ho'
  have hnone : q.currentStepId = none := by
    rw [hqp, hpo, hmatches'.currentStep]
    exact h.current row hrow
  obtain @⟨_, _, _, -, -, -, -, hrun', -, -⟩ := hsecond
  rw [hrun] at hrun'
  cases hrun'
  rw [hmatches.currentStep] at hnone
  cases hnone

theorem RunCommand.agrees {c : RunCommand} (h : Tracked db)
    (hok : (c.program ctx).run db = (.ok snapshot, db')) :
    (Agrees db' ↔ (command c).Sound db) ∧
      ((command c).Sound db → Tracked db') := by
  cases c with
  | transitionRun | pauseRun | cancelRun =>
    exact h.applied (transitionRunWith_applied hok).1 fun _ _ => Iff.rfl
  | addSteps command draw =>
    simp only [program, Run.addSteps, Prog.run_bind_ok, loadRun_ok, Prog.run_lift_ok,
      commitRun_ok] at hok
    obtain ⟨_, _, ⟨hload, rfl⟩, commit, _, ⟨hcommit, rfl⟩, hok⟩ := hok
    obtain ⟨run, hrun, -, hid, rfl⟩ := load_eq_some.mp hload
    refine h.applied ((addStepsCommit_makes hcommit hid).1.applied hrun hok).1 fun run _ => ?_
    show (((command.steps.map (createdStep _ _)).map (·.id)).Nodup ∧
      ∀ step ∈ command.steps.map (createdStep _ _), ∀ old ∈ db.steps, old.id ≠ step.id) ↔ _
    rw [map_map, forall_mem_map]
    rfl
  | transitionStep command draw =>
    simp only [program, Run.transitionStep, Prog.run_bind_ok, loadRun_ok, Prog.run_lift_ok,
      commitRun_ok] at hok
    obtain ⟨_, _, ⟨hload, rfl⟩, commit, _, ⟨hcommit, rfl⟩, hok⟩ := hok
    obtain ⟨run, hrun, -, hid, rfl⟩ := load_eq_some.mp hload
    obtain ⟨found, settled, hsettles, hmakes⟩ := transitionStepCommit_makes hcommit hid
    refine h.applied (hmakes.applied hrun hok).1 fun run' hcurrent =>
      iff_of_true ⟨hsettles.1, ?_⟩ trivial
    rw [hcurrent]
    exact h.current run hrun
  | createCheckpoint command draw =>
    simp only [program, Run.createCheckpoint, Prog.run_bind_ok, loadRun_ok,
      Prog.run_lift_ok, commitRun_ok] at hok
    obtain ⟨_, _, ⟨hload, rfl⟩, commit, _, ⟨hcommit, rfl⟩, hok⟩ := hok
    obtain ⟨run, hrun, -, hid, rfl⟩ := load_eq_some.mp hload
    exact h.applied ((createCheckpointCommit_makes hcommit hid).applied hrun hok).1
      fun _ _ => Iff.rfl
  | resumeRun command itemDraw draw =>
    obtain ⟨item, _, hitem, hok⟩ := Prog.run_bind_ok.mp hok
    obtain ⟨-, rfl⟩ := Prog.run_lift_ok.mp hitem
    exact h.applied (transitionRunWith_applied hok).1
      fun _ _ => Iff.rfl
  | approveRun command draw secondDraw =>
    simp only [program, Run.approveRun, Prog.run_bind_ok, loadRun_ok, Prog.run_lift_ok,
      commitRun_ok] at hok
    obtain ⟨_, _, ⟨-, rfl⟩, _, _, ⟨-, rfl⟩, approved, mid, hfirst, commit, _, ⟨hcommit, rfl⟩,
      hok⟩ := hok
    obtain ⟨happlied, hrun, hsteps, hid⟩ := transitionRunWith_applied hfirst
    obtain ⟨run, steps⟩ := approved
    obtain rfl : mid.steps = steps := hsteps
    have hmid := (h.applied (P := True) happlied fun _ _ => Iff.rfl).2 trivial
    exact hmid.applied ((approvalCommit_makes hcommit hid).applied hrun hok).1 fun _ _ => Iff.rfl

theorem handle_agrees (h : Tracked db) (hrun : db.run = some run)
    (hversion : item.expectedRunVersion = run.version)
    (hok : (handle ctx model ⟨run, db.steps⟩ item draw secondDraw).run db =
      (.ok outcome, db')) : (Agrees db' ↔ NothingToStart run db.steps item.kind) ∧
      (NothingToStart run db.steps item.kind → Tracked db') := by
  -- a turn that does nothing agrees, and there was nothing to start
  have hnothing : ∀ P : Prop, P → SameRun db db' → (Agrees db' ↔ P) ∧ (P → Tracked db') := by
    intro P hp hsame
    exact ⟨iff_of_true (hsame.agrees.mpr h.agrees) hp, fun _ => h.same hsame⟩
  unfold handle at hok
  cases hkind : item.kind with
  | advanceRun =>
    rw [hkind] at hok
    rcases advanceRun_applied hrun hversion hok with
      ⟨hsame, hidle⟩ | ⟨target, result, happlied, hsteps⟩ | ⟨hrunning, hsteps, hready, happlied⟩
    · exact hnothing _ hidle hsame
    · refine h.applied happlied fun _ _ => iff_of_true trivial fun hrunning hnot => ?_
      rw [hsteps hrunning] at hnot
      cases hnot
    · refine h.applied happlied fun run' hcurrent => iff_of_false ?_ ?_
      · intro hhead
        have hnone : (pendingReadySteps db.steps).head? = none := hhead.trans hcurrent
        exact hready (List.head?_eq_none_iff.mp hnone)
      · exact fun hidle => hready (hidle hrunning hsteps)
  | resumeRun =>
    rw [hkind] at hok
    rcases resumeRunHandler_applied hrun hok with hsame | happlied
    · exact hnothing _ trivial hsame
    · exact h.applied happlied fun _ _ => Iff.rfl
  | executeStep stepId =>
    rw [hkind] at hok
    rcases executeStep_applied hkind h.plain hrun hversion hok with
      ⟨hsame, hover⟩ | ⟨found, mid, settled, hfound, hnot, hfirst, hsecond⟩
    · exact hnothing _ hover hsame
    · have hbroken := h.not_agrees_of_executed hfirst hsecond
      have hunsound : ¬ NothingToStart run db.steps (.executeStep stepId) := by
        intro hover
        rw [hover found hfound] at hnot
        cases hnot
      exact ⟨iff_of_false hbroken hunsound, fun hover => absurd hover hunsound⟩

theorem handleLoaded_agrees (h : Tracked db)
    (hok : (handleLoaded ctx model item draw secondDraw).run db = (.ok outcome, db')) :
    (Agrees db' ↔ (work model item draw secondDraw).Sound db) ∧
      ((work model item draw secondDraw).Sound db → Tracked db') := by
  simp only [handleLoaded, Prog.run_bind_ok, loadRun_ok] at hok
  obtain ⟨loaded, _, ⟨hload, rfl⟩, hok⟩ := hok
  obtain ⟨run, hrun, -, -, rfl⟩ := load_eq_some.mp hload
  have hsound : (work model item draw secondDraw).Sound db ↔
      (run.version = item.expectedRunVersion → run.status.isTerminal = false →
        run.status ≠ .paused → NothingToStart run db.steps item.kind) := by
    constructor
    · exact fun hall => hall run hrun
    · intro hone run' hrun'
      rw [hrun] at hrun'
      cases hrun'
      exact hone
  rw [hsound]
  by_cases hversion : run.version = item.expectedRunVersion
  · rw [if_neg (not_not.mpr hversion)] at hok
    by_cases hstatus : run.status.isTerminal = true ∨ run.status = .paused
    · rw [if_pos hstatus, Prog.run_pure_ok] at hok
      obtain ⟨-, rfl⟩ := hok
      refine ⟨iff_of_true h.agrees fun _ hterminal hpaused => ?_, fun _ => h⟩
      rcases hstatus with ht | hp
      · rw [hterminal] at ht
        cases ht
      · exact absurd hp hpaused
    · rw [if_neg hstatus] at hok
      obtain ⟨hterminal, hpaused⟩ := not_or.mp hstatus
      have hguards : (run.version = item.expectedRunVersion → run.status.isTerminal = false →
          run.status ≠ .paused → NothingToStart run db.steps item.kind) ↔
          NothingToStart run db.steps item.kind := by
        constructor
        · exact fun hall => hall hversion (by simpa using hterminal) hpaused
        · exact fun hone _ _ _ => hone
      rw [hguards]
      exact handle_agrees h hrun hversion.symm hok
  · rw [if_pos hversion, Prog.run_pure_ok] at hok
    obtain ⟨-, rfl⟩ := hok
    exact ⟨iff_of_true h.agrees fun hsame => absurd hsame hversion, fun _ => h⟩

theorem RunCall.agrees {call : RunCall}
    (h : Tracked db) (hok : (call.program ctx).run db = (.ok (), db')) :
    (Agrees db' ↔ call.Sound db) ∧ (call.Sound db → Tracked db') := by
  cases call with
  | command c =>
    simp only [program, Prog.run_bind_ok, Prog.run_pure_ok] at hok
    obtain ⟨snapshot, _, hok, -, rfl⟩ := hok
    exact agrees h hok
  | work model item draw secondDraw =>
    simp only [program, Prog.run_bind_ok, Prog.run_pure_ok] at hok
    obtain ⟨outcome, _, hok, -, rfl⟩ := hok
    exact handleLoaded_agrees h hok

theorem Tracked.throughout_iff {calls : List (RequestContext × RunCall)} (h : Tracked db)
    (hsucceed : AllSucceed db calls) : AgreesThroughout db calls ↔ SoundThroughout db calls := by
  induction calls generalizing db with
  | nil => exact iff_of_true h.agrees trivial
  | cons call calls ih =>
    obtain ⟨ctx, call⟩ := call
    obtain ⟨hok, hrest⟩ := hsucceed
    have hrun : (call.program ctx).run db = (.ok (), ((call.program ctx).run db).2) :=
      Prod.ext hok rfl
    have hone := RunCall.agrees h hrun
    constructor
    · rintro ⟨-, hthroughout⟩
      -- the agreement right after this call makes it sound
      have hafter : Agrees ((call.program ctx).run db).2 := by
        cases calls with
        | nil => exact hthroughout
        | cons next calls' => exact hthroughout.1
      have hsound := hone.1.mp hafter
      exact ⟨hsound, (ih (hone.2 hsound) hrest).mp hthroughout⟩
    · rintro ⟨hsound, hthroughout⟩
      exact ⟨h.agrees, (ih (hone.2 hsound) hrest).mpr hthroughout⟩

theorem created_agrees_iff {runId : AgentRunId} {command : CreateRun}
    (h : (createRun ctx command runId draw).run .empty = (.ok snapshot, db)) :
    (Agrees db ↔ Str.trim command.objective = command.objective) ∧ (Agrees db → Tracked db) := by
  obtain ⟨run, event, hrun, hevent, rfl⟩ := createRun_ok h
  simp only [AgentRun.create, bind_eq_ok, refuse_eq_ok, exists_const, pure_eq_ok] at hrun
  obtain ⟨-, -, -, rfl⟩ := hrun
  have hevent' := Draw.event_ok hevent
  subst hevent'
  refine ⟨?_, fun hagrees => ⟨hagrees, forall_mem_nil _, ?_⟩⟩
  · constructor
    · rintro ⟨_, p, hsome, hreplay, hmatches⟩
      cases hsome
      cases hreplay
      exact hmatches.objective.symm
    · intro htrim
      exact ⟨_, _, rfl, rfl, rfl, rfl, rfl, rfl, rfl, htrim.symm, rfl, rfl, rfl, fun _ => rfl⟩
  · intro run hrun
    cases hrun
    rfl

/-- **When the canonical log tells the stored run.** After the creation and after every successful
call the log replays to what is stored, if and only if the objective came without surrounding
white space, steps were only added under new ids, and no handler ever had a step to start. -/
theorem canonical_log_agrees_iff {context : RequestContext} {command : CreateRun}
    {runId : AgentRunId} {draw : Draw} {snapshot : RunSnapshot} {db : RunDb}
    (hcreate : (createRun context command runId draw).run .empty = (.ok snapshot, db))
    {calls : List (RequestContext × RunCall)} (hsucceed : AllSucceed db calls) :
    AgreesThroughout db calls ↔
      Str.trim command.objective = command.objective ∧ SoundThroughout db calls := by
  obtain ⟨hiff, htracked⟩ := created_agrees_iff hcreate
  constructor
  · intro hthroughout
    have hagrees : Agrees db := by
      cases calls with
      | nil => exact hthroughout
      | cons call calls' => exact hthroughout.1
    exact ⟨hiff.mp hagrees, ((htracked hagrees).throughout_iff hsucceed).mp hthroughout⟩
  · rintro ⟨htrim, hsound⟩
    exact ((htracked (hiff.mpr htrim)).throughout_iff hsucceed).mpr hsound

/-! One step, added and executed. -/

def addDraft : RunCall :=
  .command (.addSteps ⟨none, ⟨1⟩, .initial, [⟨⟨7⟩, none, .system, [], .none⟩], .system⟩ (drawAt 2))

def executeDraft : RunCall :=
  .work none ((drawAt 2).workItem 0 ⟨1⟩ (.executeStep ⟨7⟩) ⟨2⟩) (drawAt 3) (drawAt 4)

set_option maxRecDepth 2000 in
/-- A run with one step, and the worker executes it: the row names the step as its current
one, and the log does not even replay, since a pending step does not start running. -/
theorem executed_step_breaks_log :
    ∃ snapshot db, ReportCreated snapshot db ∧
      AllSucceed db [(reportContext, addDraft), (reportContext, executeDraft)] ∧
      ¬ AgreesThroughout db [(reportContext, addDraft), (reportContext, executeDraft)] := by
  refine ⟨_, _, rfl, ⟨rfl, rfl, trivial⟩, ?_⟩
  rintro ⟨-, -, _, p, -, hreplay, -⟩
  cases hreplay

/-- The first turn on a new run: it is prepared, and nothing is started yet. -/
def prepareReport : RunCall :=
  .work none ((drawAt 1).workItem 0 ⟨1⟩ .advanceRun .initial) (drawAt 2) (drawAt 3)

theorem canonical_log_agrees_iff_prepared :
    ∃ snapshot db, ReportCreated snapshot db ∧
      AllSucceed db [(reportContext, prepareReport)] ∧
      AgreesThroughout db [(reportContext, prepareReport)] := by
  have hcreate : ∃ snapshot db, ReportCreated snapshot db ∧
      AllSucceed db [(reportContext, prepareReport)] ∧
      SoundThroughout db [(reportContext, prepareReport)] := by
    refine ⟨_, _, rfl, ⟨rfl, trivial⟩, ?_, trivial⟩
    intro run hrun _ _ _ hrunning
    cases hrun
    cases hrunning
  obtain ⟨snapshot, db, hdb, hsucceed, hsound⟩ := hcreate
  exact ⟨snapshot, db, hdb, hsucceed,
    (canonical_log_agrees_iff hdb hsucceed).mpr ⟨by decide, hsound⟩⟩

end Vestrace.Run
