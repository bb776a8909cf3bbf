import Vestrace.Run.Frame

/-!
# Advancing a run to its end

`AdvanceRunHandler` has a branch for each status it moves on from, and each branch asks
for transitions the table must allow. One of them it may not: a run that is still
`Preparing` when all its steps have ended is finalised from there, and `Preparing`
leads to `Failed` but to no other outcome. The handler then returns an error, and no
item to advance the run will ever do better.
-/

namespace Vestrace.Run

open Lib List Prog RunDb RunChange RunVersion

def RunStatus.isDriven : RunStatus → Bool
  | created | preparing | running => true
  | _ => false

theorem RunStatus.isDriven_iff {s : RunStatus} :
    s.isDriven = true ↔ s = .created ∨ s = .preparing ∨ s = .running := by
  cases s <;> simp [isDriven]

/-! ## Plans -/

section

variable {snapshot : RunSnapshot} {item : WorkItem} {next : RunVersion} {steps : List RunStep}

theorem event_exists {version : RunVersion}
    (draw : Draw) (runId : AgentRunId) (workspaceId : WorkspaceId)
    (actor : RunActorRef) (payload : RunEventPayload) (correlationId : CorrelationId)
    (hpayload : payload.isCreation = false) (hversion : 1 < version.toNat) :
    ∃ event, draw.event runId workspaceId version actor payload correlationId none = .ok event := by
  have hinitial : version ≠ .initial := by
    intro heq
    rw [heq] at hversion
    exact absurd hversion (by decide)
  simp only [Draw.event, mapError_eq_ok, RunEvent.new, bind_eq_ok, refuse_eq_ok, exists_const,
    pure_eq_ok, hpayload]
  exact ⟨_, by simp, by simp, by simp [hinitial], by simp, rfl⟩

theorem systemTransition_exists (ctx : RequestContext) (draw : Draw) (target : RunStatus)
    (result : Option RunTerminalResult) (hversion : snapshot.run.version = item.expectedRunVersion)
    (hpositive : 1 ≤ snapshot.run.version.toNat) (hnext : item.expectedRunVersion.next = .ok next)
    (hresult : target.isTerminal = true ↔ result.isSome = true)
    (htable : snapshot.run.status.transitionTo target = .ok ()) :
    ∃ moved, systemTransition ctx snapshot item next draw target result = .ok moved := by
  have hnext' := next_eq_ok.mp hnext
  rw [← hversion] at hnext hnext'
  have hlater : 1 < next.toNat := by omega
  have htransition : snapshot.run.transition item.expectedRunVersion target result draw.at_ =
      (_, .ok _) :=
    AgentRun.transition_ok.mpr ⟨⟨hversion.symm, hresult, htable⟩, next, hnext, rfl, rfl⟩
  obtain ⟨event, hevent⟩ := event_exists draw snapshot.run.id ctx.workspaceId .system
    (.runStatusChanged snapshot.run.status target result) draw.correlationId rfl hlater
  unfold systemTransition
  rw [htransition]
  dsimp only
  rw [hevent]
  exact ⟨_, rfl⟩

theorem finalOutcome_enters {s : RunStatus}
    (h : s = .running ∨ (s = .preparing ∧ (finalOutcome steps).1 = .failed)) :
    s.transitionTo (finalOutcome steps).1 = .ok () ∧ (finalOutcome steps).1.isTerminal = true := by
  rcases h with rfl | ⟨rfl, hfailed⟩
  · unfold finalOutcome
    split
    · exact ⟨rfl, rfl⟩
    · split <;> exact ⟨rfl, rfl⟩
  · rw [hfailed]
    exact ⟨rfl, rfl⟩

theorem finalOutcome_ne_failed_iff :
    (finalOutcome steps).1 ≠ .failed ↔ ∀ step ∈ steps, step.status ≠ .failed := by
  unfold finalOutcome
  split
  next hall =>
    refine iff_of_true nofun fun step hstep hfailed => ?_
    have hsucceeded := all_eq_true.mp hall step hstep
    rw [hfailed] at hsucceeded
    cases hsucceeded
  next =>
    split
    next hany =>
      obtain ⟨step, hstep, hfailed⟩ := any_eq_true.mp hany
      exact iff_of_false (fun h => h rfl) fun h => h step hstep (beq_iff_eq.mp hfailed)
    next hnone =>
      refine iff_of_true nofun fun step hstep hfailed => hnone ?_
      exact any_eq_true.mpr ⟨step, hstep, beq_iff_eq.mpr hfailed⟩

theorem finalizeRunCommit_exists (ctx : RequestContext) (draw : Draw)
    (hversion : snapshot.run.version = item.expectedRunVersion)
    (hpositive : 1 ≤ snapshot.run.version.toNat) (hnext : item.expectedRunVersion.next = .ok next)
    (h : snapshot.run.status = .running ∨
      (snapshot.run.status = .preparing ∧ (finalOutcome snapshot.steps).1 = .failed)) :
    ∃ commit, finalizeRunCommit ctx snapshot item next draw = .ok commit := by
  obtain ⟨htable, hterminal⟩ := finalOutcome_enters h
  obtain ⟨moved, hmoved⟩ := systemTransition_exists ctx draw
    (finalOutcome snapshot.steps).1 (some (finalOutcome snapshot.steps).2) hversion hpositive hnext
    (iff_of_true hterminal rfl) htable
  unfold finalizeRunCommit
  dsimp only
  rw [hmoved]
  exact ⟨_, rfl⟩

theorem advanceRunPlan_exists (ctx : RequestContext) (draw : Draw)
    (hversion : snapshot.run.version = item.expectedRunVersion)
    (hpositive : 1 ≤ snapshot.run.version.toNat)
    (hroom : snapshot.run.version.toNat + 1 < 2 ^ 64)
    (hstarted : snapshot.run.status = .preparing → allStepsTerminal snapshot.steps = true →
      (finalOutcome snapshot.steps).1 = .failed) :
    ∃ plan, advanceRunPlan ctx snapshot item draw = .ok plan := by
  obtain ⟨next, hnext⟩ : ∃ next, item.expectedRunVersion.next = .ok next := by
    rw [hversion] at hroom
    exact next_exists hroom
  unfold advanceRunPlan
  rw [hnext]
  show ∃ plan, (match snapshot.run.status with
    | .created => _
    | .preparing => _
    | .running => _
    | _ => _) = Except.ok plan
  split
  next hcreated =>
    obtain ⟨moved, hmoved⟩ := systemTransition_exists ctx draw .preparing none hversion
      hpositive hnext (by decide) (by rw [hcreated]; rfl)
    unfold prepareRunCommit
    rw [hmoved]
    exact ⟨_, rfl⟩
  next hpreparing =>
    obtain ⟨moved, hmoved⟩ := systemTransition_exists ctx draw .running none hversion hpositive
      hnext (by decide) (by rw [hpreparing]; rfl)
    unfold startRunPlan
    rw [hmoved, ok_bind]
    dsimp only
    by_cases hterminal : allStepsTerminal snapshot.steps = true
    · obtain ⟨commit, hcommit⟩ := finalizeRunCommit_exists ctx draw hversion hpositive hnext
        (.inr ⟨hpreparing, hstarted hpreparing hterminal⟩)
      rw [if_pos hterminal, hcommit]
      exact ⟨_, rfl⟩
    · rw [if_neg hterminal]
      exact ⟨_, rfl⟩
  next hrunning =>
    unfold advanceRunningRunPlan
    by_cases hterminal : allStepsTerminal snapshot.steps = true
    · obtain ⟨commit, hcommit⟩ := finalizeRunCommit_exists ctx draw hversion hpositive hnext
        (.inl hrunning)
      rw [if_pos hterminal, hcommit]
      exact ⟨_, rfl⟩
    · rw [if_neg hterminal]
      dsimp only
      split
      · exact ⟨_, rfl⟩
      · rw [hversion] at hpositive
        have hlater : 1 < next.toNat := by
          have := next_eq_ok.mp hnext
          omega
        obtain ⟨event, hevent⟩ := event_exists draw snapshot.run.id ctx.workspaceId .system
          (.currentStepChanged snapshot.run.currentStepId (pendingReadySteps snapshot.steps).head?)
          draw.correlationId rfl hlater
        rw [hevent]
        exact ⟨_, rfl⟩
  next => exact ⟨_, rfl⟩

theorem advanceRunPlan_stuck (ctx : RequestContext) (item : WorkItem) (draw : Draw)
    (hpreparing : snapshot.run.status = .preparing)
    (hended : allStepsTerminal snapshot.steps = true)
    (houtcome : (finalOutcome snapshot.steps).1 ≠ .failed) :
    ∃ e, advanceRunPlan ctx snapshot item draw = .error e := by
  cases hplan : advanceRunPlan ctx snapshot item draw with
  | error e => exact ⟨e, rfl⟩
  | ok plan =>
    simp only [advanceRunPlan, hpreparing, startRunPlan, bind_eq_ok, mapError_eq_ok,
      Prod.exists] at hplan
    obtain ⟨next, hnext, run, event, -, hfinalize⟩ := hplan
    rw [if_pos hended] at hfinalize
    simp only [bind_eq_ok, pure_eq_ok] at hfinalize
    obtain ⟨commit, hcommit, -⟩ := hfinalize
    have htable := (finalizeRunCommit_makes hnext hcommit).1.valid.2
    rw [hpreparing] at htable
    revert htable houtcome
    unfold finalOutcome
    split
    · intro _ htable
      cases htable
    · split
      · intro houtcome
        exact absurd rfl houtcome
      · intro _ htable
        cases htable

end

/-! ## One item after another -/

def AdvancePlan.made : AdvancePlan → Option CommitRun
  | .done => none
  | .commit built | .finalize built => some built

def AdvancePlan.after (snapshot : RunSnapshot) (plan : AdvancePlan) : RunSnapshot :=
  plan.made.elim snapshot fun commit =>
    ⟨writeRun snapshot.run commit.run, commit.newSteps.foldl insertStep snapshot.steps⟩

def Accepting (context : RequestContext) (snapshot : RunSnapshot) (item : WorkItem) (draw : Draw)
    (db : RunDb) : Prop :=
  ∀ plan commit, advanceRunPlan context snapshot item draw = .ok plan → plan.made = some commit →
    RunDb.Commits context db commit snapshot.run

def advanced (context : RequestContext) (snapshot : RunSnapshot) (draw : Draw) :
    AppResult RunSnapshot := do
  let plan ← advanceRunPlan context snapshot
    (draw.workItem 0 snapshot.run.id .advanceRun snapshot.run.version) draw
  return plan.after snapshot

def advancedTimes (context : RequestContext) (snapshot : RunSnapshot) (draws : List Draw) :
    AppResult RunSnapshot :=
  draws.foldlM (advanced context) snapshot

section

variable {ctx : RequestContext} {snapshot : RunSnapshot} {item : WorkItem} {draw : Draw}
variable {db : RunDb}

theorem advanceRun_of_plan {plan : AdvancePlan} (hstores : db.Stores snapshot)
    (hplan : advanceRunPlan ctx snapshot item draw = .ok plan)
    (haccepting : Accepting ctx snapshot item draw db) :
    ∃ db', (advanceRun ctx snapshot item draw).run db = (.ok .completed, db') ∧
      db'.Stores (plan.after snapshot) := by
  have hcommit : ∀ commit, plan.made = some commit →
      (commitRun ctx commit).run db =
          (.ok (plan.after snapshot), db.written (writeRun snapshot.run commit.run) commit) ∧
        (db.written (writeRun snapshot.run commit.run) commit).Stores
          (plan.after snapshot) := by
    intro commit hmade
    have hafter : plan.after snapshot = ⟨writeRun snapshot.run commit.run,
        (db.written (writeRun snapshot.run commit.run) commit).steps⟩ := by
      rw [AdvancePlan.after, hmade, Option.elim_some, ← hstores.2]
      rfl
    rw [hafter]
    exact ⟨commitRun_ok.mpr (commitOn_ok.mpr
      ⟨snapshot.run, haccepting plan commit hplan hmade, rfl, rfl⟩), rfl, rfl⟩
  cases plan with
  | done =>
    refine ⟨db, ?_, hstores⟩
    simp only [advanceRun, run_bind_ok, run_lift_ok, hplan]
    exact ⟨_, db, ⟨rfl, rfl⟩, rfl⟩
  | commit commit =>
    obtain ⟨hrun, hafter⟩ := hcommit commit rfl
    refine ⟨_, ?_, hafter⟩
    simp only [advanceRun, run_bind_ok, run_lift_ok, hplan]
    refine ⟨_, db, ⟨rfl, rfl⟩, ?_⟩
    exact run_bind_ok.mpr ⟨_, _, hrun, rfl⟩
  | finalize commit =>
    obtain ⟨hrun, hafter⟩ := hcommit commit rfl
    refine ⟨((db.written (writeRun snapshot.run commit.run) commit).cancelForRun ctx
      snapshot.run.id draw.at_).2, ?_, hafter⟩
    simp only [advanceRun, run_bind_ok, run_lift_ok, hplan]
    refine ⟨_, db, ⟨rfl, rfl⟩, ?_⟩
    exact run_bind_ok.mpr ⟨_, _, hrun, rfl⟩

theorem advanced_created (ctx : RequestContext) (draw : Draw)
    (hcreated : snapshot.run.status = .created) (hpositive : 1 ≤ snapshot.run.version.toNat)
    (hroom : snapshot.run.version.toNat + 1 < 2 ^ 64) :
    ∃ after, advanced ctx snapshot draw = .ok after ∧ after.run.status = .preparing ∧
      after.run.version.toNat = snapshot.run.version.toNat + 1 ∧
      after.steps = snapshot.steps := by
  have hversion : snapshot.run.version =
    (draw.workItem 0 snapshot.run.id .advanceRun snapshot.run.version).expectedRunVersion := rfl
  obtain ⟨plan, hplan⟩ := advanceRunPlan_exists ctx draw hversion hpositive hroom
    (by rw [hcreated]; nofun)
  refine ⟨plan.after snapshot, by rw [advanced, hplan]; rfl, ?_⟩
  simp only [advanceRunPlan, hcreated, bind_eq_ok, mapError_eq_ok, pure_eq_ok] at hplan
  obtain ⟨next, hnext, commit, hcommit, rfl⟩ := hplan
  have hmakes := (prepareRunCommit_makes hnext hcommit).1
  have hrun : (AdvancePlan.after snapshot (.commit commit)).run =
      apply snapshot.run commit.run.version draw.at_ (.status .preparing none) :=
    hmakes.writeRun
  refine ⟨?_, ?_, ?_⟩
  · rw [hrun, apply_status]
    rfl
  · rw [hrun, apply_version]
    exact next_eq_ok.mp hmakes.next
  · show commit.newSteps.foldl insertStep snapshot.steps = snapshot.steps
    rw [hmakes.steps]
    rfl

theorem advanced_ended (ctx : RequestContext) (draw : Draw)
    (hended : allStepsTerminal snapshot.steps = true)
    (hstatus : snapshot.run.status = .running ∨
      (snapshot.run.status = .preparing ∧ (finalOutcome snapshot.steps).1 = .failed))
    (hpositive : 1 ≤ snapshot.run.version.toNat)
    (hroom : snapshot.run.version.toNat + 1 < 2 ^ 64) :
    ∃ after, advanced ctx snapshot draw = .ok after ∧
      after.run.status.isTerminal = true := by
  have hversion : snapshot.run.version =
    (draw.workItem 0 snapshot.run.id .advanceRun snapshot.run.version).expectedRunVersion := rfl
  obtain ⟨plan, hplan⟩ := advanceRunPlan_exists ctx draw hversion hpositive hroom
    (fun hpreparing _ => by
      rcases hstatus with hrunning | ⟨-, hfailed⟩
      · rw [hrunning] at hpreparing
        cases hpreparing
      · exact hfailed)
  refine ⟨plan.after snapshot, by rw [advanced, hplan]; rfl, ?_⟩
  have hfinalized : ∃ commit, plan = .finalize commit ∧
      Makes ctx snapshot (.status (finalOutcome snapshot.steps).1
        (some (finalOutcome snapshot.steps).2)) draw.at_ commit := by
    simp only [advanceRunPlan, bind_eq_ok, mapError_eq_ok] at hplan
    obtain ⟨next, hnext, hplan⟩ := hplan
    rcases hstatus with hrunning | ⟨hpreparing, -⟩
    · simp only [hrunning, advanceRunningRunPlan, if_pos hended, bind_eq_ok, pure_eq_ok] at hplan
      obtain ⟨commit, hcommit, rfl⟩ := hplan
      exact ⟨commit, rfl, (finalizeRunCommit_makes hnext hcommit).1⟩
    · simp only [hpreparing, startRunPlan, if_pos hended, bind_eq_ok, pure_eq_ok] at hplan
      obtain ⟨_, -, commit, hcommit, rfl⟩ := hplan
      exact ⟨commit, rfl, (finalizeRunCommit_makes hnext hcommit).1⟩
  obtain ⟨commit, rfl, hmakes⟩ := hfinalized
  have hrun : (AdvancePlan.after snapshot (.finalize commit)).run =
      apply snapshot.run commit.run.version draw.at_ _ := hmakes.writeRun
  rw [hrun, apply_status]
  exact (finalOutcome_enters hstatus).2

end

/-- Advancing a run does not dead-end: the handler returns `Ok` on every item for the version
the run is at, and enough of them end a run whose steps have ended. -/
structure AdvancesToEnd (context : RequestContext) (snapshot : RunSnapshot) : Prop where
  ok : ∀ (item : WorkItem) (draw : Draw) (db : RunDb),
    item.expectedRunVersion = snapshot.run.version → db.Stores snapshot →
    Accepting context snapshot item draw db →
      ∃ outcome db', (advanceRun context snapshot item draw).run db = (.ok outcome, db')
  ends : allStepsTerminal snapshot.steps = true → ∃ n, ∀ draws : List Draw, draws.length = n →
    ∃ after, advancedTimes context snapshot draws = .ok after ∧
      after.run.status.isTerminal = true

theorem AdvancesToEnd.outcome {ctx : RequestContext} {snapshot : RunSnapshot}
    (h : AdvancesToEnd ctx snapshot)
    (hpreparing : snapshot.run.status = .preparing)
    (hended : allStepsTerminal snapshot.steps = true) :
    (finalOutcome snapshot.steps).1 = .failed := by
  by_contra houtcome
  obtain ⟨e, he⟩ := advanceRunPlan_stuck ctx
    ((drawAt 0).workItem 0 snapshot.run.id .advanceRun snapshot.run.version) (drawAt 0)
    hpreparing hended houtcome
  -- any tables that hold the run will do: the handler does not get to its commit
  obtain ⟨outcome, db', hrun⟩ := h.ok _ _
    ⟨some snapshot.run, none, [], snapshot.steps, [], [], none, []⟩ rfl ⟨rfl, rfl⟩ (by
      intro plan commit hplan
      rw [he] at hplan
      cases hplan)
  rw [advanceRun, he] at hrun
  cases hrun

/-- **Advancing never dead-ends, unless all steps have ended before the run was started** and
none of them failed. -/
theorem advances_to_end_iff (context : RequestContext) {snapshot : RunSnapshot}
    (hdriven : snapshot.run.status.isDriven = true) (hpositive : 1 ≤ snapshot.run.version.toNat)
    (hroom : snapshot.run.version.toNat + 2 < 2 ^ 64) :
    AdvancesToEnd context snapshot ↔
      ¬ (allStepsTerminal snapshot.steps = true ∧ snapshot.run.status ≠ .running ∧
        ∀ step ∈ snapshot.steps, step.status ≠ .failed) := by
  rw [← finalOutcome_ne_failed_iff]
  have hroom' : snapshot.run.version.toNat + 1 < 2 ^ 64 := by omega
  constructor
  · rintro hadvances ⟨hended, hrunning, houtcome⟩
    rcases RunStatus.isDriven_iff.mp hdriven with hcreated | hpreparing | hrunning'
    · -- the first item prepares the run, and no other gets further
      obtain ⟨n, hn⟩ := hadvances.ends hended
      obtain ⟨after, hafter, hterminal⟩ := hn (List.replicate n (drawAt 0))
        (length_replicate ..)
      obtain ⟨prepared, hprepared, hstatus, -, hsteps⟩ :=
        advanced_created context (drawAt 0) hcreated hpositive hroom'
      rcases n with _ | _ | n
      · cases hafter
        rw [hcreated] at hterminal
        cases hterminal
      · simp only [advancedTimes, List.replicate, foldlM_cons, foldlM_nil, hprepared,
          ok_bind, pure_eq_ok] at hafter
        rw [← hafter, hstatus] at hterminal
        cases hterminal
      · simp only [advancedTimes, List.replicate, foldlM_cons, hprepared, ok_bind,
          bind_eq_ok] at hafter
        obtain ⟨_, hadvanced, -⟩ := hafter
        rw [← hsteps] at hended houtcome
        obtain ⟨e, he⟩ := advanceRunPlan_stuck context
          ((drawAt 0).workItem 0 prepared.run.id .advanceRun prepared.run.version) (drawAt 0)
          hstatus hended houtcome
        rw [advanced, he] at hadvanced
        cases hadvanced
    · exact houtcome (hadvances.outcome hpreparing hended)
    · exact hrunning hrunning'
  · intro hnot
    have hstarted : snapshot.run.status ≠ .running → allStepsTerminal snapshot.steps = true →
        (finalOutcome snapshot.steps).1 = .failed :=
      fun hrunning hended => by_contra fun houtcome => hnot ⟨hended, hrunning, houtcome⟩
    refine ⟨?_, ?_⟩
    · intro item draw db hversion hstores haccepting
      obtain ⟨plan, hplan⟩ := advanceRunPlan_exists context draw hversion.symm hpositive hroom'
        fun hpreparing => hstarted (by rw [hpreparing]; nofun)
      obtain ⟨db', hrun, -⟩ := advanceRun_of_plan hstores hplan haccepting
      exact ⟨_, db', hrun⟩
    · intro hended
      rcases RunStatus.isDriven_iff.mp hdriven with hcreated | hlater
      · refine ⟨2, fun draws hlength => ?_⟩
        obtain ⟨first, second, rfl⟩ := length_eq_two.mp hlength
        obtain ⟨prepared, hprepared, hstatus, hversion, hsteps⟩ :=
          advanced_created context first hcreated hpositive hroom'
        have hfailed := hstarted (by rw [hcreated]; nofun) hended
        rw [← hsteps] at hended hfailed
        obtain ⟨after, hafter, hterminal⟩ := advanced_ended context second hended
          (.inr ⟨hstatus, hfailed⟩) (by omega) (by omega)
        refine ⟨after, ?_, hterminal⟩
        simp only [advancedTimes, foldlM_cons, foldlM_nil, hprepared, hafter, ok_bind]
        rfl
      · have hstatus : snapshot.run.status = .running ∨
            snapshot.run.status = .preparing ∧ (finalOutcome snapshot.steps).1 = .failed :=
          hlater.symm.imp_right fun h => ⟨h, hstarted (by rw [h]; nofun) hended⟩
        refine ⟨1, fun draws hlength => ?_⟩
        obtain ⟨draw, rfl⟩ := length_eq_one_iff.mp hlength
        obtain ⟨after, hafter, hterminal⟩ :=
          advanced_ended context draw hended hstatus hpositive hroom'
        refine ⟨after, ?_, hterminal⟩
        simp only [advancedTimes, foldlM_cons, foldlM_nil, hafter, ok_bind]
        rfl

/-- A step is added and executed before the run is prepared. -/
def prepareLate : RunProg Unit := do
  let _ ← addSteps reportContext
    ⟨none, ⟨1⟩, .initial, [⟨⟨7⟩, none, .system, [], .none⟩], .system⟩ (drawAt 2)
  let _ ← handleLoaded reportContext none ((drawAt 2).workItem 0 ⟨1⟩ (.executeStep ⟨7⟩) ⟨2⟩)
    (drawAt 3) (drawAt 4)
  let _ ← handleLoaded reportContext none ((drawAt 4).workItem 0 ⟨1⟩ .advanceRun ⟨4⟩)
    (drawAt 5) (drawAt 5)

set_option maxRecDepth 2000 in
/-- All steps have ended, and the run does not. -/
theorem advance_dead_ends_when_prepared_late :
    ∃ created db, ReportCreated created db ∧
      ∃ db' s, prepareLate.run db = (.ok (), db') ∧ db'.Stores s ∧
        s.run.status.isDriven = true ∧ allStepsTerminal s.steps = true ∧
        ¬ AdvancesToEnd reportContext s := by
  have hlate : ∃ created db, ReportCreated created db ∧
      ∃ db' s, prepareLate.run db = (.ok (), db') ∧ db'.Stores s ∧
        s.run.status = .preparing ∧ allStepsTerminal s.steps = true ∧
        (finalOutcome s.steps).1 = .succeeded :=
    ⟨_, _, rfl, _, ⟨_, _⟩, rfl, ⟨rfl, rfl⟩, rfl, rfl, rfl⟩
  obtain ⟨created, db, hcreate, db', s, hrun, hstores, hpreparing, hended, houtcome⟩ := hlate
  refine ⟨created, db, hcreate, db', s, hrun, hstores, by rw [hpreparing]; rfl, hended, ?_⟩
  intro hadvances
  rw [hadvances.outcome hpreparing hended] at houtcome
  cases houtcome

def draftDone : RunSnapshot where
  run := {
    id := ⟨1⟩
    workspaceId := ⟨1⟩
    objective := "write the report"
    coordinatorSnapshotId := ⟨1⟩
    activePlanRevisionId := none
    executionMode := .autopilot
    status := .running
    currentStepId := some ⟨7⟩
    checkpointId := none
    parent := none
    rootRunId := ⟨1⟩
    budgetSnapshotId := none
    resourceUsageSnapshotId := none
    version := ⟨6⟩
    result := none
    createdAt := 1
    updatedAt := 6
    finishedAt := none }
  steps := [completedStep (createdStep ⟨1⟩ 2 ⟨⟨7⟩, none, .system, [], .none⟩) 6]

theorem advances_to_end_iff_draftDone :
    draftDone.run.status.isDriven = true ∧ AdvancesToEnd reportContext draftDone := by
  refine ⟨rfl, (advances_to_end_iff reportContext rfl (by decide) (by decide)).mpr ?_⟩
  rintro ⟨-, hrunning, -⟩
  exact hrunning rfl

end Vestrace.Run
