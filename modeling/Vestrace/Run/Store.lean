import Vestrace.Legacy.Reducer
import Vestrace.Run.Event

/-!
# The run store — the tables of one run and the transactions on them

What the database holds for one run. Each method is one transaction: a constraint that fails
anywhere in it undoes all of it. The text of a database error is the database's; here it is the
name of the constraint that was violated, or of the error class.

Two version columns count the same stream. `commitOn` compares and advances
`agent_runs.run_version`; `append` compares and advances `run_streams.current_version`.
-/

namespace Vestrace.Run

open Lib Vestrace.Legacy List

/-! ## Rows -/

/-- A row of `run_events`: both writers share the table. -/
inductive RunEventRow where
  | canonical (event : RunEvent)
  | legacy (event : LegacyRunEventEnvelope)
  deriving DecidableEq, Repr

def RunEventRow.sequence : RunEventRow → ℕ
  | canonical event => event.sequence.value.toNat
  | legacy event => event.sequence.toNat

def RunEventRow.canonical? : RunEventRow → Option RunEvent
  | canonical event => some event
  | legacy _ => none

inductive WorkItemStatus where
  | ready
  | leased
  | completed
  | cancelled
  | deadLetter
  deriving DecidableEq, Repr

structure WorkItemRow where
  item : WorkItem
  status : WorkItemStatus
  maxAttempts : ℕ
  leaseOwner : Option WorkerId
  leaseUntil : Option Timestamp
  lastError : Option RunFailure
  deriving DecidableEq, Repr

structure RunLease where
  runId : AgentRunId
  workerId : WorkerId
  generation : ℕ
  acquiredAt : Timestamp
  heartbeatAt : Timestamp
  leaseUntil : Timestamp
  deriving DecidableEq, Repr

structure RunLeaseRow where
  workspaceId : WorkspaceId
  lease : RunLease
  deriving DecidableEq, Repr

/-- `steps` lists the rows in the order `load` asks for, by `created_at`. `resultPrepared` are the
steps with a row of `provider_result_preparations` in state `result_prepared`. -/
structure RunDb where
  run : Option AgentRun
  streamVersion : Option RunVersion
  events : List RunEventRow
  steps : List RunStep
  checkpoints : List RunCheckpoint
  workItems : List WorkItemRow
  lease : Option RunLeaseRow
  resultPrepared : List RunStepId
  deriving DecidableEq, Repr

variable {commit : CommitRun} {db' : RunDb} {ctx : RequestContext} {snapshot : RunSnapshot}

def RunDb.empty : RunDb := ⟨none, none, [], [], [], [], none, []⟩

def violates (constraint : String) : ApplicationError := .storage constraint

/-- The first version a `BIGINT` column cannot hold: cast to `i64` it is negative. -/
def bigintLimit : ℕ := 2 ^ 63

/-! ## Texts -/

def RunTerminalResult.texts : RunTerminalResult → List String
  | succeeded summary => summary.toList
  | succeededWithWarnings summary warnings => summary :: warnings
  | partial_ summary remainingWork => summary :: remainingWork
  | failed code message _ => [code, message]
  | cancelled reason => reason.toList
  | expired => []

def RunStep.texts (step : RunStep) : List String :=
  step.planStepReference.toList ++ step.error.elim [] fun error => [error.code, error.message]

def RunEventPayload.texts : RunEventPayload → List String
  | runCreated objective .. => [objective]
  | runStatusChanged _ _ result => result.elim [] RunTerminalResult.texts
  | stepsAdded steps => steps.flatMap RunStep.texts
  | _ => []

/-- The texts a commit writes beside the run's row. -/
def CommitRun.texts (commit : CommitRun) : List String :=
  commit.event.payload.texts ++ commit.newSteps.flatMap RunStep.texts ++
    commit.workItems.map WorkItem.idempotencyKey

/-- No text column can hold the character NUL, and no string in a `JSONB` column. -/
def storable (texts : List String) : Bool :=
  texts.all fun text => !Str.contains text (Char.ofNat 0)

namespace RunDb

variable (db : RunDb) (context : RequestContext)

def load (runId : AgentRunId) : Option RunSnapshot :=
  match db.run with
  | some run =>
    if run.workspaceId = context.workspaceId ∧ run.id = runId then some ⟨run, db.steps⟩ else none
  | none => none

def writeRun (row run : AgentRun) : AgentRun :=
  { row with
    status := run.status
    version := run.version
    updatedAt := run.updatedAt
    finishedAt := run.finishedAt
    currentStepId := run.currentStepId
    checkpointId := run.checkpointId
    activePlanRevisionId := run.activePlanRevisionId
    result := run.result }

/-- `{:?}` of the version a refused compare-and-set finds. -/
def debugVersion : Option RunVersion → String
  | some version => "Some(" ++ toString version.toNat ++ ")"
  | none => "None"

def updateRun (run : AgentRun) (expectedVersion : RunVersion) : AppResult RunDb := do
  refuse (storable (run.result.elim [] RunTerminalResult.texts) = false)
    (violates "untranslatable_character")
  let row := db.run.filter fun row => row.workspaceId = context.workspaceId ∧ row.id = run.id
  let row ← okOr (row.filter fun row => row.version = expectedVersion)
    (.conflict ("revision_conflict: expected version " ++ toString expectedVersion.toNat ++
      ", found " ++ debugVersion (row.map (·.version))))
  refuse (bigintLimit ≤ run.version.toNat) (violates "chk_agent_runs_version_gte1")
  return { db with run := some (writeRun row run) }

def advanceStream (version : RunVersion) : AppResult RunDb := do
  refuse (bigintLimit ≤ version.toNat) (violates "run_streams_current_version_non_negative")
  return { db with streamVersion := some version }

def appendEvent (event : RunEvent) : AppResult RunDb := do
  refuse (bigintLimit ≤ event.sequence.value.toNat) (violates "run_events_sequence_positive")
  refuse (db.events.any fun row => row.sequence == event.sequence.value.toNat)
    (violates "run_events_workspace_run_sequence_key")
  return { db with events := db.events ++ [.canonical event] }

/-- Where `ORDER BY created_at` puts a new row, ties in insertion order. -/
def placeStep (step : RunStep) : List RunStep → List RunStep
  | [] => [step]
  | row :: rows =>
    if row.createdAt ≤ step.createdAt then row :: placeStep step rows else step :: row :: rows

def progressStep (row step : RunStep) : RunStep :=
  { row with
    status := step.status
    attempt := step.attempt
    outputReferences := step.outputReferences
    error := step.error
    startedAt := step.startedAt
    finishedAt := step.finishedAt }

def insertStep (steps : List RunStep) (step : RunStep) : List RunStep :=
  if steps.any fun row => row.id == step.id then
    steps.map fun row => if row.id = step.id then progressStep row step else row
  else placeStep step steps

def insertCheckpoint (checkpoints : List RunCheckpoint) (checkpoint : RunCheckpoint) :
    List RunCheckpoint :=
  if checkpoints.any fun row => row.runVersion == checkpoint.runVersion then checkpoints
  else checkpoints ++ [checkpoint]

def readyRow (item : WorkItem) : WorkItemRow := ⟨item, .ready, 3, none, none, none⟩

def insertWorkItem (rows : List WorkItemRow) (item : WorkItem) : AppResult (List WorkItemRow) := do
  refuse (rows.any fun row => row.item.id == item.id) (violates "run_work_items_pkey")
  refuse (rows.any fun row => row.item.idempotencyKey == item.idempotencyKey)
    (violates "uq_run_work_items_workspace_key")
  return rows ++ [readyRow item]

/-- The deferred triggers on `agent_runs` and `run_steps`: while a result is prepared, its run and
its step are running. -/
def resultBlocks (commit : CommitRun) : Bool :=
  (commit.run.status != .running && !db.resultPrepared.isEmpty) ||
    commit.newSteps.any fun step =>
      step.status != .running && db.resultPrepared.contains step.id

/-- The rows every commit adds after the run row is written. -/
def writeCommit (commit : CommitRun) : AppResult RunDb := do
  refuse (storable commit.texts = false) (violates "untranslatable_character")
  let db ← db.advanceStream commit.event.runVersion
  let db ← db.appendEvent commit.event
  let workItems ← commit.workItems.foldlM insertWorkItem db.workItems
  refuse (db.resultBlocks commit) (violates "agent_runs_result_prepared_contract")
  return { db with
    steps := commit.newSteps.foldl insertStep db.steps
    checkpoints := commit.checkpoint.elim db.checkpoints (insertCheckpoint db.checkpoints)
    workItems := workItems }

def commitOn (commit : CommitRun) : AppResult (RunSnapshot × RunDb) := do
  let expectedVersion ← commit.run.version.previous.mapError fun e => .storage e.display
  let db ← db.updateRun context commit.run expectedVersion
  let db ← db.writeCommit commit
  let snapshot ← okOr (db.load context commit.run.id) (.storage "run not found after commit")
  return (snapshot, db)

/-- The row an insert makes of a run: the columns it does not name are null. -/
def insertedRun (run : AgentRun) : AgentRun :=
  { run with
    workspaceId := context.workspaceId
    currentStepId := none
    checkpointId := none
    activePlanRevisionId := none
    budgetSnapshotId := none
    resourceUsageSnapshotId := none
    result := none
    finishedAt := none
    updatedAt := run.createdAt }

def create (commit : CommitRun) : AppResult (RunSnapshot × RunDb) := do
  refuse (db.run.isSome) (violates "agent_runs_pkey")
  refuse (storable [commit.run.objective] = false) (violates "untranslatable_character")
  let db ← writeCommit { db with run := some (insertedRun context commit.run) } commit
  let snapshot ← okOr (db.load context commit.run.id) (.storage "run not found after create")
  return (snapshot, db)

/-! ## What a commit does -/

variable {db}

/-- The ids and the keys of these items are free, among the rows and among themselves. -/
def Enqueueable (rows : List WorkItemRow) (items : List WorkItem) : Prop :=
  (items.Pairwise fun a b => a.id ≠ b.id ∧ a.idempotencyKey ≠ b.idempotencyKey) ∧
  ∀ item ∈ items, ∀ row ∈ rows,
    row.item.id ≠ item.id ∧ row.item.idempotencyKey ≠ item.idempotencyKey

theorem insertWorkItem_ok {item : WorkItem}
    {rows rows' : List WorkItemRow} : insertWorkItem rows item = .ok rows' ↔
      (∀ row ∈ rows, row.item.id ≠ item.id ∧ row.item.idempotencyKey ≠ item.idempotencyKey) ∧
        rows' = rows ++ [readyRow item] := by
  simp only [insertWorkItem, bind_eq_ok, refuse_eq_ok, exists_const, pure_eq_ok, any_eq_true,
    beq_iff_eq, not_exists, not_and]
  constructor
  · rintro ⟨hid, hkey, rfl⟩
    exact ⟨fun row hrow => ⟨hid row hrow, hkey row hrow⟩, rfl⟩
  · rintro ⟨hfresh, rfl⟩
    exact ⟨fun row hrow => (hfresh row hrow).1, fun row hrow => (hfresh row hrow).2, rfl⟩

theorem insertWorkItems_ok {rows rows' : List WorkItemRow} {items : List WorkItem} :
    items.foldlM insertWorkItem rows = .ok rows' ↔
      Enqueueable rows items ∧ rows' = rows ++ items.map readyRow := by
  induction items generalizing rows with
  | nil =>
    rw [foldlM_nil, pure_eq_ok]
    simp [Enqueueable, eq_comm]
  | cons item items ih =>
    simp only [foldlM_cons, bind_eq_ok, insertWorkItem_ok, ih, Enqueueable, pairwise_cons, map_cons]
    constructor
    · rintro ⟨_, ⟨hfresh, rfl⟩, ⟨hpair, hrest⟩, rfl⟩
      refine ⟨⟨⟨?_, hpair⟩, ?_⟩, by simp⟩
      · intro other hother
        exact hrest other hother (readyRow item) (by simp)
      · intro other hother row hrow
        rcases mem_cons.mp hother with rfl | hother'
        · exact hfresh row hrow
        · exact hrest other hother' row (mem_append_left _ hrow)
    · rintro ⟨⟨⟨hhead, hpair⟩, hall⟩, rfl⟩
      refine ⟨_, ⟨hall item mem_cons_self, rfl⟩, ⟨hpair, ?_⟩, by simp⟩
      intro other hother row hrow
      rcases mem_append.mp hrow with hold | hnew
      · exact hall other (mem_cons_of_mem _ hother) row hold
      · rw [mem_singleton.mp hnew]
        exact hhead other hother

/-- Nothing the commit adds beside the run's row is refused. -/
structure Writable (db : RunDb) (commit : CommitRun) : Prop where
  texts : storable commit.texts = true
  versionBound : commit.event.runVersion.toNat < bigintLimit
  sequenceBound : commit.event.sequence.value.toNat < bigintLimit
  sequenceFree : ∀ row ∈ db.events, row.sequence ≠ commit.event.sequence.value.toNat
  itemsFree : Enqueueable db.workItems commit.workItems
  results : db.resultBlocks commit = false

def written (db : RunDb) (run : AgentRun) (commit : CommitRun) : RunDb where
  run := some run
  streamVersion := some commit.event.runVersion
  events := db.events ++ [.canonical commit.event]
  steps := commit.newSteps.foldl insertStep db.steps
  checkpoints := commit.checkpoint.elim db.checkpoints (insertCheckpoint db.checkpoints)
  workItems := db.workItems ++ commit.workItems.map readyRow
  lease := db.lease
  resultPrepared := db.resultPrepared

theorem writeCommit_ok {run : AgentRun} : writeCommit { db with run := some run } commit = .ok db' ↔
      Writable db commit ∧ db' = db.written run commit := by
  simp only [writeCommit, advanceStream, appendEvent, bind_eq_ok, refuse_eq_ok, exists_const,
    pure_eq_ok, not_le, insertWorkItems_ok, any_eq_true, beq_iff_eq, not_exists, not_and,
    Bool.not_eq_false]
  constructor
  · rintro ⟨htexts, _, ⟨hver, rfl⟩, _, ⟨hseq, hfree, rfl⟩, _, ⟨hitems, rfl⟩, hresults, rfl⟩
    exact ⟨⟨htexts, hver, hseq, hfree, hitems, Bool.eq_false_iff.mpr hresults⟩, rfl⟩
  · rintro ⟨⟨htexts, hver, hseq, hfree, hitems, hresults⟩, rfl⟩
    exact ⟨htexts, _, ⟨hver, rfl⟩, _, ⟨hseq, hfree, rfl⟩, _, ⟨hitems, rfl⟩,
      Bool.eq_false_iff.mp hresults, rfl⟩

structure Commits (context : RequestContext) (db : RunDb) (commit : CommitRun) (row : AgentRun) :
    Prop where
  found : db.run = some row
  workspace : row.workspaceId = context.workspaceId
  id : row.id = commit.run.id
  positive : 1 ≤ row.version.toNat
  version : commit.run.version.toNat = row.version.toNat + 1
  bound : commit.run.version.toNat < bigintLimit
  result : storable (commit.run.result.elim [] RunTerminalResult.texts) = true
  writable : Writable db commit

/-- **What `commit_on` accepts and what it leaves.** -/
theorem commitOn_ok : db.commitOn ctx commit = .ok (snapshot, db') ↔
      ∃ row, Commits ctx db commit row ∧ db' = db.written (writeRun row commit.run) commit ∧
        snapshot = ⟨writeRun row commit.run, db'.steps⟩ := by
  simp only [commitOn, updateRun, bind_eq_ok, mapError_eq_ok, okOr_eq_ok, refuse_eq_ok,
    exists_const, pure_eq_ok, Prod.mk.injEq, not_le, Bool.not_eq_false]
  constructor
  · rintro ⟨expected, hprev, _, ⟨hresult, row, hrow, hbound, rfl⟩, _, hwrite, _, hload, rfl, rfl⟩
    obtain ⟨hwritable, rfl⟩ := writeCommit_ok.mp hwrite
    obtain ⟨hpos, hver⟩ := RunVersion.previous_eq_ok.mp hprev
    simp only [Option.filter_eq_some_iff, decide_eq_true_eq] at hrow
    obtain ⟨⟨hfound, hws, hid⟩, hexp⟩ := hrow
    subst hexp
    refine ⟨row, ⟨hfound, hws, hid, hpos, hver, hbound, hresult, hwritable⟩, rfl, ?_⟩
    have hload' : (db.written (writeRun row commit.run) commit).load ctx commit.run.id =
        some ⟨writeRun row commit.run, (db.written (writeRun row commit.run) commit).steps⟩ :=
      if_pos ⟨hws, hid⟩
    rw [hload'] at hload
    cases hload
    rfl
  · rintro ⟨row, ⟨hfound, hws, hid, hpos, hver, hbound, hresult, hwritable⟩, rfl, rfl⟩
    refine ⟨row.version, RunVersion.previous_eq_ok.mpr ⟨hpos, hver⟩, _,
      ⟨hresult, row, ?_, hbound, rfl⟩, _, writeCommit_ok.mpr ⟨hwritable, rfl⟩, _,
      if_pos ⟨hws, hid⟩, rfl, rfl⟩
    simp only [Option.filter_eq_some_iff, decide_eq_true_eq]
    exact ⟨⟨hfound, hws, hid⟩, trivial⟩

theorem create_ok (h : db.create ctx commit = .ok (snapshot, db')) :
    Writable db commit ∧ db' = db.written (insertedRun ctx commit.run) commit := by
  simp only [create, bind_eq_ok, refuse_eq_ok, exists_const, okOr_eq_ok, pure_eq_ok,
    Prod.mk.injEq] at h
  obtain ⟨-, -, _, hwrite, _, -, -, rfl⟩ := h
  exact writeCommit_ok.mp hwrite

theorem load_eq_some {runId : AgentRunId} : db.load ctx runId = some snapshot ↔
      ∃ run, db.run = some run ∧ run.workspaceId = ctx.workspaceId ∧ run.id = runId ∧
        snapshot = ⟨run, db.steps⟩ := by
  unfold load
  cases db.run with
  | none => simp
  | some run =>
    simp only [Option.some.injEq, exists_eq_left']
    by_cases h : run.workspaceId = ctx.workspaceId ∧ run.id = runId
    · simp [h.1, h.2, eq_comm]
    · rw [if_neg h]
      exact iff_of_false nofun fun hsome => h ⟨hsome.1, hsome.2.1⟩

end RunDb

end Vestrace.Run
