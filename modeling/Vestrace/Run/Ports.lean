import Vestrace.Lib.Ports
import Vestrace.Run.Store

/-!
# The ports — store, work queue and run leases

The three ports the coordinator and the worker call, on the tables of one run. Every call is
a transaction of its own: between two calls of one routine any other routine may have made
its own.
-/

namespace Vestrace.Run

open Lib

namespace RunDb

variable (db : RunDb) (context : RequestContext)

/-! ## The work queue -/

/-- The queue's statements select by workspace, and all rows here are the run's. -/
def sees : Bool :=
  db.run.any fun run => run.workspaceId == context.workspaceId

def updateItems (where_ : WorkItemRow → Bool)
    (set : WorkItemRow → WorkItemRow) : ℕ × RunDb :=
  let selected := fun row => db.sees context && where_ row
  (db.workItems.countP selected,
    { db with workItems := db.workItems.map fun row => if selected row then set row else row })

def leasable (now : Timestamp) (row : WorkItemRow) : Bool :=
  decide (row.item.availableAt ≤ now) && (row.status == .ready ||
      (row.status == .leased && row.leaseUntil.any fun leaseUntil => decide (leaseUntil ≤ now)))

def attempted (item : WorkItem) : WorkItem := { item with attempt := item.attempt + 1 }

/-- `lease_next`. Which leasable row it takes depends on the rows of other runs and on
which rows are locked just then, so the caller names it. -/
def leaseNext (id : WorkItemId) (workerId : WorkerId) (now leaseUntil : Timestamp) :
    Option WorkItem × RunDb :=
  let next := fun row : WorkItemRow => row.item.id == id && leasable now row
  ((db.workItems.find? fun row => db.sees context && next row).map fun row => attempted row.item,
    (db.updateItems context next fun row =>
      { row with
        status := .leased
        leaseOwner := some workerId
        leaseUntil := some leaseUntil
        item := attempted row.item }).2)

def affected (result : ℕ × RunDb) (message : String) : AppResult (Unit × RunDb) := do
  refuse (result.1 = 0) (.conflict message)
  return ((), result.2)

def complete (item : WorkItem) : AppResult (Unit × RunDb) :=
  affected (db.updateItems context (fun row => row.item.id == item.id && row.status == .leased)
    fun row => { row with status := .completed, leaseOwner := none, leaseUntil := none })
    "work item not leased or not found"

def retry (item : WorkItem) (availableAt : Timestamp) (error : RunFailure) :
    AppResult (Unit × RunDb) :=
  affected (db.updateItems context (fun row => row.item.id == item.id && row.status == .leased)
    fun row => { row with
      status := if row.maxAttempts ≤ row.item.attempt then .deadLetter else .ready
      item := { row.item with availableAt := availableAt }
      lastError := some error, leaseOwner := none, leaseUntil := none })
    "work item not leased or not found"

def deadLetter (item : WorkItem) (error : RunFailure) : AppResult (Unit × RunDb) :=
  affected (db.updateItems context
      (fun row => row.item.id == item.id && row.item.idempotencyKey == item.idempotencyKey)
    fun row => { row with
      status := .deadLetter, lastError := some error, leaseOwner := none, leaseUntil := none })
    "work item not found"

def cancellable (at_ : Timestamp) (row : WorkItemRow) : Bool :=
  row.status == .ready ||
    (row.status == .leased && row.leaseUntil.any fun leaseUntil => decide (leaseUntil < at_))

def cancelForRun (runId : AgentRunId) (at_ : Timestamp) : ℕ × RunDb :=
  db.updateItems context (fun row => row.item.runId == runId && cancellable at_ row) fun row =>
    { row with status := .cancelled, leaseOwner := none, leaseUntil := none }

/-! ## Run leases -/

def acquire (runId : AgentRunId) (workerId : WorkerId) (now leaseUntil : Timestamp) :
    AppResult (RunLease × RunDb) := do
  refuse (db.lease.any fun held =>
      !(decide (held.lease.leaseUntil < now) && held.workspaceId == context.workspaceId))
    (.conflict "run lease held by another worker")
  let generation := (db.lease.map fun held => held.lease.generation).getD 0 + 1
  let lease : RunLease := ⟨runId, workerId, generation, now, now, leaseUntil⟩
  return (lease, { db with lease := some ⟨context.workspaceId, lease⟩ })

def release (lease : RunLease) : AppResult (Unit × RunDb) := do
  refuse (db.lease.all fun held =>
      !(held.workspaceId == context.workspaceId && held.lease.workerId == lease.workerId &&
        held.lease.generation == lease.generation))
    (.conflict "lease lost")
  return ((), { db with lease := none })

end RunDb

/-! ## Calls -/

/-- The calls of the three ports. -/
inductive PortCall where
  | create (context : RequestContext) (commit : CommitRun)
  | load (context : RequestContext) (runId : AgentRunId)
  | commit (context : RequestContext) (commit : CommitRun)
  | leaseNext (context : RequestContext) (id : WorkItemId) (workerId : WorkerId)
      (now leaseUntil : Timestamp)
  | complete (context : RequestContext) (item : WorkItem)
  | retry (context : RequestContext) (item : WorkItem) (availableAt : Timestamp)
      (error : RunFailure)
  | deadLetter (context : RequestContext) (item : WorkItem) (error : RunFailure)
  | cancelForRun (context : RequestContext) (runId : AgentRunId) (at_ : Timestamp)
  | acquire (context : RequestContext) (runId : AgentRunId) (workerId : WorkerId)
      (now leaseUntil : Timestamp)
  | release (context : RequestContext) (lease : RunLease)
  deriving DecidableEq, Repr

@[reducible] def PortCall.Answer : PortCall → Type
  | create .. => AppResult RunSnapshot
  | load .. => Option RunSnapshot
  | commit .. => AppResult RunSnapshot
  | leaseNext .. => Option WorkItem
  | complete .. => AppResult Unit
  | retry .. => AppResult Unit
  | deadLetter .. => AppResult Unit
  | cancelForRun .. => ℕ
  | acquire .. => AppResult RunLease
  | release .. => AppResult Unit

def PortCall.exec : (call : PortCall) → RunDb → call.Answer × RunDb
  | create context built, db => transact (fun db => db.create context built) db
  | load context runId, db => (db.load context runId, db)
  | commit context built, db => transact (fun db => db.commitOn context built) db
  | leaseNext context id workerId now leaseUntil, db =>
    db.leaseNext context id workerId now leaseUntil
  | complete context item, db => transact (fun db => db.complete context item) db
  | retry context item availableAt error, db =>
    transact (fun db => db.retry context item availableAt error) db
  | deadLetter context item error, db => transact (fun db => db.deadLetter context item error) db
  | cancelForRun context runId at_, db => db.cancelForRun context runId at_
  | acquire context runId workerId now leaseUntil, db =>
    transact (fun db => db.acquire context runId workerId now leaseUntil) db
  | release context lease, db => transact (fun db => db.release context lease) db

abbrev runPorts : Ports RunDb := ⟨PortCall, PortCall.Answer, PortCall.exec⟩

abbrev RunProg (α : Type) := Prog runPorts ApplicationError α

section

variable (context : RequestContext)

def storeRun (commit : CommitRun) : RunProg RunSnapshot := do
  let created : AppResult RunSnapshot ←
    Prog.perform (P := runPorts) (.create context commit)
  created

/-- `store.load`, and the error the callers make of an absent run. -/
def loadRun (runId : AgentRunId) : RunProg RunSnapshot := do
  let snapshot : Option RunSnapshot ← Prog.perform (P := runPorts) (.load context runId)
  (okOr snapshot (.domain (.notFound "run not found")) : AppResult RunSnapshot)

def commitRun (commit : CommitRun) : RunProg RunSnapshot := do
  let committed : AppResult RunSnapshot ←
    Prog.perform (P := runPorts) (.commit context commit)
  committed

def cancelQueue (runId : AgentRunId) (at_ : Timestamp) : RunProg Unit := do
  let _ ← Prog.perform (P := runPorts) (.cancelForRun context runId at_)

variable {context} {db db' : RunDb} {runId : AgentRunId} {snapshot : RunSnapshot}
variable {commit : CommitRun}

theorem storeRun_ok : (storeRun context commit).run db = (.ok snapshot, db') ↔
      db.create context commit = .ok (snapshot, db') := by
  show transact (fun db => db.create context commit) db = _ ↔ _
  exact transact_ok

theorem loadRun_ok : (loadRun context runId).run db = (.ok snapshot, db') ↔
      db.load context runId = some snapshot ∧ db = db' := by
  show (okOr (db.load context runId) _, db) = _ ↔ _
  rw [Prod.mk.injEq, okOr_eq_ok]

theorem commitRun_ok : (commitRun context commit).run db = (.ok snapshot, db') ↔
      db.commitOn context commit = .ok (snapshot, db') := by
  show transact (fun db => db.commitOn context commit) db = _ ↔ _
  exact transact_ok

theorem cancelQueue_ok {at_ : Timestamp} {u : Unit} :
    (cancelQueue context runId at_).run db = (.ok u, db') ↔
      (db.cancelForRun context runId at_).2 = db' := by
  show ((.ok (), (db.cancelForRun context runId at_).2) : AppResult Unit × RunDb) =
    _ ↔ _
  simp

end

end Vestrace.Run
