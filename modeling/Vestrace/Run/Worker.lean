import Vestrace.Lib.Threads
import Vestrace.Run.Handlers

/-!
# The worker, and everyone at once

One iteration of the worker leases an item, asks whether it may work on it, loads the run
and, if the item is still for the run's version, takes the run's lease and calls the
handler.
-/

namespace Vestrace.Run

open Lib Prog

/-- What one iteration meets outside: its clock readings and draws, which of the leasable
items the database hands it, and what the authorization boundary answers. -/
structure Iteration where
  workerId : WorkerId
  leaseTtl : Int
  leasedAt : Timestamp
  pick : WorkItemId
  verdict : AppResult Unit
  now : Timestamp
  draw : Draw
  secondDraw : Draw

variable (context : RequestContext)

section

variable (item : WorkItem)

def completeItem : RunProg Unit := do
  let result : AppResult Unit ← perform (P := runPorts) (.complete context item)
  result

def completeStale : RunProg Unit := do
  let result : AppResult Unit ← perform (P := runPorts) (.complete context item)
  match result with
  | .error (.conflict _) => return ()
  | result => result

def retryItem (availableAt : Timestamp) (error : RunFailure) : RunProg Unit := do
  let result : AppResult Unit ←
    perform (P := runPorts) (.retry context item availableAt error)
  result

def deadLetterItem (error : RunFailure) : RunProg Unit := do
  let result : AppResult Unit ←
    perform (P := runPorts) (.deadLetter context item error)
  result

end

def retryDelay (attempt : ℕ) : Int :=
  match attempt with
  | 0 | 1 => 1000000000
  | 2 => 5000000000
  | 3 => 30000000000
  | _ => 60000000000

def isRetryable : ApplicationError → Bool
  | .storage _ => true
  | _ => false

def leaseBusy : RunFailure := ⟨"lease_busy", "run lease held by another worker", true⟩

def staleLease : RunFailure := ⟨"stale_lease", "lease was lost during handler execution", true⟩

def runNotFound : RunFailure := ⟨"run_not_found", "run does not exist", false⟩

def handlerError (e : ApplicationError) : RunFailure := ⟨"handler_error", e.display, isRetryable e⟩

def authorizationDenied (message : String) : RunFailure := ⟨"authorization_denied", message, false⟩

def settleItem (item : WorkItem) (now : Timestamp) : AppResult RunWorkOutcome → RunProg Unit
  | .ok .completed => completeItem context item
  | .ok (.retry availableAt error) => retryItem context item availableAt error
  | .ok (.deadLetter error) => deadLetterItem context item error
  | .ok .noopStaleVersion => completeItem context item
  | .error (.conflict _) =>
    retryItem context item (now + retryDelay item.attempt) staleLease
  | .error e =>
    if isRetryable e then retryItem context item (now + retryDelay item.attempt) (handlerError e)
    else deadLetterItem context item (handlerError e)

def handleLeased (model : Option StepModelExecutor) (turn : Iteration) (item : WorkItem)
    (snapshot : RunSnapshot) : RunProg Unit := do
  let lease : AppResult RunLease ← perform (P := runPorts)
    (.acquire context item.runId turn.workerId turn.now (turn.now + turn.leaseTtl))
  match lease with
  | .error (.conflict _) =>
    retryItem context item (turn.now + retryDelay item.attempt) leaseBusy
  | .error e => (.error e : AppResult Unit)
  | .ok lease => do
    let outcome ← (handle context model snapshot item turn.draw turn.secondDraw).attempt
    settleItem context item turn.now outcome
    let _ ← perform (P := runPorts) (.release context lease)

def processItem (model : Option StepModelExecutor) (turn : Iteration) (item : WorkItem) :
    RunProg Unit := do
  let snapshot : Option RunSnapshot ← perform (P := runPorts) (.load context item.runId)
  match snapshot with
  | none => deadLetterItem context item runNotFound
  | some snapshot =>
    if snapshot.run.version ≠ item.expectedRunVersion then completeStale context item
    else if snapshot.run.status.isTerminal ∨ snapshot.run.status = .paused then
      cancelQueue context item.runId turn.now
    else handleLeased context model turn item snapshot

def runOnce (model : Option StepModelExecutor) (turn : Iteration) : RunProg Bool := do
  let item : Option WorkItem ← perform (P := runPorts)
    (.leaseNext context turn.pick turn.workerId turn.leasedAt (turn.leasedAt + turn.leaseTtl))
  match item with
  | none => return false
  | some item =>
    match turn.verdict with
    | .ok () => do
      processItem context model turn item
      return true
    | .error (.policy message) => do
      deadLetterItem context item (authorizationDenied message)
      return true
    | .error e => (.error e : AppResult Bool)

/-- What a client or a worker is doing. -/
inductive Job where
  | client (context : RequestContext) (command : RunCommand)
  | worker (context : RequestContext) (model : Option StepModelExecutor) (turn : Iteration)

def Job.program : Job → RunProg Unit
  | client context command => do
    let _ ← command.program context
  | worker context model turn => do
    let _ ← runOnce context model turn

abbrev RunWorld := World runPorts ApplicationError Job

def RunWorld.still (db : RunDb) : RunWorld := ⟨db, fun _ => none⟩

end Vestrace.Run
