import Vestrace.Effects.Host

/-!
# Telling the run

`EffectOutcomeDeliveryService::deliver_once`: find the settled outcomes whose run has not
been told, append an event to its stream, mark the outcome as delivered. The event and the
mark are two transactions.
-/

namespace Vestrace.Effects

open Lib

@[irreducible] def UndeliveredOutcome.runId (outcome : UndeliveredOutcome) : Option AgentRunId :=
  outcome.intent.executionRunId

def UndeliveredOutcome.told (outcome : UndeliveredOutcome) : Run.UndeliveredOutcome where
  effectId := outcome.reconciliation.effectId
  receiptId := outcome.reconciliation.receiptId
  outcome := outcome.reconciliation.outcome
  evidenceStrength := outcome.reconciliation.evidenceStrength
  reconciledAt := outcome.reconciliation.reconciledAt

def deliveryBatch : UInt32 := 32

structure OutcomeDeliveryReport where
  delivered : ℕ
  unattributable : ℕ
  deferred : ℕ
  deriving DecidableEq, Repr

section

variable (context : RequestContext) (at_ : Timestamp)

def appendToRun (runId : AgentRunId) (outcome : UndeliveredOutcome) :
    EffectProg ApplicationError Unit := do
  let answer ← ask (.loadStreamHead context runId)
  let loaded ← liftM answer
  let head ← liftM (okOr loaded (ApplicationError.domain (.notFound ("run " ++ runId.display ++
    " has no event stream to record an effect outcome in"))))
  let eventId ← ask .newId
  let causationId ← ask .newId
  let appended ← ask (.appendEvents context runId head
    [Run.outcomeEnvelope context runId head outcome.told ⟨eventId⟩ ⟨causationId⟩ at_])
  let _ ← liftM appended
  return ()

/-- The debt is paid, or there is nobody to pay it to. -/
def markDelivered (outcome : UndeliveredOutcome) : EffectProg ApplicationError Unit := do
  let marked ← ask (.markOutcomeDelivered context outcome.reconciliation.id at_)
  liftM marked

def deliverOne (outcome : UndeliveredOutcome) (report : OutcomeDeliveryReport) :
    EffectProg ApplicationError OutcomeDeliveryReport :=
  match outcome.runId with
  | none => do
    markDelivered context at_ outcome
    return { report with unattributable := report.unattributable + 1 }
  | some runId => do
    let result ← (appendToRun context at_ runId outcome).attempt
    match result with
    | .ok _ => do
      markDelivered context at_ outcome
      return { report with delivered := report.delivered + 1 }
    | .error _ => return { report with deferred := report.deferred + 1 }

def deliverEach : List UndeliveredOutcome → OutcomeDeliveryReport →
    EffectProg ApplicationError OutcomeDeliveryReport
  | [], report => return report
  | outcome :: outcomes, report => do
    let report ← deliverOne context at_ outcome report
    deliverEach outcomes report

def deliverOnce : EffectProg ApplicationError OutcomeDeliveryReport := do
  let answer ← ask (.findUndeliveredOutcomes context deliveryBatch)
  let owed ← liftM answer
  deliverEach context at_ owed ⟨0, 0, 0⟩

end

end Vestrace.Effects
