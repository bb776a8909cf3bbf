import Mathlib.Algebra.Group.Int.Defs
import Mathlib.Algebra.Group.Nat.Defs
import Mathlib.Data.Nat.Basic
import Mathlib.Tactic.Common

/-!
# Identities, instants and errors

The `domain_id!` newtypes, the `chrono` instants, and the two error enumerations, whose texts
are kept because callers see them. `Timestamp` is the number of nanoseconds since the epoch.
-/

namespace Vestrace

/-! ## Identities -/

/-- A UUID is its 128 bits. -/
abbrev Uuid := BitVec 128

def hexDigit (n : Nat) : Char :=
  if n < 10 then Char.ofNat (48 + n) else Char.ofNat (87 + n)

def Uuid.display (u : Uuid) : String :=
  let digits := (List.range 32).map fun i => hexDigit (u.toNat >>> (4 * (31 - i)) % 16)
  let group := fun from_ len => String.ofList ((digits.drop from_).take len)
  String.intercalate "-" [group 0 8, group 8 4, group 12 4, group 16 4, group 20 12]

/-- What a `domain_id!` newtype identifies. -/
inductive Entity where
  | workspace
  | principal
  | capabilityGrant
  | policyDecision
  | policy
  | agentRun
  | runStep
  | runEvent
  | runCheckpoint
  | runReference
  | workItem
  | worker
  | planRevision
  | agentRuntimeSnapshot
  | budgetSnapshot
  | resourceUsageSnapshot
  | correlation
  | request
  | approvalRecord
  | job
  | operation
  | externalEffect
  | externalEffectReceipt
  | externalEffectLifecycleTransition
  | externalReconciliation
  | memory
  | memoryRevision
  | outbox
  deriving DecidableEq, Repr

/-- A `domain_id!` newtype, so that ids of different things cannot be confused. -/
structure Id (e : Entity) where
  fromUuid ::
  asUuid : Uuid
  deriving DecidableEq, Repr

def Id.display {e : Entity} (id : Id e) : String := Uuid.display id.asUuid

abbrev WorkspaceId := Id .workspace
abbrev PrincipalId := Id .principal
abbrev CapabilityGrantId := Id .capabilityGrant
abbrev PolicyDecisionId := Id .policyDecision
abbrev PolicyId := Id .policy
abbrev AgentRunId := Id .agentRun
abbrev RunStepId := Id .runStep
abbrev RunEventId := Id .runEvent
abbrev RunCheckpointId := Id .runCheckpoint
abbrev RunReferenceId := Id .runReference
abbrev WorkItemId := Id .workItem
abbrev WorkerId := Id .worker
abbrev PlanRevisionId := Id .planRevision
abbrev AgentRuntimeSnapshotId := Id .agentRuntimeSnapshot
abbrev BudgetSnapshotId := Id .budgetSnapshot
abbrev ResourceUsageSnapshotId := Id .resourceUsageSnapshot
abbrev CorrelationId := Id .correlation
abbrev RequestId := Id .request
abbrev ApprovalRecordId := Id .approvalRecord
abbrev JobId := Id .job
abbrev OperationId := Id .operation
abbrev ExternalEffectId := Id .externalEffect
abbrev ExternalEffectReceiptId := Id .externalEffectReceipt
abbrev ExternalEffectLifecycleTransitionId := Id .externalEffectLifecycleTransition
abbrev ExternalReconciliationId := Id .externalReconciliation
abbrev MemoryId := Id .memory
abbrev MemoryRevisionId := Id .memoryRevision
abbrev OutboxId := Id .outbox

/-! ## Instants -/

/-- `chrono::DateTime<Utc>`, as nanoseconds since the epoch. -/
abbrev Timestamp := Int

/-- The instants `chrono` can represent: years −262143 to 262142. -/
def Timestamp.InRange (t : Timestamp) : Prop :=
  -8334601228800 * 1000000000 ≤ t ∧ t < (8210266876799 + 1) * 1000000000

instance (t : Timestamp) : Decidable (Timestamp.InRange t) := inferInstanceAs (Decidable (_ ∧ _))

/-- `DateTime::checked_add_signed`, the summand in nanoseconds. -/
def Timestamp.checkedAddSigned (t : Timestamp) (d : Int) : Option Timestamp :=
  if Timestamp.InRange (t + d) then some (t + d) else none

/-- `chrono::Duration::seconds`, in nanoseconds. A duration is at most `i64::MAX`
milliseconds long either way, and the constructor panics beyond: `none`. -/
def durationSeconds (s : Int) : Option Int :=
  if -9223372036854775 ≤ s ∧ s ≤ 9223372036854775 then some (s * 1000000000) else none

/-! ## Errors -/

inductive DomainError where
  | invalidArgument (message : String)
  | notFound (what : String)
  | revisionConflict (expected current : UInt64)
  | policyViolation (message : String)
  deriving DecidableEq, Repr

def DomainError.display : DomainError → String
  | .invalidArgument message => "invalid argument: " ++ message
  | .notFound what => "not found: " ++ what
  | .revisionConflict expected current =>
    "revision conflict: expected " ++ toString expected.toNat ++ ", current " ++
      toString current.toNat
  | .policyViolation message => "policy violation: " ++ message

inductive ApplicationError where
  | domain (e : DomainError)
  | conflict (message : String)
  | policy (message : String)
  | unavailable (message : String)
  | storage (message : String)
  | internal (message : String)
  | invalidConfiguration (message : String)
  deriving DecidableEq, Repr

def ApplicationError.display : ApplicationError → String
  | .domain e => e.display
  | .conflict message => "conflict: " ++ message
  | .policy message => "policy failure: " ++ message
  | .unavailable message => "unavailable: " ++ message
  | .storage message => "storage failure: " ++ message
  | .internal message => "internal failure: " ++ message
  | .invalidConfiguration message => "invalid configuration: " ++ message

/-- `Result<_, ApplicationError>`. -/
abbrev AppResult : Type → Type := Except ApplicationError

/-- How a call can end without a value: with an `Err`, or by unwinding. -/
inductive Abort where
  | failed (e : DomainError)
  | panicked (message : String)
  deriving DecidableEq, Repr

structure RequestContext where
  requestId : RequestId
  correlationId : CorrelationId
  workspaceId : WorkspaceId
  principalId : PrincipalId
  deriving DecidableEq, Repr

end Vestrace
