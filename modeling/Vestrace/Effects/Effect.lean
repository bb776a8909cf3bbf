import Vestrace.Legacy.Reducer
import Vestrace.Security.Capability

/-!
# External effects

What a process does to the world outside: the intent it writes down first, the
authorization it needs, the receipt it gets, and the reconciliation that settles what
nobody was told (`external_effects.rs` of the domain). Ids are drawn by whoever runs the code, so
the constructors take them as arguments.
-/

namespace Vestrace.Effects

open Lib Vestrace.Legacy Vestrace.Security

/-! ## Adapters -/

inductive DeliverySemantics where
  | atMostOnce
  | atLeastOnce
  | effectivelyOnce
  | unknown
  deriving DecidableEq, Repr

inductive IdempotencyProfile where
  | none
  | providerKey
  | conditional
  | unknown
  deriving DecidableEq, Repr

inductive EffectReversibility where
  | reversible
  | compensatable
  | irreversible
  | unknown
  deriving DecidableEq, Repr

/-- `dry_run` is read by nothing here. -/
structure ExternalEffectAdapterDescriptor where
  name : String
  dispatchTimeout : Option ℤ
  deliverySemantics : DeliverySemantics
  idempotencyProfile : IdempotencyProfile
  reversibility : EffectReversibility
  supportsReconciliation : Bool
  supportsReadBack : Bool
  requiredCapability : Capability
  name_not_blank : Str.isBlank name = false
  timeout_pos : ∀ timeout ∈ dispatchTimeout, 0 < timeout
  deriving DecidableEq, Repr

inductive AdapterContractError where
  | effectivelyOnceRequiresProviderIdempotency
  | reconciliationNotDeclared
  deriving DecidableEq, Repr

def AdapterContractError.debug : AdapterContractError → String
  | .effectivelyOnceRequiresProviderIdempotency => "EffectivelyOnceRequiresProviderIdempotency"
  | .reconciliationNotDeclared => "ReconciliationNotDeclared"

def validateAdapterDescriptor (descriptor : ExternalEffectAdapterDescriptor) :
    Except AdapterContractError Unit := do
  refuse (descriptor.deliverySemantics = .effectivelyOnce ∧
      ¬ (descriptor.idempotencyProfile = .providerKey ∨
        descriptor.idempotencyProfile = .conditional))
    .effectivelyOnceRequiresProviderIdempotency
  refuse (descriptor.supportsReconciliation = false) .reconciliationNotDeclared

/-! ## Intents -/

structure EffectPrecondition where
  name : String
  expectedValue : String
  deriving DecidableEq, Repr

structure ExternalEffectIntent where
  id : ExternalEffectId
  executionRef : String
  workspaceId : WorkspaceId
  actorId : PrincipalId
  adapter : String
  operation : String
  target : String
  normalizedArgumentsDigest : String
  expectedEffect : String
  preconditions : List EffectPrecondition
  preconditionDigest : String
  risk : RiskCategory
  reversibility : EffectReversibility
  idempotencyProfile : IdempotencyProfile
  deliverySemantics : DeliverySemantics
  requiredCapability : Capability
  budgetReservationRef : Option String
  policyDecisionRef : Option String
  compensatesEffectId : Option ExternalEffectId
  createdAt : Timestamp
  deriving DecidableEq, Repr

/-- The value of a hexadecimal digit of either case. -/
def hexValue (c : Char) : Option ℕ :=
  if '0' ≤ c ∧ c ≤ '9' then some (c.toNat - 48)
  else if 'a' ≤ c ∧ c ≤ 'f' then some (c.toNat - 87)
  else if 'A' ≤ c ∧ c ≤ 'F' then some (c.toNat - 55)
  else none

def Uuid.parseSimple (digits : List Char) : Option Uuid :=
  if digits.length = 32 then
    (digits.mapM hexValue).map fun values =>
      BitVec.ofNat 128 (values.foldl (fun n d => 16 * n + d) 0)
  else none

def Uuid.parseHyphenated (cs : List Char) : Option Uuid :=
  if cs.length = 36 ∧ [8, 13, 18, 23].all fun i => cs[i]? == some '-' then
    Uuid.parseSimple (cs.take 8 ++ (cs.drop 9).take 4 ++ (cs.drop 14).take 4 ++
      (cs.drop 19).take 4 ++ cs.drop 24)
  else none

def Uuid.parseStr (value : String) : Option Uuid :=
  let cs := value.toList
  if cs.length = 32 then Uuid.parseSimple cs
  else if cs.length = 36 then Uuid.parseHyphenated cs
  else if cs.length = 38 ∧ cs.head? = some '\x7b' ∧ cs.getLast? = some '\x7d' then
    Uuid.parseHyphenated (cs.drop 1).dropLast
  else if cs.length = 45 ∧ cs.take 9 = "urn:uuid:".toList then Uuid.parseHyphenated (cs.drop 9)
  else none

def ExternalEffectIntent.executionRunId (intent : ExternalEffectIntent) : Option AgentRunId :=
  match ResourceScope.parse intent.executionRef with
  | .ok (.one .run id) => (Uuid.parseStr id).map Id.fromUuid
  | _ => none

/-! ## Authority -/

structure EffectAuthorization where
  allowed : Bool
  decisionRef : String
  policyVersion : String
  workspaceId : WorkspaceId
  actorId : PrincipalId
  capability : Capability
  operation : String
  resourceScope : String
  deriving DecidableEq, Repr

def EffectAuthorization.fromPolicyDecision (decision : PolicyDecision) : EffectAuthorization where
  allowed := decision.isAllowed
  decisionRef := decision.id.display
  policyVersion := decision.policyVersion
  workspaceId := decision.workspaceId
  actorId := decision.subjectId
  capability := decision.capability
  operation := decision.operation
  resourceScope := decision.resourceScope

structure AuthorizedExternalEffect where
  intent : ExternalEffectIntent
  authorization : EffectAuthorization
  deriving DecidableEq, Repr

def ExternalEffectIntent.authorize (intent : ExternalEffectIntent)
    (authorization : EffectAuthorization) : Except DomainError AuthorizedExternalEffect := do
  refuse (authorization.allowed = false ∨ authorization.workspaceId ≠ intent.workspaceId ∨
      authorization.actorId ≠ intent.actorId ∨
      authorization.capability ≠ intent.requiredCapability ∨
      authorization.operation ≠ intent.operation ∨
      authorization.resourceScope ≠ intent.target ∨
      intent.policyDecisionRef.any fun expected => expected != authorization.decisionRef)
    (.policyViolation "external effect authorization does not match immutable intent")
  return ⟨intent, authorization⟩

structure Permits (decision : PolicyDecision) (intent : ExternalEffectIntent) : Prop where
  allowed : decision.isAllowed = true
  workspace : decision.workspaceId = intent.workspaceId
  actor : decision.subjectId = intent.actorId
  capability : decision.capability = intent.requiredCapability
  operation : decision.operation = intent.operation
  scope : decision.resourceScope = intent.target

/-! ## Dispatch -/

/-- `{:?}` of a text. The unprintable and combining characters Rust escapes too are left. -/
def quoted (text : String) : String :=
  "\"" ++ String.join (text.toList.map fun c =>
    if c = '"' then "\\\"" else if c = '\\' then "\\\\" else if c = '\n' then "\\n"
    else if c = '\r' then "\\r" else if c = '\t' then "\\t" else if c = '\x00' then "\\0"
    else c.toString) ++ "\""

inductive AdapterError where
  | timeout
  | unavailable (message : String)
  | rejected (message : String)
  deriving DecidableEq, Repr

def AdapterError.debug : AdapterError → String
  | .timeout => "Timeout"
  | .unavailable message => "Unavailable(" ++ quoted message ++ ")"
  | .rejected message => "Rejected(" ++ quoted message ++ ")"

inductive DispatchError where
  | staleIntent
  | adapterDoesNotMatchIntent
  | adapterContractViolation (e : AdapterContractError)
  | adapterFailure (e : AdapterError)
  deriving DecidableEq, Repr

def mapDispatchError : DispatchError → ApplicationError
  | .staleIntent => .conflict "STALE_INTENT"
  | .adapterDoesNotMatchIntent =>
    .policy "external adapter contract rejected: AdapterDoesNotMatchIntent"
  | .adapterContractViolation e =>
    .policy ("external adapter contract rejected: AdapterContractViolation(" ++ e.debug ++ ")")
  | .adapterFailure e => .unavailable ("external adapter failed: " ++ e.debug)

def AuthorizedExternalEffect.validateDispatch (authorized : AuthorizedExternalEffect)
    (descriptor : ExternalEffectAdapterDescriptor) (currentPreconditionDigest : String) :
    Except DispatchError Unit := do
  (validateAdapterDescriptor descriptor).mapError .adapterContractViolation
  refuse (descriptor.name ≠ authorized.intent.adapter ∨
      descriptor.deliverySemantics ≠ authorized.intent.deliverySemantics ∨
      descriptor.idempotencyProfile ≠ authorized.intent.idempotencyProfile ∨
      descriptor.reversibility ≠ authorized.intent.reversibility ∨
      descriptor.requiredCapability ≠ authorized.intent.requiredCapability)
    .adapterDoesNotMatchIntent
  refuse (currentPreconditionDigest ≠ authorized.intent.preconditionDigest) .staleIntent

inductive AdapterOutcome where
  | acknowledged
  | failed
  | unknown
  deriving DecidableEq, Repr

structure AdapterDispatchResult where
  outcome : AdapterOutcome
  responseClass : String
  externalResourceId : Option String
  externalVersion : Option String
  responseDigest : Option String
  evidenceRefs : List String
  deriving DecidableEq, Repr

inductive EffectLifecycleStatus where
  | prepared
  | authorized
  | dispatching
  | acknowledged
  | failed
  | unknown
  | confirmed
  | reconciling
  deriving DecidableEq, Repr

structure ExternalEffectReceipt where
  id : ExternalEffectReceiptId
  effectId : ExternalEffectId
  adapter : String
  dispatchedAt : Timestamp
  acknowledgementAt : Option Timestamp
  responseClass : String
  externalResourceId : Option String
  externalVersion : Option String
  responseDigest : Option String
  outcomeStatus : EffectLifecycleStatus
  evidenceRefs : List String
  recordedAt : Timestamp
  deriving DecidableEq, Repr

def AdapterOutcome.status : AdapterOutcome → EffectLifecycleStatus
  | .acknowledged => .acknowledged
  | .failed => .failed
  | .unknown => .unknown

def ExternalEffectReceipt.fromDispatch (id : ExternalEffectReceiptId)
    (effectId : ExternalEffectId) (adapter : String) (result : AdapterDispatchResult)
    (recordedAt : Timestamp) : ExternalEffectReceipt where
  id := id
  effectId := effectId
  adapter := adapter
  dispatchedAt := recordedAt
  acknowledgementAt := if result.outcome = .acknowledged then some recordedAt else none
  responseClass := result.responseClass
  externalResourceId := result.externalResourceId
  externalVersion := result.externalVersion
  responseDigest := result.responseDigest
  outcomeStatus := result.outcome.status
  evidenceRefs := result.evidenceRefs
  recordedAt := recordedAt

def ExternalEffectReceipt.requiresReconciliation (receipt : ExternalEffectReceipt) : Bool :=
  receipt.outcomeStatus == .acknowledged || receipt.outcomeStatus == .unknown

/-! ## Reconciliation -/

/-- The derived `Ord` of `EvidenceStrength`: declaration order. -/
def strengthRank : EvidenceStrength → ℕ
  | .responseDigest => 0
  | .markerSearch => 1
  | .contentHash => 2
  | .etagVersion => 3
  | .operationStatus => 4
  | .externalResourceReadBack => 5
  | .providerIdempotencyLookup => 6

structure ObservedEffectState where
  evidenceStrength : EvidenceStrength
  effectApplied : Option Bool
  stateRef : String
  evidenceRefs : List String
  deriving DecidableEq, Repr

def isSettled : ReconciliationOutcome → Bool
  | .confirmed | .notApplied => true
  | .inconclusive | .humanRequired => false

structure ExternalReconciliation where
  id : ExternalReconciliationId
  effectId : ExternalEffectId
  receiptId : Option ExternalEffectReceiptId
  evidenceStrength : EvidenceStrength
  observedStateRef : String
  outcome : ReconciliationOutcome
  evidenceRefs : List String
  reconciledAt : Timestamp
  deriving DecidableEq, Repr

/-- `max_by_key` on the strength of the evidence: of several strongest, the last. -/
def strongest : List ObservedEffectState → Option ObservedEffectState
  | [] => none
  | state :: states =>
    match strongest states with
    | none => some state
    | some best =>
      if strengthRank best.evidenceStrength < strengthRank state.evidenceStrength then some state
      else some best

def outcomeOf : Option Bool → ReconciliationOutcome
  | some true => .confirmed
  | some false => .notApplied
  | none => .inconclusive

def reconcileEffect (id : ExternalReconciliationId) (intent : ExternalEffectIntent)
    (receipt : Option ExternalEffectReceipt) (observations : List ObservedEffectState)
    (reconciledAt : Timestamp) : Except DomainError ExternalReconciliation := do
  refuse (receipt.any fun receipt => receipt.effectId != intent.id)
    (.invalidArgument "receipt does not belong to external effect intent")
  let observation ← okOr (strongest observations)
    (.invalidArgument "reconciliation requires at least one observation")
  return {
    id := id
    effectId := intent.id
    receiptId := receipt.map (·.id)
    evidenceStrength := observation.evidenceStrength
    observedStateRef := observation.stateRef
    outcome := outcomeOf observation.effectApplied
    evidenceRefs := observation.evidenceRefs
    reconciledAt := reconciledAt }

def reconcile (context : RequestContext) (id : ExternalReconciliationId)
    (intent : ExternalEffectIntent) (receipt : Option ExternalEffectReceipt)
    (observations : List ObservedEffectState) (reconciledAt : Timestamp) :
    AppResult ExternalReconciliation := do
  refuse (intent.workspaceId ≠ context.workspaceId)
    (.domain (.policyViolation "external effect recovery workspace mismatch"))
  refuse (receipt.any fun receipt => !receipt.requiresReconciliation)
    (.domain (.policyViolation
      "external effect reconciliation requires an acknowledged or unknown receipt"))
  (reconcileEffect id intent receipt observations reconciledAt).mapError .domain

end Vestrace.Effects
