import Vestrace.Effects.Host

/-!
# Performing an external effect

`PerformExternalEffectService::perform`: record the intent, have it authorized, record
that the dispatch begins, dispatch, record the receipt. Each step is committed by itself
and the process may stop between any two. A stale intent is dispatched like any other: the
digest it is compared with is its own (`perform_refuses_stale_iff`).
-/

namespace Vestrace.Effects

open Lib Vestrace.Security Prog.FailsWith FailsWith

/-! ## The service -/

/-- How a service ends without a value. -/
inductive Halt where
  | failed (e : ApplicationError)
  | panicked (message : String)
  deriving DecidableEq, Repr

def orFail {α : Type} (x : AppResult α) : EffectProg Halt α :=
  liftM (x.mapError Halt.failed)

def defaultDispatchAllowance : ℤ := 5 * 60 * 1000000000

def dispatchReceiptCommitMargin : ℤ := 5 * 1000000000

section

variable (owner : WorkerId) (context : RequestContext) (intent : ExternalEffectIntent)
variable (authorized : AuthorizedExternalEffect) (descriptor : ExternalEffectAdapterDescriptor)
variable (currentPreconditionDigest : String) (recordedAt : Timestamp)

/-- When a dispatch of this adapter is overdue; none if that is no instant. -/
def dispatchExpiresAt : Option Timestamp := do
  let returned ← Timestamp.checkedAddSigned recordedAt
    (descriptor.dispatchTimeout.getD defaultDispatchAllowance)
  Timestamp.checkedAddSigned returned dispatchReceiptCommitMargin

def reasonDebug : PolicyDecisionReason → String
  | .defaultDeny => "DefaultDeny"
  | .grantMatched => "GrantMatched"
  | .configuredAllowance => "ConfiguredAllowance"
  | .workspaceMismatch => "WorkspaceMismatch"
  | .subjectMismatch => "SubjectMismatch"
  | .capabilityMismatch => "CapabilityMismatch"
  | .operationMismatch => "OperationMismatch"
  | .resourceMismatch => "ResourceMismatch"
  | .notYetValid => "NotYetValid"
  | .expired => "Expired"
  | .revoked => "Revoked"
  | .budgetExceeded => "BudgetExceeded"
  | .riskExceedsCeiling => "RiskExceedsCeiling"
  | .conditionNotSatisfied => "ConditionNotSatisfied"

def authorizedBy (decision : PolicyDecision) : AppResult (Option AuthorizedExternalEffect) :=
  if decision.isAllowed then
    ((intent.authorize (.fromPolicyDecision decision)).mapError .domain).map some
  else .ok none

def authorize (request : AuthorizationRequest) : EffectProg Halt AuthorizedExternalEffect := do
  let answer ← ask (.evaluate context request)
  let decision ← orFail answer
  let authorized ← orFail (authorizedBy intent decision)
  let recorded ← ask (.recordAuthorization context intent.id decision)
  orFail recorded
  orFail (okOr authorized (.policy ("authorization denied: " ++ reasonDebug decision.reason)))

/-- `AuthorizedExternalEffect::dispatch`. -/
def callAdapter : EffectProg Halt ExternalEffectReceipt := do
  orFail ((authorized.validateDispatch descriptor currentPreconditionDigest).mapError
    mapDispatchError)
  let answer ← ask (.dispatch authorized.intent)
  let result ← orFail (answer.mapError fun e => mapDispatchError (.adapterFailure e))
  let id ← ask .newId
  return .fromDispatch ⟨id⟩ authorized.intent.id authorized.intent.adapter result recordedAt

def dispatch : EffectProg Halt ExternalEffectReceipt := do
  orFail ((authorized.validateDispatch descriptor currentPreconditionDigest).mapError
    mapDispatchError)
  let expiresAt ← liftM (okOr (dispatchExpiresAt descriptor recordedAt)
    (Halt.panicked "`DateTime + TimeDelta` overflowed"))
  let started ← ask (.recordDispatchStarted context authorized.intent.id owner expiresAt recordedAt)
  let _ ← orFail started
  callAdapter authorized descriptor currentPreconditionDigest recordedAt

def authorizationRequest : AuthorizationRequest where
  capability := intent.requiredCapability
  operation := intent.operation
  resourceScope := intent.target
  requestedRisk := intent.risk
  contextRisk := .low
  requestedBudgetUnits := 0
  conditions := []

/-- The first two steps of `perform`: the record and the authority. -/
def prepare : EffectProg Halt AuthorizedExternalEffect := do
  let recorded ← ask (.insertIntent context intent)
  orFail recorded
  authorize context intent (authorizationRequest intent)

def dispatchPrepared (descriptor : ExternalEffectAdapterDescriptor) (at_ : Timestamp)
    (authorized : AuthorizedExternalEffect) : EffectProg Halt ExternalEffectReceipt := do
  let preconditionDigest := authorized.intent.preconditionDigest
  let receipt ← dispatch owner context authorized descriptor preconditionDigest at_
  let recorded ← ask (.insertReceipt context receipt)
  orFail recorded
  return receipt

def perform (at_ : Timestamp) : EffectProg Halt ExternalEffectReceipt := do
  let authorized ← prepare context intent
  dispatchPrepared owner context descriptor at_ authorized

end

/-! ## Staleness -/

def staleIntent : Halt := .failed (.conflict "STALE_INTENT")

theorem validateDispatch_own_digest (authorized : AuthorizedExternalEffect)
    (descriptor : ExternalEffectAdapterDescriptor) :
    FailsWith (fun e => mapDispatchError e ≠ .conflict "STALE_INTENT")
      (authorized.validateDispatch descriptor authorized.intent.preconditionDigest) := by
  refine bind ?_ fun _ => bind ?_ fun _ => ?_
  · exact mapError fun e => nofun
  · exact refuse nofun
  · rw [refuse_neg (not_not.mpr rfl)]
    exact ok ()

theorem orFail_failsWith {α : Type} {x : AppResult α}
    (h : FailsWith (· ≠ .conflict "STALE_INTENT") x) : (orFail x).FailsWith (· ≠ staleIntent) := by
  refine Prog.FailsWith.lift ?_
  intro e he hstale
  cases x with
  | ok a => cases he
  | error e' =>
    cases he
    exact h e' rfl (Halt.failed.inj hstale)

theorem EffectTables.insertReceipt_failsWith (tables : EffectTables) (ctx : RequestContext)
    (receipt : ExternalEffectReceipt) (createdAt : Timestamp) (id : Uuid) :
    FailsWith (· ≠ .conflict "STALE_INTENT")
      (tables.insertReceipt ctx receipt createdAt id) := by
  unfold EffectTables.insertReceipt
  split
  · refine bind ?_ fun _ => ok _
    unfold verifyInsert
    split
    · refine refuse ?_
      intro heq
      have hhead := congrArg (fun s => s.toList.head?) (ApplicationError.conflict.inj heq)
      simp [String.toList_append] at hhead
    · exact fun e he => by cases he; exact nofun
  · refine bind (refuse nofun) fun _ => ?_
    refine bind (refuse nofun) fun _ => ?_
    refine bind ?_ fun _ => ok _
    exact bind (refuse nofun) fun _ => ok _

theorem dispatch_own_digest (owner : WorkerId) (ctx : RequestContext)
    (authorized : AuthorizedExternalEffect) (descriptor : ExternalEffectAdapterDescriptor)
    (recordedAt : Timestamp) :
    (dispatch owner ctx authorized descriptor authorized.intent.preconditionDigest
      recordedAt).FailsWith (· ≠ staleIntent) := by
  have hvalid : (orFail ((authorized.validateDispatch descriptor
      authorized.intent.preconditionDigest).mapError mapDispatchError)).FailsWith
        (· ≠ staleIntent) := by
    refine orFail_failsWith ?_
    intro e he
    cases hv : authorized.validateDispatch descriptor authorized.intent.preconditionDigest with
    | ok _ =>
      rw [hv] at he
      cases he
    | error e' =>
      rw [hv] at he
      cases he
      exact validateDispatch_own_digest authorized descriptor e' hv
  refine hvalid.bind fun _ => ?_
  refine Prog.FailsWith.bind (Prog.FailsWith.lift (okOr nofun)) fun expiresAt => ?_
  refine call_bind fun host => ?_
  refine Prog.FailsWith.bind (orFail_failsWith ?_) fun _ => ?_
  · refine EffectsHost.onTables_failsWith nofun (bind (refuse nofun)
      fun _ => bind ?_ fun _ => ok _)
    exact bind (refuse nofun) fun _ => ok _
  · refine hvalid.bind fun _ => call_bind fun host => ?_
    refine Prog.FailsWith.bind (orFail_failsWith ?_) fun result => ?_
    · exact mapError fun e => nofun
    · exact call_bind fun _ => Prog.FailsWith.pure _

/-- **`perform` refuses a stale intent only where there is none**: once it has reached the
dispatch, "a digest that differs is refused, with nothing recorded and nothing sent" holds
exactly when the digest does not differ. -/
theorem perform_refuses_stale_iff (owner : WorkerId) (context : RequestContext)
    (intent : ExternalEffectIntent) (descriptor : ExternalEffectAdapterDescriptor)
    (at_ : Timestamp) (host reached : EffectsHost) (authorized : AuthorizedExternalEffect)
    (hreached : (prepare context intent).run host = (.ok authorized, reached)) :
    ((reached.weather reached.tick).preconditionDigest ≠ intent.preconditionDigest →
        ∃ final, (perform owner context intent descriptor at_).run host =
            (.error staleIntent, final) ∧
          final.tables.transitions = reached.tables.transitions ∧
          final.dispatched = reached.dispatched) ↔
      (reached.weather reached.tick).preconditionDigest = intent.preconditionDigest := by
  constructor
  · intro hclaim
    by_contra hstale
    obtain ⟨final, hrun, -, -⟩ := hclaim hstale
    have hrest : (dispatchPrepared owner context descriptor at_ authorized).run reached =
        (.error staleIntent, final) := by
      rw [perform, Prog.run_bind, hreached] at hrun
      exact hrun
    -- its own digest is never refused as stale
    refine (dispatch_own_digest owner context authorized descriptor at_).bind (fun receipt => ?_)
      reached staleIntent (congrArg Prod.fst hrest) rfl
    refine call_bind fun host => ?_
    refine Prog.FailsWith.bind (orFail_failsWith ?_) fun _ => Prog.FailsWith.pure receipt
    exact EffectsHost.onTables_failsWith nofun (EffectTables.insertReceipt_failsWith _ _ _ _ _)
  · intro hfresh hstale
    exact absurd hfresh hstale

/-! A sample: one workspace, one worker, and an adapter that acknowledges. -/

def sampleIntent : ExternalEffectIntent where
  id := ⟨1⟩
  executionRef := "run://00000000-0000-0000-0000-000000000007"
  workspaceId := ⟨2⟩
  actorId := ⟨3⟩
  adapter := "calendar"
  operation := "calendar.create"
  target := "calendar://team"
  normalizedArgumentsDigest := "sha256:arguments"
  expectedEffect := "an entry is created"
  preconditions := [⟨"revision", "41"⟩]
  preconditionDigest := "revision 41"
  risk := .low
  reversibility := .reversible
  idempotencyProfile := .providerKey
  deliverySemantics := .effectivelyOnce
  requiredCapability := .executionWrite
  budgetReservationRef := none
  policyDecisionRef := none
  compensatesEffectId := none
  createdAt := 0

def sampleDescriptor : ExternalEffectAdapterDescriptor where
  name := "calendar"
  dispatchTimeout := none
  deliverySemantics := .effectivelyOnce
  idempotencyProfile := .providerKey
  reversibility := .reversible
  supportsReconciliation := true
  supportsReadBack := true
  requiredCapability := .executionWrite
  name_not_blank := by decide
  timeout_pos := nofun

def sampleContext : RequestContext := ⟨⟨4⟩, ⟨5⟩, ⟨2⟩, ⟨3⟩⟩

def sampleDecision : PolicyDecision where
  id := ⟨6⟩
  policyId := none
  policyVersion := "1"
  workspaceId := ⟨2⟩
  subjectId := ⟨3⟩
  capability := .executionWrite
  operation := "calendar.create"
  resourceScope := "calendar://team"
  result := .allow
  reason := .grantMatched
  inputState := .fromRequest ⟨2⟩ ⟨3⟩ (authorizationRequest sampleIntent)
  matchedGrantId := none
  decidedAt := 0

/-- Nothing fails, ids are counted up, the read-back answers `applied`, and the
preconditions have changed. -/
def sampleWeather (applied : Option Bool) (n : ℕ) : Weather where
  fault := none
  uuid := BitVec.ofNat 128 (100 + n)
  now := 0
  decision := .ok sampleDecision
  dispatched := .ok ⟨.acknowledged, "created", none, none, none, []⟩
  observed := .ok [⟨.operationStatus, applied, "status", []⟩]
  preconditionDigest := "revision 42"

def sampleHost (weather : ℕ → Weather) : EffectsHost where
  tables := ⟨[], [], [], [], [], [], []⟩
  runs := fun _ _ => .empty
  dispatched := []
  weather := weather
  tick := 0

def samplePerform : EffectProg Halt ExternalEffectReceipt :=
  perform ⟨8⟩ sampleContext sampleIntent sampleDescriptor 0

/-- The preconditions have changed and the effect is performed. -/
theorem stale_intent_dispatched :
    let reached := ((prepare sampleContext sampleIntent).run (sampleHost (sampleWeather none))).2
    let final := samplePerform.run (sampleHost (sampleWeather none))
    (reached.weather reached.tick).preconditionDigest ≠ sampleIntent.preconditionDigest ∧
      final.1.toOption.isSome = true ∧ final.2.dispatched = [sampleIntent] ∧
      reached.tables.transitions.length < final.2.tables.transitions.length := by
  decide +kernel

/-- The sample reaches the dispatch with a stale intent, and it is not refused. -/
theorem perform_refuses_stale_sample :
    let reached := ((prepare sampleContext sampleIntent).run (sampleHost (sampleWeather none))).2
    ¬ ((reached.weather reached.tick).preconditionDigest ≠ sampleIntent.preconditionDigest →
      ∃ final, samplePerform.run (sampleHost (sampleWeather none)) = (.error staleIntent, final) ∧
        final.tables.transitions = reached.tables.transitions ∧
        final.dispatched = reached.dispatched) := by
  intro reached hclaim
  have hreached : (prepare sampleContext sampleIntent).run (sampleHost (sampleWeather none)) =
      (.ok ⟨sampleIntent, .fromPolicyDecision sampleDecision⟩, reached) :=
    Prod.ext (by decide +kernel) rfl
  have hfresh := (perform_refuses_stale_iff ⟨8⟩ sampleContext sampleIntent sampleDescriptor 0 _ _ _
    hreached).mp hclaim
  exact absurd hfresh (by decide +kernel)

end Vestrace.Effects
