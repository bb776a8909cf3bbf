import Vestrace.Security.Scope

/-!
# Capability grants — what a grant allows

`failure_reason` checks a request against a grant in a fixed order and
`evaluate_capability_grants` takes the first grant that has none. The order matters to what a
denial *says* and to nothing else: the checks amount to `Covers`.
-/

namespace Vestrace.Security

open Lib

variable {version : String}

/-! ## The vocabulary of grants -/

inductive Capability where
  | memoryRead
  | memoryWrite
  | memoryPurge
  | eventRead
  | eventWrite
  | contextRetrieve
  | agentRead
  | agentWrite
  | skillRead
  | skillWrite
  | workflowRead
  | workflowWrite
  | executionRead
  | executionWrite
  | modelRead
  | modelWrite
  | providerRead
  | providerWrite
  | evaluationRead
  | evaluationWrite
  | learningRead
  | learningWrite
  | auditRead
  | exportRead
  | embeddingRetryAfterUnknown
  | embeddingRetryCarriedTransitionBatchAfterUnknown
  | embeddingRetryRetrievalGenerationChanged
  | capabilityDelegate
  | workspaceAdmin
  deriving DecidableEq, Repr

inductive RiskCategory where
  | low
  | medium
  | high
  | critical
  deriving DecidableEq, Repr

/-- The derived `Ord`: declaration order. -/
def RiskCategory.rank : RiskCategory → Nat
  | .low => 0
  | .medium => 1
  | .high => 2
  | .critical => 3

instance : LE RiskCategory := ⟨fun a b => a.rank ≤ b.rank⟩
instance : LT RiskCategory := ⟨fun a b => a.rank < b.rank⟩
instance (a b : RiskCategory) : Decidable (a ≤ b) := inferInstanceAs (Decidable (a.rank ≤ b.rank))
instance (a b : RiskCategory) : Decidable (a < b) := inferInstanceAs (Decidable (a.rank < b.rank))

theorem RiskCategory.not_lt {a b : RiskCategory} : ¬ b < a ↔ a ≤ b := Nat.not_lt

theorem RiskCategory.le_trans {a b c : RiskCategory} (hab : a ≤ b) (hbc : b ≤ c) : a ≤ c :=
  Nat.le_trans hab hbc

/-- `Ord::max`: the second operand on a tie. -/
def RiskCategory.max (a b : RiskCategory) : RiskCategory := if b < a then a else b

structure BudgetConstraint where
  maxUnits : UInt64
  deriving DecidableEq, Repr

structure GrantCondition where
  name : String
  expectedValue : String
  deriving DecidableEq, Repr

inductive CapabilityGrantStatus where
  | active
  | revoked
  deriving DecidableEq, Repr

structure CapabilityGrantSpec where
  id : CapabilityGrantId
  workspaceId : WorkspaceId
  subjectId : PrincipalId
  issuerId : PrincipalId
  capability : Capability
  operation : String
  resourceScope : String
  validFrom : Timestamp
  validUntil : Option Timestamp
  budget : Option BudgetConstraint
  riskCeiling : RiskCategory
  conditions : List GrantCondition
  deriving DecidableEq, Repr

structure CapabilityGrant extends CapabilityGrantSpec where
  status : CapabilityGrantStatus
  createdAt : Timestamp
  revokedAt : Option Timestamp
  deriving DecidableEq, Repr

/-- The conditions a spec may not carry: the first one with a blank name or a
blank value, name first. -/
def blankCondition : List GrantCondition → Option DomainError
  | [] => none
  | condition :: rest =>
    if Str.isBlank condition.name then
      some (.invalidArgument "capability grant condition name must not be empty")
    else if Str.isBlank condition.expectedValue then
      some (.invalidArgument "capability grant condition value must not be empty")
    else blankCondition rest

def CapabilityGrant.issue (spec : CapabilityGrantSpec) (createdAt : Timestamp) :
    Except DomainError CapabilityGrant := do
  refuse (Str.isBlank spec.operation)
    (.invalidArgument "capability grant operation must not be empty")
  let _ ← ResourceScope.parse spec.resourceScope
  refuse (spec.validUntil.any fun until_ => decide (until_ ≤ spec.validFrom))
    (.invalidArgument "capability grant valid_until must be after valid_from")
  match blankCondition spec.conditions with
  | some e => throw e
  | none => return { spec with status := .active, createdAt := createdAt, revokedAt := none }

def CapabilityGrant.revoke (g : CapabilityGrant) (at_ : Timestamp) :
    CapabilityGrant × Except DomainError Unit :=
  if g.status = .revoked then
    (g, .error (.policyViolation "capability grant is already revoked"))
  else ({ g with status := .revoked, revokedAt := some at_ }, .ok ())

def CapabilityGrant.isActiveAt (g : CapabilityGrant) (at_ : Timestamp) : Bool :=
  g.status == .active && decide (g.validFrom ≤ at_) &&
    (g.validUntil.map fun until_ => decide (at_ < until_)).getD true

theorem issue_ok {spec : CapabilityGrantSpec}
    {t : Timestamp} {g : CapabilityGrant} (h : CapabilityGrant.issue spec t = .ok g) :
    g = { spec with status := .active, createdAt := t, revokedAt := none } := by
  simp only [CapabilityGrant.issue, bind_eq_ok, refuse_eq_ok, exists_const] at h
  obtain ⟨-, _, -, -, h⟩ := h
  split at h
  · exact absurd h (by simp [throw_eq_ok])
  · exact (pure_eq_ok.mp h).symm

/-! ## Requests and decisions -/

structure AuthorizationRequest where
  capability : Capability
  operation : String
  resourceScope : String
  requestedRisk : RiskCategory
  contextRisk : RiskCategory
  requestedBudgetUnits : UInt64
  conditions : List GrantCondition
  deriving DecidableEq, Repr

def AuthorizationRequest.effectiveRisk (request : AuthorizationRequest) : RiskCategory :=
  request.requestedRisk.max request.contextRisk

inductive PolicyDecisionResult where
  | deny
  | allow
  | prepareOnly
  | requireApproval
  deriving DecidableEq, Repr

inductive PolicyDecisionReason where
  | defaultDeny
  | grantMatched
  | configuredAllowance
  | workspaceMismatch
  | subjectMismatch
  | capabilityMismatch
  | operationMismatch
  | resourceMismatch
  | notYetValid
  | expired
  | revoked
  | budgetExceeded
  | riskExceedsCeiling
  | conditionNotSatisfied
  deriving DecidableEq, Repr

def CapabilityGrant.failureReason (g : CapabilityGrant) (workspaceId : WorkspaceId)
    (subjectId : PrincipalId) (request : AuthorizationRequest) (at_ : Timestamp) :
    Option PolicyDecisionReason :=
  if g.workspaceId ≠ workspaceId then some .workspaceMismatch
  else if g.subjectId ≠ subjectId then some .subjectMismatch
  else if g.capability ≠ request.capability then some .capabilityMismatch
  else if !selectorIsWithin request.operation g.operation then some .operationMismatch
  else if !scopeIsWithin request.resourceScope g.resourceScope then some .resourceMismatch
  else if g.status = .revoked then some .revoked
  else if at_ < g.validFrom then some .notYetValid
  else if g.validUntil.any fun until_ => decide (until_ ≤ at_) then some .expired
  else if g.budget.any fun budget => decide (budget.maxUnits < request.requestedBudgetUnits) then
    some .budgetExceeded
  else if g.riskCeiling < request.effectiveRisk then some .riskExceedsCeiling
  else if !g.conditions.all fun expected => request.conditions.any fun actual => actual == expected
    then some .conditionNotSatisfied
  else none

structure PolicyInputState where
  workspaceId : WorkspaceId
  subjectId : PrincipalId
  capability : Capability
  operation : String
  resourceScope : String
  requestedRisk : RiskCategory
  contextRisk : RiskCategory
  effectiveRisk : RiskCategory
  requestedBudgetUnits : UInt64
  conditions : List GrantCondition
  deriving DecidableEq, Repr

def PolicyInputState.fromRequest (workspaceId : WorkspaceId) (subjectId : PrincipalId)
    (request : AuthorizationRequest) : PolicyInputState where
  workspaceId := workspaceId
  subjectId := subjectId
  capability := request.capability
  operation := request.operation
  resourceScope := request.resourceScope
  requestedRisk := request.requestedRisk
  contextRisk := request.contextRisk
  effectiveRisk := request.effectiveRisk
  requestedBudgetUnits := request.requestedBudgetUnits
  conditions := request.conditions

structure PolicyDecision where
  id : PolicyDecisionId
  policyId : Option PolicyId
  policyVersion : String
  workspaceId : WorkspaceId
  subjectId : PrincipalId
  capability : Capability
  operation : String
  resourceScope : String
  result : PolicyDecisionResult
  reason : PolicyDecisionReason
  inputState : PolicyInputState
  matchedGrantId : Option CapabilityGrantId
  decidedAt : Timestamp
  deriving DecidableEq, Repr

def PolicyDecision.isAllowed (d : PolicyDecision) : Bool := d.result == .allow

/-- The loop of `evaluate_capability_grants`: the result, its reason and the
matched grant, given the first failure met so far. -/
def evaluateGrants (workspaceId : WorkspaceId) (subjectId : PrincipalId)
    (request : AuthorizationRequest) (decidedAt : Timestamp) :
    List CapabilityGrant → Option PolicyDecisionReason →
      PolicyDecisionResult × PolicyDecisionReason × Option CapabilityGrantId
  | [], firstFailure => (.deny, firstFailure.getD .defaultDeny, none)
  | grant :: grants, firstFailure =>
    match grant.failureReason workspaceId subjectId request decidedAt with
    | none => (.allow, .grantMatched, some grant.id)
    | some reason =>
      evaluateGrants workspaceId subjectId request decidedAt grants
        (if firstFailure.isNone then some reason else firstFailure)

def evaluateCapabilityGrants (decisionId : PolicyDecisionId) (workspaceId : WorkspaceId)
    (subjectId : PrincipalId) (policyVersion : String) (request : AuthorizationRequest)
    (grants : List CapabilityGrant) (decidedAt : Timestamp) :
    Except DomainError PolicyDecision := do
  refuse (Str.isBlank policyVersion) (.invalidArgument "policy version must not be empty")
  refuse (Str.isBlank request.operation)
    (.invalidArgument "authorization operation must not be empty")
  let _ ← ResourceScope.parse request.resourceScope
  let (result, reason, matched) :=
    evaluateGrants workspaceId subjectId request decidedAt grants none
  return {
    id := decisionId
    policyId := none
    policyVersion := policyVersion
    workspaceId := workspaceId
    subjectId := subjectId
    capability := request.capability
    operation := request.operation
    resourceScope := request.resourceScope
    result := result
    reason := reason
    inputState := PolicyInputState.fromRequest workspaceId subjectId request
    matchedGrantId := matched
    decidedAt := decidedAt }

/-! ## What the checks amount to -/

/-- Everything `failure_reason` requires of a grant, in no particular order. -/
structure Covers (g : CapabilityGrant) (workspaceId : WorkspaceId) (subjectId : PrincipalId)
    (request : AuthorizationRequest) (at_ : Timestamp) : Prop where
  workspace : g.workspaceId = workspaceId
  subject : g.subjectId = subjectId
  capability : g.capability = request.capability
  operation : selectorIsWithin request.operation g.operation = true
  scope : scopeIsWithin request.resourceScope g.resourceScope = true
  live : g.status = .active
  begun : g.validFrom ≤ at_
  unexpired : ∀ until_, g.validUntil = some until_ → at_ < until_
  budget : ∀ b, g.budget = some b → request.requestedBudgetUnits ≤ b.maxUnits
  risk : request.effectiveRisk ≤ g.riskCeiling
  conditions : ∀ c ∈ g.conditions, c ∈ request.conditions

section

variable {g : CapabilityGrant} {grants : List CapabilityGrant} {ws : WorkspaceId}
  {subject : PrincipalId} {request : AuthorizationRequest} {t : Timestamp} {id : PolicyDecisionId}
  {d : PolicyDecision}

theorem status_active_of_not_revoked {s : CapabilityGrantStatus} (h : s ≠ .revoked) :
    s = .active := by
  cases s with
  | active => rfl
  | revoked => exact absurd rfl h

/-- **A grant has nothing against a request exactly when it covers it.** -/
theorem failureReason_eq_none_iff :
    g.failureReason ws subject request t = none ↔ Covers g ws subject request t := by
  simp only [CapabilityGrant.failureReason, ite_some_eq_none, not_any_iff]
  constructor
  · rintro ⟨hws, hsub, hcap, hop, hsc, hlive, hbeg, hexp, hbud, hrisk, hcond, -⟩
    exact {
      workspace := not_not.mp hws
      subject := not_not.mp hsub
      capability := not_not.mp hcap
      operation := by simpa using hop
      scope := by simpa using hsc
      live := status_active_of_not_revoked hlive
      begun := Int.not_lt.mp hbeg
      unexpired := fun u hu => by simpa using hexp u hu
      budget := fun b hb => by simpa using hbud b hb
      risk := RiskCategory.not_lt.mp hrisk
      conditions := by simpa using hcond }
  · intro h
    have hlive : g.status ≠ .revoked := by
      rw [h.live]
      decide
    refine ⟨not_not.mpr h.workspace, not_not.mpr h.subject, not_not.mpr h.capability,
      by simp [h.operation], by simp [h.scope], hlive, Int.not_lt.mpr h.begun, ?_, ?_,
      RiskCategory.not_lt.mpr h.risk, by simpa using h.conditions, trivial⟩
    · intro u hu
      simpa using h.unexpired u hu
    · intro b hb
      simpa using h.budget b hb

theorem evaluateGrants_cons_of_covers (hg : Covers g ws subject request t)
    (firstFailure : Option PolicyDecisionReason) :
    evaluateGrants ws subject request t (g :: grants) firstFailure =
      (.allow, .grantMatched, some g.id) := by
  rw [evaluateGrants, failureReason_eq_none_iff.mpr hg]

theorem evaluateGrants_allow_iff (firstFailure : Option PolicyDecisionReason) :
    (evaluateGrants ws subject request t grants firstFailure).1 = .allow ↔
      ∃ g ∈ grants, Covers g ws subject request t := by
  induction grants generalizing firstFailure with
  | nil => simp [evaluateGrants]
  | cons b grants ih =>
    rw [List.exists_mem_cons_iff]
    by_cases hb : Covers b ws subject request t
    · rw [evaluateGrants_cons_of_covers hb]
      exact iff_of_true rfl (Or.inl hb)
    · obtain ⟨reason, hreason⟩ :=
        Option.ne_none_iff_exists'.mp (mt failureReason_eq_none_iff.mp hb)
      rw [evaluateGrants, hreason, or_iff_right hb]
      exact ih _

/-- What `evaluate_capability_grants` refuses to judge at all. -/
structure Judgeable (policyVersion : String) (request : AuthorizationRequest) : Prop where
  version : Str.isBlank policyVersion = false
  operation : Str.isBlank request.operation = false
  scope : ∃ scope, ResourceScope.parse request.resourceScope = .ok scope

theorem evaluate_eq_ok
    (h : evaluateCapabilityGrants id ws subject version request grants t = .ok d) :
    Judgeable version request ∧
      d.result = (evaluateGrants ws subject request t grants none).1 ∧
      d.matchedGrantId = (evaluateGrants ws subject request t grants none).2.2 := by
  simp only [evaluateCapabilityGrants, bind_eq_ok, refuse_eq_ok, exists_const, pure_eq_ok] at h
  obtain ⟨hv, ho, scope, hs, rfl⟩ := h
  exact ⟨⟨by simpa using hv, by simpa using ho, scope, hs⟩, rfl, rfl⟩

theorem Judgeable.evaluates (h : Judgeable version request) (id : PolicyDecisionId)
    (ws : WorkspaceId) (subject : PrincipalId) (grants : List CapabilityGrant) (t : Timestamp) :
    ∃ d, evaluateCapabilityGrants id ws subject version request grants t = .ok d := by
  obtain ⟨scope, hs⟩ := h.scope
  simp only [evaluateCapabilityGrants, bind_eq_ok, refuse_eq_ok, exists_const, pure_eq_ok]
  exact ⟨_, by simp [h.version], by simp [h.operation], scope, hs, rfl⟩

theorem evaluate_allowed_iff
    (h : evaluateCapabilityGrants id ws subject version request grants t = .ok d) :
    d.isAllowed = true ↔ ∃ g ∈ grants, Covers g ws subject request t := by
  obtain ⟨-, hres, -⟩ := evaluate_eq_ok h
  rw [PolicyDecision.isAllowed, beq_iff_eq, hres, evaluateGrants_allow_iff]

/-- Of the presented `grants`, `g` is the one the request is allowed on: the evaluation names `g`,
and would not allow the request on what is presented before `g`, but on that and `g`. -/
def AllowedOnStrengthOf (g : CapabilityGrant) (grants : List CapabilityGrant) (ws : WorkspaceId)
    (subject : PrincipalId) (version : String) (request : AuthorizationRequest) (t : Timestamp) :
    Prop :=
  ∃ before after, grants = before ++ g :: after ∧ ∀ id,
    (∃ d, evaluateCapabilityGrants id ws subject version request grants t = .ok d ∧
      d.isAllowed = true ∧ d.matchedGrantId = some g.id) ∧
    (∃ d, evaluateCapabilityGrants id ws subject version request before t = .ok d ∧
      d.isAllowed = false) ∧
    (∃ d, evaluateCapabilityGrants id ws subject version request (before ++ [g]) t = .ok d ∧
      d.isAllowed = true)

theorem AllowedOnStrengthOf.covers (h : AllowedOnStrengthOf g grants ws subject version request t) :
    Judgeable version request ∧ Covers g ws subject request t := by
  obtain ⟨before, after, rfl, hall⟩ := h
  obtain ⟨-, ⟨d₁, hd₁, hdeny⟩, ⟨d₂, hd₂, hallow⟩⟩ := hall (Id.fromUuid 0)
  refine ⟨(evaluate_eq_ok hd₁).1, ?_⟩
  obtain ⟨b, hb, hcov⟩ := (evaluate_allowed_iff hd₂).mp hallow
  rw [List.mem_append, List.mem_singleton] at hb
  rcases hb with hb | rfl
  · -- a covering grant before `g` would have been enough without it
    have := (evaluate_allowed_iff hd₁).mpr ⟨b, hb, hcov⟩
    rw [hdeny] at this
    cases this
  · exact hcov

theorem allowedOnStrengthOf_singleton (hj : Judgeable version request)
    (hg : Covers g ws subject request t) :
    AllowedOnStrengthOf g [g] ws subject version request t := by
  refine ⟨[], [], rfl, fun id => ?_⟩
  obtain ⟨d, hd⟩ := hj.evaluates id ws subject [g] t
  obtain ⟨d₀, hd₀⟩ := hj.evaluates id ws subject [] t
  have hallow : d.isAllowed = true :=
    (evaluate_allowed_iff hd).mpr ⟨g, List.mem_singleton_self g, hg⟩
  have hdeny : d₀.isAllowed = false := by
    rw [Bool.eq_false_iff]
    intro h
    obtain ⟨b, hb, -⟩ := (evaluate_allowed_iff hd₀).mp h
    cases hb
  have hmatch : d.matchedGrantId = some g.id := by
    rw [(evaluate_eq_ok hd).2.2, evaluateGrants_cons_of_covers hg]
  exact ⟨⟨d, hd, hallow, hmatch⟩, ⟨d₀, hd₀, hdeny⟩, ⟨d, hd, hallow⟩⟩

end

end Vestrace.Security
