import Vestrace.Security.Budget

/-!
# Delegation — authority only ever shrinks

`DelegatedCapability::from_root` and `delegate` hand a narrower grant to somebody else. Ten
dimensions are compared, most against the parent (`Attenuates`); the budget is only reserved on the
ledger. A chain's reservations hold exactly its grants' budgets (`DelegationChain.reserved`), so
what `remaining` lets through is within the parent's own.
-/

namespace Vestrace.Security

open Lib List

def maxDelegationDepth : UInt8 := 8

def delegationOperation : String := "capability.delegate"

structure DelegationContract where
  capability : Capability
  resourceScope : String
  maxDepth : UInt8
  maxLifetimeSeconds : Option UInt64
  maxRisk : RiskCategory
  maxBudgetUnits : UInt64
  deriving DecidableEq, Repr

structure DelegatedCapability where
  grant : CapabilityGrant
  parentGrantId : CapabilityGrantId
  delegationGrantId : CapabilityGrantId
  depth : UInt8
  deriving DecidableEq, Repr

private def violation (message : String) : Abort := .failed (.policyViolation message)

/-- The lifetime clause of `validate_attenuation`. `as i64` wraps, and
`Duration::seconds` panics outside its range. -/
def validateLifetime (child : CapabilityGrantSpec) (seconds : UInt64) : Except Abort Unit := do
  let lifetime ← okOr (durationSeconds seconds.toInt64.toInt)
    (.panicked "TimeDelta::seconds out of bounds")
  let maxUntil ← okOr (Timestamp.checkedAddSigned child.validFrom lifetime)
    (.failed (.invalidArgument "delegation lifetime overflows timestamp"))
  refuse (child.validUntil.all fun childUntil => decide (maxUntil < childUntil))
    (violation "delegated validity exceeds contract lifetime")

section

variable (parent delegationPermission : CapabilityGrant) (childSpec : CapabilityGrantSpec)

def validateAttenuation (child : CapabilityGrantSpec) (contract : DelegationContract)
    (parentDepth : UInt8) (at_ : Timestamp) : Except Abort Unit := do
  refuse (!parent.isActiveAt at_) (violation "delegation parent grant is not active")
  refuse (!delegationPermission.isActiveAt at_) (violation "delegation permission is not active")
  refuse (delegationPermission.capability ≠ .capabilityDelegate ∨
      delegationPermission.operation ≠ delegationOperation)
    (violation "explicit capability.delegate permission is required")
  refuse (parent.workspaceId ≠ delegationPermission.workspaceId ∨
      parent.workspaceId ≠ child.workspaceId)
    (violation "delegation workspace mismatch")
  refuse (delegationPermission.subjectId ≠ parent.subjectId ∨ child.issuerId ≠ parent.subjectId)
    (violation "delegation subject/issuer mismatch")
  refuse (child.subjectId = parent.subjectId) (violation "delegation cannot self-escalate")
  refuse (¬ ∀ required ∈ parent.conditions ++ delegationPermission.conditions,
      required ∈ child.conditions)
    (violation "delegated grant cannot drop a parent condition")
  refuse (child.capability ≠ parent.capability ∨ child.capability ≠ contract.capability)
    (violation "delegated capability exceeds parent authority")
  refuse (!selectorIsWithin child.operation parent.operation ||
      !scopeIsWithin child.resourceScope parent.resourceScope ||
      !scopeIsWithin contract.resourceScope parent.resourceScope ||
      !scopeIsWithin child.resourceScope contract.resourceScope ||
      !scopeIsWithin contract.resourceScope delegationPermission.resourceScope)
    (violation "delegated selector exceeds parent or delegation scope")
  refuse (parent.riskCeiling < child.riskCeiling ∨ contract.maxRisk < child.riskCeiling ∨
      delegationPermission.riskCeiling < child.riskCeiling)
    (violation "delegated risk exceeds parent ceiling")
  let childBudget ← okOr child.budget (violation "delegated child requires a budget")
  refuse (contract.maxBudgetUnits < childBudget.maxUnits ∨
      delegationPermission.budget.any fun permission =>
        decide (permission.maxUnits < contract.maxBudgetUnits))
    (violation "delegated budget exceeds explicit delegation ceiling")
  refuse (maxDelegationDepth ≤ parentDepth ∨ contract.maxDepth < parentDepth + 1)
    (violation "delegation depth limit exceeded")
  refuse (child.validFrom < at_ ∨ child.validFrom < parent.validFrom)
    (violation "delegated validity cannot begin before delegation")
  refuse (parent.validUntil.any fun parentUntil =>
      child.validUntil.all fun childUntil => decide (parentUntil < childUntil))
    (violation "delegated validity exceeds parent interval")
  refuse (delegationPermission.validUntil.any fun permissionUntil =>
      child.validUntil.all fun childUntil => decide (permissionUntil < childUntil))
    (violation "delegated validity exceeds delegation permission interval")
  match contract.maxLifetimeSeconds with
  | none => pure ()
  | some seconds => validateLifetime child seconds

def prepareRoot (contract : DelegationContract) (at_ : Timestamp) :
    Except Abort (UInt64 × UInt64 × CapabilityGrant) := do
  let parentBudget := (parent.budget.map (·.maxUnits)).getD contract.maxBudgetUnits
  validateAttenuation parent delegationPermission childSpec contract 0 at_
  let childBudget ← okOr childSpec.budget (violation "delegated child requires a budget")
  refuse (parentBudget < childBudget.maxUnits)
    (violation "delegated budget exceeds parent allocation")
  let grant ← (CapabilityGrant.issue childSpec at_).mapError .failed
  return (parentBudget, childBudget.maxUnits, grant)

def DelegatedCapability.fromRoot (contract : DelegationContract) (budget : HierarchicalBudget)
    (at_ : Timestamp) : HierarchicalBudget × Except Abort DelegatedCapability :=
  match prepareRoot parent delegationPermission childSpec contract at_ with
  | .error e => (budget, .error e)
  | .ok (parentUnits, childUnits, grant) =>
    match budget.registerRootWithChild parent.id parentUnits grant.id childUnits with
    | (budget', .error e) => (budget', .error (.failed e))
    | (budget', .ok ()) =>
      (budget', .ok {
        grant := grant
        parentGrantId := parent.id
        delegationGrantId := delegationPermission.id
        depth := 1 })

def issueBudgeted (at_ : Timestamp) : Except Abort (UInt64 × CapabilityGrant) := do
  let childBudget ← okOr childSpec.budget (violation "delegated child requires a budget")
  let grant ← (CapabilityGrant.issue childSpec at_).mapError .failed
  return (childBudget.maxUnits, grant)

def attenuate (parentDepth : UInt8) (budget : HierarchicalBudget) (at_ : Timestamp) :
    HierarchicalBudget × Except Abort DelegatedCapability :=
  match issueBudgeted childSpec at_ with
  | .error e => (budget, .error e)
  | .ok (childUnits, grant) =>
    match budget.reserveChild parent.id childSpec.id childUnits with
    | (budget', .error e) => (budget', .error (.failed e))
    | (budget', .ok ()) =>
      (budget', .ok {
        grant := grant
        parentGrantId := parent.id
        delegationGrantId := delegationPermission.id
        depth := parentDepth + 1 })

def DelegatedCapability.delegate (self : DelegatedCapability)
    (delegationPermission : CapabilityGrant) (childSpec : CapabilityGrantSpec)
    (contract : DelegationContract) (budget : HierarchicalBudget) (at_ : Timestamp) :
    HierarchicalBudget × Except Abort DelegatedCapability :=
  match validateAttenuation self.grant delegationPermission childSpec contract self.depth at_ with
  | .error e => (budget, .error e)
  | .ok () => attenuate self.grant delegationPermission childSpec self.depth budget at_

end

open DelegatedCapability

/-! ## What the checks establish -/

/-- What is compared against the parent. -/
structure Attenuates (parent child : CapabilityGrantSpec) : Prop where
  workspace : child.workspaceId = parent.workspaceId
  capability : child.capability = parent.capability
  operation : selectorIsWithin child.operation parent.operation = true
  scope : scopeIsWithin child.resourceScope parent.resourceScope = true
  begins : parent.validFrom ≤ child.validFrom
  ends : ∀ until_, parent.validUntil = some until_ →
    ∃ childUntil, child.validUntil = some childUntil ∧ childUntil ≤ until_
  budget : ∀ b, parent.budget = some b →
    ∃ childBudget, child.budget = some childBudget ∧ childBudget.maxUnits ≤ b.maxUnits
  risk : child.riskCeiling ≤ parent.riskCeiling
  conditions : ∀ c ∈ parent.conditions, c ∈ child.conditions

theorem Attenuates.trans {a b c : CapabilityGrantSpec} (hab : Attenuates a b)
    (hbc : Attenuates b c) : Attenuates a c where
  workspace := hbc.workspace.trans hab.workspace
  capability := hbc.capability.trans hab.capability
  operation := selectorIsWithin_trans hbc.operation hab.operation
  scope := scopeIsWithin_trans hbc.scope hab.scope
  begins := hab.begins.trans hbc.begins
  ends := by
    intro until_ ha
    obtain ⟨ub, hb, hle⟩ := hab.ends until_ ha
    obtain ⟨uc, hc, hle'⟩ := hbc.ends ub hb
    exact ⟨uc, hc, hle'.trans hle⟩
  budget := by
    intro ba ha
    obtain ⟨bb, hb, hle⟩ := hab.budget ba ha
    obtain ⟨bc, hc, hle'⟩ := hbc.budget bb hb
    exact ⟨bc, hc, UInt64.le_trans hle' hle⟩
  risk := RiskCategory.le_trans hbc.risk hab.risk
  conditions := fun c hc => hbc.conditions c (hab.conditions c hc)

theorem Covers.of_attenuates {request : AuthorizationRequest}
    {parent child : CapabilityGrant} {ws : WorkspaceId}
    {subject : PrincipalId} {t : Timestamp} (h : Covers child ws subject request t)
    (hatt : Attenuates parent.toCapabilityGrantSpec child.toCapabilityGrantSpec)
    (hlive : parent.status = .active) : Covers parent ws parent.subjectId request t where
  workspace := hatt.workspace.symm.trans h.workspace
  subject := rfl
  capability := hatt.capability.symm.trans h.capability
  operation := selectorIsWithin_trans h.operation hatt.operation
  scope := scopeIsWithin_trans h.scope hatt.scope
  live := hlive
  begun := hatt.begins.trans h.begun
  unexpired := by
    intro until_ hu
    obtain ⟨childUntil, hcu, hle⟩ := hatt.ends until_ hu
    exact (h.unexpired childUntil hcu).trans_le hle
  budget := by
    intro b hb
    obtain ⟨cb, hcb, hle⟩ := hatt.budget b hb
    exact UInt64.le_trans (h.budget cb hcb) hle
  risk := RiskCategory.le_trans h.risk hatt.risk
  conditions := fun c hc => h.conditions c (hatt.conditions c hc)

private theorem ends_of_not_any {child limit : Option Timestamp}
    (h : ¬ (limit.any fun l => child.all fun c => decide (l < c)) = true) :
    ∀ l, limit = some l → ∃ c, child = some c ∧ c ≤ l := by
  intro l hl
  subst hl
  cases child with
  | none => simp at h
  | some c => exact ⟨c, rfl, by simpa using h⟩

theorem validateAttenuation_ok {contract : DelegationContract}
    {parent permission : CapabilityGrant} {child : CapabilityGrantSpec}
    {depth : UInt8} {at_ : Timestamp}
    (h : validateAttenuation parent permission child contract depth at_ = .ok ()) :
    (parent.status = .active ∧ depth < maxDelegationDepth ∧ depth + 1 ≤ contract.maxDepth) ∧
    ((∀ b, parent.budget = some b →
      ∃ childBudget, child.budget = some childBudget ∧ childBudget.maxUnits ≤ b.maxUnits) →
    Attenuates parent.toCapabilityGrantSpec child) := by
  simp only [validateAttenuation, bind_eq_ok, refuse_eq_ok, okOr_eq_ok, exists_const] at h
  obtain ⟨hactive, -, -, hws, -, -, hcond, hcap, hsel, hrisk, _, -, -, hdepth, hfrom, huntil,
    -, -⟩ := h
  simp only [not_or, not_not, Bool.or_eq_true, Bool.not_eq_true', Bool.not_eq_false] at *
  have hstatus : parent.status = .active := by
    simp only [CapabilityGrant.isActiveAt, Bool.and_eq_true, beq_iff_eq] at hactive
    exact hactive.1.1
  refine ⟨⟨hstatus, UInt8.not_le.mp hdepth.1, UInt8.not_lt.mp hdepth.2⟩, fun hbudget => ?_⟩
  exact {
    workspace := hws.2.symm
    capability := hcap.1
    operation := hsel.1.1.1.1
    scope := hsel.1.1.1.2
    begins := Int.not_lt.mp hfrom.2
    ends := ends_of_not_any huntil
    budget := hbudget
    risk := RiskCategory.not_lt.mp hrisk.1
    conditions := fun c hc => hcond c (mem_append_left _ hc) }

/-! ## The two ways of delegating, inverted -/

section

variable {parent permission : CapabilityGrant} {spec : CapabilityGrantSpec}
  {contract : DelegationContract} {b b' : HierarchicalBudget} {at_ : Timestamp}
  {d : DelegatedCapability}

theorem fromRoot_ok
    (h : fromRoot parent permission spec contract b at_ = (b', .ok d)) :
    (parent.status = .active ∧ d.grant.status = .active ∧ d.depth = 1 ∧
      1 ≤ contract.maxDepth) ∧
    Attenuates parent.toCapabilityGrantSpec d.grant.toCapabilityGrantSpec ∧
    ∃ units r, d.grant.budget = some ⟨units⟩ ∧
      b'.reservations.lookup d.grant.id = some r ∧ r.allocatedUnits = units := by
  unfold fromRoot at h
  cases hprep : prepareRoot parent permission spec contract at_ with
  | error e =>
    rw [hprep] at h
    cases h
  | ok prepared =>
    obtain ⟨parentUnits, childUnits, grant⟩ := prepared
    rw [hprep] at h
    simp only [prepareRoot, bind_eq_ok, refuse_eq_ok, okOr_eq_ok, pure_eq_ok, mapError_eq_ok,
      Prod.mk.injEq, exists_const] at hprep
    obtain ⟨_, hval, budget, hbudget, hle, _, hissue, -, rfl, rfl⟩ := hprep
    obtain ⟨⟨hlive, -, hdepth⟩, hatt⟩ := validateAttenuation_ok hval
    obtain rfl := issue_ok hissue
    rcases registerRootWithChild_cases b parent.id spec.id parentUnits budget.maxUnits with
      ⟨e, heq⟩ | ⟨-, -, -, -, -, -, heq⟩
    · simp only [heq] at h
      cases h
    · simp only [heq] at h
      cases h
      refine ⟨⟨hlive, rfl, rfl, hdepth⟩, hatt fun pb hpb => ?_, _, _, hbudget,
        AList.lookup_insert _, rfl⟩
      rw [hpb] at hle
      exact ⟨budget, hbudget, UInt64.not_lt.mp hle⟩

theorem delegate_ok {parent : DelegatedCapability}
    (h : parent.delegate permission spec contract b at_ = (b', .ok d)) :
    (parent.grant.status = .active ∧ d.grant.status = .active ∧ d.depth = parent.depth + 1 ∧
      parent.depth < maxDelegationDepth ∧ parent.depth + 1 ≤ contract.maxDepth) ∧
    ((∀ pb, parent.grant.budget = some pb →
        ∃ cb, d.grant.budget = some cb ∧ cb.maxUnits ≤ pb.maxUnits) →
      Attenuates parent.grant.toCapabilityGrantSpec d.grant.toCapabilityGrantSpec) ∧
    ∃ units, d.grant.budget = some ⟨units⟩ ∧
      b.reserveChild parent.grant.id d.grant.id units = (b', .ok ()) := by
  unfold delegate at h
  cases hval : validateAttenuation parent.grant permission spec contract parent.depth at_ with
  | error e =>
    rw [hval] at h
    cases h
  | ok u =>
    rw [hval] at h
    obtain ⟨⟨hlive, hdepth⟩, hatt⟩ := validateAttenuation_ok hval
    simp only [attenuate] at h
    cases hissue : issueBudgeted spec at_ with
    | error e =>
      rw [hissue] at h
      cases h
    | ok issued =>
      obtain ⟨units, grant⟩ := issued
      rw [hissue] at h
      simp only [issueBudgeted, bind_eq_ok, okOr_eq_ok, pure_eq_ok, mapError_eq_ok,
        Prod.mk.injEq] at hissue
      obtain ⟨budget, hbudget, grant', hg, rfl, rfl⟩ := hissue
      have hspec := issue_ok hg
      rcases reserveChild_cases b parent.grant.id spec.id budget.maxUnits with
        ⟨e, heq⟩ | ⟨-, -, -, heq⟩
      · simp only [heq] at h
        cases h
      · simp only [heq] at h
        cases h
        rw [hspec]
        exact ⟨⟨hlive, rfl, rfl, hdepth⟩, hatt, budget.maxUnits, hbudget, heq⟩

end

/-! ## Chains -/

structure DelegationLink where
  parent : CapabilityGrant
  contract : DelegationContract
  child : DelegatedCapability

/-- The delegation chains over one ledger, newest link first. Between any two links the ledger may
serve any other call. -/
inductive DelegationChain (root : CapabilityGrant) :
    HierarchicalBudget → List DelegationLink → Prop where
  | fromRoot {b b' : HierarchicalBudget} {permission : CapabilityGrant}
      {spec : CapabilityGrantSpec} {contract : DelegationContract} {at_ : Timestamp}
      {d : DelegatedCapability} :
      fromRoot root permission spec contract b at_ = (b', .ok d) →
      DelegationChain root b' [⟨root, contract, d⟩]
  | delegate {b b' : HierarchicalBudget} {link : DelegationLink} {links : List DelegationLink}
      {permission : CapabilityGrant} {spec : CapabilityGrantSpec} {contract : DelegationContract}
      {at_ : Timestamp} {d : DelegatedCapability} :
      DelegationChain root b (link :: links) →
      link.child.delegate permission spec contract b at_ = (b', .ok d) →
      DelegationChain root b' (⟨link.child.grant, contract, d⟩ :: link :: links)
  | ledger {b : HierarchicalBudget} {links : List DelegationLink} (call : LedgerCall) :
      DelegationChain root b links → DelegationChain root (call.apply b).1 links

namespace DelegationChain

variable {root : CapabilityGrant} {b : HierarchicalBudget} {links : List DelegationLink}

theorem reserved {link : DelegationLink} (h : DelegationChain root b links) (hlink : link ∈ links) :
    ∃ units r, link.child.grant.budget = some ⟨units⟩ ∧
      b.reservations.lookup link.child.grant.id = some r ∧ r.allocatedUnits = units := by
  induction h with
  | fromRoot h =>
    rw [mem_singleton.mp hlink]
    exact (fromRoot_ok h).2.2
  | @delegate b b' newest links permission spec contract at_ d _ h ih =>
    obtain ⟨-, -, units, hbudget, hres⟩ := delegate_ok h
    rcases mem_cons.mp hlink with rfl | hold
    · rcases reserveChild_cases b newest.child.grant.id d.grant.id units with
        ⟨e, heq⟩ | ⟨-, -, -, heq⟩
      · rw [heq] at hres
        cases hres
      · rw [heq] at hres
        cases hres
        exact ⟨units, _, hbudget, AList.lookup_insert _, rfl⟩
    · obtain ⟨units', r, hb, hr, halloc⟩ := ih hold
      have hkeep := apply_allocated b hr (.reserveChild newest.child.grant.id d.grant.id units)
      obtain ⟨r', hr', halloc'⟩ := hkeep
      rw [LedgerCall.apply, hres] at hr'
      exact ⟨units', r', hb, hr', halloc'.trans halloc⟩
  | ledger call _ ih =>
    obtain ⟨units, r, hb, hr, halloc⟩ := ih hlink
    obtain ⟨r', hr', halloc'⟩ := apply_allocated _ hr call
    exact ⟨units, r', hb, hr', halloc'.trans halloc⟩

structure LinkOk (link : DelegationLink) : Prop where
  parentLive : link.parent.status = .active
  childLive : link.child.grant.status = .active
  attenuates :
    Attenuates link.parent.toCapabilityGrantSpec link.child.grant.toCapabilityGrantSpec
  depth : link.child.depth ≤ maxDelegationDepth ∧ link.child.depth ≤ link.contract.maxDepth

/-- **Every link narrows its parent and stays within the depth limits.** -/
theorem linkOk (h : DelegationChain root b links) : ∀ link ∈ links, LinkOk link := by
  induction h with
  | fromRoot h =>
    intro link hlink
    rw [mem_singleton.mp hlink]
    obtain ⟨⟨hlive, hchild, hdepth, hmax⟩, hatt, -⟩ := fromRoot_ok h
    refine ⟨hlive, hchild, hatt, ?_⟩
    rw [hdepth]
    exact ⟨by decide, hmax⟩
  | @delegate b b' newest links permission spec contract at_ d hchain h ih =>
    intro link hlink
    rcases mem_cons.mp hlink with rfl | hold
    · obtain ⟨⟨hlive, hchild, hdepth, hlt, hmax⟩, hatt, units, hbudget, hres⟩ := delegate_ok h
      refine ⟨hlive, hchild, hatt fun pb hpb => ⟨⟨units⟩, hbudget, ?_⟩, ?_⟩
      · -- the reservation came out of the parent's own allocation
        obtain ⟨punits, r, hpbudget, hr, halloc⟩ := hchain.reserved (mem_cons_self ..)
        rw [hpb, Option.some_inj] at hpbudget
        rcases reserveChild_cases b newest.child.grant.id d.grant.id units with
          ⟨e, heq⟩ | ⟨-, -, ⟨m, hm, hle⟩, -⟩
        · rw [heq] at hres
          cases hres
        · have hmle := remaining_le_allocated b hr hm
          rw [halloc] at hmle
          rw [hpbudget]
          exact UInt64.le_trans hle hmle
      · rw [hdepth]
        have hlt' := UInt8.lt_iff_toNat_lt.mp hlt
        refine ⟨UInt8.le_iff_toNat_le.mpr ?_, hmax⟩
        rw [UInt8.toNat_add]
        have height : maxDelegationDepth.toNat = 8 := rfl
        have hone : (1 : UInt8).toNat = 1 := rfl
        omega
    · exact ih link hold
  | ledger call _ ih => exact ih

theorem ancestors (h : DelegationChain root b links) :
    ∀ newer link older, links = newer ++ link :: older →
      root ∈ (link :: older).map DelegationLink.parent ∧
      ∀ ancestor ∈ (link :: older).map DelegationLink.parent, ancestor.status = .active ∧
        Attenuates ancestor.toCapabilityGrantSpec link.child.grant.toCapabilityGrantSpec := by
  induction h with
  | fromRoot h =>
    intro newer link older heq
    have hok := linkOk (DelegationChain.fromRoot h) _ (mem_singleton_self _)
    obtain ⟨rfl, hcons⟩ := append_eq_singleton_iff.mp heq.symm |>.resolve_right (by simp)
    cases hcons
    refine ⟨mem_cons_self .., fun ancestor hanc => ?_⟩
    rw [map_singleton, mem_singleton] at hanc
    rw [hanc]
    exact ⟨hok.parentLive, hok.attenuates⟩
  | @delegate b b' newest links permission spec contract at_ d hchain h ih =>
    intro newer link older heq
    have hok := linkOk (DelegationChain.delegate hchain h) _ (mem_cons_self ..)
    cases newer with
    | nil =>
      -- the new link: its own parent, or an ancestor of the link it was made from
      rw [nil_append] at heq
      cases heq
      obtain ⟨hroot, hanc⟩ := ih [] newest links rfl
      refine ⟨mem_cons_of_mem _ hroot, fun ancestor hmem => ?_⟩
      rw [map_cons] at hmem
      rcases mem_cons.mp hmem with rfl | hmem
      · exact ⟨hok.parentLive, hok.attenuates⟩
      · exact ⟨(hanc ancestor hmem).1, (hanc ancestor hmem).2.trans hok.attenuates⟩
    | cons x newer =>
      rw [cons_append] at heq
      exact ih newer link older (List.cons.inj heq).2
  | ledger call _ ih => exact ih

end DelegationChain

/-! ## Authority along a chain -/

def Since (g now : CapabilityGrant) : Prop := now = g ∨ ∃ at_, now = (g.revoke at_).1

theorem Since.spec {g now : CapabilityGrant} (h : Since g now) :
    now.toCapabilityGrantSpec = g.toCapabilityGrantSpec := by
  rcases h with rfl | ⟨at_, rfl⟩
  · rfl
  · unfold CapabilityGrant.revoke
    split <;> rfl

/-- **Delegation only attenuates.** The depth of every link is within the limits, and whatever a
link allows its subject at an instant, every grant it descends from that has not been revoked
since allows its own subject at that instant. -/
theorem delegation_attenuates {root : CapabilityGrant} {b : HierarchicalBudget}
    {links newer older : List DelegationLink} {link : DelegationLink}
    (hchain : DelegationChain root b links) (hlink : links = newer ++ link :: older) :
    link.child.depth ≤ maxDelegationDepth ∧ link.child.depth ≤ link.contract.maxDepth ∧
    root ∈ (link :: older).map DelegationLink.parent ∧
    ∀ ancestor ∈ (link :: older).map DelegationLink.parent, ∀ ancestorNow childNow,
      Since ancestor ancestorNow → ancestorNow.status ≠ .revoked →
      Since link.child.grant childNow →
      ∀ grants ws version request t,
        AllowedOnStrengthOf childNow grants ws link.child.grant.subjectId version request t →
        AllowedOnStrengthOf ancestorNow [ancestorNow] ws ancestor.subjectId version request t := by
  have hok := hchain.linkOk link (by rw [hlink]; exact mem_append_right _ (mem_cons_self ..))
  obtain ⟨hroot, hanc⟩ := hchain.ancestors newer link older hlink
  refine ⟨hok.depth.1, hok.depth.2, hroot, ?_⟩
  intro ancestor hmem ancestorNow childNow hsince hlive hchild grants ws version request t hallow
  obtain ⟨hj, hcov⟩ := hallow.covers
  have hatt : Attenuates ancestorNow.toCapabilityGrantSpec childNow.toCapabilityGrantSpec := by
    rw [hsince.spec, hchild.spec]
    exact (hanc ancestor hmem).2
  have hsubject : ancestorNow.subjectId = ancestor.subjectId := by rw [hsince.spec]
  have hparent := hcov.of_attenuates hatt (status_active_of_not_revoked hlive)
  rw [hsubject] at hparent
  exact allowedOnStrengthOf_singleton hj hparent

/-! A workspace owner lets one principal write memories, who hands part of that to
a second one, who hands part of it to a third. -/

def memoryGrant (id holder issuer : BitVec 128) (capability : Capability)
    (operation scope : String) (units : UInt64) : CapabilityGrant where
  id := ⟨id⟩
  workspaceId := ⟨1⟩
  subjectId := ⟨holder⟩
  issuerId := ⟨issuer⟩
  capability := capability
  operation := operation
  resourceScope := scope
  validFrom := 0
  validUntil := some 100
  budget := some ⟨units⟩
  riskCeiling := .medium
  conditions := []
  status := .active
  createdAt := 0
  revokedAt := none

def ownerGrant : CapabilityGrant :=
  memoryGrant 10 2 1 .memoryWrite "memory.write" "memory://" 50

def mayDelegate (holder : BitVec 128) : CapabilityGrant :=
  memoryGrant 20 holder 1 .capabilityDelegate "capability.delegate" "memory://" 50

def memoryContract (scope : String) : DelegationContract :=
  ⟨.memoryWrite, scope, 2, some 60, .medium, 40⟩

def firstChild : DelegatedCapability :=
  ⟨memoryGrant 11 3 2 .memoryWrite "memory.write" "memory://a" 30, ⟨10⟩, ⟨20⟩, 1⟩

def secondChild : DelegatedCapability :=
  ⟨memoryGrant 12 4 3 .memoryWrite "memory.write.metadata" "memory://a/b" 20, ⟨11⟩, ⟨20⟩, 2⟩

def ownerLink : DelegationLink := ⟨ownerGrant, memoryContract "memory://", firstChild⟩

def secondLink : DelegationLink :=
  ⟨ownerLink.child.grant, memoryContract "memory://a", secondChild⟩

def rootLedger : HierarchicalBudget :=
  runCalls (.new 50) [.registerRootWithChild ⟨10⟩ 50 ⟨11⟩ 30]

def chainLedger : HierarchicalBudget :=
  runCalls rootLedger [.reserveChild ⟨11⟩ ⟨12⟩ 20]

def memoryRequest : AuthorizationRequest :=
  ⟨.memoryWrite, "memory.write.metadata", "memory://a/b", .low, .medium, 5, []⟩

private theorem chain_two_links :
    DelegationChain ownerGrant chainLedger [secondLink, ownerLink] := by
  have hroot : fromRoot ownerGrant (mayDelegate 2)
      firstChild.grant.toCapabilityGrantSpec (memoryContract "memory://") (.new 50) 0 =
        (rootLedger, .ok firstChild) := rfl
  have hsecond : ownerLink.child.delegate (mayDelegate 3)
      secondChild.grant.toCapabilityGrantSpec (memoryContract "memory://a") rootLedger 0 =
        (chainLedger, .ok secondChild) := rfl
  exact .delegate (.fromRoot hroot) hsecond

private theorem second_child_allowed :
    AllowedOnStrengthOf secondChild.grant [secondChild.grant] ⟨1⟩ ⟨4⟩ "v1" memoryRequest 50 :=
  allowedOnStrengthOf_singleton ⟨by decide, by decide, .one .memory "a/b", by decide⟩
    (failureReason_eq_none_iff.mp (by decide))

/-- The third principal's write is one the owner's grant allows the owner's subject. -/
theorem delegation_attenuates_second_child :
    AllowedOnStrengthOf ownerGrant [ownerGrant] ⟨1⟩ ⟨2⟩ "v1" memoryRequest 50 := by
  obtain ⟨-, -, hroot, hall⟩ := delegation_attenuates chain_two_links
    (show [secondLink, ownerLink] = [] ++ secondLink :: [ownerLink] from rfl)
  exact hall ownerGrant hroot ownerGrant secondChild.grant (Or.inl rfl) (by decide) (Or.inl rfl)
    _ _ _ _ _ second_child_allowed

end Vestrace.Security
