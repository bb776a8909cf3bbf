import Vestrace.Lib.AllocTree
import Vestrace.Lib.Assoc
import Vestrace.Security.Capability

/-!
# The hierarchical budget — reservations that never overspend their root

`HierarchicalBudget` hands one allocation down a delegation tree. Its state is a flat map of
reservations and its checks are local; the global bound is stored nowhere. `Represents` says which
allocation tree over the grant ids a ledger is, so the tree's invariant is the ledger's.
-/

namespace Vestrace.Security

open Lib Function Option Finset AllocTree UInt64 Assoc

structure BudgetReservation where
  grantId : CapabilityGrantId
  parentGrantId : Option CapabilityGrantId
  allocatedUnits : UInt64
  consumedUnits : UInt64
  deriving DecidableEq, Repr

structure HierarchicalBudget where
  hardLimit : UInt64
  reservations : AList fun _ : CapabilityGrantId => BudgetReservation

namespace HierarchicalBudget

def new (hardLimit : UInt64) : HierarchicalBudget := ⟨hardLimit, ∅⟩

variable (b : HierarchicalBudget) (id : CapabilityGrantId)

def containsKey : Bool :=
  (b.reservations.lookup id).isSome

def insert (r : BudgetReservation) : HierarchicalBudget :=
  { b with reservations := b.reservations.insert id r }

def hasRoot : Bool :=
  (values b.reservations).any fun r => r.parentGrantId.isNone

def children : List BudgetReservation :=
  (values b.reservations).filter fun child => decide (child.parentGrantId = some id)

def childrenReserved : UInt64 :=
  ((b.children id).map (·.allocatedUnits)).sum

def saturatingAdd (a b : UInt64) : UInt64 :=
  if a.toNat + b.toNat < 2 ^ 64 then a + b else UInt64.ofNat (2 ^ 64 - 1)

/-- `HierarchicalBudget::remaining`; `checked_sub` is `none` on underflow. -/
def remaining : Option UInt64 := do
  let reservation ← b.reservations.lookup id
  let taken := saturatingAdd reservation.consumedUnits (b.childrenReserved id)
  if taken ≤ reservation.allocatedUnits then some (reservation.allocatedUnits - taken) else none

def registerRoot (grantId : CapabilityGrantId) (allocatedUnits : UInt64) :
    HierarchicalBudget × Except DomainError Unit :=
  if b.hardLimit < allocatedUnits then
    (b, .error (.policyViolation "root budget exceeds hard limit"))
  else if b.hasRoot then
    (b, .error (.policyViolation "hierarchical budget already has a root"))
  else if b.containsKey grantId then
    (b, .error (.policyViolation "budget grant is already registered"))
  else
    (b.insert grantId ⟨grantId, none, allocatedUnits, 0⟩, .ok ())

def registerRootWithChild (rootGrantId : CapabilityGrantId) (rootAllocatedUnits : UInt64)
    (childGrantId : CapabilityGrantId) (childAllocatedUnits : UInt64) :
    HierarchicalBudget × Except DomainError Unit :=
  if childAllocatedUnits = 0 then
    (b, .error (.invalidArgument "budget reservation must be positive"))
  else if rootAllocatedUnits < childAllocatedUnits then
    (b, .error (.policyViolation "hierarchical budget allocation exceeded"))
  else if rootGrantId = childGrantId then
    (b, .error (.policyViolation "budget root and child must be distinct"))
  else if b.containsKey rootGrantId || b.containsKey childGrantId then
    (b, .error (.policyViolation "budget grant is already registered"))
  else if b.hardLimit < rootAllocatedUnits then
    (b, .error (.policyViolation "root budget exceeds hard limit"))
  else if b.hasRoot then
    (b, .error (.policyViolation "hierarchical budget already has a root"))
  else
    let withRoot := b.insert rootGrantId ⟨rootGrantId, none, rootAllocatedUnits, 0⟩
    (withRoot.insert childGrantId ⟨childGrantId, some rootGrantId, childAllocatedUnits, 0⟩, .ok ())

def reserveChild (parentGrantId childGrantId : CapabilityGrantId) (allocatedUnits : UInt64) :
    HierarchicalBudget × Except DomainError Unit :=
  if allocatedUnits = 0 then
    (b, .error (.invalidArgument "budget reservation must be positive"))
  else if b.containsKey childGrantId then
    (b, .error (.policyViolation "budget grant is already reserved"))
  else if (b.remaining parentGrantId).all fun remaining => decide (remaining < allocatedUnits) then
    (b, .error (.policyViolation "hierarchical budget allocation exceeded"))
  else if !b.containsKey parentGrantId then
    (b, .error (.notFound ("budget parent " ++ parentGrantId.display)))
  else
    (b.insert childGrantId ⟨childGrantId, some parentGrantId, allocatedUnits, 0⟩, .ok ())

def charge (grantId : CapabilityGrantId) (amount : UInt64) :
    HierarchicalBudget × Except DomainError Unit :=
  match b.remaining grantId with
  | none => (b, .error (.notFound ("budget grant " ++ grantId.display)))
  | some remaining =>
    if remaining < amount then
      (b, .error (.policyViolation "budget charge exceeds reservation"))
    else
      let spend := fun r : BudgetReservation =>
        { r with consumedUnits := r.consumedUnits + amount }
      ({ b with reservations := modify grantId spend b.reservations }, .ok ())

/-- The true sum of what a grant's direct children were allocated. -/
def childrenAllocated : ℕ :=
  ((b.children id).map (·.allocatedUnits.toNat)).sum

def totalConsumed : ℕ :=
  ((values b.reservations).map (·.consumedUnits.toNat)).sum

end HierarchicalBudget

open HierarchicalBudget

inductive LedgerCall where
  | registerRoot (grantId : CapabilityGrantId) (allocatedUnits : UInt64)
  | registerRootWithChild (rootGrantId : CapabilityGrantId) (rootAllocatedUnits : UInt64)
      (childGrantId : CapabilityGrantId) (childAllocatedUnits : UInt64)
  | reserveChild (parentGrantId childGrantId : CapabilityGrantId) (allocatedUnits : UInt64)
  | charge (grantId : CapabilityGrantId) (amount : UInt64)
  deriving DecidableEq, Repr

def LedgerCall.apply (b : HierarchicalBudget) :
    LedgerCall → HierarchicalBudget × Except DomainError Unit
  | .registerRoot id units => b.registerRoot id units
  | .registerRootWithChild root rootUnits child childUnits =>
    b.registerRootWithChild root rootUnits child childUnits
  | .reserveChild parent child units => b.reserveChild parent child units
  | .charge id amount => b.charge id amount

/-- A whole sequence of calls, whatever each of them returns. -/
def runCalls (b : HierarchicalBudget) (calls : List LedgerCall) : HierarchicalBudget :=
  calls.foldl (fun b call => (call.apply b).1) b

/-! ## What a call can do

One inversion per mutator: it refuses and leaves the ledger alone, or every guard
held and the ledger is the one written out. -/

section

variable (b : HierarchicalBudget)

variable {id : CapabilityGrantId} {r : BudgetReservation}

theorem containsKey_iff : b.containsKey id = true ↔ id ∈ b.reservations := AList.lookup_isSome

theorem hasRoot_iff :
    b.hasRoot = true ↔ ∃ id r, b.reservations.lookup id = some r ∧ r.parentGrantId = none := by
  rw [hasRoot, List.any_eq_true]
  constructor
  · rintro ⟨r, hr, hnone⟩
    obtain ⟨id, hid⟩ := mem_values.mp hr
    exact ⟨id, r, hid, isNone_iff_eq_none.mp hnone⟩
  · rintro ⟨id, r, hid, hnone⟩
    exact ⟨r, mem_values.mpr ⟨id, hid⟩, isNone_iff_eq_none.mpr hnone⟩

theorem registerRoot_cases (id : CapabilityGrantId) (units : UInt64) :
    (∃ e, b.registerRoot id units = (b, .error e)) ∨
    (units ≤ b.hardLimit ∧ b.hasRoot = false ∧ id ∉ b.reservations ∧ b.registerRoot id units =
        (b.insert id ⟨id, none, units, 0⟩, .ok ())) := by
  unfold registerRoot
  split_ifs with hlimit hroot hkey
  iterate 3 · exact .inl ⟨_, rfl⟩
  · refine .inr ⟨UInt64.not_lt.mp hlimit, Bool.eq_false_iff.mpr hroot, ?_, rfl⟩
    exact fun hmem => hkey ((containsKey_iff b).mpr hmem)

theorem registerRootWithChild_cases (root child : CapabilityGrantId) (rootUnits units : UInt64) :
    (∃ e, b.registerRootWithChild root rootUnits child units = (b, .error e)) ∨
    (units ≤ rootUnits ∧ root ≠ child ∧ root ∉ b.reservations ∧ child ∉ b.reservations ∧
      rootUnits ≤ b.hardLimit ∧ b.hasRoot = false ∧
      b.registerRootWithChild root rootUnits child units =
        ((b.insert root ⟨root, none, rootUnits, 0⟩).insert child ⟨child, some root, units, 0⟩,
          .ok ())) := by
  unfold registerRootWithChild
  split_ifs with hzero hle hne hkey hlimit hroot
  iterate 6 · exact .inl ⟨_, rfl⟩
  · rw [Bool.or_eq_true, containsKey_iff, containsKey_iff, not_or] at hkey
    exact .inr ⟨UInt64.not_lt.mp hle, hne, hkey.1, hkey.2, UInt64.not_lt.mp hlimit,
      Bool.eq_false_iff.mpr hroot, rfl⟩

theorem reserveChild_cases (parent child : CapabilityGrantId) (units : UInt64) :
    (∃ e, b.reserveChild parent child units = (b, .error e)) ∨
    (child ∉ b.reservations ∧ parent ∈ b.reservations ∧
      (∃ remaining, b.remaining parent = some remaining ∧ units ≤ remaining) ∧
      b.reserveChild parent child units =
        (b.insert child ⟨child, some parent, units, 0⟩, .ok ())) := by
  unfold reserveChild
  split_ifs with hzero hkey hleft hparent
  iterate 4 · exact .inl ⟨_, rfl⟩
  · refine .inr ⟨fun hmem => hkey ((containsKey_iff b).mpr hmem), ?_, ?_, rfl⟩
    · exact (containsKey_iff b).mp (by simpa using hparent)
    · cases hrem : b.remaining parent with
      | none => simp [hrem] at hleft
      | some remaining =>
        rw [hrem, all_some, decide_eq_true_eq] at hleft
        exact ⟨remaining, rfl, UInt64.not_lt.mp hleft⟩

theorem charge_cases (id : CapabilityGrantId) (amount : UInt64) :
    (∃ e, b.charge id amount = (b, .error e)) ∨
    ∃ r remaining, b.reservations.lookup id = some r ∧ b.remaining id = some remaining ∧
      amount ≤ remaining ∧ b.charge id amount =
        (b.insert id { r with consumedUnits := r.consumedUnits + amount }, .ok ()) := by
  unfold charge
  cases hrem : b.remaining id with
  | none => exact .inl ⟨_, rfl⟩
  | some remaining =>
    simp only
    split_ifs with hlt
    · exact .inl ⟨_, rfl⟩
    · cases hr : b.reservations.lookup id with
      | none => simp [HierarchicalBudget.remaining, hr] at hrem
      | some r =>
        refine .inr ⟨r, remaining, rfl, rfl, UInt64.not_lt.mp hlt, ?_⟩
        rw [Assoc.modify, hr]
        rfl

/-- What is left never exceeds what was allocated, whatever else the ledger holds. -/
theorem remaining_le_allocated {m : UInt64} (hr : b.reservations.lookup id = some r)
    (hm : b.remaining id = some m) : m ≤ r.allocatedUnits := by
  simp only [remaining, hr, bind_eq_bind, bind_some] at hm
  split at hm
  next hle =>
    cases hm
    rw [UInt64.le_iff_toNat_le, UInt64.toNat_sub_of_le _ _ hle]
    omega
  next => cases hm

/-- Inserting under another key keeps an entry. -/
theorem lookup_insert_other {id' : CapabilityGrantId} {r' : BudgetReservation}
    (hr : b.reservations.lookup id = some r) (hid : id' ∉ b.reservations) :
    (b.insert id' r').reservations.lookup id = some r := by
  have hne : id ≠ id' := by
    rintro rfl
    rw [AList.lookup_eq_none.mpr hid] at hr
    cases hr
  rw [HierarchicalBudget.insert, AList.lookup_insert_ne hne]
  exact hr

theorem apply_allocated (hr : b.reservations.lookup id = some r) (call : LedgerCall) :
    ∃ r', (call.apply b).1.reservations.lookup id = some r' ∧
      r'.allocatedUnits = r.allocatedUnits := by
  cases call with
  | registerRoot root units =>
    rcases registerRoot_cases b root units with ⟨e, heq⟩ | ⟨-, -, hroot, heq⟩
    · exact ⟨r, by rw [LedgerCall.apply, heq]; exact hr, rfl⟩
    · exact ⟨r, by rw [LedgerCall.apply, heq]; exact lookup_insert_other b hr hroot, rfl⟩
  | registerRootWithChild root rootUnits child units =>
    rcases registerRootWithChild_cases b root child rootUnits units with
      ⟨e, heq⟩ | ⟨-, hne, hroot, hchild, -, -, heq⟩
    · exact ⟨r, by rw [LedgerCall.apply, heq]; exact hr, rfl⟩
    · refine ⟨r, ?_, rfl⟩
      rw [LedgerCall.apply, heq]
      refine lookup_insert_other _ (lookup_insert_other b hr hroot) ?_
      rw [HierarchicalBudget.insert, AList.mem_insert, not_or]
      exact ⟨hne.symm, hchild⟩
  | reserveChild parent child units =>
    rcases reserveChild_cases b parent child units with ⟨e, heq⟩ | ⟨hchild, -, -, heq⟩
    · exact ⟨r, by rw [LedgerCall.apply, heq]; exact hr, rfl⟩
    · exact ⟨r, by rw [LedgerCall.apply, heq]; exact lookup_insert_other b hr hchild, rfl⟩
  | charge id' amount =>
    rcases charge_cases b id' amount with ⟨e, heq⟩ | ⟨r', m, hr', -, -, heq⟩
    · exact ⟨r, by rw [LedgerCall.apply, heq]; exact hr, rfl⟩
    · rw [LedgerCall.apply, heq]
      by_cases hid : id = id'
      · -- the charged grant itself: only its consumption moves
        subst hid
        rw [hr, some_inj] at hr'
        subst hr'
        exact ⟨_, AList.lookup_insert _, rfl⟩
      · refine ⟨r, ?_, rfl⟩
        rw [HierarchicalBudget.insert, AList.lookup_insert_ne hid]
        exact hr

/-- **A refused call leaves the ledger unchanged.** -/
theorem apply_error {call : LedgerCall} {e : DomainError} (h : (call.apply b).2 = .error e) :
    (call.apply b).1 = b := by
  have hcases : (∃ e', call.apply b = (b, .error e')) ∨ (call.apply b).2 = .ok () := by
    cases call with
    | registerRoot id units =>
      exact (registerRoot_cases b id units).imp_right fun h => by
        simp only [LedgerCall.apply, h.2.2.2]
    | registerRootWithChild root rootUnits child units =>
      exact (registerRootWithChild_cases b root child rootUnits units).imp_right fun h => by
        simp only [LedgerCall.apply, h.2.2.2.2.2.2]
    | reserveChild parent child units =>
      exact (reserveChild_cases b parent child units).imp_right fun h => by
        simp only [LedgerCall.apply, h.2.2.2]
    | charge id amount =>
      refine (charge_cases b id amount).imp_right ?_
      rintro ⟨r, remaining, -, -, -, heq⟩
      simp only [LedgerCall.apply, heq]
  rcases hcases with ⟨e', heq⟩ | hok
  · rw [heq]
  · rw [hok] at h
    cases h

end

/-! ## The tree a ledger is -/

/-- The ledger is this tree, with its grants as nodes. -/
structure Represents (b : HierarchicalBudget) (t : AllocTree CapabilityGrantId) : Prop where
  nodes : ∀ id, id ∈ t.nodes ↔ id ∈ b.reservations
  entry : ∀ id r, b.reservations.lookup id = some r →
    t.parent id = r.parentGrantId ∧ t.alloc id = r.allocatedUnits.toNat ∧
      t.used id = r.consumedUnits.toNat
  limit : t.alloc t.root ≤ b.hardLimit.toNat

/-- A ledger is empty until its root is registered, and a tree from then on. -/
def LedgerInv (b : HierarchicalBudget) : Prop :=
  b.reservations = ∅ ∨ ∃ t, Represents b t

section

variable {b : HierarchicalBudget} {t : AllocTree CapabilityGrantId} {id : CapabilityGrantId}
  {r : BudgetReservation} {units amount : UInt64}

section

variable (h : Represents b t)

include h

theorem Represents.keys : b.reservations.keys.toFinset = t.nodes := by
  ext id
  rw [List.mem_toFinset, h.nodes, AList.mem_keys]

theorem Represents.mem (hr : b.reservations.lookup id = some r) : id ∈ t.nodes := by
  rw [h.nodes, ← AList.lookup_isSome, hr]
  rfl

theorem Represents.childrenAllocated (id : CapabilityGrantId) :
    b.childrenAllocated id = t.handedOn id := by
  unfold HierarchicalBudget.childrenAllocated HierarchicalBudget.children handedOn
  rw [sum_values_filter, h.keys, sum_filter, sum_filter]
  refine sum_congr rfl fun k hk => ?_
  obtain ⟨rk, hrk⟩ := isSome_iff_exists.mp (AList.lookup_isSome.mpr ((h.nodes k).mp hk))
  obtain ⟨hparent, halloc, -⟩ := h.entry k rk hrk
  simp [hrk, hparent, halloc]

theorem Represents.totalConsumed : b.totalConsumed = ∑ k ∈ t.nodes, t.used k := by
  unfold HierarchicalBudget.totalConsumed
  rw [sum_values, h.keys]
  refine sum_congr rfl fun k hk => ?_
  obtain ⟨rk, hrk⟩ := isSome_iff_exists.mp (AList.lookup_isSome.mpr ((h.nodes k).mp hk))
  obtain ⟨-, -, hused⟩ := h.entry k rk hrk
  simp [hrk, hused]

/-- The wrapping sum of `remaining` does not wrap. -/
theorem Represents.childrenReserved (hr : b.reservations.lookup id = some r) :
    (b.childrenReserved id).toNat = t.handedOn id := by
  have hsum : (((b.children id).map fun c => c.allocatedUnits).map toNat).sum =
      t.handedOn id := by
    rw [List.map_map, ← h.childrenAllocated id]
    rfl
  have hwithin := t.used_add_handedOn_le (h.mem hr)
  have halloc := (h.entry id r hr).2.1
  have hbound := r.allocatedUnits.toNat_lt
  rw [HierarchicalBudget.childrenReserved, toNat_sum_of_lt (by omega), hsum]

theorem Represents.remaining (hr : b.reservations.lookup id = some r) :
    ∃ m, b.remaining id = some m ∧ t.used id + t.handedOn id + m.toNat = t.alloc id := by
  obtain ⟨-, halloc, hused⟩ := h.entry id r hr
  have hchildren := h.childrenReserved hr
  have hwithin := t.used_add_handedOn_le (h.mem hr)
  have hbound := r.allocatedUnits.toNat_lt
  have hfit : r.consumedUnits.toNat + (b.childrenReserved id).toNat < 2 ^ 64 := by omega
  have htaken : (saturatingAdd r.consumedUnits (b.childrenReserved id)).toNat =
      t.used id + t.handedOn id := by
    rw [saturatingAdd, if_pos hfit, UInt64.toNat_add, Nat.mod_eq_of_lt hfit, hchildren, hused]
  have hle : saturatingAdd r.consumedUnits (b.childrenReserved id) ≤ r.allocatedUnits := by
    rw [le_iff_toNat_le]
    omega
  refine ⟨r.allocatedUnits - saturatingAdd r.consumedUnits (b.childrenReserved id), ?_, ?_⟩
  · simp only [HierarchicalBudget.remaining, hr, bind_eq_bind, bind_some, if_pos hle]
  · rw [UInt64.toNat_sub_of_le _ _ hle, htaken]
    omega

theorem Represents.fits (hr : b.reservations.lookup id = some r) {m : UInt64}
    (hm : b.remaining id = some m) (hle : amount ≤ m) :
    t.used id + t.handedOn id + amount.toNat ≤ t.alloc id := by
  obtain ⟨m', hm', hleft⟩ := h.remaining hr
  rw [hm, some_inj] at hm'
  subst hm'
  have hle' := le_iff_toNat_le.mp hle
  omega

end

theorem represents_root {root : CapabilityGrantId} (hb : b.reservations = ∅)
    (hlimit : units ≤ b.hardLimit) :
    Represents (b.insert root ⟨root, none, units, 0⟩) (AllocTree.single root units.toNat) where
  nodes := by
    intro id
    show id ∈ ({root} : Finset _) ↔ id ∈ b.reservations.insert root _
    rw [AList.mem_insert, hb, mem_singleton, or_iff_left (AList.notMem_empty id)]
  entry := by
    intro id r hr
    have hid : id = root := by
      by_contra hne
      rw [HierarchicalBudget.insert, hb, AList.lookup_insert_ne hne] at hr
      cases hr
    subst hid
    rw [HierarchicalBudget.insert, AList.lookup_insert, some_inj] at hr
    subst hr
    exact ⟨rfl, rfl, rfl⟩
  limit := le_iff_toNat_le.mp hlimit

theorem Represents.reserve {parent child : CapabilityGrantId} (h : Represents b t)
    (hp : parent ∈ t.nodes) (hc : child ∉ t.nodes)
    (hfit : t.used parent + t.handedOn parent + units.toNat ≤ t.alloc parent) :
    Represents (b.insert child ⟨child, some parent, units, 0⟩)
      (t.reserve units.toNat parent child hp hc hfit) where
  nodes := by
    intro id
    show id ∈ insert child t.nodes ↔ id ∈ b.reservations.insert child _
    rw [AList.mem_insert, mem_insert, h.nodes]
  entry := by
    intro id r hr
    by_cases hid : id = child
    · subst hid
      rw [HierarchicalBudget.insert, AList.lookup_insert, some_inj] at hr
      subst hr
      exact ⟨update_self .., update_self .., update_self ..⟩
    · rw [HierarchicalBudget.insert, AList.lookup_insert_ne hid] at hr
      obtain ⟨hpar, halloc, hused⟩ := h.entry id r hr
      exact ⟨(update_of_ne hid ..).trans hpar, (update_of_ne hid ..).trans halloc,
        (update_of_ne hid ..).trans hused⟩
  limit := by
    have hne : t.root ≠ child := fun hroot => hc (hroot ▸ t.root_mem)
    show Function.update t.alloc child units.toNat t.root ≤ b.hardLimit.toNat
    rw [update_of_ne hne]
    exact h.limit

theorem Represents.spend (h : Represents b t) (hr : b.reservations.lookup id = some r)
    (hfit : t.used id + t.handedOn id + amount.toNat ≤ t.alloc id) :
    Represents (b.insert id { r with consumedUnits := r.consumedUnits + amount })
      (t.spend id amount.toNat hfit) where
  nodes := by
    intro k
    show k ∈ t.nodes ↔ k ∈ b.reservations.insert id _
    rw [AList.mem_insert, h.nodes]
    refine ⟨.inr, ?_⟩
    rintro (rfl | hk)
    · exact (h.nodes k).mp (h.mem hr)
    · exact hk
  entry := by
    obtain ⟨hpar, halloc, hused⟩ := h.entry id r hr
    intro k rk hrk
    by_cases hk : k = id
    · subst hk
      rw [HierarchicalBudget.insert, AList.lookup_insert, some_inj] at hrk
      subst hrk
      refine ⟨hpar, halloc, (update_self ..).trans ?_⟩
      -- the charge was within what is left, so `+=` does not wrap
      have hbound := r.allocatedUnits.toNat_lt
      show t.used k + amount.toNat = (r.consumedUnits + amount).toNat
      rw [UInt64.toNat_add, Nat.mod_eq_of_lt (by omega), hused]
    · rw [HierarchicalBudget.insert, AList.lookup_insert_ne hk] at hrk
      obtain ⟨hpar', halloc', hused'⟩ := h.entry k rk hrk
      exact ⟨hpar', halloc', (update_of_ne hk ..).trans hused'⟩
  limit := h.limit

end

/-! ## Every run of calls -/

variable {b : HierarchicalBudget}

theorem LedgerInv.empty (h : LedgerInv b) (hroot : b.hasRoot = false) : b.reservations = ∅ := by
  rcases h with hempty | ⟨t, ht⟩
  · exact hempty
  · obtain ⟨r, hr⟩ := isSome_iff_exists.mp
      (AList.lookup_isSome.mpr ((ht.nodes t.root).mp t.root_mem))
    have hparent := (ht.entry _ r hr).1
    rw [t.root_parent] at hparent
    have hhas := (hasRoot_iff b).mpr ⟨t.root, r, hr, hparent.symm⟩
    rw [hroot] at hhas
    cases hhas

/-- **One call keeps the ledger a tree.** Registering a root starts one, reserving
and charging are the tree's own operations. -/
theorem apply_inv (h : LedgerInv b) (call : LedgerCall) : LedgerInv (call.apply b).1 := by
  cases call with
  | registerRoot root units =>
    rcases registerRoot_cases b root units with ⟨e, heq⟩ | ⟨hlimit, hroot, -, heq⟩
    · rwa [LedgerCall.apply, heq]
    · rw [LedgerCall.apply, heq]
      exact .inr ⟨_, represents_root (h.empty hroot) hlimit⟩
  | registerRootWithChild root rootUnits child units =>
    rcases registerRootWithChild_cases b root child rootUnits units with
      ⟨e, heq⟩ | ⟨hle, hne, -, -, hlimit, hroot, heq⟩
    · rwa [LedgerCall.apply, heq]
    · rw [LedgerCall.apply, heq]
      have ht : Represents (b.insert root ⟨root, none, rootUnits, 0⟩)
          (single root rootUnits.toNat) := represents_root (h.empty hroot) hlimit
      have hc : child ∉ (single root rootUnits.toNat).nodes :=
        fun hc => hne (mem_singleton.mp hc).symm
      have hfit : (single root rootUnits.toNat).used root +
          (single root rootUnits.toNat).handedOn root + units.toNat ≤
          (single root rootUnits.toNat).alloc root := by
        have hle' := le_iff_toNat_le.mp hle
        simpa [single, handedOn] using hle'
      exact .inr ⟨_, ht.reserve (mem_singleton_self root) hc hfit⟩
  | reserveChild parent child units =>
    rcases reserveChild_cases b parent child units with
      ⟨e, heq⟩ | ⟨hchild, hparent, ⟨m, hm, hle⟩, heq⟩
    · rwa [LedgerCall.apply, heq]
    · rcases h with hempty | ⟨t, ht⟩
      · rw [hempty] at hparent
        exact absurd hparent (AList.notMem_empty parent)
      · rw [LedgerCall.apply, heq]
        obtain ⟨r, hr⟩ := isSome_iff_exists.mp (AList.lookup_isSome.mpr hparent)
        exact .inr ⟨_, ht.reserve ((ht.nodes parent).mpr hparent)
          (fun hc => hchild ((ht.nodes child).mp hc)) (ht.fits hr hm hle)⟩
  | charge id amount =>
    rcases charge_cases b id amount with ⟨e, heq⟩ | ⟨r, m, hr, hm, hle, heq⟩
    · rwa [LedgerCall.apply, heq]
    · rcases h with hempty | ⟨t, ht⟩
      · rw [hempty] at hr
        cases hr
      · rw [LedgerCall.apply, heq]
        exact .inr ⟨_, ht.spend hr (ht.fits hr hm hle)⟩

theorem apply_hardLimit (b : HierarchicalBudget) (call : LedgerCall) :
    (call.apply b).1.hardLimit = b.hardLimit := by
  cases call with
  | registerRoot root units =>
    rcases registerRoot_cases b root units with ⟨e, heq⟩ | ⟨-, -, -, heq⟩ <;>
      rw [LedgerCall.apply, heq]
    rfl
  | registerRootWithChild root rootUnits child units =>
    rcases registerRootWithChild_cases b root child rootUnits units with
      ⟨e, heq⟩ | ⟨-, -, -, -, -, -, heq⟩ <;> rw [LedgerCall.apply, heq]
    rfl
  | reserveChild parent child units =>
    rcases reserveChild_cases b parent child units with ⟨e, heq⟩ | ⟨-, -, -, heq⟩ <;>
      rw [LedgerCall.apply, heq]
    rfl
  | charge id amount =>
    rcases charge_cases b id amount with ⟨e, heq⟩ | ⟨r, m, -, -, -, heq⟩ <;>
      rw [LedgerCall.apply, heq]
    rfl

/-- **Every run of calls keeps the ledger a tree**, under the limit it started with. -/
theorem runCalls_inv (h : LedgerInv b) (calls : List LedgerCall) :
    LedgerInv (runCalls b calls) ∧ (runCalls b calls).hardLimit = b.hardLimit := by
  induction calls generalizing b with
  | nil => exact ⟨h, rfl⟩
  | cons call calls ih =>
    obtain ⟨hinv, hlimit⟩ := ih (apply_inv h call)
    exact ⟨hinv, hlimit.trans (apply_hardLimit b call)⟩

def ParentLink (b : HierarchicalBudget) (child parent : CapabilityGrantId) : Prop :=
  ∃ r, b.reservations.lookup child = some r ∧ r.parentGrantId = some parent ∧
    parent ∈ b.reservations

/-- What the ledger guarantees about itself, with every sum taken in `ℕ`. -/
structure Conserved (b : HierarchicalBudget) : Prop where
  /-- A grant's own consumption and its direct children's allocations fit its own. -/
  within : ∀ id r, b.reservations.lookup id = some r →
    r.consumedUnits.toNat + b.childrenAllocated id ≤ r.allocatedUnits.toNat
  /-- Neither the children's sum nor the sum with the consumption wraps. -/
  noOverflow : ∀ id r, b.reservations.lookup id = some r →
    (b.childrenReserved id).toNat = b.childrenAllocated id ∧
      r.consumedUnits.toNat + b.childrenAllocated id < 2 ^ 64
  /-- `remaining` answers for every registered grant. -/
  remaining : ∀ id r, b.reservations.lookup id = some r → ∃ m, b.remaining id = some m ∧
      m.toNat = r.allocatedUnits.toNat - (r.consumedUnits.toNat + b.childrenAllocated id)
  /-- Nor does the `+=` of a charge that is let through. -/
  chargeFits : ∀ id r amount, b.reservations.lookup id = some r →
    (b.charge id amount).2 = .ok () → r.consumedUnits.toNat + amount.toNat < 2 ^ 64
  /-- One root, reached from every grant through registered parents, and holding
  everything that was consumed. -/
  tree : b.reservations = ∅ ∨ ∃ root r, b.reservations.lookup root = some r ∧
    r.parentGrantId = none ∧
    (∀ id r', b.reservations.lookup id = some r' → r'.parentGrantId = none → id = root) ∧
    (∀ id, id ∈ b.reservations → Relation.ReflTransGen (ParentLink b) id root) ∧
    b.totalConsumed ≤ r.allocatedUnits.toNat
  total : b.totalConsumed ≤ b.hardLimit.toNat

theorem Represents.conserved {t : AllocTree CapabilityGrantId} (h : Represents b t) :
    Conserved b := by
  have hwithin : ∀ id r, b.reservations.lookup id = some r →
      r.consumedUnits.toNat + b.childrenAllocated id ≤ r.allocatedUnits.toNat := by
    intro id r hr
    obtain ⟨-, halloc, hused⟩ := h.entry id r hr
    rw [h.childrenAllocated, ← halloc, ← hused]
    exact t.used_add_handedOn_le (h.mem hr)
  have htotal : b.totalConsumed ≤ t.alloc t.root := by
    rw [h.totalConsumed]
    exact t.sum_used_le_root
  obtain ⟨root, hroot⟩ := isSome_iff_exists.mp
    (AList.lookup_isSome.mpr ((h.nodes t.root).mp t.root_mem))
  obtain ⟨hparent, halloc, -⟩ := h.entry t.root root hroot
  refine ⟨hwithin, ?_, ?_, ?_, .inr ⟨t.root, root, hroot, ?_, ?_, ?_, ?_⟩, ?_⟩
  · intro id r hr
    have hbound := r.allocatedUnits.toNat_lt
    refine ⟨(h.childrenReserved hr).trans (h.childrenAllocated id).symm, ?_⟩
    exact (hwithin id r hr).trans_lt hbound
  · intro id r hr
    obtain ⟨m, hm, hleft⟩ := h.remaining hr
    obtain ⟨-, halloc, hused⟩ := h.entry id r hr
    refine ⟨m, hm, ?_⟩
    rw [h.childrenAllocated, ← halloc, ← hused]
    omega
  · intro id r amount hr hok
    rcases charge_cases b id amount with ⟨e, heq⟩ | ⟨r', m, hr', hm, hle, -⟩
    · rw [heq] at hok
      cases hok
    · have hfit := h.fits hr hm hle
      obtain ⟨-, halloc, hused⟩ := h.entry id r hr
      have hbound := r.allocatedUnits.toNat_lt
      omega
  · exact hparent.symm.trans t.root_parent
  · intro id r' hr' hnone
    refine t.only_root id (h.mem hr') ?_
    rw [(h.entry id r' hr').1]
    exact hnone
  · intro id hid
    -- a link of the tree is a link of the ledger
    refine Relation.ReflTransGen.mono (fun a c hac => ?_) _ _ (t.reaches id ((h.nodes id).mpr hid))
    obtain ⟨ha, hc, hpar⟩ := hac
    obtain ⟨r, hr⟩ := isSome_iff_exists.mp (AList.lookup_isSome.mpr ((h.nodes a).mp ha))
    exact ⟨r, hr, (h.entry a r hr).1.symm.trans hpar, (h.nodes c).mp hc⟩
  · rw [← halloc]
    exact htotal
  · exact htotal.trans h.limit

theorem LedgerInv.conserved (h : LedgerInv b) : Conserved b := by
  rcases h with hempty | ⟨t, ht⟩
  · -- nothing is registered, so there is nothing to say about any grant
    have hnone : ∀ id r, b.reservations.lookup id ≠ some r := by
      intro id r
      rw [hempty, AList.lookup_empty]
      exact nofun
    have hzero : b.totalConsumed = 0 := by
      rw [totalConsumed, values, hempty]
      rfl
    exact {
      within := fun id r hr => absurd hr (hnone id r)
      noOverflow := fun id r hr => absurd hr (hnone id r)
      remaining := fun id r hr => absurd hr (hnone id r)
      chargeFits := fun id r _ hr => absurd hr (hnone id r)
      tree := .inl hempty
      total := by rw [hzero]; exact Nat.zero_le _ }
  · exact ht.conserved

/-- **Budget conservation.** Whatever is called on a new ledger: every reservation stays within
its allocation, no sum wraps, the parent links are one tree, the whole consumes at most what the
root holds and the hard limit, and a refused call changes nothing. -/
theorem ledger_conserved (hardLimit : UInt64) (calls : List LedgerCall) :
    let b := runCalls (HierarchicalBudget.new hardLimit) calls
    Conserved b ∧ b.hardLimit = hardLimit ∧
      ∀ (call : LedgerCall) e, (call.apply b).2 = .error e → (call.apply b).1 = b := by
  have hnew : LedgerInv (HierarchicalBudget.new hardLimit) := .inl rfl
  obtain ⟨hinv, hlimit⟩ := runCalls_inv hnew calls
  exact ⟨hinv.conserved, hlimit, fun call e he => apply_error _ he⟩

end Vestrace.Security
