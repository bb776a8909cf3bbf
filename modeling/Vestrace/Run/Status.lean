import Vestrace.Lib.Guard
import Vestrace.Base

/-!
# Run statuses — the transition tables and the version counter

The two transition tables every writer of a run is checked against. Both `transition_to` start
with the same shortcut — staying put is always permitted — *before* they look at whether the status
is terminal.
-/

namespace Vestrace.Run

open Lib

/-! ## Versions -/

/-- The optimistic-concurrency counter: a `u64` that `next` refuses to wrap. -/
structure RunVersion where
  value : UInt64
  deriving DecidableEq, Repr

namespace RunVersion

def zero : RunVersion := ⟨0⟩

def initial : RunVersion := ⟨1⟩

def toNat (v : RunVersion) : ℕ := v.value.toNat

def debug (v : RunVersion) : String := "RunVersion(" ++ toString v.toNat ++ ")"

def next (v : RunVersion) : Except DomainError RunVersion :=
  if v.toNat + 1 < 2 ^ 64 then .ok ⟨v.value + 1⟩
  else .error (.invalidArgument "run version overflow")

def previous (v : RunVersion) : Except DomainError RunVersion :=
  if v.value ≤ 1 then .error (.invalidArgument "run version has no previous")
  else .ok ⟨v.value - 1⟩

theorem toNat_lt (v : RunVersion) : v.toNat < 2 ^ 64 := v.value.toNat_lt

variable {v w : RunVersion}

theorem toNat_inj : v.toNat = w.toNat ↔ v = w := by
  constructor
  · intro h
    cases v
    cases w
    exact congrArg RunVersion.mk (UInt64.toNat_inj.mp h)
  · exact fun h => congrArg toNat h

theorem next_eq_ok : v.next = .ok w ↔ w.toNat = v.toNat + 1 := by
  unfold next
  have hw := w.toNat_lt
  split
  next hlt =>
    have hadd : (v.value + 1).toNat = v.toNat + 1 := by
      rw [UInt64.toNat_add]
      exact Nat.mod_eq_of_lt hlt
    rw [Except.ok.injEq, ← toNat_inj]
    show (v.value + 1).toNat = w.toNat ↔ _
    rw [hadd]
    exact eq_comm
  next hge =>
    refine ⟨nofun, fun h => ?_⟩
    omega

theorem next_eq_error {e : DomainError} :
    v.next = .error e ↔ v.toNat + 1 = 2 ^ 64 ∧ e = .invalidArgument "run version overflow" := by
  unfold next
  have hv := v.toNat_lt
  split
  next hlt =>
    refine ⟨nofun, fun h => ?_⟩
    omega
  next hge =>
    rw [Except.error.injEq, eq_comm]
    exact ⟨fun h => ⟨by omega, h⟩, And.right⟩

theorem next_exists (h : v.toNat + 1 < 2 ^ 64) : ∃ w, v.next = .ok w := by
  cases hnext : v.next with
  | ok w => exact ⟨w, rfl⟩
  | error e =>
    have := next_eq_error.mp hnext
    omega

theorem previous_eq_ok : v.previous = .ok w ↔ 1 ≤ w.toNat ∧ v.toNat = w.toNat + 1 := by
  unfold previous
  have hone : (1 : UInt64).toNat = 1 := rfl
  split
  next hle =>
    rw [UInt64.le_iff_toNat_le, hone] at hle
    refine ⟨nofun, fun h => ?_⟩
    have hv : v.value.toNat = w.toNat + 1 := h.2
    omega
  next hgt =>
    rw [UInt64.not_le, UInt64.lt_iff_toNat_lt, hone] at hgt
    have hsub : (v.value - 1).toNat = v.toNat - 1 :=
      UInt64.toNat_sub_of_le _ _ (UInt64.le_iff_toNat_le.mpr (by omega))
    have hv : v.value.toNat = v.toNat := rfl
    rw [Except.ok.injEq, ← toNat_inj]
    show (v.value - 1).toNat = w.toNat ↔ _
    omega

end RunVersion

/-! ## Run statuses -/

inductive RunExecutionMode where
  | autopilot
  | supervised
  | manual
  deriving DecidableEq, Repr

inductive RunStatus where
  | created
  | preparing
  | running
  | waitingForInput
  | waitingForApproval
  | waitingForDependency
  | paused
  | pausedPolicyChanged
  | succeeded
  | succeededWithWarnings
  | partial_
  | failed
  | cancelled
  | expired
  deriving DecidableEq, Repr

namespace RunStatus

/-- The derived `Debug`, which is what error texts show. -/
def debug : RunStatus → String
  | created => "Created"
  | preparing => "Preparing"
  | running => "Running"
  | waitingForInput => "WaitingForInput"
  | waitingForApproval => "WaitingForApproval"
  | waitingForDependency => "WaitingForDependency"
  | paused => "Paused"
  | pausedPolicyChanged => "PausedPolicyChanged"
  | succeeded => "Succeeded"
  | succeededWithWarnings => "SucceededWithWarnings"
  | partial_ => "Partial"
  | failed => "Failed"
  | cancelled => "Cancelled"
  | expired => "Expired"

def isTerminal : RunStatus → Bool
  | succeeded | succeededWithWarnings | partial_ | failed | cancelled | expired => true
  | _ => false

def canPause : RunStatus → Bool
  | running | waitingForInput | waitingForApproval | waitingForDependency => true
  | _ => false

def canResume : RunStatus → Bool
  | paused | pausedPolicyChanged => true
  | _ => false

def isWaiting : RunStatus → Bool
  | waitingForInput | waitingForApproval | waitingForDependency => true
  | _ => false

/-- The transition table; a terminal status has no row. -/
def allowed : RunStatus → List RunStatus
  | created => [preparing, cancelled]
  | preparing => [running, waitingForInput, failed, cancelled]
  | running => [waitingForInput, waitingForApproval, waitingForDependency, paused,
      pausedPolicyChanged, succeeded, succeededWithWarnings, partial_, failed, cancelled]
  | waitingForInput => [running, paused, cancelled, expired]
  | waitingForApproval => [running, paused, cancelled, expired]
  | waitingForDependency => [running, paused, failed, cancelled, expired]
  | paused => [running, cancelled, expired]
  | pausedPolicyChanged => [running, cancelled, expired]
  | _ => []

def transitionTo (self next : RunStatus) : Except DomainError Unit :=
  if self = next then .ok ()
  else if self.isTerminal then
    .error (.invalidArgument ("cannot transition from terminal run status " ++ self.debug))
  else if next ∈ self.allowed then .ok ()
  else .error (.invalidArgument ("invalid run transition: " ++ self.debug ++ " -> " ++ next.debug))

theorem transitionTo_ok_iff {s n : RunStatus} :
    s.transitionTo n = .ok () ↔ s = n ∨ (s.isTerminal = false ∧ n ∈ s.allowed) := by
  unfold transitionTo
  split
  next h => simp [h]
  next h =>
    split
    next ht => simp [h, ht]
    next ht =>
      split
      next hn => simp [ht, hn]
      next hn => simp [h, hn]

theorem transitionTo_of_terminal {s n : RunStatus} (ht : s.isTerminal = true)
    (h : s.transitionTo n = .ok ()) : n = s := by
  rcases transitionTo_ok_iff.mp h with heq | ⟨hf, -⟩
  · exact heq.symm
  · rw [ht] at hf
    cases hf

variable {s : RunStatus}

theorem isTerminal_of_isWaiting (h : s.isWaiting = true) : s.isTerminal = false := by
  cases s <;> first | rfl | cases h

theorem isTerminal_of_canPause (h : s.canPause = true) : s.isTerminal = false := by
  cases s <;> first | rfl | cases h

theorem canPause_iff : s.canPause = true ↔ s = .running ∨ s.isWaiting = true := by
  cases s <;> simp [canPause, isWaiting]

theorem canResume_iff : s.canResume = true ↔ s = .paused ∨ s = .pausedPolicyChanged := by
  cases s <;> simp [canResume]

end RunStatus

/-! ## Step statuses -/

inductive RunStepStatus where
  | pending
  | ready
  | running
  | waiting
  | succeeded
  | failed
  | cancelled
  | skipped
  | unknown
  deriving DecidableEq, Repr

namespace RunStepStatus

def debug : RunStepStatus → String
  | pending => "Pending"
  | ready => "Ready"
  | running => "Running"
  | waiting => "Waiting"
  | succeeded => "Succeeded"
  | failed => "Failed"
  | cancelled => "Cancelled"
  | skipped => "Skipped"
  | unknown => "Unknown"

def isTerminal : RunStepStatus → Bool
  | succeeded | failed | cancelled | skipped => true
  | _ => false

/-- The transition table; a terminal status has no row. -/
def allowed : RunStepStatus → List RunStepStatus
  | pending => [ready, skipped, cancelled]
  | ready => [running, skipped, cancelled]
  | running => [waiting, succeeded, failed, cancelled, unknown]
  | waiting => [ready, running, failed, cancelled, unknown]
  | unknown => [waiting, succeeded, failed, cancelled]
  | _ => []

def transitionTo (self next : RunStepStatus) : Except DomainError Unit :=
  if self = next then .ok ()
  else if self.isTerminal then
    .error (.invalidArgument ("cannot transition from terminal step status " ++ self.debug))
  else if next ∈ self.allowed then .ok ()
  else .error (.invalidArgument ("invalid step transition: " ++ self.debug ++ " -> " ++ next.debug))

end RunStepStatus

end Vestrace.Run
