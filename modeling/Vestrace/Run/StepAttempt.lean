import Mathlib.Logic.Relation
import Vestrace.Base
import Vestrace.Lib.Guard

/-!
# The provider attempt of a run step

The attempt at a step (migration 0186), the result that is prepared for it and its publication
(0184), as the dispatch and the result repositories call them. Mirroring notes:

- the tables are those of one step; `run_step_execution_attempts` has a unique key for it;
- a preparation is in state `published` when its publication is there: one call writes both;
- what a call finds in other tables (admission, leases, dispatch and loss transitions, receipts,
  the identities of a replay) is an argument of the call, and every answer is possible.
-/

namespace Vestrace.Provider

open Lib Relation

inductive Phase where
  | reserved | admitted | dispatching | resultPrepared | published | unknown
  deriving DecidableEq, Repr

namespace Phase

def moveFrom (before target : Phase) (replays : List Phase) (message : String) (current : Phase) :
    Except String Phase :=
  if current = before then .ok target else if current ∈ replays then .ok current else .error message

def move : Phase → Phase → Except String Phase
  | admitted => moveFrom reserved admitted [admitted, dispatching]
      "run step execution attempt admitted replay is not lawful"
  | dispatching => moveFrom admitted dispatching [dispatching]
      "run step execution attempt dispatching replay is not lawful"
  | resultPrepared => moveFrom dispatching resultPrepared [resultPrepared]
      "run step execution attempt result-prepared replay is not lawful"
  | published => moveFrom resultPrepared published [published]
      "run step execution attempt published replay is not lawful"
  | unknown => moveFrom dispatching unknown [unknown]
      "run step execution attempt unknown replay is not lawful"
  | reserved => fun _ => .error "run step execution attempt transition arguments are malformed"

/-- The moves of an attempt. Two phases are final. -/
def next : Phase → List Phase
  | reserved => [admitted]
  | admitted => [dispatching]
  | dispatching => [resultPrepared, unknown]
  | resultPrepared => [published]
  | published | unknown => []

def Reaches : Phase → Phase → Prop :=
  ReflTransGen fun p q => q ∈ p.next

theorem Reaches.final {p q : Phase} (h : Reaches p q) (hfinal : p.next = []) : q = p := by
  rcases h.cases_head with rfl | ⟨r, hr, -⟩
  · rfl
  · cases hfinal ▸ hr

theorem move_eq_ok {target current after : Phase} (h : move target current = .ok after) :
    Reaches current after ∧ (after = published ↔ target = published) ∧
      (current = published → target = published) := by
  have hmoved : after = current ∨ after ∈ current.next := by
    revert h
    cases target <;> cases current <;> simp +contextual [move, moveFrom, next, eq_comm]
  refine ⟨?_, ?_⟩
  · rcases hmoved with rfl | hnext
    · exact .refl
    · exact .single hnext
  · revert h
    cases target <;> cases current <;> simp +contextual [move, moveFrom, eq_comm]

end Phase

structure Reservation where
  (attemptId snapshotId inputIntentId inputMaterialId inputKeyId inputNonce : Uuid)
  (inputAttachmentId evidenceId : Uuid)
  effectId : ExternalEffectId
  deriving DecidableEq, Repr

/-- `RunStepAttemptRow`. -/
structure Attempt where
  reservation : Reservation
  phase : Phase

structure StepTables where
  attempt : Option Attempt
  preparations : List ExternalEffectId
  publications : List ExternalEffectId

structure Elsewhere where
  call : Except String Unit
  transition : Phase → Except String Unit

def conflict : String := "PROVIDER_RESULT_CONFLICT"

def refused : String := "RUN_STEP_ATTEMPT_RECOVERY_REFUSED"

namespace StepTables

variable (s : StepTables) (found : Elsewhere)

def reserve (r : Reservation) : Except String StepTables := do
  found.call
  match s.attempt with
  | some attempt =>
    refuse (attempt.reservation ≠ r)
      "run step execution attempt identity conflicts with its existing tuple"
    return s
  | none => return { s with attempt := some ⟨r, .reserved⟩ }

def transition (target : Phase) : Except String StepTables := do
  let attempt ← okOr s.attempt "run step execution attempt is absent"
  let effect := attempt.reservation.effectId
  found.transition target
  refuse (target = .resultPrepared ∧ (effect ∉ s.preparations ∨ effect ∈ s.publications))
    "run step execution attempt result preparation is not exact"
  refuse (target = .published ∧ (effect ∉ s.preparations ∨ effect ∉ s.publications))
    "run step execution attempt publication is not exact"
  let phase ← Phase.move target attempt.phase
  return { s with attempt := some { attempt with phase } }

def prepareDispatch : Except String StepTables := do
  let admitted ← s.transition found .admitted
  admitted.transition found .dispatching

/-- `prepare_inner`: with a dispatch authority the attempt moves along. -/
def prepare (authority : Option ExternalEffectId) (effect : ExternalEffectId) :
    Except String StepTables := do
  refuse (∃ other ∈ authority, other ≠ effect) conflict
  found.call
  let next := { s with preparations := s.preparations.insert effect }
  if authority.isSome then next.transition found .resultPrepared else return next

def finalize (effect : ExternalEffectId) : Except String StepTables := do
  let attempt ← okOr s.attempt conflict
  refuse (attempt.reservation.effectId ≠ effect ∨ effect ∉ s.preparations ∨
    (attempt.phase ≠ .resultPrepared ∧ attempt.phase ≠ .published)) conflict
  found.call
  let next := { s with publications := s.publications.insert effect }
  next.transition found .published

def recover (expired : Bool) : Except String StepTables := do
  let attempt ← okOr s.attempt refused
  refuse (¬ (attempt.phase ∈ [.resultPrepared, .published] ↔
    attempt.reservation.effectId ∈ s.preparations)) refused
  found.call
  if attempt.phase = .dispatching ∧ expired = true then s.transition found .unknown else return s

/-- The calls. The completion after the network and its recovery write none of these rows. -/
inductive Call where
  | reserve (r : Reservation)
  | prepareDispatch
  | prepare (authority : Option ExternalEffectId) (effect : ExternalEffectId)
  | finalize (effect : ExternalEffectId)
  | recover (expired : Bool)
  | postNetwork

def exec : Call → Except String StepTables
  | .reserve r => s.reserve found r
  | .prepareDispatch => s.prepareDispatch found
  | .prepare authority effect => s.prepare found authority effect
  | .finalize effect => s.finalize found effect
  | .recover expired => s.recover found expired
  | .postNetwork => .ok s

def commit (s : StepTables) (request : Elsewhere × Call) : StepTables :=
  ((s.exec request.1 request.2).toOption).getD s

def run (requests : List (Elsewhere × Call)) : StepTables :=
  requests.foldl commit ⟨none, [], []⟩

def outcome : List ExternalEffectId :=
  match s.attempt with
  | some a => if a.phase = .published then [a.reservation.effectId] else []
  | none => []

inductive Change (s t : StepTables) : Prop
  | same : t.attempt = s.attempt → t.publications = s.publications → Change s t
  | reserve (r : Reservation) : s.attempt = none → t.attempt = some ⟨r, .reserved⟩ →
      t.publications = s.publications → Change s t
  | move (a : Attempt) (phase : Phase) : s.attempt = some a → t.attempt = some { a with phase } →
      a.phase.Reaches phase → a.phase ≠ .published → phase ≠ .published →
      t.publications = s.publications → Change s t
  | publish (a : Attempt) : s.attempt = some a → a.phase = .resultPrepared →
      t.attempt = some { a with phase := .published } →
      t.publications = a.reservation.effectId :: s.publications → Change s t

variable {s found} {t : StepTables} {target : Phase}

theorem transition_eq_ok (h : s.transition found target = .ok t) : ∃ a phase,
    s.attempt = some a ∧ Phase.move target a.phase = .ok phase ∧
      t = { s with attempt := some { a with phase } } := by
  obtain ⟨a, ha, h⟩ := bind_eq_ok.mp h
  obtain ⟨-, h⟩ := unit_bind_eq_ok.mp h
  obtain ⟨-, h⟩ := unit_bind_eq_ok.mp h
  obtain ⟨-, h⟩ := unit_bind_eq_ok.mp h
  obtain ⟨phase, hphase, h⟩ := bind_eq_ok.mp h
  exact ⟨a, phase, okOr_eq_ok.mp ha, hphase, (pure_eq_ok.mp h).symm⟩

theorem change_transition {preparations : List ExternalEffectId} (htarget : target ≠ .published)
    (h : { s with preparations }.transition found target = .ok t) : Change s t := by
  obtain ⟨a, phase, ha, hphase, rfl⟩ := transition_eq_ok h
  obtain ⟨hmoved, hpublished, hstood⟩ := Phase.move_eq_ok hphase
  exact .move a phase ha rfl hmoved (mt hstood htarget) (mt hpublished.mp htarget) rfl

theorem exec_change (hs : s.publications = s.outcome) {call : Call}
    (h : s.exec found call = .ok t) : Change s t := by
  cases call with
  | reserve r =>
    obtain ⟨-, h⟩ := unit_bind_eq_ok.mp h
    split at h
    · obtain ⟨-, h⟩ := unit_bind_eq_ok.mp h
      cases pure_eq_ok.mp h
      exact .same rfl rfl
    · next hnone =>
      cases pure_eq_ok.mp h
      exact .reserve r hnone rfl rfl
  | prepareDispatch =>
    obtain ⟨_, h₁, h⟩ := bind_eq_ok.mp h
    obtain ⟨a, middle, ha, hmiddle, rfl⟩ := transition_eq_ok h₁
    obtain ⟨_, phase, ⟨⟩, hphase, rfl⟩ := transition_eq_ok h
    obtain ⟨hfirst, -, hstood⟩ := Phase.move_eq_ok hmiddle
    obtain ⟨hsecond, hpublished, -⟩ := Phase.move_eq_ok hphase
    exact .move a phase ha rfl (hfirst.trans hsecond) (mt hstood nofun) (mt hpublished.mp nofun) rfl
  | prepare authority effect =>
    obtain ⟨-, h⟩ := unit_bind_eq_ok.mp h
    obtain ⟨-, h⟩ := unit_bind_eq_ok.mp h
    split at h
    · exact change_transition Phase.noConfusion h
    · cases pure_eq_ok.mp h
      exact .same rfl rfl
  | finalize effect =>
    obtain ⟨a, ha, h⟩ := bind_eq_ok.mp h
    obtain ⟨hrefused, h⟩ := unit_bind_eq_ok.mp h
    obtain ⟨-, h⟩ := unit_bind_eq_ok.mp h
    obtain ⟨b, phase, hb, hphase, rfl⟩ := transition_eq_ok h
    have hattempt : s.attempt = some a := okOr_eq_ok.mp ha
    cases hattempt.symm.trans hb
    cases (Phase.move_eq_ok hphase).2.1.mpr rfl
    have hnot := refuse_eq_ok.mp hrefused
    simp only [not_or, not_and_or, not_not] at hnot
    obtain ⟨rfl, -, hstands | hstands⟩ := hnot
    · refine .publish a hattempt hstands rfl (List.insert_of_not_mem ?_)
      simp [hs, outcome, hattempt, hstands]
    · -- a replay: the result is there
      refine .same ?_ (List.insert_of_mem ?_)
      · rw [hattempt, ← hstands]
      · simp [hs, outcome, hattempt, hstands]
  | recover expired =>
    obtain ⟨a, -, h⟩ := bind_eq_ok.mp h
    obtain ⟨-, h⟩ := unit_bind_eq_ok.mp h
    obtain ⟨-, h⟩ := unit_bind_eq_ok.mp h
    split at h
    · exact change_transition Phase.noConfusion h
    · cases pure_eq_ok.mp h
      exact .same rfl rfl
  | postNetwork =>
    cases h
    exact .same rfl rfl

theorem commit_change (hs : s.publications = s.outcome) (request : Elsewhere × Call) :
    Change s (s.commit request) := by
  rw [commit]
  cases h : s.exec request.1 request.2 with
  | error e => exact .same rfl rfl
  | ok t => exact exec_change hs h

theorem Change.outcome (h : Change s t) (hs : s.publications = s.outcome) :
    t.publications = t.outcome := by
  cases h <;> simp_all [StepTables.outcome]

theorem run_outcome (requests : List (Elsewhere × Call)) :
    (run requests).publications = (run requests).outcome :=
  List.foldlRecOn (motive := fun s : StepTables => s.publications = s.outcome) requests commit rfl
    fun _ hs request _ => (commit_change hs request).outcome hs

/-- **A step's attempt has one outcome.** The attempt stays the one that was reserved and moves
along the phases only, and a call publishes exactly when it moves the attempt to `published`. -/
theorem attempt_outcome (requests : List (Elsewhere × Call)) (request : Elsewhere × Call) :
    let s := run requests
    let t := s.commit request
    (∀ a ∈ s.attempt, ∃ b ∈ t.attempt, b.reservation = a.reservation ∧
      a.phase.Reaches b.phase ∧ (a.phase.next = [] → b = a)) ∧
    s.publications = s.outcome ∧
    (t.publications ≠ s.publications ↔
      (∃ a ∈ s.attempt, a.phase = .resultPrepared) ∧ ∃ b ∈ t.attempt, b.phase = .published) := by
  intro s t
  have hs : s.publications = s.outcome := run_outcome requests
  have hchange : Change s t := commit_change hs request
  clear_value t s
  cases hchange with
  | same hattempt hpublications =>
    rw [hattempt, hpublications]
    refine ⟨fun a ha => ⟨a, ha, rfl, .refl, fun _ => rfl⟩, hs, iff_of_false (not_not.mpr rfl) ?_⟩
    rintro ⟨⟨a, ha, hstands⟩, b, hb, hpublished⟩
    cases Option.mem_unique ha hb
    cases hstands.symm.trans hpublished
  | reserve r hnone hattempt hpublications => simp [hnone, hattempt, hpublications, hs]
  | move a phase ha hb hmoved hne hne' hpublications =>
    have hfinal (h : a.phase.next = []) : { a with phase } = a := by rw [hmoved.final h]
    simpa [ha, hb, hmoved, hne', hpublications, hs] using hfinal
  | publish a ha hstands hb hadded =>
    have hmoved : Phase.Reaches .resultPrepared .published := .single (by decide)
    simp [ha, hb, hstands, hadded, hs, hmoved, Phase.next]

end StepTables

end Vestrace.Provider
