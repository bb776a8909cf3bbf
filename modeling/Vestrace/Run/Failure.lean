import Vestrace.Lib.Amid
import Vestrace.Run.Coordinator

/-!
# What a failed transition leaves behind

`transition_run` checks the version twice: on the snapshot it loads, and again in the
commit. A transition to a terminal status cancels the run's queue in between, in a
transaction of its own. If another writer commits in the meantime, the transition fails
and the queue stays cancelled.
-/

namespace Vestrace.Run

open Lib

def NothingToClear (db : RunDb) : PortCall → Prop
  | .cancelForRun context runId at_ => ∀ row ∈ db.workItems,
      (db.sees context && (row.item.runId == runId && RunDb.cancellable at_ row)) = false
  | _ => True

/-- If this call is a commit, the store accepts it: the run is at the version before, and
nothing it inserts is there already. -/
def Acceptable (db : RunDb) : PortCall → Prop
  | .commit context commit => ∃ row, RunDb.Commits context db commit row
  | _ => True

theorem cancelForRun_state {context : RequestContext} {runId : AgentRunId}
    {db : RunDb} {at_ : Timestamp}
    (h : NothingToClear db (.cancelForRun context runId at_)) :
    (db.cancelForRun context runId at_).2 = db := by
  have hitems : db.workItems.map (fun row =>
      if (db.sees context && (row.item.runId == runId && RunDb.cancellable at_ row)) = true then
        { row with status := .cancelled, leaseOwner := none, leaseUntil := none } else row) =
      db.workItems := by
    conv_rhs => rw [← List.map_id db.workItems]
    refine List.map_congr_left fun row hrow => ?_
    rw [h row hrow]
    rfl
  show { db with workItems := db.workItems.map _ } = db
  rw [hitems]

section

variable {context : RequestContext} {Allowed : RunDb → PortCall → Prop}

/-- A commit is accepted, or changes nothing. -/
theorem commitRun_atomic (commit : CommitRun) :
    Prog.Atomic (P := runPorts) Allowed (commitRun context commit) := by
  intro db _
  cases hok : db.commitOn context commit with
  | ok result =>
    refine .inr ⟨result.1, ?_⟩
    show (transact (fun db : RunDb => db.commitOn context commit) db).1 = _
    rw [transact, hok]
  | error e =>
    refine .inl ⟨?_, trivial⟩
    show (transact (fun db : RunDb => db.commitOn context commit) db).2 = db
    rw [transact, hok]

theorem commitRun_sure (commit : CommitRun) :
    Prog.Sure (P := runPorts) Acceptable (commitRun context commit) := by
  intro db hallowed
  obtain ⟨row, hcommits⟩ := hallowed
  show ∃ committed, (transact (fun db : RunDb => db.commitOn context commit) db).1 = .ok committed
  rw [transact, RunDb.commitOn_ok.mpr ⟨row, hcommits, rfl, rfl⟩]
  exact ⟨_, rfl⟩

/-- What comes before the clearing changes nothing. -/
theorem transitionRunWith_atomic {command : TransitionRun} {extra : List WorkItem} {draw : Draw}
    (hclear : ∀ commit, Prog.Atomic (P := runPorts) Allowed (do
      cancelQueue context command.runId draw.at_
      commitRun context commit)) :
    Prog.Atomic (P := runPorts) Allowed (transitionRunWith context command extra draw) := by
  intro db _
  refine .inl ⟨rfl, ?_⟩
  show Prog.Atomic Allowed (((okOr (db.load context command.runId) _ :
    AppResult RunSnapshot) : RunProg RunSnapshot) >>= _)
  cases db.load context command.runId with
  | none => trivial
  | some snapshot =>
    show Prog.Atomic Allowed ((transitionRunCommit context snapshot command extra draw :
      RunProg CommitRun) >>= _)
    cases transitionRunCommit context snapshot command extra draw with
    | error e => trivial
    | ok commit =>
      by_cases hterminal : command.target.isTerminal = true
      · show Prog.Atomic Allowed (do
          if command.target.isTerminal then cancelQueue context command.runId draw.at_
          commitRun context commit)
        rw [if_pos hterminal]
        exact hclear commit
      · show Prog.Atomic Allowed (do
          if command.target.isTerminal then cancelQueue context command.runId draw.at_
          commitRun context commit)
        rw [if_neg hterminal]
        exact commitRun_atomic commit

/-- **A failed transition has no effect**, whatever others do meanwhile, if the queue has
nothing to cancel when it is cleared, or the commit is acceptable when it is made. A
transition to a status that is not terminal clears nothing. -/
theorem failed_transition_has_no_effect {τ : Type} {command : TransitionRun} {draw : Draw}
    {m m' : RunDb × τ} {turns : List (Turn RunDb τ)} {e : ApplicationError}
    (hcare : Prog.Within NothingToClear (transitionRun context command draw, m) turns ∨
      Prog.Within Acceptable (transitionRun context command draw, m) turns)
    (hfail : (transitionRun context command draw).amid m turns = (.ret (.error e), m')) :
    m' = without m turns := by
  rcases hcare with hnothing | haccept
  · refine Prog.Atomic.failed ?_ hnothing hfail
    refine transitionRunWith_atomic fun commit db hclear => .inl ⟨?_, commitRun_atomic commit⟩
    exact cancelForRun_state hclear
  · refine Prog.Atomic.failed ?_ haccept hfail
    exact transitionRunWith_atomic fun commit db _ => .inr (commitRun_sure commit)

end

/-! Steps are added while the run is being cancelled. -/

def abandonReport : TransitionRun :=
  ⟨none, ⟨1⟩, .initial, .cancelled, some (.cancelled none), .system, none⟩

def draftSteps : AddRunSteps := ⟨none, ⟨1⟩, .initial, [⟨⟨7⟩, none, .system, [], .none⟩], .system⟩

/-- The transition loads the run and clears its queue, the steps are added, and the
transition commits. -/
def overtaken : List (Turn RunDb Unit) :=
  [none, none,
    some fun m => (((addSteps reportContext draftSteps (drawAt 2)).run m.1).2, m.2), none]

set_option maxRecDepth 2000 in
/-- The call fails, and an item that would be ready without it is cancelled. -/
theorem failed_transition_clears_queue :
    ∃ created db, ReportCreated created db ∧
      ∃ message db', (transitionRun reportContext abandonReport (drawAt 3)).amid (db, ())
          overtaken = (.ret (.error (.conflict message)), (db', ())) ∧
        (db'.workItems.map (·.status)) = [.cancelled, .ready] ∧
        ((without (db, ()) overtaken).1.workItems.map (·.status)) = [.ready, .ready] :=
  ⟨_, _, rfl, _, _, rfl, rfl, rfl⟩

set_option maxRecDepth 2000 in
/-- The run's only item is in a worker's hands, so there is nothing to cancel. -/
theorem failed_transition_has_no_effect_leased :
    ∃ created db, ReportCreated created db ∧
      ∃ message m', (transitionRun reportContext abandonReport (drawAt 3)).amid
          ((db.leaseNext reportContext ⟨1⟩ ⟨1⟩ 1 60).2, ()) overtaken =
            (.ret (.error (.conflict message)), m') ∧
        m' = without ((db.leaseNext reportContext ⟨1⟩ ⟨1⟩ 1 60).2, ()) overtaken := by
  have hrun : ∃ created db, ReportCreated created db ∧
    Prog.Within NothingToClear (transitionRun reportContext abandonReport (drawAt 3),
      ((db.leaseNext reportContext ⟨1⟩ ⟨1⟩ 1 60).2, ())) overtaken ∧
    ∃ message m', (transitionRun reportContext abandonReport (drawAt 3)).amid
      ((db.leaseNext reportContext ⟨1⟩ ⟨1⟩ 1 60).2, ()) overtaken =
        (.ret (.error (.conflict message)), m') := by
    refine ⟨_, _, rfl, ⟨?_, ?_, ?_, ?_, trivial⟩, _, _, rfl⟩
    · intro _ c next hcall
      cases hcall
      trivial
    · intro _ c next hcall
      cases hcall
      show ∀ row ∈ _, _
      decide
    · nofun
    · intro _ c next hcall
      cases hcall
      trivial
  obtain ⟨created, db, hcreate, hwithin, message, m', hfail⟩ := hrun
  exact ⟨created, db, hcreate, message, m', hfail,
    failed_transition_has_no_effect (.inl hwithin) hfail⟩

end Vestrace.Run
