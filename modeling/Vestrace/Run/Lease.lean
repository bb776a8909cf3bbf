import Vestrace.Run.Coordinator

/-!
# Run leases and their generations

A lease is fenced by its generation: a worker that has lost the run must not be taken for
the one that has it now. But `release` deletes the row and the count with it; and `heartbeat` asks
whether the lease has run out at the time the caller's own copy of it says.
-/

namespace Vestrace.Run

open Lib List

namespace RunDb

variable (db : RunDb)

def holds (context : RequestContext) (lease : RunLease) (held : RunLeaseRow) : Bool :=
  held.workspaceId == context.workspaceId && held.lease.workerId == lease.workerId &&
    held.lease.generation == lease.generation

/-- `heartbeat`. The time it writes and compares with is the one in the caller's lease. -/
def heartbeat (context : RequestContext) (lease : RunLease) (extendUntil : Timestamp) :
    AppResult (RunLease × RunDb) := do
  let held ← okOr (db.lease.filter fun held =>
      holds context lease held && decide (lease.heartbeatAt < held.lease.leaseUntil))
    (.conflict "lease lost")
  let row := { held.lease with heartbeatAt := lease.heartbeatAt, leaseUntil := extendUntil }
  return ({ row with runId := lease.runId }, { db with lease := some ⟨held.workspaceId, row⟩ })

end RunDb

/-- The calls on a run's lease. A heartbeat comes with the time at which it is made, which
the port is not told. -/
inductive LeaseCall where
  | acquire (context : RequestContext) (runId : AgentRunId) (workerId : WorkerId)
      (now leaseUntil : Timestamp)
  | heartbeat (context : RequestContext) (lease : RunLease) (extendUntil at_ : Timestamp)
  | release (context : RequestContext) (lease : RunLease)
  deriving DecidableEq, Repr

namespace LeaseCall

def exec (db : RunDb) : LeaseCall → RunDb
  | acquire context runId workerId now leaseUntil =>
    (transact (fun db => db.acquire context runId workerId now leaseUntil) db).2
  | heartbeat context lease extendUntil _ =>
    (transact (fun db => db.heartbeat context lease extendUntil) db).2
  | release context lease => (transact (fun db => db.release context lease) db).2

def granted (db : RunDb) : LeaseCall → Option ℕ
  | acquire context runId workerId now leaseUntil =>
    (db.acquire context runId workerId now leaseUntil).toOption.map fun result =>
      result.1.generation
  | _ => none

def run (db : RunDb) (calls : List LeaseCall) : RunDb := calls.foldl exec db

def generations (db : RunDb) : List LeaseCall → List ℕ
  | [] => []
  | call :: calls => (call.granted db).toList ++ generations (call.exec db) calls

theorem run_snoc (db : RunDb) (calls : List LeaseCall) (call : LeaseCall) :
    run db (calls ++ [call]) = call.exec (run db calls) := by
  rw [run, foldl_append]
  rfl

theorem generations_snoc (db : RunDb) (calls : List LeaseCall) (call : LeaseCall) :
    generations db (calls ++ [call]) =
      generations db calls ++ (call.granted (run db calls)).toList := by
  induction calls generalizing db with
  | nil => exact append_nil _
  | cons head calls ih =>
    rw [cons_append, generations, generations, ih, append_assoc]
    rfl

def Careful (db : RunDb) (earlier : List LeaseCall) : LeaseCall → Prop
  | acquire .. => generations db earlier = [] ∨ (run db earlier).lease.isSome = true
  | heartbeat _ lease _ at_ => at_ ≤ lease.heartbeatAt
  | release .. => True

end LeaseCall

section

open LeaseCall

variable {db db' : RunDb} {ctx : RequestContext} {lease : RunLease} {workerId : WorkerId}

theorem acquire_ok {runId : AgentRunId} {now leaseUntil : Timestamp}
    (h : db.acquire ctx runId workerId now leaseUntil = .ok (lease, db')) :
    lease.generation = (db.lease.map fun held => held.lease.generation).getD 0 + 1 ∧
      db'.lease = some ⟨ctx.workspaceId, lease⟩ := by
  simp only [RunDb.acquire, bind_eq_ok, pure_eq_ok, Prod.mk.injEq] at h
  obtain ⟨_, -, rfl, rfl⟩ := h
  exact ⟨rfl, rfl⟩

theorem heartbeat_ok {extendUntil : Timestamp} {renewed : RunLease}
    (h : db.heartbeat ctx lease extendUntil = .ok (renewed, db')) :
    ∃ held, db.lease = some held ∧ RunDb.holds ctx lease held = true ∧
      lease.heartbeatAt < held.lease.leaseUntil ∧
      ∃ row : RunLease, db'.lease = some ⟨held.workspaceId, row⟩ ∧
        row.generation = held.lease.generation := by
  simp only [RunDb.heartbeat, bind_eq_ok, okOr_eq_ok, pure_eq_ok, Prod.mk.injEq,
    Option.filter_eq_some_iff, Bool.and_eq_true, decide_eq_true_eq] at h
  obtain ⟨held, ⟨hheld, hholds, hlive⟩, -, rfl⟩ := h
  exact ⟨held, hheld, hholds, hlive, _, rfl, rfl⟩

def Accepted (db : RunDb) (workerId : WorkerId) (generation : ℕ) : Prop :=
  ∃ context lease, lease.workerId = workerId ∧ lease.generation = generation ∧
    ((∃ extendUntil result, db.heartbeat context lease extendUntil = .ok result) ∨
      ∃ result, db.release context lease = .ok result)

theorem Accepted.held {generation : ℕ} (h : Accepted db workerId generation) :
    ∃ held, db.lease = some held ∧ held.lease.workerId = workerId ∧
      held.lease.generation = generation := by
  obtain ⟨ctx, lease, rfl, rfl, haccepted⟩ := h
  have hholds : ∃ held, db.lease = some held ∧ RunDb.holds ctx lease held = true := by
    rcases haccepted with ⟨extendUntil, result, hok⟩ | ⟨result, hok⟩
    · obtain ⟨held, hheld, hholds, -⟩ := heartbeat_ok hok
      exact ⟨held, hheld, hholds⟩
    · simp only [RunDb.release, bind_eq_ok, refuse_eq_ok, exists_const] at hok
      obtain ⟨hheld, -⟩ := hok
      cases hlease : db.lease with
      | none =>
        rw [hlease] at hheld
        exact absurd rfl hheld
      | some held =>
        rw [hlease, Option.all_some, Bool.not_eq_true', Bool.not_eq_false] at hheld
        exact ⟨held, rfl, hheld⟩
  obtain ⟨held, hheld, hholds⟩ := hholds
  simp only [RunDb.holds, Bool.and_eq_true, beq_iff_eq] at hholds
  exact ⟨held, hheld, hholds.1.2, hholds.2⟩

structure Fenced (db : RunDb) (generations : List ℕ) : Prop where
  grow : generations.Pairwise (· < ·)
  last : ∀ held, db.lease = some held → ∀ generation ∈ generations,
    generation ≤ held.lease.generation

theorem Fenced.exec {generations : List ℕ} {call : LeaseCall} (h : Fenced db generations)
    (hcareful : ∀ ctx runId workerId now leaseUntil,
      call = .acquire ctx runId workerId now leaseUntil →
        generations = [] ∨ db.lease.isSome = true) :
    Fenced (call.exec db) (generations ++ (call.granted db).toList) := by
  cases call with
  | acquire ctx runId workerId now leaseUntil =>
    simp only [LeaseCall.exec, granted, transact]
    cases hok : db.acquire ctx runId workerId now leaseUntil with
    | error e =>
      refine ⟨?_, ?_⟩
      · rw [show (Except.error e : Except _ (RunLease × RunDb)).toOption = none from rfl]
        simpa using h.grow
      · rw [show (Except.error e : Except _ (RunLease × RunDb)).toOption = none from rfl]
        simpa using h.last
    | ok result =>
      obtain ⟨lease, db'⟩ := result
      obtain ⟨hgeneration, hlease⟩ := acquire_ok hok
      have hlt : ∀ generation ∈ generations, generation < lease.generation := by
        intro generation hmem
        rcases hcareful ctx runId workerId now leaseUntil rfl with hnone | hsome
        · rw [hnone] at hmem
          cases hmem
        · obtain ⟨held, hheld⟩ := Option.isSome_iff_exists.mp hsome
          have hle := h.last held hheld generation hmem
          rw [hheld] at hgeneration
          rw [hgeneration]
          exact Nat.lt_succ_of_le hle
      refine ⟨?_, ?_⟩
      · show (generations ++ [lease.generation]).Pairwise (· < ·)
        refine pairwise_append.mpr ⟨h.grow, pairwise_singleton _ _, ?_⟩
        intro a ha b hb
        rw [mem_singleton.mp hb]
        exact hlt a ha
      · show ∀ held, db'.lease = some held → ∀ generation ∈ generations ++ [lease.generation],
          generation ≤ held.lease.generation
        intro held hheld generation hmem
        rw [hlease] at hheld
        cases hheld
        rcases mem_append.mp hmem with hold | hnew
        · exact (hlt generation hold).le
        · exact (mem_singleton.mp hnew).le
  | heartbeat ctx lease extendUntil at_ =>
    show Fenced _ (generations ++ [])
    rw [append_nil]
    refine transact_state (Q := fun db' => Fenced db' generations) h fun renewed db' hok => ?_
    obtain ⟨held, hheld, -, -, row, hlease, hrow⟩ := heartbeat_ok hok
    refine ⟨h.grow, fun held' hheld' generation hmem => ?_⟩
    rw [hlease] at hheld'
    cases hheld'
    rw [hrow]
    exact h.last held hheld generation hmem
  | release ctx lease =>
    show Fenced _ (generations ++ [])
    rw [append_nil]
    refine transact_state (Q := fun db' => Fenced db' generations) h fun u db' hok => ?_
    simp only [RunDb.release, bind_eq_ok, pure_eq_ok, Prod.mk.injEq] at hok
    obtain ⟨_, -, -, rfl⟩ := hok
    refine ⟨h.grow, fun held hheld => ?_⟩
    cases hheld

theorem fenced_run (hstart : db.lease = none) {calls : List LeaseCall}
    (hcareful : ∀ earlier call later, calls = earlier ++ call :: later → call.Careful db earlier) :
    Fenced (run db calls) (generations db calls) := by
  induction calls using List.reverseRecOn with
  | nil =>
    refine ⟨List.Pairwise.nil, fun held hheld => ?_⟩
    have hnone : db.lease = some held := hheld
    rw [hstart] at hnone
    cases hnone
  | append_singleton calls call ih =>
    rw [run_snoc, generations_snoc]
    refine (ih fun earlier call' later heq => ?_).exec ?_
    · refine hcareful earlier call' (later ++ [call]) ?_
      rw [heq, append_assoc, cons_append]
    · intro ctx runId workerId now leaseUntil hcall
      have hmade := hcareful calls call [] rfl
      rw [hcall] at hmade
      exact hmade

/-- **Run-lease fencing.** If every acquire but the first finds the row of the last lease, and no
heartbeat carries an earlier time than its own, then one worker and generation are accepted at a
time, generations grow, and no heartbeat renews a lease that has run out. -/
theorem lease_fencing (hstart : db.lease = none) {calls : List LeaseCall}
    (hcareful : ∀ earlier call later, calls = earlier ++ call :: later → call.Careful db earlier) :
    (∀ workerId workerId' generation generation', Accepted (run db calls) workerId generation →
      Accepted (run db calls) workerId' generation' →
        workerId = workerId' ∧ generation = generation') ∧
    (generations db calls).Pairwise (· < ·) ∧
    ∀ earlier context lease extendUntil at_ later,
      calls = earlier ++ .heartbeat context lease extendUntil at_ :: later →
      ∀ result held, (run db earlier).heartbeat context lease extendUntil = .ok result →
        (run db earlier).lease = some held → at_ < held.lease.leaseUntil := by
  refine ⟨?_, (fenced_run hstart hcareful).grow, ?_⟩
  · intro workerId workerId' generation generation' haccepted haccepted'
    obtain ⟨held, hheld, rfl, rfl⟩ := haccepted.held
    obtain ⟨held', hheld', rfl, rfl⟩ := haccepted'.held
    rw [hheld] at hheld'
    cases hheld'
    exact ⟨rfl, rfl⟩
  · intro earlier context lease extendUntil at_ later hcalls result held hok hheld
    have htime : at_ ≤ lease.heartbeatAt := hcareful earlier _ later hcalls
    obtain ⟨held', hheld', -, hlive, -⟩ := heartbeat_ok hok
    rw [hheld] at hheld'
    cases hheld'
    exact Int.lt_of_le_of_lt htime hlive

end

/-! Two workers, and leases of ten ticks. -/

def firstLease : RunLease := ⟨⟨1⟩, ⟨1⟩, 1, 0, 0, 10⟩

/-- The first worker takes the run and gives it back; the second takes it. -/
def handedOver : List LeaseCall :=
  [.acquire reportContext ⟨1⟩ ⟨1⟩ 0 10, .release reportContext firstLease,
    .acquire reportContext ⟨1⟩ ⟨2⟩ 5 15]

/-- Both get generation 1. And a worker whose lease ran out at 10 renews it at 100, since the
lease it carries says that it is still 0. -/
theorem generation_repeats_and_lapsed_lease_revives :
    LeaseCall.generations .empty handedOver = [1, 1] ∧
    (LeaseCall.run .empty [.acquire reportContext ⟨1⟩ ⟨1⟩ 0 10]).lease = some ⟨⟨1⟩, firstLease⟩ ∧
    (LeaseCall.run .empty [.acquire reportContext ⟨1⟩ ⟨1⟩ 0 10,
      .heartbeat reportContext firstLease 110 100]).lease =
      some ⟨⟨1⟩, { firstLease with leaseUntil := 110 }⟩ :=
  ⟨rfl, rfl, rfl⟩

/-- The first worker renews its lease in time and lets it run out; the second takes over. -/
def takenOver : List LeaseCall :=
  [.acquire reportContext ⟨1⟩ ⟨1⟩ 0 10,
    .heartbeat reportContext { firstLease with heartbeatAt := 5 } 15 5,
    .acquire reportContext ⟨1⟩ ⟨2⟩ 20 30]

theorem lease_fencing_takenOver : LeaseCall.generations .empty takenOver = [1, 2] ∧
      (LeaseCall.generations .empty takenOver).Pairwise (· < ·) := by
  refine ⟨rfl, (lease_fencing rfl ?_).2.1⟩
  intro earlier call later hcalls
  match earlier, later, hcalls with
  | [], _, hcalls =>
    cases hcalls
    exact Or.inl rfl
  | [_], _, hcalls =>
    cases hcalls
    exact Int.le_refl 5
  | [_, _], _, hcalls =>
    cases hcalls
    exact Or.inr rfl
  | _ :: _ :: _ :: earlier, later, hcalls =>
    have hlength := congrArg List.length hcalls
    simp [takenOver] at hlength

end Vestrace.Run
