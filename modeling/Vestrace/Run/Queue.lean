import Vestrace.Run.Conduct

/-!
# The work queue under contention

A lease on a work item runs out so that an item outlives the worker it was handed to.
But a worker whose lease has run out need not have stopped: `complete` and `retry` ask
whether the item is leased, not by whom. And a lease is handed out again however often the item
was attempted before, only `retry` counts.
-/

namespace Vestrace.Run

open Lib RunWorld List RunDb World Job

variable {before after : List (Action Job)}

variable {w : RunWorld} {workerId : WorkerId} {memory : ℕ → Memory} {id : WorkItemId}
  {row row' : WorkItemRow} {l : Memory} {action : Action Job} {m : Made runPorts Job}

/-! ## What a call does to the rows -/

def WorkItemStatus.isOver : WorkItemStatus → Bool
  | completed | cancelled | deadLetter => true
  | ready | leased => false

inductive RowMove (db : RunDb) : PortCall → WorkItemRow → WorkItemRow → Prop
  | same (call : PortCall) (row : WorkItemRow) : RowMove db call row row
  | leased {context : RequestContext} {id : WorkItemId} {workerId : WorkerId}
      {now leaseUntil : Timestamp} {row : WorkItemRow} (hsees : db.sees context = true)
      (hid : row.item.id = id) (hleasable : leasable now row = true) :
      RowMove db (.leaseNext context id workerId now leaseUntil) row
        { row with
          status := .leased
          leaseOwner := some workerId
          leaseUntil := some leaseUntil
          item := attempted row.item }
  | completed {context : RequestContext} {item : WorkItem} {row : WorkItemRow}
      (hid : row.item.id = item.id) (hleased : row.status = .leased) :
      RowMove db (.complete context item) row
        { row with status := .completed, leaseOwner := none, leaseUntil := none }
  | retried {context : RequestContext} {item : WorkItem} {availableAt : Timestamp}
      {error : RunFailure} {row : WorkItemRow}
      (hid : row.item.id = item.id) (hleased : row.status = .leased) :
      RowMove db (.retry context item availableAt error) row
        { row with
          status := if row.maxAttempts ≤ row.item.attempt then .deadLetter else .ready
          item := { row.item with availableAt := availableAt }
          lastError := some error, leaseOwner := none, leaseUntil := none }
  | deadLettered {context : RequestContext} {item : WorkItem} {error : RunFailure}
      {row : WorkItemRow} :
      RowMove db (.deadLetter context item error) row
        { row with
          status := .deadLetter, lastError := some error, leaseOwner := none, leaseUntil := none }
  | cancelled {context : RequestContext} {runId : AgentRunId} {at_ : Timestamp}
      {row : WorkItemRow} :
      RowMove db (.cancelForRun context runId at_) row
        { row with status := .cancelled, leaseOwner := none, leaseUntil := none }

namespace RowMove

variable {db : RunDb} {call : PortCall}

theorem item_id (h : RowMove db call row row') : row'.item.id = row.item.id := by
  cases h <;> rfl

theorem leasable_not_over {now : Timestamp} (h : leasable now row = true) :
    row.status.isOver = false := by
  unfold leasable at h
  cases hstatus : row.status with
  | ready | leased => rfl
  | _ => simp [hstatus] at h

theorem stays_over (h : RowMove db call row row') (hover : row.status.isOver = true) :
    row'.status.isOver = true := by
  cases h with
  | same => exact hover
  | leased _ _ hleasable =>
    rw [leasable_not_over hleasable] at hover
    cases hover
  | completed => rfl
  | retried _ hleased =>
    rw [hleased] at hover
    cases hover
  | deadLettered | cancelled => rfl

end RowMove

def PortCall.adds : PortCall → List WorkItem
  | create _ built | commit _ built => built.workItems
  | _ => []

def RowsMove (db : RunDb) (call : PortCall) (rows : List WorkItemRow) : Prop :=
  ∃ move added, rows = db.workItems.map move ++ added.map readyRow ∧
    (∀ row, RowMove db call row (move row)) ∧ RunDb.Enqueueable db.workItems added ∧
    ∀ item ∈ added, item ∈ call.adds

section

variable {db : RunDb} {call : PortCall} {context : RequestContext} {i : ℕ}

theorem enqueueable_nil (rows : List WorkItemRow) : RunDb.Enqueueable rows [] :=
  ⟨List.Pairwise.nil, forall_mem_nil _⟩

theorem rowsMove_same : RowsMove db call db.workItems := by
  refine ⟨id, [], ?_, RowMove.same call, enqueueable_nil _, forall_mem_nil _⟩
  rw [map_id]
  exact (append_nil _).symm

theorem rowsMove_updateItems {where_ : WorkItemRow → Bool} {set : WorkItemRow → WorkItemRow}
    (hset : ∀ row, db.sees context = true → where_ row = true → RowMove db call row (set row)) :
    RowsMove db call (db.updateItems context where_ set).2.workItems := by
  refine ⟨fun row => if (db.sees context && where_ row) = true then set row else row, [],
    (append_nil _).symm, fun row => ?_, enqueueable_nil _, forall_mem_nil _⟩
  dsimp only
  split
  next hselected =>
    rw [Bool.and_eq_true] at hselected
    exact hset row hselected.1 hselected.2
  next => exact RowMove.same call row

theorem rowsMove_written {commit : CommitRun} {run : AgentRun}
    (hfree : RunDb.Enqueueable db.workItems commit.workItems)
    (hadds : call.adds = commit.workItems) :
    RowsMove db call (db.written run commit).workItems := by
  refine ⟨id, commit.workItems, ?_, RowMove.same call, hfree, fun item hitem => ?_⟩
  · rw [map_id]
    rfl
  · rw [hadds]
    exact hitem

theorem exec_rows (call : PortCall) (db : RunDb) : RowsMove db call (call.exec db).2.workItems := by
  cases call with
  | create context commit =>
    refine transact_state
      (Q := fun db' : RunDb => RowsMove db (.create context commit) db'.workItems) rowsMove_same
      fun after db' hok => ?_
    obtain ⟨hwritable, rfl⟩ := create_ok hok
    exact rowsMove_written hwritable.itemsFree rfl
  | load => exact rowsMove_same
  | commit context commit =>
    rcases exec_commit context commit db with ⟨e, hexec⟩ | ⟨row, hcommits, hexec⟩
    · rw [hexec]
      exact rowsMove_same
    · rw [hexec]
      exact rowsMove_written hcommits.writable.itemsFree rfl
  | leaseNext context id workerId now leaseUntil =>
    refine rowsMove_updateItems fun row hsees hwhere => ?_
    rw [Bool.and_eq_true, beq_iff_eq] at hwhere
    exact RowMove.leased hsees hwhere.1 hwhere.2
  | complete context item =>
    show RowsMove db _ (transact (fun db => db.complete context item) db).2.workItems
    unfold complete
    rw [affected_state]
    refine rowsMove_updateItems fun row _ hwhere => ?_
    rw [Bool.and_eq_true, beq_iff_eq, beq_iff_eq] at hwhere
    exact RowMove.completed hwhere.1 hwhere.2
  | retry context item availableAt error =>
    show RowsMove db _ (transact (fun db => db.retry context item availableAt error) db).2.workItems
    unfold retry
    rw [affected_state]
    refine rowsMove_updateItems fun row _ hwhere => ?_
    rw [Bool.and_eq_true, beq_iff_eq, beq_iff_eq] at hwhere
    exact RowMove.retried hwhere.1 hwhere.2
  | deadLetter context item error =>
    show RowsMove db _ (transact (fun db => db.deadLetter context item error) db).2.workItems
    unfold deadLetter
    rw [affected_state]
    exact rowsMove_updateItems fun row _ _ => RowMove.deadLettered
  | cancelForRun context runId at_ =>
    exact rowsMove_updateItems fun row _ _ => RowMove.cancelled
  | acquire context runId workerId now leaseUntil =>
    obtain ⟨held, hstate⟩ := acquire_state db context runId workerId now leaseUntil
    rw [hstate]
    exact rowsMove_same
  | release context lease =>
    obtain ⟨held, hstate⟩ := release_state db context lease
    rw [hstate]
    exact rowsMove_same

def OverAt (db : RunDb) (i : ℕ) (id : WorkItemId) : Prop :=
  ∃ row, db.workItems[i]? = some row ∧ row.item.id = id ∧ row.status.isOver = true

theorem OverAt.exec (h : OverAt db i id) (call : PortCall) : OverAt (call.exec db).2 i id := by
  obtain ⟨row, hrow, rfl, hover⟩ := h
  obtain ⟨move, added, hrows, hmove, -, -⟩ := exec_rows call db
  refine ⟨move row, ?_, (hmove row).item_id, (hmove row).stays_over hover⟩
  have hi : i < (db.workItems.map move).length := by
    rw [length_map]
    exact (List.getElem?_eq_some_iff.mp hrow).1
  rw [hrows, getElem?_append_left hi, getElem?_map, hrow]
  rfl

theorem OverAt.run (h : OverAt w.state i id) (actions : List (Action Job)) :
    OverAt (w.run program actions).state i id := by
  induction actions generalizing w with
  | nil => exact h
  | cons action actions ih =>
    refine ih ?_
    cases action with
    | start k job =>
      simp only [act]
      split <;> exact h
    | crash k => exact h
    | step k =>
      simp only [act]
      split
      · exact h
      · exact h.exec _

end

/-! ## Reading a record -/

def PortCall.leases : (call : PortCall) → call.Answer → Option (WorkItemId × WorkerId)
  | .leaseNext _ _ workerId _ _, (answer : Option WorkItem) =>
    answer.map fun item => (item.id, workerId)
  | _, _ => none

def PortCall.settles : (call : PortCall) → call.Answer → Option WorkItemId
  | .complete _ item, (answer : AppResult Unit) =>
    answer.toOption.map fun _ => item.id
  | .retry _ item _ _, (answer : AppResult Unit) =>
    answer.toOption.map fun _ => item.id
  | _, _ => none

def lastLease (log : List (Made runPorts Job)) (id : WorkItemId) : Option (ℕ × WorkerId) :=
  log.foldl (fun holder m =>
    match m.call.leases m.answer with
    | some (leased, workerId) => if leased = id then some (m.thread, workerId) else holder
    | none => holder) none

section

variable {log : List (Made runPorts Job)}

theorem lastLease_other (h : ∀ workerId, m.call.leases m.answer ≠ some (id, workerId)) :
    lastLease (log ++ [m]) id = lastLease log id := by
  rw [lastLease, foldl_append]
  simp only [foldl_cons, foldl_nil]
  split
  next leased workerId hleases =>
    rw [if_neg]
    · rfl
    · intro heq
      rw [heq] at hleases
      exact h workerId hleases
  next => rfl

end

/-! ## The account -/

structure QueueInv (db : RunDb) : Prop where
  plain : Plain db.steps
  ids : (db.workItems.map (·.item.id)).Nodup
  attempts : ∀ row ∈ db.workItems, row.item.attempt ≤ row.maxAttempts ∧
    (row.status = .ready → row.item.attempt < row.maxAttempts)

structure HeldBy (log : List (Made runPorts Job)) (db : RunDb) (k : ℕ) (job : Job)
    (id : WorkItemId) : Prop where
  lease : ∃ workerId, job.workerId = some workerId ∧ lastLease log id = some (k, workerId)
  found : ∃ row ∈ db.workItems, row.item.id = id
  notReady : ∀ row ∈ db.workItems, row.item.id = id → row.status ≠ .ready

def queueAccount : Account conduct where
  Inv _ db := QueueInv db
  Knows log db k job l := ∀ id, l.held = some id → HeldBy log db k job id
  sound h := h.plain
  fresh _ _ _ _ _ h := nomatch h

/-- Lapsed leases are taken over in good order: while attempts are left, and when nobody
who was handed the item and has not settled it is still running. -/
def Orderly (w : RunWorld) (memory : ℕ → Memory) : Action Job → Prop
  | .step k => ∀ thread context id workerId now leaseUntil, w.threads k = some thread →
      thread.call = .leaseNext context id workerId now leaseUntil →
      ∀ row ∈ w.state.workItems, w.state.sees context = true → row.item.id = id →
        row.status = .leased → leasable now row = true →
        row.item.attempt < row.maxAttempts ∧
          ∀ k' thread', k' ≠ k → w.threads k' = some thread' → (memory k').held ≠ some id
  | _ => True

section

variable {db : RunDb} {call : PortCall} {job : Job}

theorem QueueInv.exec_plain (h : QueueInv db) (hmay : conduct.May job l call) :
    Plain (call.exec db).2.steps := by
  by_cases hcall : call.isQuiet = true
  · rw [(exec_quiet hcall db).steps]
    exact h.plain
  · cases call with
    | create context commit => exact absurd hmay id
    | commit context commit =>
      obtain ⟨_, _, -, hbuilds, -⟩ := hmay
      rcases exec_commit context commit db with ⟨e, hexec⟩ | ⟨row, hcommits, hexec⟩
      · rw [hexec]
        exact h.plain
      · rw [hexec]
        exact plain_foldl h.plain hbuilds.plain
    | _ => exact absurd rfl hcall

theorem May.adds (hmay : conduct.May job l call) : ∀ item ∈ call.adds, item.attempt = 1 := by
  cases call with
  | create context commit => exact absurd hmay id
  | commit context commit =>
    obtain ⟨_, _, -, hbuilds, -⟩ := hmay
    exact hbuilds.attempts
  | _ => exact forall_mem_nil _

theorem RowMove.attempts (hmove : RowMove db call row row')
    (hrow : row.item.attempt ≤ row.maxAttempts ∧
      (row.status = .ready → row.item.attempt < row.maxAttempts))
    (hleft : ∀ context id workerId now leaseUntil,
      call = .leaseNext context id workerId now leaseUntil → db.sees context = true →
      row.item.id = id → row.status = .leased → leasable now row = true →
        row.item.attempt < row.maxAttempts) : row'.item.attempt ≤ row'.maxAttempts ∧
      (row'.status = .ready → row'.item.attempt < row'.maxAttempts) := by
  cases hmove with
  | same => exact hrow
  | @leased context id workerId now leaseUntil _ hsees hid hleasable =>
    refine ⟨?_, nofun⟩
    show row.item.attempt + 1 ≤ row.maxAttempts
    have hover := RowMove.leasable_not_over hleasable
    cases hstatus : row.status with
    | ready => exact hrow.2 hstatus
    | leased => exact hleft context id workerId now leaseUntil rfl hsees hid hstatus hleasable
    | _ =>
      rw [hstatus] at hover
      cases hover
  | completed | deadLettered | cancelled => exact ⟨hrow.1, nofun⟩
  | retried =>
    refine ⟨hrow.1, fun hready => ?_⟩
    show row.item.attempt < row.maxAttempts
    by_contra hge
    simp only [if_pos (not_lt.mp hge)] at hready
    cases hready

theorem QueueInv.exec (h : QueueInv db) (hmay : conduct.May job l call)
    (hleft : ∀ context id workerId now leaseUntil,
      call = .leaseNext context id workerId now leaseUntil → ∀ row ∈ db.workItems,
      db.sees context = true → row.item.id = id → row.status = .leased →
      leasable now row = true → row.item.attempt < row.maxAttempts) :
    QueueInv (call.exec db).2 := by
  obtain ⟨move, added, hrows, hmove, ⟨hpair, hfree⟩, hadded⟩ := exec_rows call db
  refine ⟨h.exec_plain hmay, ?_, fun row hrow => ?_⟩
  · have hids : (db.workItems.map move).map (·.item.id) = db.workItems.map (·.item.id) := by
      rw [map_map]
      exact map_congr_left fun row _ => (hmove row).item_id
    rw [hrows, map_append, hids, map_map, nodup_append]
    refine ⟨h.ids, pairwise_map.mpr (hpair.imp fun hne => hne.1), ?_⟩
    intro a ha b hb hab
    obtain ⟨row, hrow, rfl⟩ := mem_map.mp ha
    obtain ⟨item, hitem, rfl⟩ := mem_map.mp hb
    exact (hfree item hitem row hrow).1 hab
  · rw [hrows, mem_append] at hrow
    rcases hrow with hold | hnew
    · obtain ⟨row, hrow, rfl⟩ := mem_map.mp hold
      exact (hmove row).attempts (h.attempts row hrow)
        fun context id workerId now leaseUntil hcall =>
          hleft context id workerId now leaseUntil hcall row hrow
    · obtain ⟨item, hitem, rfl⟩ := mem_map.mp hnew
      have hattempt := May.adds hmay item (hadded item hitem)
      show item.attempt ≤ 3 ∧ (_ → item.attempt < 3)
      omega

end

section

variable {log : List (Made runPorts Job)}
variable {k : ℕ} {job : Job} {call : PortCall} {answer : call.Answer} {db : RunDb}

theorem RowMove.not_ready (h : RowMove db call row row') (hready : row.status ≠ .ready)
    (hretry : ∀ context item availableAt error, call = .retry context item availableAt error →
      item.id ≠ row.item.id) : row'.status ≠ .ready := by
  cases h with
  | same => exact hready
  | leased | completed => nofun
  | @retried context item availableAt error _ hid hleased =>
    exact absurd hid.symm (hretry context item availableAt error rfl)
  | deadLettered | cancelled => nofun

theorem HeldBy.kept (h : HeldBy log m.before k job id)
    (hlease : ∀ workerId, m.call.leases m.answer ≠ some (id, workerId))
    (hretry : ∀ context item availableAt error, m.call = .retry context item availableAt error →
      item.id ≠ id) : HeldBy (log ++ [m]) m.after k job id := by
  obtain ⟨row, hrow, hid⟩ := h.found
  obtain ⟨move, added, hrows, hmove, ⟨-, hfree⟩, -⟩ := exec_rows m.call m.before
  have hafter : m.after.workItems = m.before.workItems.map move ++ added.map readyRow := hrows
  refine ⟨?_, ⟨move row, ?_, (hmove row).item_id.trans hid⟩, ?_⟩
  · rw [lastLease_other hlease]
    exact h.lease
  · rw [hafter]
    exact mem_append_left _ (mem_map_of_mem hrow)
  · intro row' hrow' hid'
    rw [hafter, mem_append] at hrow'
    rcases hrow' with hold | hnew
    · obtain ⟨old, hmem, rfl⟩ := mem_map.mp hold
      rw [(hmove old).item_id] at hid'
      refine (hmove old).not_ready (h.notReady old hmem hid') ?_
      rw [hid']
      exact hretry
    · -- a new item has an id of its own
      obtain ⟨item, hitem, rfl⟩ := mem_map.mp hnew
      exact absurd (hid.trans hid'.symm) (hfree item hitem row hrow).1

theorem leases_eq_some (h : call.leases answer = some (id, workerId)) :
    ∃ context pick now leaseUntil, call = .leaseNext context pick workerId now leaseUntil := by
  cases call with
  | leaseNext context pick workerId' now leaseUntil =>
    obtain ⟨item, -, heq⟩ := Option.map_eq_some_iff.mp h
    cases heq
    exact ⟨context, pick, now, leaseUntil, rfl⟩
  | _ => cases h

theorem leases_row {context : RequestContext} {pick : WorkItemId} {now leaseUntil : Timestamp}
    (hids : (db.workItems.map (·.item.id)).Nodup)
    (h : PortCall.leases (.leaseNext context pick workerId now leaseUntil)
      ((PortCall.leaseNext context pick workerId now leaseUntil).exec db).1 = some (id, workerId)) :
    (∃ row ∈ db.workItems, db.sees context = true ∧ row.item.id = id ∧ pick = id ∧
      leasable now row = true) ∧
    (∃ row ∈ ((PortCall.leaseNext context pick workerId now leaseUntil).exec db).2.workItems,
      row.item.id = id) ∧
    ∀ row ∈ ((PortCall.leaseNext context pick workerId now leaseUntil).exec db).2.workItems,
      row.item.id = id → row.status = .leased := by
  obtain ⟨item, hitem, heq⟩ := Option.map_eq_some_iff.mp h
  obtain ⟨row, hfind, rfl⟩ := Option.map_eq_some_iff.mp hitem
  have hrow := mem_of_find?_eq_some hfind
  have hselected := find?_some hfind
  have hid : row.item.id = id := (Prod.mk.inj heq).1
  have hwhere := hselected
  rw [Bool.and_eq_true, Bool.and_eq_true, beq_iff_eq] at hwhere
  obtain ⟨hsees, hpick, hleasable⟩ := hwhere
  refine ⟨⟨row, hrow, hsees, hid, hpick.symm.trans hid, hleasable⟩,
    ⟨_, mem_map_of_mem hrow, ?_⟩, ?_⟩
  · dsimp only
    rw [if_pos hselected]
    exact hid
  · intro row' hrow' hid'
    obtain ⟨old, hold, rfl⟩ := mem_map.mp hrow'
    have hsame : old = row := by
      refine inj_on_of_nodup_map hids hold hrow ?_
      rw [hid, ← hid']
      dsimp only
      split <;> rfl
    dsimp only
    rw [hsame, if_pos hselected]

theorem learn_held (h : (l.learn call answer).held = some id) :
    (∃ workerId, call.leases answer = some (id, workerId)) ∨
    (l.held = some id ∧ (∀ workerId, call.leases answer ≠ some (id, workerId)) ∧
      ∀ context item availableAt error, call ≠ .retry context item availableAt error) := by
  cases call with
  | load | commit =>
    cases answer <;> exact .inr ⟨h, fun _ => nofun, fun _ _ _ _ => nofun⟩
  | leaseNext context pick workerId now leaseUntil =>
    obtain ⟨item, hitem, rfl⟩ := Option.map_eq_some_iff.mp h
    refine .inl ⟨workerId, ?_⟩
    show Option.map (fun item : WorkItem => (item.id, workerId)) answer = _
    rw [hitem]
    rfl
  | complete | retry | deadLetter => cases h
  | _ => exact .inr ⟨h, fun _ => nofun, fun _ _ _ _ => nofun⟩

/-- Whoever is handed an item holds it. -/
theorem heldBy_of_leases (hids : (m.before.workItems.map (·.item.id)).Nodup)
    (hmay : conduct.May m.job l m.call) (h : m.call.leases m.answer = some (id, workerId)) :
    HeldBy (log ++ [m]) m.after m.thread m.job id := by
  have hlast : lastLease (log ++ [m]) id = some (m.thread, workerId) := by
    rw [lastLease, foldl_append]
    simp only [foldl_cons, foldl_nil, h, if_true]
  obtain ⟨k, job, call, db⟩ := m
  obtain ⟨context, pick, now, leaseUntil, hcall⟩ := leases_eq_some h
  cases hcall
  obtain ⟨-, hfound, hleased⟩ := leases_row hids h
  refine ⟨⟨workerId, hmay, hlast⟩, hfound, fun row hrow hid => ?_⟩
  rw [hleased row hrow hid]
  nofun

theorem leases_status (hids : (m.before.workItems.map (·.item.id)).Nodup)
    (h : m.call.leases m.answer = some (id, workerId)) :
    ∃ context now leaseUntil row, m.call = .leaseNext context id workerId now leaseUntil ∧
      row ∈ m.before.workItems ∧ m.before.sees context = true ∧ row.item.id = id ∧
      leasable now row = true ∧ (row.status = .ready ∨ row.status = .leased) := by
  obtain ⟨k, job, call, db⟩ := m
  obtain ⟨context, pick, now, leaseUntil, hcall⟩ := leases_eq_some h
  cases hcall
  obtain ⟨⟨row, hrow, hsees, hid, hpick, hleasable⟩, -, -⟩ := leases_row hids h
  refine ⟨context, now, leaseUntil, row, ?_, hrow, hsees, hid, hleasable, ?_⟩
  · rw [hpick]
  · have hover := RowMove.leasable_not_over hleasable
    cases hstatus : row.status with
    | ready => exact .inl rfl
    | leased => exact .inr rfl
    | _ =>
      rw [hstatus] at hover
      cases hover

end

theorem queue_renews {log : List (Made runPorts Job)} (hupheld : queueAccount.Upheld log w memory)
    (hmakes : w.makes action = some m) (horderly : Orderly w memory action) :
    queueAccount.Renews log w memory m := by
  obtain ⟨hinv, hmay, hknows⟩ := hupheld.makes hmakes
  obtain ⟨thread, rfl, hthread, -, hcall, hbefore⟩ := makes_eq_some hmakes
  have htaken : ∀ context id workerId now leaseUntil,
      m.call = .leaseNext context id workerId now leaseUntil → ∀ row ∈ m.before.workItems,
      m.before.sees context = true → row.item.id = id → row.status = .leased →
      leasable now row = true → row.item.attempt < row.maxAttempts ∧
        ∀ k' thread', k' ≠ m.thread → w.threads k' = some thread' →
          (memory k').held ≠ some id := by
    intro context id workerId now leaseUntil hm
    rw [hbefore]
    exact horderly thread context id workerId now leaseUntil hthread (hcall.symm.trans hm)
  refine ⟨?_, ?_, ?_⟩
  · refine QueueInv.exec hinv hmay fun context id workerId now leaseUntil hm row hrow hsees hid
      hleased hleasable => ?_
    exact (htaken context id workerId now leaseUntil hm row hrow hsees hid hleased hleasable).1
  · intro id hheld
    rcases learn_held hheld with ⟨workerId, hleases⟩ | ⟨hold, hother, hretry⟩
    · exact heldBy_of_leases hinv.ids hmay hleases
    · refine (hknows id hold).kept hother fun context item availableAt error hm => ?_
      exact absurd hm (hretry context item availableAt error)
  · intro k thread' hne hthread' hknows' id hheld
    have hheldBy := hknows' id hheld
    refine hheldBy.kept ?_ ?_
    · intro workerId hleases
      obtain ⟨context, now, leaseUntil, row, hm, hrow, hsees, hid, hleasable, hstatus⟩ :=
        leases_status hinv.ids hleases
      rcases hstatus with hready | hleased
      · exact hheldBy.notReady row hrow hid hready
      · exact (htaken context id workerId now leaseUntil hm row hrow hsees hid hleased
          hleasable).2 k thread' hne hthread' hheld
    · -- whoever retries the item was handed it last, and so was this thread
      intro context item availableAt error hm hid
      rw [hm] at hmay
      have hown : (memory m.thread).held = some id := hmay.trans (congrArg some hid)
      obtain ⟨workerId, -, hlast⟩ := hheldBy.lease
      obtain ⟨workerId', -, hlast'⟩ := (hknows id hown).lease
      rw [hlast] at hlast'
      cases hlast'
      exact hne rfl

section

variable {db : RunDb} {actions : List (Action Job)}

/-- Every lapsed lease that is taken over is taken over in good order. -/
def AllOrderly (w : RunWorld) (memory : ℕ → Memory) : List (Action Job) → Prop
  | [] => True
  | action :: actions => Orderly w memory action ∧
      AllOrderly (w.act program action) (w.remember conduct memory action) actions

theorem AllOrderly.left
    (h : AllOrderly w memory (before ++ after)) : AllOrderly w memory before := by
  induction before generalizing w memory with
  | nil => trivial
  | cons action before ih => exact ⟨h.1, ih h.2⟩

theorem AllOrderly.split (h : AllOrderly w memory (before ++ action :: after)) :
    Orderly (w.run program before) (w.remembered program conduct memory before) action := by
  induction before generalizing w memory with
  | nil => exact h.1
  | cons head before ih => exact ih h.2

theorem queue_upheld (h : queueAccount.Upheld [] (still db) fun _ => conduct.fresh)
    (horderly : AllOrderly (still db) (fun _ => conduct.fresh) actions) :
    queueAccount.Upheld ((still db).made program actions) ((still db).run program actions)
      ((still db).remembered program conduct (fun _ => conduct.fresh) actions) := by
  refine h.run follows_program fun before action after m heq hmakes hupheld => ?_
  rw [heq] at horderly
  exact queue_renews hupheld hmakes horderly.split

/-- Whoever completes or retries an item may do so. -/
theorem held_of_settles (hmay : conduct.May m.job l m.call)
    (h : m.call.settles m.answer = some id) : l.held = some id := by
  obtain ⟨k, job, call, db⟩ := m
  cases call with
  | complete | retry =>
    obtain ⟨-, -, rfl⟩ := Option.map_eq_some_iff.mp h
    exact hmay
  | _ => cases h

/-- **The queue under contention.** In any interleaving in which lapsed leases are taken over in
good order, whoever completes or retries an item leased it last, no item is attempted more often
than it may be, and an item that is over stays over. -/
theorem queue_sound {context : RequestContext} {command : CreateRun} {runId : AgentRunId}
    {draw : Draw} {created : RunSnapshot}
    (hcreate : (createRun context command runId draw).run .empty = (.ok created, db))
    (horderly : AllOrderly (still db) (fun _ => conduct.fresh) actions) :
    (∀ earlier m later id, (still db).made program actions = earlier ++ m :: later →
      m.call.settles m.answer = some id → ∃ workerId, m.job.workerId = some workerId ∧
          lastLease earlier id = some (m.thread, workerId)) ∧
    (∀ row ∈ ((still db).run program actions).state.workItems,
      row.item.attempt ≤ row.maxAttempts) ∧
    ∀ before after i id, actions = before ++ after →
      OverAt ((still db).run program before).state i id →
        OverAt ((still db).run program actions).state i id := by
  have hcreated : queueAccount.Upheld [] (still db) fun _ => conduct.fresh := by
    obtain ⟨run, event, -, -, rfl⟩ := createRun_ok hcreate
    refine ⟨⟨forall_mem_nil _, nodup_singleton _, fun row hrow => ?_⟩, ?_⟩
    · rw [mem_singleton.mp hrow]
      show 1 ≤ 3 ∧ (_ → 1 < 3)
      omega
    · intro k thread hthread
      cases hthread
  refine ⟨?_, ?_, ?_⟩
  · intro earlier m later id hmade hsettles
    obtain ⟨before, action, after, heq, rfl, hmakes⟩ := made_split hmade
    rw [heq] at horderly
    obtain ⟨-, hmay, hknows⟩ := (queue_upheld hcreated horderly.left).makes hmakes
    exact (hknows id (held_of_settles hmay hsettles)).lease
  · intro row hrow
    exact ((queue_upheld hcreated horderly).inv.attempts row hrow).1
  · intro before after i id heq hover
    rw [heq, World.run, foldl_append]
    exact hover.run after

end

/-! Workers whose leases last for ten ticks, and the first item of a run. -/

def attemptAt (n now : ℕ) : Job :=
  .worker reportContext none ⟨⟨n⟩, 10, now, ⟨1⟩, .ok (), now, drawAt now, drawAt (now + 1)⟩

/-- The first worker leases the item and is slow; the second leases it again at 20; the first
goes on and completes it. -/
def slowWorker : List (Action Job) :=
  [.start 0 (attemptAt 1 2), .step 0, .start 1 (attemptAt 2 20), .step 1,
    .step 0, .step 0, .step 0, .step 0]

/-- Three workers lease the item, each when the lease of the one before has run out. -/
def threeLeases : List (Action Job) :=
  [.start 0 (attemptAt 1 2), .step 0, .start 1 (attemptAt 2 20), .step 1,
    .start 2 (attemptAt 3 40), .step 2]

/-- Thread 0 completes the item that thread 1 leased last. And an item that may be attempted
three times is at its fourth attempt. -/
theorem lapsed_worker_completes_and_attempts_exceed :
    ∃ created db, ReportCreated created db ∧
      (((still db).made program slowWorker).getLast?.map fun m =>
        (m.thread, m.call.settles m.answer)) = some (0, some ⟨1⟩) ∧
      lastLease ((still db).made program slowWorker).dropLast ⟨1⟩ = some (1, ⟨2⟩) ∧
      (((still db).run program threeLeases).state.workItems.map fun row =>
        (row.item.attempt, row.maxAttempts)) = [(4, 3)] :=
  ⟨_, _, rfl, rfl, rfl, rfl⟩

/-- The first worker leases the item and stops; the second leases it again and completes
it. -/
def stoppedWorker : List (Action Job) :=
  [.start 0 (attemptAt 1 2), .step 0, .crash 0, .start 1 (attemptAt 2 20), .step 1,
    .step 1, .step 1, .step 1, .step 1]

theorem queue_sound_stoppedWorker :
    ∃ created db, ReportCreated created db ∧
      (((still db).made program stoppedWorker).getLast?.map fun m =>
        (m.thread, m.call.settles m.answer)) = some (1, some ⟨1⟩) ∧
      ∀ earlier m later id, (still db).made program stoppedWorker = earlier ++ m :: later →
        m.call.settles m.answer = some id → ∃ workerId, m.job.workerId = some workerId ∧
            lastLease earlier id = some (m.thread, workerId) := by
  have hrun : ∃ created db, ReportCreated created db ∧
      AllOrderly (still db) (fun _ => conduct.fresh) stoppedWorker ∧
      (((still db).made program stoppedWorker).getLast?.map fun m =>
        (m.thread, m.call.settles m.answer)) = some (1, some ⟨1⟩) := by
    refine ⟨_, _, rfl, ⟨trivial, ?_, trivial, trivial, ?_, ?_, ?_, ?_, ?_, trivial⟩, rfl⟩
    · intro thread context id workerId now leaseUntil hthread hcall row hrow _ _ hleased
      rw [mem_singleton.mp hrow] at hleased
      cases hleased
    · intro thread context id workerId now leaseUntil hthread hcall row hrow _ _ _ _
      rw [mem_singleton.mp hrow]
      refine ⟨Nat.lt_succ_self 2, fun k' thread' hne hthread' => ?_⟩
      -- the thread of the first worker is gone
      rw [act_threads_of_ne hne] at hthread'
      by_cases hk : k' = 0
      · rw [hk] at hthread'
        cases hthread'
      · rw [act_threads_of_ne hk, act_threads_of_ne hk,
          act_threads_of_ne hk] at hthread'
        cases hthread'
    all_goals
      intro thread context id workerId now leaseUntil hthread hcall
      cases hthread
      cases hcall
  obtain ⟨created, db, hcreate, horderly, hlast⟩ := hrun
  exact ⟨created, db, hcreate, hlast, (queue_sound hcreate horderly).1⟩

end Vestrace.Run
