import Mathlib.Data.List.Nodup
import Vestrace.Run.Change
import Vestrace.Run.Replay

/-!
# What a port call can do to the tables

A commit that is accepted moves the run to its next version and appends to the other tables.
Everything else leaves the run, its steps and its events alone (`Quiet`). From the outside, then, a
run's tables only ever move forward (`Moved`).
-/

namespace Vestrace.Run

open Lib RunDb RunVersion List FailsWith RunChange

variable {s t : RunSnapshot} {set : WorkItemRow → WorkItemRow} {where_ : WorkItemRow → Bool}
  {db : RunDb}

def RunDb.Stores (db : RunDb) (snapshot : RunSnapshot) : Prop :=
  db.run = some snapshot.run ∧ db.steps = snapshot.steps

theorem RunDb.Stores.unique (hs : db.Stores s) (ht : db.Stores t) : s = t := by
  obtain ⟨run, steps⟩ := s
  obtain ⟨run', steps'⟩ := t
  have hrun := hs.1.symm.trans ht.1
  have hsteps := hs.2.symm.trans ht.2
  cases hrun
  cases hsteps
  rfl

variable {ctx : RequestContext} {snapshot : RunSnapshot} {db' : RunDb}

theorem RunDb.load_stores {runId : AgentRunId} (h : db.load ctx runId = some snapshot) :
    db.Stores snapshot ∧ snapshot.run.workspaceId = ctx.workspaceId ∧
      snapshot.run.id = runId := by
  obtain ⟨run, hrun, hws, hid, rfl⟩ := load_eq_some.mp h
  exact ⟨⟨hrun, rfl⟩, hws, hid⟩

/-! ## Moving forward -/

structure Later (before after : RunSnapshot) : Prop where
  id : after.run.id = before.run.id
  workspace : after.run.workspaceId = before.run.workspaceId
  version : before.run.version.toNat ≤ after.run.version.toNat
  same : after.run.version = before.run.version → after = before
  terminal : before.run.status.isTerminal = true → after.run.status.isTerminal = true

theorem Later.refl (s : RunSnapshot) : Later s s := ⟨rfl, rfl, le_rfl, fun _ => rfl, fun h => h⟩

theorem Later.trans {u : RunSnapshot} (hst : Later s t) (htu : Later t u) : Later s u := by
  refine ⟨htu.id.trans hst.id, htu.workspace.trans hst.workspace,
    hst.version.trans htu.version, ?_, fun h => htu.terminal (hst.terminal h)⟩
  intro hversion
  have hle := hst.version
  have hle' := htu.version
  have hmid : t.run.version = s.run.version := by
    rw [← toNat_inj]
    rw [hversion] at hle'
    omega
  have hst' := hst.same hmid
  have htu' := htu.same (hversion.trans hmid.symm)
  rw [htu', hst']

def WorkItem.identity (item : WorkItem) : WorkItem := { item with availableAt := 0, attempt := 0 }

theorem WorkItem.identity_inj {a b : WorkItem} :
    a.identity = b.identity ↔ a.id = b.id ∧ a.runId = b.runId ∧ a.kind = b.kind ∧
      a.expectedRunVersion = b.expectedRunVersion ∧ a.idempotencyKey = b.idempotencyKey := by
  simp [identity]

def RunDb.identities (db : RunDb) : List WorkItem := db.workItems.map fun row => row.item.identity

/-- What others can have made of the tables: a later snapshot, and a longer queue. -/
structure Moved (db db' : RunDb) : Prop where
  run : ∀ s, db.Stores s → ∃ s', db'.Stores s' ∧ Later s s'
  items : db.identities <+: db'.identities

theorem Moved.refl (db : RunDb) : Moved db db :=
  ⟨fun s hs => ⟨s, hs, Later.refl s⟩, prefix_rfl⟩

theorem Moved.trans {db₁ db₂ db₃ : RunDb} (h : Moved db₁ db₂) (h' : Moved db₂ db₃) :
    Moved db₁ db₃ := by
  refine ⟨?_, h.items.trans h'.items⟩
  intro s hs
  obtain ⟨t, ht, hst⟩ := h.run s hs
  obtain ⟨u, hu, htu⟩ := h'.run t ht
  exact ⟨u, hu, hst.trans htu⟩

/-- A snapshot taken some time ago. -/
def Seen (snapshot : RunSnapshot) (db : RunDb) : Prop := ∃ s, db.Stores s ∧ Later snapshot s

theorem RunDb.Stores.seen (h : db.Stores snapshot) :
    Seen snapshot db := ⟨snapshot, h, Later.refl snapshot⟩

theorem Seen.moved (h : Seen snapshot db) (hmoved : Moved db db') : Seen snapshot db' := by
  obtain ⟨s, hs, hlater⟩ := h
  obtain ⟨s', hs', hlater'⟩ := hmoved.run s hs
  exact ⟨s', hs', hlater.trans hlater'⟩

/-- An item that was in the queue some time ago. -/
def Known (item : WorkItem) (db : RunDb) : Prop := item.identity ∈ db.identities

theorem Known.moved {item : WorkItem} (h : Known item db) (hmoved : Moved db db') :
    Known item db' := hmoved.items.mem h

/-! ## Calls that are not commits -/

/-- The run, its steps and its events are left alone, and rows of the queue keep what they are
for. -/
structure Quiet (db db' : RunDb) : Prop where
  run : db'.run = db.run
  steps : db'.steps = db.steps
  events : db'.events = db.events
  items : db'.identities = db.identities
  prepared : db'.resultPrepared = db.resultPrepared

theorem Quiet.stores (h : Quiet db db') (s : RunSnapshot) : db'.Stores s ↔ db.Stores s := by
  unfold Stores
  rw [h.run, h.steps]

theorem Quiet.moved (h : Quiet db db') : Moved db db' := by
  refine ⟨fun s hs => ⟨s, (h.stores s).mpr hs, Later.refl s⟩, ?_⟩
  rw [h.items]

theorem updateItems_quiet (hset : ∀ row, (set row).item.identity = row.item.identity) :
    Quiet db (db.updateItems ctx where_ set).2 := by
  refine ⟨rfl, rfl, rfl, ?_, rfl⟩
  unfold identities updateItems
  rw [map_map]
  refine map_congr_left fun row _ => ?_
  simp only [Function.comp_apply]
  split
  · exact hset row
  · rfl

theorem affected_state {message : String} :
    (transact (fun db : RunDb => affected (db.updateItems ctx where_ set) message) db).2 =
      (db.updateItems ctx where_ set).2 := by
  unfold transact affected
  dsimp only
  by_cases hcount : (db.updateItems ctx where_ set).1 = 0
  · rw [refuse_bind_pos hcount]
    have hnone : ∀ row ∈ db.workItems, ¬ (db.sees ctx && where_ row) = true :=
      countP_eq_zero.mp hcount
    show db = _
    have hitems : db.workItems.map
        (fun row => if (db.sees ctx && where_ row) = true then set row else row) =
        db.workItems := by
      conv_rhs => rw [← map_id db.workItems]
      exact map_congr_left fun row hrow => if_neg (hnone row hrow)
    show db = { db with workItems := db.workItems.map _ }
    rw [hitems]
  · rw [refuse_bind_neg hcount]
    rfl

def PortCall.isQuiet : PortCall → Bool
  | create .. | commit .. => false
  | _ => true

theorem Quiet.refl (db : RunDb) : Quiet db db := ⟨rfl, rfl, rfl, rfl, rfl⟩

/-- A lease is taken or given back without touching the rest. -/
theorem acquire_state (db : RunDb) (ctx : RequestContext) (runId : AgentRunId)
    (workerId : WorkerId) (now leaseUntil : Timestamp) :
    ∃ held, ((PortCall.acquire ctx runId workerId now leaseUntil).exec db).2 =
      { db with lease := held } := by
  refine transact_state (Q := fun db' => ∃ held, db' = { db with lease := held })
    ⟨db.lease, rfl⟩ fun a db' hok => ?_
  simp only [acquire, bind_eq_ok, pure_eq_ok, Prod.mk.injEq] at hok
  obtain ⟨_, -, -, rfl⟩ := hok
  exact ⟨_, rfl⟩

theorem release_state (db : RunDb) (ctx : RequestContext) (lease : RunLease) :
    ∃ held, ((PortCall.release ctx lease).exec db).2 = { db with lease := held } := by
  refine transact_state (Q := fun db' => ∃ held, db' = { db with lease := held })
    ⟨db.lease, rfl⟩ fun a db' hok => ?_
  simp only [release, bind_eq_ok, pure_eq_ok, Prod.mk.injEq] at hok
  obtain ⟨_, -, -, rfl⟩ := hok
  exact ⟨_, rfl⟩

theorem exec_quiet {call : PortCall} (h : call.isQuiet = true) (db : RunDb) :
    Quiet db (call.exec db).2 := by
  cases call with
  | create | commit => cases h
  | load => exact Quiet.refl db
  | leaseNext | cancelForRun => exact updateItems_quiet fun _ => rfl
  | complete ctx item =>
    show Quiet db (transact (fun db => db.complete ctx item) db).2
    unfold complete
    rw [affected_state]
    exact updateItems_quiet fun _ => rfl
  | retry ctx item availableAt error =>
    show Quiet db (transact (fun db => db.retry ctx item availableAt error) db).2
    unfold retry
    rw [affected_state]
    exact updateItems_quiet fun _ => rfl
  | deadLetter ctx item error =>
    show Quiet db (transact (fun db => db.deadLetter ctx item error) db).2
    unfold deadLetter
    rw [affected_state]
    exact updateItems_quiet fun _ => rfl
  | acquire ctx runId workerId now leaseUntil =>
    obtain ⟨held, hstate⟩ := acquire_state db ctx runId workerId now leaseUntil
    rw [hstate]
    exact ⟨rfl, rfl, rfl, rfl, rfl⟩
  | release ctx lease =>
    obtain ⟨held, hstate⟩ := release_state db ctx lease
    rw [hstate]
    exact ⟨rfl, rfl, rfl, rfl, rfl⟩

/-! ## Tidy tables -/

/-- What holds of a snapshot as long as only orchestrator commands and workers write the
tables. None of them puts a run into `WaitingForApproval`. -/
structure Proper (s : RunSnapshot) : Prop where
  positive : 1 ≤ s.run.version.toNat
  bound : s.run.version.toNat < bigintLimit
  approval : s.run.status ≠ .waitingForApproval
  stepIds : (s.steps.map (·.id)).Nodup
  plain : Plain s.steps

/-- What holds of the tables of a run all along. -/
structure Tidy (db : RunDb) (s : RunSnapshot) : Prop where
  stores : db.Stores s
  proper : Proper s
  itemIds : (db.identities.map (·.id)).Nodup
  items : ∀ item ∈ db.identities, item.expectedRunVersion.toNat ≤ s.run.version.toNat ∧
    item.runId = s.run.id
  events : ∀ row ∈ db.events, row.sequence ≤ s.run.version.toNat

theorem Quiet.tidy (h : Quiet db db') (htidy : Tidy db s) : Tidy db' s := by
  refine ⟨(h.stores s).mpr htidy.stores, htidy.proper, ?_, ?_, ?_⟩
  · rw [h.items]
    exact htidy.itemIds
  · rw [h.items]
    exact htidy.items
  · rw [h.events]
    exact htidy.events

theorem nodup_insertStep {steps : List RunStep} (step : RunStep)
    (h : (steps.map (·.id)).Nodup) : ((insertStep steps step).map (·.id)).Nodup := by
  unfold insertStep
  split
  next =>
    rw [map_map]
    have hids : steps.map ((·.id) ∘ fun row =>
        if row.id = step.id then progressStep row step else row) = steps.map (·.id) := by
      refine map_congr_left fun row _ => ?_
      by_cases hid : row.id = step.id <;> simp [hid, progressStep]
    rw [hids]
    exact h
  next hany =>
    rw [((placeStep_perm step steps).map (·.id)).nodup_iff, map_cons, nodup_cons]
    refine ⟨fun hmem => ?_, h⟩
    obtain ⟨row, hrow, hid⟩ := mem_map.mp hmem
    exact hany (any_eq_true.mpr ⟨row, hrow, by simpa using hid⟩)

theorem nodup_foldl {steps added : List RunStep} (h : (steps.map (·.id)).Nodup) :
    ((added.foldl insertStep steps).map (·.id)).Nodup := by
  induction added generalizing steps with
  | nil => exact h
  | cons step added ih => exact ih (nodup_insertStep step h)

/-! ## Commits -/

def RunChange.after (change : RunChange) (snapshot : RunSnapshot) (version : RunVersion)
    (at_ : Timestamp) : RunSnapshot :=
  ⟨change.apply snapshot.run version at_, change.steps.foldl insertStep snapshot.steps⟩

def RunChange.statusFrom (current : RunStatus) : RunChange → RunStatus
  | status target _ => target
  | _ => current

theorem RunChange.apply_status (row : AgentRun) (version : RunVersion) (at_ : Timestamp)
    (change : RunChange) :
    (change.apply row version at_).status = change.statusFrom row.status := by
  cases change with
  | status target result =>
    by_cases ht : target.isTerminal = true <;> simp [apply, AgentRun.entered, statusFrom, ht]
  | _ => rfl

theorem RunChange.later {version : RunVersion}
    {change : RunChange} {at_ : Timestamp} (hvalid : change.Valid snapshot)
    (hnext : snapshot.run.version.next = .ok version) :
    Later snapshot (change.after snapshot version at_) := by
  have hversion : (change.after snapshot version at_).run.version = version :=
    change.apply_version ..
  have hlt := next_eq_ok.mp hnext
  refine ⟨change.apply_id .., change.apply_workspaceId .., ?_, ?_, ?_⟩
  · rw [hversion]
    omega
  · intro hsame
    rw [hversion] at hsame
    rw [hsame] at hlt
    omega
  · intro hterminal
    show (change.apply snapshot.run version at_).status.isTerminal = true
    rw [apply_status]
    cases change with
    | status target result =>
      rw [RunStatus.transitionTo_of_terminal hterminal hvalid.2]
      exact hterminal
    | _ => exact hterminal

/-- A commit is accepted, or it changes nothing. -/
theorem exec_commit (ctx : RequestContext) (commit : CommitRun) (db : RunDb) :
    (∃ e, (PortCall.commit ctx commit).exec db = (.error e, db)) ∨
    ∃ row, Commits ctx db commit row ∧ (PortCall.commit ctx commit).exec db =
        (.ok ⟨writeRun row commit.run, commit.newSteps.foldl insertStep db.steps⟩,
          db.written (writeRun row commit.run) commit) := by
  show (∃ e, transact (fun db => db.commitOn ctx commit) db = (.error e, db)) ∨
    ∃ row, Commits ctx db commit row ∧ transact (fun db => db.commitOn ctx commit) db = _
  cases hok : db.commitOn ctx commit with
  | error e =>
    refine .inl ⟨e, ?_⟩
    rw [transact, hok]
  | ok result =>
    obtain ⟨after, db'⟩ := result
    obtain ⟨row, hcommits, rfl, rfl⟩ := commitOn_ok.mp hok
    refine .inr ⟨row, hcommits, ?_⟩
    rw [transact, hok]
    rfl

section

variable {after : RunSnapshot}
variable {change : RunChange} {at_ : Timestamp} {commit : CommitRun}

section

variable (h : Makes ctx snapshot change at_ commit)

include h

theorem Makes.current (hseen : Seen snapshot db) {row : AgentRun}
    (hcommits : Commits ctx db commit row) : db.Stores snapshot := by
  obtain ⟨s, hs, hlater⟩ := hseen
  have hrow : s.run = row := Option.mem_unique hs.1 hcommits.found
  have hversion : s.run.version = snapshot.run.version := by
    have hnext := next_eq_ok.mp h.next
    have hstored := hcommits.version
    rw [← hrow] at hstored
    rw [← toNat_inj]
    omega
  rw [← hlater.same hversion]
  exact hs

theorem Makes.accepted (hseen : Seen snapshot db)
    (hok : db.commitOn ctx commit = .ok (after, db')) :
    db.Stores snapshot ∧ Commits ctx db commit snapshot.run ∧
      db' = db.written (change.apply snapshot.run commit.run.version at_) commit ∧
      after = change.after snapshot commit.run.version at_ := by
  obtain ⟨row, hcommits, hwritten, hafter⟩ := commitOn_ok.mp hok
  have hstores := h.current hseen hcommits
  have hrow : row = snapshot.run := Option.mem_unique hcommits.found hstores.1
  rw [hrow] at hcommits hwritten hafter
  rw [h.writeRun] at hwritten hafter
  refine ⟨hstores, hcommits, hwritten, ?_⟩
  rw [hafter, hwritten]
  show (⟨change.apply snapshot.run commit.run.version at_,
    commit.newSteps.foldl insertStep db.steps⟩ : RunSnapshot) = _
  rw [h.steps, hstores.2]
  rfl

theorem Makes.written_stores (hstores : db.Stores snapshot) :
    (db.written (change.apply snapshot.run commit.run.version at_) commit).Stores
      (change.after snapshot commit.run.version at_) := by
  refine ⟨rfl, ?_⟩
  show commit.newSteps.foldl insertStep db.steps = _
  rw [h.steps, hstores.2]
  rfl

end

theorem written_identities (row : AgentRun) : (db.written row commit).identities =
      db.identities ++ commit.workItems.map WorkItem.identity := by
  show (db.workItems ++ commit.workItems.map readyRow).map _ = _
  rw [map_append, map_map]
  rfl

section

variable (h : Makes ctx snapshot change at_ commit)

include h

theorem Makes.moved (hstores : db.Stores snapshot) :
    Moved db (db.written (change.apply snapshot.run commit.run.version at_) commit) := by
  refine ⟨fun s hs => ?_, ?_⟩
  · rw [hs.unique hstores]
    exact ⟨_, h.written_stores hstores, later h.valid h.next⟩
  · rw [written_identities]
    exact prefix_append ..

theorem Makes.commits (hstores : db.Stores snapshot) (hpositive : 1 ≤ snapshot.run.version.toNat)
    (hevents : ∀ row ∈ db.events, row.sequence ≤ snapshot.run.version.toNat)
    (hworkspace : snapshot.run.workspaceId = ctx.workspaceId)
    (hbound : snapshot.run.version.toNat + 1 < bigintLimit) (hitems : commit.workItems = [])
    (hresult : storable (commit.run.result.elim [] RunTerminalResult.texts) = true)
    (htexts : storable commit.texts = true) (hresults : db.resultBlocks commit = false) :
    Commits ctx db commit snapshot.run := by
  have hversion := next_eq_ok.mp h.next
  have hsequence : commit.event.sequence.value.toNat = commit.run.version.toNat := by
    rw [h.sequence]
    rfl
  have hid : snapshot.run.id = commit.run.id := by
    rw [h.run, apply_id]
  have hbound' : commit.run.version.toNat < bigintLimit := by omega
  refine ⟨hstores.1, hworkspace, hid, hpositive, hversion, hbound', hresult, htexts, ?_, ?_, ?_, ?_,
    hresults⟩
  · rw [h.eventVersion]
    exact hbound'
  · rw [hsequence]
    exact hbound'
  · intro row hrow
    have hle := hevents row hrow
    omega
  · rw [hitems]
    exact ⟨List.Pairwise.nil, forall_mem_nil _⟩

theorem Makes.tidy (htidy : Tidy db snapshot) (hcommits : Commits ctx db commit snapshot.run)
    (haddressed : Addressed snapshot commit)
    (happroval : ∀ result, change ≠ .status .waitingForApproval result) :
    Tidy (db.written (change.apply snapshot.run commit.run.version at_) commit)
      (change.after snapshot commit.run.version at_) := by
  have hversion : (change.after snapshot commit.run.version at_).run.version =
    commit.run.version := change.apply_version ..
  have hid : (change.after snapshot commit.run.version at_).run.id = snapshot.run.id :=
    change.apply_id ..
  have hnext := next_eq_ok.mp h.next
  have hstatus : (change.apply snapshot.run commit.run.version at_).status ≠
      .waitingForApproval := by
    rw [apply_status]
    cases change with
    | status target result =>
      intro htarget
      exact happroval result (congrArg (status · result) htarget)
    | _ => exact htidy.proper.approval
  refine ⟨h.written_stores htidy.stores, ⟨?_, ?_, hstatus, nodup_foldl htidy.proper.stepIds,
    plain_foldl htidy.proper.plain (plain_steps h.valid htidy.proper.plain)⟩, ?_, ?_, ?_⟩
  · rw [hversion]
    omega
  · rw [hversion]
    exact hcommits.bound
  · obtain ⟨hpair, hfresh⟩ := hcommits.writable.itemsFree
    rw [written_identities, map_append, map_map, nodup_append]
    refine ⟨htidy.itemIds, ?_, ?_⟩
    · exact pairwise_map.mpr (hpair.imp fun hne => hne.1)
    · intro a ha b hb hab
      simp only [identities, map_map, mem_map, Function.comp_apply] at ha hb
      obtain ⟨row, hrow, rfl⟩ := ha
      obtain ⟨item, hitem, rfl⟩ := hb
      exact (hfresh item hitem row hrow).1 hab
  · rw [written_identities, hversion, hid]
    intro item hitem
    rcases mem_append.mp hitem with hold | hnew
    · obtain ⟨hle, hrun⟩ := htidy.items item hold
      exact ⟨by omega, hrun⟩
    · obtain ⟨built, hbuilt, rfl⟩ := mem_map.mp hnew
      obtain ⟨hexpected, hrun⟩ := haddressed built hbuilt
      exact ⟨(congrArg RunVersion.toNat hexpected).le, hrun⟩
  · rw [hversion]
    intro row hrow
    rcases mem_append.mp hrow with hold | hnew
    · have := htidy.events row hold
      omega
    · rw [mem_singleton.mp hnew]
      show commit.event.sequence.value.toNat ≤ _
      rw [h.sequence]
      exact le_rfl

end

end

/-- What the store answers a commit it refuses: a conflict, or the database's error. -/
def StoreError (e : ApplicationError) : Prop :=
  (∃ message, e = .conflict message) ∨ ∃ message, e = .storage message

theorem commitOn_fails (db : RunDb) (ctx : RequestContext) (commit : CommitRun) :
    FailsWith StoreError (db.commitOn ctx commit) := by
  have hstorage : ∀ message, StoreError (.storage message) := fun message => .inr ⟨message, rfl⟩
  have hviolates : ∀ constraint, StoreError (violates constraint) := hstorage
  refine bind (.mapError fun e => hstorage _) fun expected => ?_
  refine bind ?_ fun moved => bind ?_ fun written => ?_
  · refine bind (.refuse (hviolates _)) fun _ => bind (.okOr (.inl ⟨_, rfl⟩)) fun row => ?_
    exact bind (.refuse (hviolates _)) fun _ => .ok _
  · refine bind (.refuse (hviolates _)) fun _ => bind ?_ fun advanced => bind ?_ fun appended => ?_
    · exact bind (.refuse (hviolates _)) fun _ => .ok _
    · refine bind (.refuse (hviolates _)) fun _ => ?_
      exact bind (.refuse (hviolates _)) fun _ => .ok _
    · refine bind (foldlM (fun rows item => ?_) _ _) fun _ =>
        bind (.refuse (hviolates _)) fun _ => .ok _
      refine bind (.refuse (hviolates _)) fun _ => ?_
      exact bind (.refuse (hviolates _)) fun _ => .ok _
  · exact bind (.okOr (hstorage _)) fun _ => .ok _

end Vestrace.Run
