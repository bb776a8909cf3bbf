import Vestrace.Run.Coordinator

/-!
# One stream, two writers

The coordinator and the handlers append to a run's stream through `commitOn`, the delivery of
external-effect outcomes through `append`, which never touches the run's row. A delivery therefore
leaves the run one version behind its own stream, and the next commit asks for a sequence that is
taken.
-/

namespace Vestrace.Run

open Lib Vestrace.Legacy List

variable {events : List LegacyRunEventEnvelope} {event : LegacyRunEventEnvelope}

variable {ctx : RequestContext} {delivered : Prop} {db' : RunDb} {runId : AgentRunId}
  {head final : RunVersion}

/-! ## `PgRunEventStore::append` -/

/-- `validate_event_batch`, after its check for an empty batch: the last sequence. -/
def validateSequences (context : RequestContext) (runId : AgentRunId) :
    RunVersion → List LegacyRunEventEnvelope → AppResult RunVersion
  | sequence, [] => .ok sequence
  | sequence, event :: events => do
    let sequence ← sequence.next.mapError .domain
    refuse (event.workspaceId ≠ context.workspaceId ∨ event.runId ≠ runId)
      (.conflict "run event identity does not match append context")
    refuse (event.sequence ≠ sequence) (.conflict ("run event sequence must be " ++
      toString sequence.toNat ++ ", got " ++ toString event.sequence.toNat))
    refuse (event.eventType ≠ event.payload.eventType)
      (.conflict "run event type does not match payload")
    refuse (event.eventVersion ≠ event.payload.eventVersion)
      (.conflict "run event version does not match payload")
    validateSequences context runId sequence events

namespace RunDb

variable (db : RunDb)

def lockOrCreateStream (expectedVersion : RunVersion) : AppResult (RunVersion × RunDb) :=
  match db.streamVersion with
  | some version => .ok (version, db)
  | none => do
    refuse (expectedVersion ≠ .zero) (.domain (.notFound "run stream does not exist"))
    return (.zero, { db with streamVersion := some .zero })

def storedHead : ℕ := (db.events.map (·.sequence)).foldl max 0

/-- `insert_events` of the stream store. -/
def insertLegacyEvents (events : List LegacyRunEventEnvelope) : AppResult RunDb :=
  events.foldlM (fun db event => do
    refuse (bigintLimit ≤ event.sequence.toNat)
      (.storage "out of range integral type conversion attempted")
    refuse (db.events.any fun row => row.sequence == event.sequence.toNat)
      (violates "run_events_workspace_run_sequence_key")
    return { db with events := db.events ++ [.legacy event] }) db

def append (context : RequestContext) (runId : AgentRunId) (expectedVersion : RunVersion)
    (events : List LegacyRunEventEnvelope) : AppResult (RunVersion × RunDb) := do
  refuse (events = []) (.conflict "run event append batch must not be empty")
  let finalVersion ← validateSequences context runId expectedVersion events
  let (actualVersion, db) ← db.lockOrCreateStream expectedVersion
  refuse (actualVersion ≠ expectedVersion) (.conflict ("run version conflict: expected " ++
    toString expectedVersion.toNat ++ ", actual " ++ toString actualVersion.toNat))
  refuse (db.storedHead ≠ actualVersion.toNat) (.storage
    ("run stream metadata and events diverged at versions " ++ toString actualVersion.toNat ++
      " and " ++ toString db.storedHead))
  let db ← db.insertLegacyEvents events
  return (finalVersion, { db with streamVersion := some finalVersion })

end RunDb

/-! ## Deliveries -/

structure UndeliveredOutcome where
  effectId : ExternalEffectId
  receiptId : Option ExternalEffectReceiptId
  outcome : ReconciliationOutcome
  evidenceStrength : EvidenceStrength
  reconciledAt : Timestamp
  deriving DecidableEq, Repr

def outcomeEnvelope (context : RequestContext) (runId : AgentRunId) (head : RunVersion)
    (outcome : UndeliveredOutcome) (eventId : RunEventId) (causationId : OperationId)
    (at_ : Timestamp) : LegacyRunEventEnvelope :=
  let payload := .externalEffectSettled outcome.effectId outcome.receiptId outcome.outcome
    outcome.evidenceStrength
  { eventId := eventId
    workspaceId := context.workspaceId
    runId := runId
    sequence := ⟨head.value + 1⟩
    eventType := payload.eventType
    eventVersion := payload.eventVersion
    actor := .system "effect-outcome-delivery"
    causationId := causationId
    correlationId := ⟨outcome.effectId.asUuid⟩
    payload := payload
    occurredAt := outcome.reconciledAt
    recordedAt := at_ }

/-! ## Interleavings -/

/-- One transaction of either writer. A delivery comes with the head it read, which may
be old by now. -/
inductive StreamAction where
  | commit (context : RequestContext) (built : CommitRun)
  | deliver (context : RequestContext) (runId : AgentRunId) (head : RunVersion)
      (outcome : UndeliveredOutcome) (eventId : RunEventId) (causationId : OperationId)
      (at_ : Timestamp)
  deriving DecidableEq, Repr

def StreamAction.accepted (db : RunDb) : StreamAction → Option RunDb
  | .commit context built => (db.commitOn context built).toOption.map (·.2)
  | .deliver context runId head outcome eventId causationId at_ =>
    (db.append context runId head
      [outcomeEnvelope context runId head outcome eventId causationId at_]).toOption.map (·.2)

def StreamAction.step (db : RunDb) (action : StreamAction) : RunDb :=
  (action.accepted db).getD db

def runStream (db : RunDb) (actions : List StreamAction) : RunDb :=
  actions.foldl StreamAction.step db

def StreamAction.isDelivery : StreamAction → Bool
  | .commit .. => false
  | .deliver .. => true

def Delivered : RunDb → List StreamAction → Prop
  | _, [] => False
  | db, action :: actions =>
    (action.isDelivery = true ∧ (action.accepted db).isSome = true) ∨
      Delivered (action.step db) actions

structure CommitRun.Stamped (commit : CommitRun) : Prop where
  version : commit.event.runVersion = commit.run.version
  sequence : commit.event.sequence = .fromVersion commit.run.version

def StreamAction.Stamped : StreamAction → Prop
  | .commit _ built => built.Stamped
  | .deliver .. => True

/-- A commit built from a snapshot loaded just now: the next version, and rows the
database has room for and no other reason to refuse. -/
structure Fresh (context : RequestContext) (db : RunDb) (commit : CommitRun) : Prop where
  stamped : commit.Stamped
  loaded : ∃ snapshot, db.load context commit.run.id = some snapshot ∧
    commit.run.version.toNat = snapshot.run.version.toNat + 1
  bound : commit.run.version.toNat < bigintLimit
  items : RunDb.Enqueueable db.workItems commit.workItems
  result : storable (commit.run.result.elim [] RunTerminalResult.texts) = true
  texts : storable commit.texts = true
  results : db.resultBlocks commit = false

/-! ## The invariant -/

/-- The stream is gapless and as long as its counter says; the run's row has counted
all of it but what was delivered. -/
structure StreamInv (db : RunDb) (delivered : Prop) : Prop where
  numbered : Numbered RunEventRow.sequence 1 db.events
  stream : ∃ version, db.streamVersion = some version ∧ version.toNat = db.events.length
  row : ∃ row, db.run = some row ∧ 1 ≤ row.version.toNat ∧
    row.version.toNat ≤ db.events.length ∧
    (delivered ↔ row.version.toNat < db.events.length)

variable {db : RunDb} {snapshot : RunSnapshot}

/-- **A fresh commit on an invariant stream**: accepted exactly when nothing has been
delivered. -/
theorem StreamInv.fresh_iff {commit : CommitRun}
    (h : StreamInv db delivered) (hfresh : Fresh ctx db commit) :
    (∃ answer, db.commitOn ctx commit = .ok answer) ↔ ¬ delivered := by
  obtain ⟨row, hrow, hpos, hle, hdel⟩ := h.row
  obtain ⟨snapshot, hload, hver⟩ := hfresh.loaded
  obtain ⟨run, hrun, hws, hid, rfl⟩ := RunDb.load_eq_some.mp hload
  rw [hrow] at hrun
  cases hrun
  have hseq : commit.event.sequence.value.toNat = commit.run.version.toNat := by
    rw [hfresh.stamped.sequence]
    rfl
  have hver' : commit.run.version.toNat = row.version.toNat + 1 := hver
  have hbound := hfresh.bound
  have hfree := Numbered.free_iff h.numbered (show 1 ≤ commit.run.version.toNat by omega)
  constructor
  · rintro ⟨⟨snap, db'⟩, hok⟩ hd
    obtain ⟨_, hcommits, -⟩ := RunDb.commitOn_ok.mp hok
    have hpast := hfree.mp (hseq ▸ hcommits.writable.sequenceFree)
    have := hdel.mp hd
    omega
  · intro hd
    have hlen : ¬ row.version.toNat < db.events.length := fun hlt => hd (hdel.mpr hlt)
    refine ⟨_, RunDb.commitOn_ok.mpr
      ⟨row, ⟨hrow, hws, hid, hpos, hver', hbound, hfresh.result, ?_⟩, rfl, rfl⟩⟩
    refine ⟨hfresh.texts, ?_, ?_, ?_, hfresh.items, hfresh.results⟩
    · rw [hfresh.stamped.version]
      exact hbound
    · omega
    · rw [hseq]
      exact hfree.mpr (by omega)

theorem StreamInv.commit {commit : CommitRun} (h : StreamInv db delivered)
    (hstamped : commit.Stamped) (hok : db.commitOn ctx commit = .ok (snapshot, db')) :
    StreamInv db' delivered := by
  obtain ⟨row, hcommits, rfl, -⟩ := RunDb.commitOn_ok.mp hok
  obtain ⟨row', hrow, hpos, hle, hdel⟩ := h.row
  have hsame := hcommits.found
  rw [hrow] at hsame
  cases hsame
  have hver := hcommits.version
  have hseq : commit.event.sequence.value.toNat = commit.run.version.toNat := by
    rw [hstamped.sequence]
    rfl
  have hfree := Numbered.free_iff h.numbered (show 1 ≤ commit.run.version.toNat by omega)
  have hpast := hfree.mp (hseq ▸ hcommits.writable.sequenceFree)
  have hlen : (db.events ++ [RunEventRow.canonical commit.event]).length =
      db.events.length + 1 := by rw [length_append, length_singleton]
  refine ⟨h.numbered.snoc ?_, ⟨_, rfl, ?_⟩, ⟨_, rfl, ?_, ?_, ?_⟩⟩
  · show commit.event.sequence.value.toNat = _
    omega
  · show commit.event.runVersion.toNat = (db.events ++ _).length
    rw [hstamped.version, hlen]
    omega
  · show 1 ≤ commit.run.version.toNat
    omega
  · show commit.run.version.toNat ≤ (db.events ++ _).length
    rw [hlen]
    omega
  · show delivered ↔ commit.run.version.toNat < (db.events ++ _).length
    rw [hlen, hdel]
    omega

theorem RunDb.insertLegacyEvents_ok (h : db.insertLegacyEvents events = .ok db') :
    db'.events = db.events ++ events.map RunEventRow.legacy := by
  induction events generalizing db with
  | nil =>
    cases pure_eq_ok.mp h
    exact (append_nil _).symm
  | cons event events ih =>
    rw [insertLegacyEvents, foldlM_cons] at h
    obtain ⟨next, hnext, hrest⟩ := bind_eq_ok.mp h
    replace hnext := of_unit_bind (of_unit_bind hnext)
    cases pure_eq_ok.mp hnext
    rw [ih hrest, append_assoc]
    rfl

/-- An accepted append puts its events at the end. -/
theorem RunDb.append_events (h : db.append ctx runId head events = .ok (final, db')) :
    db'.events = db.events ++ events.map RunEventRow.legacy := by
  replace h := of_unit_bind h
  obtain ⟨_, -, h⟩ := bind_eq_ok.mp h
  obtain ⟨⟨version, locked⟩, hlock, h⟩ := bind_eq_ok.mp h
  replace h := of_unit_bind (of_unit_bind h)
  obtain ⟨inserted, hinsert, h⟩ := bind_eq_ok.mp h
  cases pure_eq_ok.mp h
  have hlocked : locked.events = db.events := by
    unfold lockOrCreateStream at hlock
    split at hlock
    · cases hlock
      rfl
    · replace hlock := of_unit_bind hlock
      cases pure_eq_ok.mp hlock
      rfl
  have hinserted := insertLegacyEvents_ok hinsert
  rw [hlocked] at hinserted
  exact hinserted

theorem StreamInv.append (h : StreamInv db delivered)
    (hok : db.append ctx runId head [event] = .ok (final, db')) : StreamInv db' True := by
  obtain ⟨version, hstream, hlen⟩ := h.stream
  simp only [RunDb.append, RunDb.lockOrCreateStream, hstream, RunDb.insertLegacyEvents,
    validateSequences, bind_eq_ok, refuse_eq_ok, exists_const, mapError_eq_ok, pure_eq_ok,
    Except.ok.injEq, foldlM_cons, foldlM_nil, Prod.mk.injEq, not_not] at hok
  obtain ⟨-, _, ⟨final, hnext, -, hseq, -, -, rfl⟩, _, rfl, rfl, -, _, ⟨_, ⟨-, -, rfl⟩, rfl⟩, rfl,
    rfl⟩ := hok
  have hfinal : final.toNat = version.toNat + 1 := RunVersion.next_eq_ok.mp hnext
  obtain ⟨row, hrow, hpos, hle, -⟩ := h.row
  have hlen' : (db.events ++ [RunEventRow.legacy event]).length = db.events.length + 1 := by
    rw [length_append, length_singleton]
  refine ⟨h.numbered.snoc ?_, ⟨final, rfl, ?_⟩, ⟨row, hrow, hpos, ?_, ?_⟩⟩
  · show event.sequence.toNat = _
    rw [hseq]
    omega
  · show final.toNat = (db.events ++ _).length
    rw [hlen']
    omega
  · show row.version.toNat ≤ (db.events ++ _).length
    rw [hlen']
    omega
  · show True ↔ row.version.toNat < (db.events ++ _).length
    rw [hlen', true_iff]
    omega

/-! ## Whole interleavings -/

theorem StreamInv.congr {d d' : Prop} (h : StreamInv db d) (hd : d ↔ d') : StreamInv db d' := by
  obtain ⟨row, hrow, hpos, hle, hdel⟩ := h.row
  exact ⟨h.numbered, h.stream, row, hrow, hpos, hle, hd.symm.trans hdel⟩

/-- One transaction of either writer, accepted or refused. -/
theorem StreamInv.step {action : StreamAction} (h : StreamInv db delivered)
    (hstamped : action.Stamped) : StreamInv (action.step db)
      (delivered ∨ (action.isDelivery = true ∧ (action.accepted db).isSome = true)) := by
  cases action with
  | commit ctx built =>
    refine StreamInv.congr (d := delivered) ?_ (by simp [StreamAction.isDelivery])
    show StreamInv (((db.commitOn ctx built).toOption.map (·.2)).getD db) delivered
    cases hok : db.commitOn ctx built with
    | error e => exact h
    | ok answer => exact h.commit hstamped hok
  | deliver ctx runId head outcome eventId causationId at_ =>
    show StreamInv (((db.append ctx runId head
      [outcomeEnvelope ctx runId head outcome eventId causationId at_]).toOption.map
        (·.2)).getD db) (delivered ∨ (true = true ∧ ((db.append ctx runId head
      [outcomeEnvelope ctx runId head outcome eventId causationId at_]).toOption.map
        (·.2)).isSome = true))
    cases hok : db.append ctx runId head
        [outcomeEnvelope ctx runId head outcome eventId causationId at_] with
    | error e => exact h.congr (by simp [Except.toOption])
    | ok answer => exact (h.append hok).congr (by simp [Except.toOption])

theorem StreamInv.run {actions : List StreamAction} (h : StreamInv db delivered)
    (hstamped : ∀ action ∈ actions, action.Stamped) :
    StreamInv (runStream db actions) (delivered ∨ Delivered db actions) := by
  induction actions generalizing db delivered with
  | nil => exact h.congr (by simp [Delivered])
  | cons action actions ih =>
    have hstep := h.step (hstamped action mem_cons_self)
    have hrest := ih hstep fun a ha => hstamped a (mem_cons_of_mem _ ha)
    exact hrest.congr (or_assoc.trans (by rw [Delivered]))

theorem created_streamInv {draw : Draw} {command : CreateRun}
    (h : (createRun ctx command runId draw).run .empty = (.ok snapshot, db)) :
    StreamInv db False := by
  obtain ⟨run, event, hrun, hevent, rfl⟩ := createRun_ok h
  obtain ⟨-, -, hversion⟩ := create_fields hrun
  have hevent' := Draw.event_ok hevent
  refine ⟨?_, ⟨event.runVersion, rfl, ?_⟩, ⟨_, rfl, ?_, ?_, ?_⟩⟩
  · rw [hevent']
    rfl
  · rw [hevent']
    rfl
  · show 1 ≤ run.version.toNat
    rw [hversion]
    exact le_rfl
  · show run.version.toNat ≤ 1
    rw [hversion]
    exact le_rfl
  · show False ↔ run.version.toNat < 1
    rw [hversion, false_iff]
    exact lt_irrefl 1

/-- **One delivery shuts the other writer out.** In every interleaving of stamped commits and
deliveries the sequences of the stream have no gap, and a commit built from a snapshot loaded just
then is accepted if and only if no delivery has been. -/
theorem fresh_commit_accepted_iff {context : RequestContext} {command : CreateRun}
    {runId : AgentRunId} {draw : Draw} {snapshot : RunSnapshot} {db : RunDb}
    (hcreate : (createRun context command runId draw).run .empty = (.ok snapshot, db))
    {actions : List StreamAction} (hstamped : ∀ action ∈ actions, action.Stamped) :
    Numbered RunEventRow.sequence 1 (runStream db actions).events ∧
    ∀ context commit, Fresh context (runStream db actions) commit →
      ((∃ answer, (runStream db actions).commitOn context commit = .ok answer) ↔
        ¬ Delivered db actions) := by
  have hinv : StreamInv (runStream db actions) (Delivered db actions) :=
    ((created_streamInv hcreate).run hstamped).congr (by simp)
  exact ⟨hinv.numbered, fun _ _ hfresh => hinv.fresh_iff hfresh⟩

def reportDelivery (head : RunVersion) : StreamAction :=
  .deliver reportContext ⟨1⟩ head ⟨⟨1⟩, none, .confirmed, .contentHash, 5⟩ ⟨5⟩ ⟨1⟩ 6

def cancelReport (version : RunVersion) : CancelRun :=
  ⟨none, ⟨1⟩, version, some "operator", .principal ⟨1⟩⟩

/-- After a delivery, a cancellation built from a snapshot loaded then is refused: its event's
sequence is the delivery's. -/
theorem commit_refused_after_delivery :
    ∃ created db snapshot commit, ReportCreated created db ∧
      (reportDelivery .initial).accepted db ≠ none ∧
      ((reportDelivery .initial).step db).load reportContext ⟨1⟩ = some snapshot ∧
      transitionRunCommit reportContext snapshot (cancelTransition (cancelReport .initial)) []
        (drawAt 7) = .ok commit ∧
      ((reportDelivery .initial).step db).commitOn reportContext commit =
        .error (violates "run_events_workspace_run_sequence_key") :=
  ⟨_, _, _, _, rfl, nofun, rfl, rfl, rfl⟩

/-- Without an accepted delivery — here one is refused, because it read an older head —
the cancellation goes through. -/
theorem fresh_commit_accepted_iff_stale_delivery :
    ∃ created db commit answer, ReportCreated created db ∧
      transitionRunCommit reportContext created (cancelTransition (cancelReport .initial)) []
        (drawAt 7) = .ok commit ∧
      (runStream db [reportDelivery .zero]).commitOn reportContext commit = .ok answer := by
  have hbuilt : ∃ created db commit, ReportCreated created db ∧
      transitionRunCommit reportContext created (cancelTransition (cancelReport .initial)) []
        (drawAt 7) = .ok commit ∧
      Fresh reportContext (runStream db [reportDelivery .zero]) commit ∧
      ¬ Delivered db [reportDelivery .zero] := by
    refine ⟨_, _, _, rfl, rfl,
      ⟨⟨rfl, rfl⟩, ⟨_, rfl, rfl⟩, by decide, ⟨List.Pairwise.nil, forall_mem_nil _⟩, rfl, rfl, rfl⟩,
      ?_⟩
    rintro (⟨-, haccepted⟩ | hrest)
    · cases haccepted
    · exact hrest
  obtain ⟨created, db, commit, hdb, hcommit, hfresh, hnone⟩ := hbuilt
  have hstamped : ∀ action ∈ [reportDelivery .zero], action.Stamped := by
    intro action haction
    rw [mem_singleton.mp haction]
    trivial
  obtain ⟨answer, hanswer⟩ :=
    ((fresh_commit_accepted_iff hdb hstamped).2 reportContext commit hfresh).mpr hnone
  exact ⟨created, db, commit, answer, hdb, hcommit, hanswer⟩

end Vestrace.Run
