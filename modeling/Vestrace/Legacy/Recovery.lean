import Vestrace.Legacy.Reducer

/-!
# Recovery — restoring from a checkpoint is replaying from the start

`RunRecoveryService` reads the stream head, then the latest checkpoint, then events;
each read is its own transaction, and other writers append in between. So the service
is modelled against the store *as each of its queries finds it*: `db i` is the store
at the `i`-th query.
-/

namespace Vestrace.Legacy

open Lib Vestrace.Run List

/-! ## The store -/

def runCheckpointFormatVersion : UInt16 := 1

structure RunCheckpoint where
  workspaceId : WorkspaceId
  runId : AgentRunId
  sequence : RunVersion
  formatVersion : UInt16
  stateHash : String
  state : RunState
  createdAt : Timestamp
  deriving DecidableEq, Repr

variable {events : List LegacyRunEventEnvelope} {s : RunState} {checkpoint : RunCheckpoint}

structure RunStreamRow where
  workspaceId : WorkspaceId
  runId : AgentRunId
  currentVersion : RunVersion
  deriving DecidableEq, Repr

/-- The tables a `RunRecoveryStore` reads. `runEvents` lists the rows of each run in
sequence order, the order every query asks for. -/
structure RecoveryStore where
  runStreams : List RunStreamRow
  runEvents : List LegacyRunEventEnvelope
  runCheckpoints : List RunCheckpoint
  deriving DecidableEq, Repr

namespace RecoveryStore

variable (store : RecoveryStore) (context : RequestContext) (runId : AgentRunId)

def loadStreamHead : Option RunVersion :=
  (store.runStreams.find? fun row =>
    row.workspaceId = context.workspaceId ∧ row.runId = runId).map (·.currentVersion)

def eventsOf : List LegacyRunEventEnvelope :=
  store.runEvents.filter fun event =>
    event.workspaceId = context.workspaceId ∧ event.runId = runId

def loadEventsThrough (through : RunVersion) : List LegacyRunEventEnvelope :=
  (store.eventsOf context runId).filter fun event => event.sequence.toNat ≤ through.toNat

def loadEventsAfter (after : RunVersion) : List LegacyRunEventEnvelope :=
  (store.eventsOf context runId).filter fun event => after.toNat < event.sequence.toNat

def checkpointsOf : List RunCheckpoint :=
  store.runCheckpoints.filter fun checkpoint =>
    checkpoint.workspaceId = context.workspaceId ∧ checkpoint.runId = runId

def loadCheckpoint (sequence : RunVersion) : Option RunCheckpoint :=
  (store.checkpointsOf context runId).find? fun checkpoint => checkpoint.sequence = sequence

def loadLatestCheckpoint : Option RunCheckpoint :=
  (store.checkpointsOf context runId).foldl
    (fun latest checkpoint =>
      match latest with
      | none => some checkpoint
      | some best =>
        if best.sequence.toNat < checkpoint.sequence.toNat then some checkpoint else some best)
    none

end RecoveryStore

def storageCorruption (message : String) : ApplicationError := .storage message

def RunReduceError.display : RunReduceError → String
  | .missingCreatedEvent => "the first run event must be run.created"
  | .duplicateCreatedEvent => "run.created cannot be applied to an existing run"
  | .versionOverflow => "run version overflow"
  | .sequenceMismatch expected actual =>
    "run event sequence mismatch: expected " ++ expected.debug ++ ", actual " ++ actual.debug
  | .workspaceMismatch expected actual =>
    "run event workspace mismatch: expected " ++ expected.display ++ ", actual " ++ actual.display
  | .runMismatch expected actual =>
    "run event aggregate mismatch: expected " ++ expected.display ++ ", actual " ++ actual.display
  | .eventTypeMismatch expected actual =>
    "run event type mismatch: expected " ++ expected ++ ", actual " ++ actual
  | .unsupportedEventVersion eventType version =>
    "unsupported run event version " ++ toString version.toNat ++ " for " ++ eventType
  | .eventAfterTerminal status =>
    "run event cannot be applied after terminal state " ++ status.debug
  | .invalidTransition status => "run event is invalid while run is " ++ status.debug

def replayError (error : RunReduceError) : ApplicationError :=
  .storage ("run recovery replay failed: " ++ error.display)

def reduceError (error : RunReduceError) : ApplicationError :=
  .storage ("run recovery reduction failed: " ++ error.display)

open RecoveryStore

/-! ## The service -/

def verifyRestoredHead (state : RunState) (head : RunVersion) : AppResult Unit :=
  refuse (state.version ≠ head)
    (storageCorruption "restored run version does not match stream head")

def canonicalCheckpointTimestamp (timestamp : Timestamp) : AppResult Timestamp := do
  let micros := timestamp / 1000 * 1000
  refuse (¬ Timestamp.InRange micros)
    (.internal "run checkpoint timestamp normalization failed")
  return micros

def replayLoaded (events : List LegacyRunEventEnvelope) (empty : String) : AppResult RunState := do
  let state ← (replay events).mapError replayError
  okOr state (storageCorruption empty)

section

/- `hash_run_state` is a SHA-256 over a JSON text: here any function of the state. -/
variable (hashRunState : RunState → AppResult String)
variable (context : RequestContext) (runId : AgentRunId) (head : RunVersion)
variable (store : RecoveryStore) (checkpoint : RunCheckpoint) (db : Nat → RecoveryStore)

def validateCheckpointStructure : AppResult Unit := do
  refuse (checkpoint.formatVersion ≠ runCheckpointFormatVersion)
    (storageCorruption "unsupported run checkpoint format")
  refuse (checkpoint.workspaceId ≠ context.workspaceId ∨
      checkpoint.state.workspaceId ≠ context.workspaceId)
    (storageCorruption "run checkpoint workspace mismatch")
  refuse (checkpoint.runId ≠ runId ∨ checkpoint.state.id ≠ runId)
    (storageCorruption "run checkpoint identity mismatch")
  refuse (checkpoint.state.version ≠ checkpoint.sequence)
    (storageCorruption "run checkpoint version mismatch")
  refuse ((← hashRunState checkpoint.state) ≠ checkpoint.stateHash)
    (storageCorruption "run checkpoint hash mismatch")

def validateLoadedCheckpoint : AppResult RunCheckpoint := do
  validateCheckpointStructure hashRunState context runId checkpoint
  let replayed ← replayLoaded (store.loadEventsThrough context runId checkpoint.sequence)
    "run checkpoint has no event prefix"
  refuse (replayed ≠ checkpoint.state)
    (storageCorruption "run checkpoint differs from authoritative event prefix")
  return checkpoint

def restoreFromCheckpoint : AppResult RunState := do
  refuse (head.toNat < checkpoint.sequence.toNat)
    (storageCorruption "run checkpoint is ahead of the stream head")
  let checkpoint ← validateLoadedCheckpoint hashRunState context runId (db 0) checkpoint
  let tail := (db 1).loadEventsAfter context runId checkpoint.sequence
  let state ← (tail.filter fun event => event.sequence.toNat ≤ head.toNat).foldlM
    (fun state event => (apply (some state) event).mapError reduceError) checkpoint.state
  verifyRestoredHead state head
  return state

def streamHead : AppResult RunVersion :=
  okOr (store.loadStreamHead context runId) (.domain (.notFound "run stream does not exist"))

/-- Replay everything up to the head: the path without a checkpoint. -/
def replayToHead : AppResult RunState := do
  let state ← replayLoaded (store.loadEventsThrough context runId head)
    "run stream has no canonical events"
  verifyRestoredHead state head
  return state

def restore : AppResult RunState := do
  let head ← streamHead context runId (db 0)
  match (db 1).loadLatestCheckpoint context runId with
  | some checkpoint =>
    if checkpoint.sequence.toNat ≤ head.toNat then
      restoreFromCheckpoint hashRunState context runId head checkpoint fun i => db (i + 2)
    else
      replayToHead context runId head (db 2)
  | none => replayToHead context runId head (db 2)

def validateCheckpoint (sequence : RunVersion) (db : Nat → RecoveryStore) :
    AppResult RunCheckpoint := do
  let checkpoint ← okOr ((db 0).loadCheckpoint context runId sequence)
    (.domain (.notFound "run checkpoint does not exist"))
  validateLoadedCheckpoint hashRunState context runId (db 1) checkpoint

def validateCheckpointIdentity : AppResult Unit := do
  refuse (checkpoint.formatVersion ≠ runCheckpointFormatVersion)
    (storageCorruption "run checkpoint format is unsupported")
  refuse (checkpoint.sequence = .zero ∨ checkpoint.state.version ≠ checkpoint.sequence ∨
      checkpoint.state.workspaceId ≠ checkpoint.workspaceId ∨
      checkpoint.state.id ≠ checkpoint.runId)
    (storageCorruption "run checkpoint identity or version is inconsistent")
  refuse ((← hashRunState checkpoint.state) ≠ checkpoint.stateHash)
    (storageCorruption "run checkpoint hash is invalid")

def validateCheckpointForWrite : AppResult Unit := do
  refuse (checkpoint.workspaceId ≠ context.workspaceId)
    (.conflict "run checkpoint workspace does not match request context")
  validateCheckpointIdentity hashRunState checkpoint

/-- `save_checkpoint`: a row once written is never overwritten. -/
def saveCheckpoint : AppResult RecoveryStore := do
  validateCheckpointForWrite hashRunState context checkpoint
  match store.loadCheckpoint context checkpoint.runId checkpoint.sequence with
  | none => return { store with runCheckpoints := store.runCheckpoints ++ [checkpoint] }
  | some existing => do
    refuse (existing ≠ checkpoint)
      (.conflict "run checkpoint sequence already stores different content")
    return store

def createCheckpoint (now : Timestamp) (db : Nat → RecoveryStore) :
    AppResult (RunCheckpoint × RecoveryStore) := do
  let head ← streamHead context runId (db 0)
  let state ← replayToHead context runId head (db 1)
  let checkpoint : RunCheckpoint := {
    workspaceId := context.workspaceId
    runId := runId
    sequence := state.version
    formatVersion := runCheckpointFormatVersion
    stateHash := ← hashRunState state
    state := state
    createdAt := ← canonicalCheckpointTimestamp now }
  let saved ← saveCheckpoint hashRunState context (db 2) checkpoint
  return (checkpoint, saved)

end

/-! ## What the steps amount to -/

section

variable {hashRunState : RunState → AppResult String}
variable {context : RequestContext} {runId : AgentRunId} {head : RunVersion} {store : RecoveryStore}

theorem replayLoaded_ok {empty : String} :
    replayLoaded events empty = .ok s ↔ replay events = .ok (some s) := by
  simp [replayLoaded, bind_eq_ok, mapError_eq_ok]

theorem replayToHead_ok : replayToHead context runId head store = .ok s ↔
      replay (store.loadEventsThrough context runId head) = .ok (some s) ∧ s.version = head := by
  simp only [replayToHead, verifyRestoredHead, bind_eq_ok, replayLoaded_ok, refuse_eq_ok,
    exists_const, pure_eq_ok, not_not]
  constructor
  · rintro ⟨s', hreplay, hversion, rfl⟩
    exact ⟨hreplay, hversion⟩
  · rintro ⟨hreplay, hversion⟩
    exact ⟨s, hreplay, hversion, rfl⟩

/-- **A checkpoint passes only when it is the replay of its own prefix.** -/
theorem validateLoadedCheckpoint_ok {c : RunCheckpoint} :
    validateLoadedCheckpoint hashRunState context runId store checkpoint = .ok c ↔
      validateCheckpointStructure hashRunState context runId checkpoint = .ok () ∧
      replay (store.loadEventsThrough context runId checkpoint.sequence) =
        .ok (some checkpoint.state) ∧ checkpoint = c := by
  simp only [validateLoadedCheckpoint, bind_eq_ok, replayLoaded_ok, refuse_eq_ok, exists_const,
    pure_eq_ok, not_not]
  constructor
  · rintro ⟨_, hstructure, s, hreplay, rfl, hc⟩
    exact ⟨hstructure, hreplay, hc⟩
  · rintro ⟨hstructure, hreplay, hc⟩
    exact ⟨(), hstructure, _, hreplay, rfl, hc⟩

theorem restoreFromCheckpoint_ok {db : Nat → RecoveryStore} :
    restoreFromCheckpoint hashRunState context runId head checkpoint db = .ok s ↔
      checkpoint.sequence.toNat ≤ head.toNat ∧
      validateCheckpointStructure hashRunState context runId checkpoint = .ok () ∧
      replay ((db 0).loadEventsThrough context runId checkpoint.sequence) =
        .ok (some checkpoint.state) ∧
      replayFrom apply (some checkpoint.state)
        (((db 1).loadEventsAfter context runId checkpoint.sequence).filter fun event =>
          event.sequence.toNat ≤ head.toNat) = .ok (some s) ∧
      s.version = head := by
  simp only [restoreFromCheckpoint, verifyRestoredHead, bind_eq_ok, validateLoadedCheckpoint_ok,
    refuse_eq_ok, foldlM_eq_ok, exists_const, pure_eq_ok, not_not, not_lt]
  constructor
  · rintro ⟨hle, c, ⟨hstructure, hprefix, rfl⟩, s', htail, hversion, rfl⟩
    exact ⟨hle, hstructure, hprefix, htail, hversion⟩
  · rintro ⟨hle, hstructure, hprefix, htail, hversion⟩
    exact ⟨hle, _, ⟨hstructure, hprefix, rfl⟩, s, htail, hversion, rfl⟩

theorem loadLatestCheckpoint_mem (h : store.loadLatestCheckpoint context runId = some checkpoint) :
    checkpoint ∈ store.checkpointsOf context runId := by
  unfold loadLatestCheckpoint at h
  -- the accumulator is one of the checkpoints already passed
  have hfold : ∀ (rest : List RunCheckpoint) (latest : Option RunCheckpoint),
      rest.foldl (fun latest checkpoint =>
        match latest with
        | none => some checkpoint
        | some best =>
          if best.sequence.toNat < checkpoint.sequence.toNat then some checkpoint
          else some best) latest = some checkpoint →
      latest = some checkpoint ∨ checkpoint ∈ rest := by
    intro rest
    induction rest with
    | nil => exact fun latest h => .inl h
    | cons c rest ih =>
      intro latest h
      rcases ih _ h with hlatest | hmem
      · cases latest with
        | none =>
          cases hlatest
          exact .inr mem_cons_self
        | some best =>
          dsimp only at hlatest
          split at hlatest
          next =>
            cases hlatest
            exact .inr mem_cons_self
          next => exact .inl hlatest
      · exact .inr (mem_cons_of_mem c hmem)
  rcases hfold _ _ h with hnone | hmem
  · cases hnone
  · exact hmem

end

/-! ## The stream the queries see -/

theorem replay_numbered {state : Option RunState} (h : replay events = .ok state) :
    Numbered (fun e : LegacyRunEventEnvelope => e.sequence.toNat) 1 events := by
  refine replayFrom_induction
    (motive := fun events _ => Numbered (fun e => e.sequence.toNat) 1 events) rfl ?_ h
  intro events state event state' hevents hnum happly
  refine hnum.snoc ?_
  cases state with
  | none =>
    obtain ⟨-, -, hseq, -⟩ := apply_none.mp happly
    rw [replayFrom_none_eq_none hevents, hseq]
    rfl
  | some s =>
    obtain ⟨hfits, -, -⟩ := apply_some.mp happly
    have hnext := RunVersion.next_eq_ok.mp hfits.sequence
    have hversion : s.version.toNat = events.length := replay_version hevents
    omega

private def Owned (events : List LegacyRunEventEnvelope) : Option RunState → Prop
  | none => True
  | some s => ∃ event ∈ events, s.workspaceId = event.workspaceId ∧ s.id = event.runId

private theorem apply_owned {state : Option RunState} {event : LegacyRunEventEnvelope}
    (h : apply state event = .ok s) :
    Owned (events ++ [event]) (some s) := by
  refine ⟨event, mem_append_right _ mem_cons_self, ?_⟩
  cases state with
  | none =>
    obtain ⟨-, -, -, hfirst⟩ := apply_none.mp h
    unfold applyFirst at hfirst
    split at hfirst
    next =>
      cases hfirst
      exact ⟨rfl, rfl⟩
    next => cases hfirst
  | some before =>
    obtain ⟨hfits, -, -⟩ := apply_some.mp h
    have hidentity := apply_identity h
    simp only [RunState.identity, Prod.mk.injEq] at hidentity
    rw [hidentity.1, hidentity.2.1]
    exact ⟨hfits.workspace, hfits.run⟩

section

variable {hashRunState : RunState → AppResult String}
variable {context : RequestContext} {runId : AgentRunId}
variable {stream : List LegacyRunEventEnvelope} {state : Option RunState}
variable {head : RunVersion} {db : Nat → RecoveryStore} {n : Nat}

/-- What a call sees that reads `head` while `stream` is being written: every one of
its queries finds the first `head` events, and after them only later ones. -/
structure Sees (context : RequestContext) (runId : AgentRunId)
    (stream : List LegacyRunEventEnvelope) (head : RunVersion) (db : Nat → RecoveryStore) :
    Prop where
  reads : (db 0).loadStreamHead context runId = some head
  events : ∀ i, ∃ further, (db i).eventsOf context runId = stream.take head.toNat ++ further ∧
    ∀ event ∈ further, head.toNat < event.sequence.toNat

def Produced (hashRunState : RunState → AppResult String)
    (context : RequestContext) (runId : AgentRunId) (stream : List LegacyRunEventEnvelope)
    (checkpoint : RunCheckpoint) : Prop :=
  ∃ head now db saved, Sees context runId stream head db ∧
    createCheckpoint hashRunState context runId now db = .ok (checkpoint, saved)

theorem Sees.through (h : Sees context runId stream head db) (hstream : replay stream = .ok state)
    (i : Nat) {v : RunVersion} (hv : v.toNat ≤ head.toNat) :
    (db i).loadEventsThrough context runId v = stream.take v.toNat := by
  obtain ⟨further, hevents, hlater⟩ := h.events i
  have hnone : further.filter (fun e => Decidable.decide (e.sequence.toNat ≤ v.toNat)) = [] := by
    rw [filter_eq_nil_iff]
    intro e he
    have := hlater e he
    simp only [decide_eq_true_eq]
    omega
  rw [loadEventsThrough, hevents, filter_append, hnone, append_nil,
    (((replay_numbered hstream).take head.toNat).filter_cut _).1, Nat.add_sub_cancel,
    take_take, min_eq_left hv]

theorem Sees.after (h : Sees context runId stream head db) (hstream : replay stream = .ok state)
    (i : Nat) (v : RunVersion) :
    ((db i).loadEventsAfter context runId v).filter
        (fun e => Decidable.decide (e.sequence.toNat ≤ head.toNat)) =
      (stream.take head.toNat).drop v.toNat := by
  have hthrough := h.through hstream i (le_refl head.toNat)
  rw [loadEventsThrough] at hthrough
  rw [loadEventsAfter, filter_comm, hthrough,
    (((replay_numbered hstream).take head.toNat).filter_cut _).2, Nat.add_sub_cancel]

theorem replay_take (hstream : replay stream = .ok state) (hpos : 1 ≤ n) (hle : n ≤ stream.length) :
    ∃ s, replay (stream.take n) = .ok (some s) ∧ s.version.toNat = n := by
  have hsplit : replay (stream.take n ++ stream.drop n) = .ok state := by
    rw [take_append_drop]
    exact hstream
  obtain ⟨mid, hmid, -⟩ := replayFrom_append_ok hsplit
  have hlen : (stream.take n).length = n := length_take_of_le hle
  cases mid with
  | none =>
    rw [replayFrom_none_eq_none hmid, length_nil] at hlen
    omega
  | some s => exact ⟨s, hmid, (replay_version hmid).trans hlen⟩

theorem Sees.owner (h : Sees context runId stream head db) (hn : n ≤ head.toNat)
    (hs : replay (stream.take n) = .ok (some s)) :
    s.workspaceId = context.workspaceId ∧ s.id = runId := by
  obtain ⟨event, hmem, hws, hrun⟩ := replayFrom_induction (motive := Owned) trivial
    (fun _ _ _ _ _ _ ha => apply_owned ha) hs
  obtain ⟨further, hevents, -⟩ := h.events 0
  have hloaded : event ∈ (db 0).eventsOf context runId := by
    rw [hevents]
    refine mem_append_left _ ?_
    rw [← min_eq_left hn, ← take_take] at hmem
    exact mem_of_mem_take hmem
  have hof := (mem_filter.mp hloaded).2
  simp only [Bool.decide_and, Bool.and_eq_true, decide_eq_true_eq] at hof
  exact ⟨hws.trans hof.1, hrun.trans hof.2⟩

theorem Produced.valid (hstream : replay stream = .ok state)
    (h : Produced hashRunState context runId stream checkpoint) :
    validateCheckpointStructure hashRunState context runId checkpoint = .ok () ∧
      replay (stream.take checkpoint.sequence.toNat) = .ok (some checkpoint.state) := by
  obtain ⟨k, now, db, saved, hsees, hcreate⟩ := h
  simp only [createCheckpoint, streamHead, bind_eq_ok, okOr_eq_ok, hsees.reads, Option.some.injEq,
    replayToHead_ok, pure_eq_ok, Prod.mk.injEq] at hcreate
  obtain ⟨_, rfl, s, ⟨hreplay, hversion⟩, hash, hhash, _, -, _, -, rfl, -⟩ := hcreate
  rw [hsees.through hstream 1 le_rfl] at hreplay
  obtain ⟨hws, hid⟩ := hsees.owner le_rfl hreplay
  constructor
  · simp [validateCheckpointStructure, bind_eq_ok, hws, hid, hhash]
  · show replay (stream.take s.version.toNat) = _
    rw [hversion]
    exact hreplay

/-- **What is restored is what a replay gives**, whatever the checkpoints hold. -/
theorem restore_sound (hstream : replay stream = .ok state)
    (hsees : Sees context runId stream head db)
    (h : restore hashRunState context runId db = .ok s) :
    replay (stream.take head.toNat) = .ok (some s) := by
  simp only [restore, streamHead, hsees.reads, bind_eq_ok, okOr_eq_ok, Option.some.injEq] at h
  obtain ⟨_, rfl, h⟩ := h
  have hfull : replayToHead context runId head (db 2) = .ok s →
      replay (stream.take head.toNat) = .ok (some s) := by
    intro hreplay
    rw [← hsees.through hstream 2 le_rfl]
    exact (replayToHead_ok.mp hreplay).1
  split at h
  next checkpoint hlatest =>
    split at h
    next hle =>
      obtain ⟨-, -, hprefix, htail, -⟩ := restoreFromCheckpoint_ok.mp h
      rw [hsees.through hstream _ hle] at hprefix
      rw [hsees.after hstream] at htail
      -- the tail continues exactly where the checkpoint's prefix ends
      rw [← take_append_drop_take stream hle, replay, replayFrom_append hprefix]
      exact htail
    next => exact hfull h
  next => exact hfull h

section

variable (hstream : replay stream = .ok state) (hsees : Sees context runId stream head db)
  (hproduced : ∀ i, ∀ checkpoint ∈ (db i).checkpointsOf context runId,
    Produced hashRunState context runId stream checkpoint ∨
      head.toNat < checkpoint.sequence.toNat)

include hstream hsees hproduced

/-- **Restoring succeeds**, whether the latest checkpoint is used, absent, or ahead
of the head, as long as those not ahead are the service's own. -/
theorem restore_succeeds (hpos : 1 ≤ head.toNat) (hle : head.toNat ≤ stream.length) :
    ∃ s, restore hashRunState context runId db = .ok s := by
  obtain ⟨s, hs, hversion⟩ := replay_take hstream hpos hle
  have hhead : s.version = head := RunVersion.toNat_inj.mp hversion
  refine ⟨s, ?_⟩
  have hfull : replayToHead context runId head (db 2) = .ok s := by
    rw [replayToHead_ok, hsees.through hstream 2 le_rfl]
    exact ⟨hs, hhead⟩
  simp only [restore, streamHead, hsees.reads, bind_eq_ok, okOr_eq_ok, Option.some.injEq]
  refine ⟨head, rfl, ?_⟩
  split
  next checkpoint hlatest =>
    split
    next hseq =>
      have hmem := loadLatestCheckpoint_mem hlatest
      have hown : Produced hashRunState context runId stream checkpoint := by
        rcases hproduced 1 checkpoint hmem with hown | hahead
        · exact hown
        · omega
      obtain ⟨hstructure, hprefix⟩ := hown.valid hstream
      refine restoreFromCheckpoint_ok.mpr ⟨hseq, hstructure, ?_, ?_, hhead⟩
      · rw [hsees.through hstream _ hseq]
        exact hprefix
      · rw [hsees.after hstream]
        have hsplit : stream.take checkpoint.sequence.toNat ++
            (stream.take head.toNat).drop checkpoint.sequence.toNat = stream.take head.toNat :=
          take_append_drop_take stream hseq
        rw [← replayFrom_append hprefix, hsplit]
        exact hs
    next => exact hfull
  next => exact hfull

/-- Before the first event there is no state to restore. -/
theorem restore_refuses (hzero : head.toNat = 0) : restore hashRunState context runId db =
    .error (storageCorruption "run stream has no canonical events") := by
  have hhead : streamHead context runId (db 0) = .ok head := by
    rw [streamHead, hsees.reads]
    rfl
  have hfull : replayToHead context runId head (db 2) =
      .error (storageCorruption "run stream has no canonical events") := by
    rw [replayToHead, hsees.through hstream 2 le_rfl, hzero, take_zero]
    rfl
  rw [restore, hhead, ok_bind]
  split
  next checkpoint hlatest =>
    -- a checkpoint of the service's own is of a state, so it is ahead
    rw [if_neg, hfull]
    intro hle
    rcases hproduced 1 checkpoint (loadLatestCheckpoint_mem hlatest) with hown | hahead
    · have hsequence : checkpoint.sequence.toNat = 0 := by omega
      have hprefix := (hown.valid hstream).2
      rw [hsequence, take_zero] at hprefix
      cases hprefix
    · omega
  next => exact hfull

end

/-- **Restoring from a checkpoint equals replaying from the start**, for every head from the first
event on, whatever checkpoints the service produced and whatever is appended meanwhile, and is
refused before the first event; no checkpoint is returned or used that is not the replay of its
own prefix. -/
theorem restore_eq_replay (hstream : replay stream = .ok state) (hle : head.toNat ≤ stream.length)
    (hsees : Sees context runId stream head db)
    (hproduced : ∀ i, ∀ checkpoint ∈ (db i).checkpointsOf context runId,
      Produced hashRunState context runId stream checkpoint ∨
        head.toNat < checkpoint.sequence.toNat) :
    (1 ≤ head.toNat → ∃ s, restore hashRunState context runId db = .ok s ∧
      replay (stream.filter fun event => event.sequence.toNat ≤ head.toNat) = .ok (some s)) ∧
    (head.toNat = 0 → restore hashRunState context runId db =
      .error (storageCorruption "run stream has no canonical events")) ∧
    (∀ sequence stores checkpoint,
      validateCheckpoint hashRunState context runId sequence stores = .ok checkpoint →
      replay ((stores 1).loadEventsThrough context runId checkpoint.sequence) =
        .ok (some checkpoint.state)) ∧
    (∀ stores s, Sees context runId stream head stores →
      restore hashRunState context runId stores = .ok s →
      replay (stream.filter fun event => event.sequence.toNat ≤ head.toNat) = .ok (some s)) := by
  have hfilter : (stream.filter fun event => event.sequence.toNat ≤ head.toNat) =
      stream.take head.toNat := ((replay_numbered hstream).filter_cut head.toNat).1
  rw [hfilter]
  refine ⟨fun hpos => ?_, restore_refuses hstream hsees hproduced, ?_,
    fun stores s hstores h => restore_sound hstream hstores h⟩
  · obtain ⟨s, hs⟩ := restore_succeeds hstream hsees hproduced hpos hle
    exact ⟨s, hs, restore_sound hstream hsees hs⟩
  · intro sequence stores checkpoint h
    simp only [validateCheckpoint, bind_eq_ok, okOr_eq_ok, validateLoadedCheckpoint_ok] at h
    obtain ⟨_, -, -, hprefix, rfl⟩ := h
    exact hprefix

end

/-! A checkpoint was taken after the third event; the sixth arrives during the restore. -/

def sampleContext : RequestContext := ⟨⟨5⟩, ⟨6⟩, ⟨1⟩, ⟨7⟩⟩

def storeOf (events : List LegacyRunEventEnvelope) (head : UInt64)
    (checkpoints : List RunCheckpoint) : RecoveryStore :=
  ⟨[⟨⟨1⟩, ⟨2⟩, ⟨head⟩⟩], events, checkpoints⟩

theorem restore_eq_replay_third :
    ∃ checkpoint saved s,
      createCheckpoint (fun _ => .ok "digest") sampleContext ⟨2⟩ 100
        (fun _ => storeOf (pausedInStep.take 3) 3 []) = .ok (checkpoint, saved) ∧
      restore (fun _ => .ok "digest") sampleContext ⟨2⟩
        (fun i => storeOf (pausedInStep ++ if i < 3 then [] else [settlement 6]) 5 [checkpoint]) =
        .ok s ∧
      replay pausedInStep = .ok (some s) := by
  have hreplay : ∃ s, replay pausedInStep = .ok (some s) := ⟨_, rfl⟩
  obtain ⟨s, hs⟩ := hreplay
  have hcreate : ∃ checkpoint saved, createCheckpoint (fun _ => .ok "digest") sampleContext ⟨2⟩ 100
      (fun _ => storeOf (pausedInStep.take 3) 3 []) = .ok (checkpoint, saved) := ⟨_, _, rfl⟩
  obtain ⟨checkpoint, saved, hc⟩ := hcreate
  have hproduced :
      Produced (fun _ => .ok "digest") sampleContext ⟨2⟩ pausedInStep checkpoint :=
    ⟨⟨3⟩, 100, _, saved, ⟨rfl, fun _ => ⟨[], rfl, by simp⟩⟩, hc⟩
  have hsees : Sees sampleContext ⟨2⟩ pausedInStep ⟨5⟩
      (fun i => storeOf (pausedInStep ++ if i < 3 then [] else [settlement 6]) 5
        [checkpoint]) := by
    refine ⟨rfl, fun i => ?_⟩
    by_cases hi : i < 3
    · exact ⟨[], by simp only [if_pos hi]; rfl, by simp⟩
    · refine ⟨[settlement 6], by simp only [if_neg hi]; rfl, ?_⟩
      intro event hevent
      rw [mem_singleton.mp hevent]
      decide
  obtain ⟨t, ht, htreplay⟩ := (restore_eq_replay hs (by decide) hsees fun i c hmem => by
    have hmem' := (mem_filter.mp hmem).1
    rw [mem_singleton.mp hmem']
    exact .inl hproduced).1 (by decide)
  exact ⟨checkpoint, saved, t, hc, ht, htreplay⟩

/-- A stream row can stand at version 0, with no event yet. Replay answers that with no
state; `restore` has no state to return and refuses. -/
theorem restore_before_first_event :
    replay [] = .ok none ∧
    Sees sampleContext ⟨2⟩ [] .zero (fun _ => storeOf [] 0 []) ∧
    restore (fun _ => .ok "digest") sampleContext ⟨2⟩ (fun _ => storeOf [] 0 []) =
      .error (storageCorruption "run stream has no canonical events") :=
  ⟨rfl, ⟨rfl, fun _ => ⟨[], rfl, by simp⟩⟩, rfl⟩

end Vestrace.Legacy
