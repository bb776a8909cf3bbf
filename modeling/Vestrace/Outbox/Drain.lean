import Vestrace.Effects.Host

/-!
# The outbox and its drain

`PgOutboxRepository` on the table of migrations 0007 and 0149, and
`OutboxDispatcher::drain_once`: claim the oldest due messages, hand each to the handler of
its topic, acknowledge. Each of these is a call of its own, so others may come in between.

The map of handlers is the list of its topics. What a handler does beside answering is not
modelled, only that it was asked (`handled`).
-/

namespace Vestrace.Outbox

open Lib Effects List

/-! ## The table -/

inductive PayloadValue where
  | text (s : String)
  | number (n : ℕ)
  deriving DecidableEq, Repr

/-- A flat object, which is what the producers write. -/
abbrev Payload := List (String × PayloadValue)

structure OutboxMessage where
  id : OutboxId
  workspaceId : WorkspaceId
  topic : String
  payload : Payload
  createdAt : Timestamp
  attempts : ℕ
  deriving DecidableEq, Repr

structure OutboxRow where
  id : OutboxId
  workspaceId : WorkspaceId
  topic : String
  payload : Payload
  createdAt : Timestamp
  attempts : ℕ
  nextAttemptAt : Timestamp
  lastAttemptAt : Option Timestamp
  lastError : Option String
  processedAt : Option Timestamp
  deadLetteredAt : Option Timestamp
  deriving DecidableEq, Repr

/-- The order in which rows are claimed. -/
def OutboxRow.key (row : OutboxRow) : ℤ ×ₗ ℕ := toLex (row.createdAt, row.id.asUuid.toNat)

def OutboxRow.message (row : OutboxRow) : OutboxMessage :=
  ⟨row.id, row.workspaceId, row.topic, row.payload, row.createdAt, row.attempts⟩

/-- Neither processed nor set aside. -/
def OutboxRow.live (row : OutboxRow) : Bool :=
  row.processedAt.isNone && row.deadLetteredAt.isNone

variable {row : OutboxRow}

theorem OutboxRow.live_iff :
    row.live = true ↔ row.processedAt = none ∧ row.deadLetteredAt = none := by
  rw [live, Bool.and_eq_true, Option.isNone_iff_eq_none, Option.isNone_iff_eq_none]

/-- In the table an addition to `attempts` can overflow. `drain_once` reads it as a `u32`, where
it cannot saturate. -/
def integerMax : ℕ := 2 ^ 31 - 1

def maxDeliveryAttempts : ℕ := 5

def retryDelay (attempts : ℕ) : ℤ := 30 * 2 ^ min (attempts - 1) 4 * 1000000000

def OutboxRow.born (now : Timestamp) (message : OutboxMessage) : OutboxRow :=
  ⟨message.id, message.workspaceId, message.topic, message.payload, pgTime message.createdAt, 0,
    now, none, none, none, none⟩

section

variable (context : RequestContext) (now : Timestamp) (rows : List OutboxRow)

def save (message : OutboxMessage) : AppResult (Unit × List OutboxRow) := do
  refuse (message.workspaceId ≠ context.workspaceId)
    (.policy "an outbox message cannot be saved into another workspace")
  refuse (rows.any fun row => row.id == message.id) (Run.violates "outbox_pkey")
  return ((), rows ++ [OutboxRow.born now message])

def claimable (row : OutboxRow) : Bool :=
  row.workspaceId == context.workspaceId && row.live && decide (row.nextAttemptAt ≤ now)

def claimRows (limit : UInt32) : List OutboxRow :=
  ((rows.filter (claimable context now)).insertionSort fun a b => a.key ≤ b.key).take limit.toNat

def claimPending (limit : UInt32) : List OutboxMessage :=
  (claimRows context now rows limit).map (·.message)

def acknowledgeable (id : OutboxId) (row : OutboxRow) : Bool :=
  row.id == id && row.workspaceId == context.workspaceId && row.processedAt.isNone

def updateOpen (id : OutboxId) (g : OutboxRow → OutboxRow) (row : OutboxRow) : OutboxRow :=
  if acknowledgeable context id row then g row else row

def OutboxRow.processed (row : OutboxRow) : OutboxRow := { row with processedAt := some now }

def markProcessed (id : OutboxId) : AppResult (Unit × List OutboxRow) := do
  refuse (rows.any fun row => acknowledgeable context id row && row.deadLetteredAt.isSome)
    (Run.violates "outbox_terminal_state_is_singular")
  return ((), rows.map (updateOpen context id (OutboxRow.processed now)))

def OutboxRow.refused (error : String) (retryAfter : ℤ) (deadLetter : Bool) (row : OutboxRow) :
    OutboxRow :=
  { row with
    attempts := row.attempts + 1
    lastAttemptAt := some now
    lastError := some (String.ofList (error.toList.take 2000))
    nextAttemptAt := now + retryAfter
    deadLetteredAt := if deadLetter then some now else row.deadLetteredAt }

def recordFailure (id : OutboxId) (error : String) (retryAfter : ℤ) (deadLetter : Bool) :
    AppResult (Unit × List OutboxRow) := do
  refuse (rows.any fun row => acknowledgeable context id row && row.attempts == integerMax)
    (.storage "integer out of range")
  return ((), rows.map (updateOpen context id (OutboxRow.refused now error retryAfter deadLetter)))

end

/-! ## The calls -/

structure OutboxWeather where
  fault : Option Fault
  now : Timestamp
  /-- What the handler answers. -/
  answer : AppResult Unit

structure OutboxHost where
  rows : List OutboxRow
  /-- What handlers were asked and have answered, in order. -/
  handled : List (OutboxMessage × AppResult Unit)
  weather : ℕ → OutboxWeather
  /-- How many calls have been made. -/
  tick : ℕ

inductive OutboxCall where
  | save (context : RequestContext) (message : OutboxMessage)
  | claimPending (context : RequestContext) (limit : UInt32)
  | handle (context : RequestContext) (message : OutboxMessage)
  | markProcessed (context : RequestContext) (id : OutboxId)
  | recordFailure (context : RequestContext) (id : OutboxId) (error : String) (retryAfter : ℤ)
      (deadLetter : Bool)
  deriving DecidableEq

def OutboxCall.Answer : OutboxCall → Type
  | .claimPending .. => AppResult (List OutboxMessage)
  | .save .. | .handle .. | .markProcessed .. | .recordFailure .. => AppResult Unit

namespace OutboxHost

variable {α : Type}

def onRows (host : OutboxHost) (t : List OutboxRow → AppResult (α × List OutboxRow))
    (fault : Option Fault) : AppResult α × OutboxHost :=
  let committed := transact (fun host : OutboxHost => do
    let (a, rows) ← t host.rows
    return (a, { host with rows })) host
  match fault with
  | none => committed
  | some (.refused message) => (.error (.storage message), host)
  | some (.unacknowledged message) => (.error (.storage message), committed.2)

def execIn (weather : OutboxWeather) : (call : OutboxCall) → OutboxHost → call.Answer × OutboxHost
  | .save context message, host =>
    host.onRows (fun rows => Outbox.save context weather.now rows message) weather.fault
  | .claimPending context limit, host =>
    host.onRows (fun rows => .ok (Outbox.claimPending context weather.now rows limit, rows))
      weather.fault
  | .handle _ message, host =>
    (weather.answer, { host with handled := host.handled ++ [(message, weather.answer)] })
  | .markProcessed context id, host =>
    host.onRows (fun rows => Outbox.markProcessed context weather.now rows id) weather.fault
  | .recordFailure context id error retryAfter deadLetter, host =>
    host.onRows (fun rows => Outbox.recordFailure context weather.now rows id error retryAfter
      deadLetter) weather.fault

def exec (call : OutboxCall) (host : OutboxHost) : call.Answer × OutboxHost :=
  execIn (host.weather host.tick) call { host with tick := host.tick + 1 }

end OutboxHost

@[reducible] def outboxPorts : Ports OutboxHost :=
  ⟨OutboxCall, OutboxCall.Answer, OutboxHost.exec⟩

abbrev OutboxProg := Prog outboxPorts ApplicationError

def ask (call : OutboxCall) : OutboxProg call.Answer := Prog.perform (P := outboxPorts) call

theorem run_ask_bind {call : OutboxCall}
    {β : Type} {f : call.Answer → OutboxProg β} {answer : call.Answer}
    {host host' : OutboxHost} (h : OutboxHost.exec call host = (answer, host')) :
    (ask call >>= f).run host = (f answer).run host' :=
  Prog.run_perform_bind h

open OutboxHost

/-! ## The dispatcher -/

structure DrainReport where
  delivered : ℕ
  unhandled : ℕ
  failed : ℕ
  deadLettered : ℕ
  deriving DecidableEq, Repr

section

variable (handlers : List String) (context : RequestContext)

def acknowledge (message : OutboxMessage) (report : DrainReport) :
    AppResult Unit → OutboxProg DrainReport
  | .ok _ => do
    let marked ← ask (.markProcessed context message.id)
    liftM marked
    return { report with delivered := report.delivered + 1 }
  | .error error => do
    let attempts := message.attempts + 1
    let deadLetter := decide (maxDeliveryAttempts ≤ attempts)
    let recorded ← ask (.recordFailure context message.id error.display (retryDelay attempts)
      deadLetter)
    liftM recorded
    return { report with
      failed := report.failed + 1
      deadLettered := report.deadLettered + if deadLetter then 1 else 0 }

def deliver (message : OutboxMessage) (report : DrainReport) : OutboxProg DrainReport :=
  if message.topic ∈ handlers then do
    let answer ← ask (.handle context message)
    acknowledge context message report answer
  else return { report with unhandled := report.unhandled + 1 }

def deliverAll : List OutboxMessage → DrainReport → OutboxProg DrainReport
  | [], report => return report
  | message :: messages, report => do
    let report ← deliver handlers context message report
    deliverAll messages report

def drainOnce (batch : UInt32) : OutboxProg DrainReport := do
  let claimed ← ask (.claimPending context batch)
  let pending ← liftM claimed
  deliverAll handlers context pending ⟨0, 0, 0, 0⟩

end

/-! ## Messages with a handler -/

section

variable {handlers : List String}

def handles (handlers : List String) (message : OutboxMessage) : Bool :=
  decide (message.topic ∈ handlers)

def handedIds (handlers : List String) (messages : List OutboxMessage) : List OutboxId :=
  (messages.filter (handles handlers)).map (·.id)

theorem handedIds_cons (message : OutboxMessage) (messages : List OutboxMessage) :
    handedIds handlers (message :: messages) =
      handedIds handlers [message] ++ handedIds handlers messages := by
  unfold handedIds
  by_cases h : handles handlers message = true <;> simp [h]

variable {message : OutboxMessage}

theorem handedIds_cons_of_mem (h : message.topic ∈ handlers) (messages : List OutboxMessage) :
    handedIds handlers (message :: messages) = message.id :: handedIds handlers messages := by
  have hhandled : handles handlers message = true := decide_eq_true h
  rw [handedIds, filter_cons_of_pos hhandled]
  rfl

theorem handedIds_cons_of_not_mem (h : message.topic ∉ handlers) (messages : List OutboxMessage) :
    handedIds handlers (message :: messages) = handedIds handlers messages := by
  have hunhandled : ¬ handles handlers message = true := by simpa [handles] using h
  rw [handedIds, filter_cons_of_neg hunhandled]
  rfl

theorem mem_handedIds {messages : List OutboxMessage} {id : OutboxId} :
    id ∈ handedIds handlers messages ↔
      ∃ message ∈ messages, message.topic ∈ handlers ∧ message.id = id := by
  simp [handedIds, handles, and_assoc]

end

/-! ## What a call can do to the table -/

section

variable {host : OutboxHost} {α : Type} {fault : Option Fault}
  {t : List OutboxRow → AppResult (α × List OutboxRow)}

theorem OutboxHost.onRows_state {Q : OutboxHost → Prop} (h : Q host)
    (hok : ∀ a rows, t host.rows = .ok (a, rows) → Q { host with rows }) :
    Q (host.onRows t fault).2 := by
  have hcommit : ∀ a next, (do
      let (a, rows) ← t host.rows
      return (a, { host with rows }) : AppResult (α × OutboxHost)) = .ok (a, next) →
        Q next := by
    intro a next hnext
    obtain ⟨_, ht, hret⟩ := bind_eq_ok.mp hnext
    cases pure_eq_ok.mp hret
    exact hok _ _ ht
  unfold onRows
  split
  · exact transact_state h hcommit
  · exact h
  · exact transact_state h hcommit

theorem OutboxHost.onRows_frame :
    (host.onRows t fault).2 = { host with rows := (host.onRows t fault).2.rows } :=
  onRows_state (Q := fun next => next = { host with rows := next.rows }) rfl
    fun _ _ _ => rfl

theorem exec_save (host : OutboxHost) (context : RequestContext) (message : OutboxMessage) :
    ∃ rows, (exec (.save context message) host).2 =
        { host with rows := rows, tick := host.tick + 1 } ∧
      (rows = host.rows ∨ (message.id ∉ host.rows.map (·.id) ∧
        rows = host.rows ++ [OutboxRow.born (host.weather host.tick).now message])) := by
  let Q : List OutboxRow → Prop := fun rows => rows = host.rows ∨
    (message.id ∉ host.rows.map (·.id) ∧
      rows = host.rows ++ [OutboxRow.born (host.weather host.tick).now message])
  have hrows : Q (exec (.save context message) host).2.rows := by
    refine onRows_state (Q := fun next => Q next.rows) (Or.inl rfl) fun _ _ hok => ?_
    obtain ⟨hnew, hok⟩ := unit_bind_eq_ok.mp (of_unit_bind hok)
    cases pure_eq_ok.mp hok
    refine Or.inr ⟨fun hmem => refuse_eq_ok.mp hnew ?_, rfl⟩
    obtain ⟨row, hrow, hid⟩ := mem_map.mp hmem
    exact any_eq_true.mpr ⟨row, hrow, beq_iff_eq.mpr hid⟩
  exact ⟨_, onRows_frame, hrows⟩

/-- Ids stay unique. -/
theorem nodup_save (context : RequestContext) (message : OutboxMessage)
    (hids : (host.rows.map (·.id)).Nodup) :
    ((exec (.save context message) host).2.rows.map (·.id)).Nodup := by
  obtain ⟨rows, hexec, hrows⟩ := exec_save host context message
  rw [hexec]
  rcases hrows with rfl | ⟨hnew, rfl⟩
  · exact hids
  · show ((host.rows ++ _).map _).Nodup
    rw [map_append]
    exact nodup_append'.mpr ⟨hids, nodup_singleton _, disjoint_singleton.mpr hnew⟩

end

/-! ## A message in hand -/

section

variable {context : RequestContext} {host : OutboxHost} {rows : List OutboxRow}
  {message : OutboxMessage}

structure InHand (context : RequestContext) (message : OutboxMessage) (row : OutboxRow) : Prop where
  message : row.message = message
  workspaceId : row.workspaceId = context.workspaceId
  live : row.live = true

theorem InHand.id (h : InHand context message row) :
    row.id = message.id := congrArg OutboxMessage.id h.message

theorem InHand.attempts (h : InHand context message row) : row.attempts = message.attempts :=
  congrArg OutboxMessage.attempts h.message

theorem InHand.acknowledgeable (h : InHand context message row) :
    acknowledgeable context message.id row = true := by
  simp [Outbox.acknowledgeable, h.id, h.workspaceId, (OutboxRow.live_iff.mp h.live).1]

theorem eq_of_id {a b : OutboxRow} (hids : (rows.map (·.id)).Nodup) (ha : a ∈ rows) (hb : b ∈ rows)
    (h : a.id = b.id) : a = b :=
  inj_on_of_nodup_map hids ha hb h

theorem eq_of_acknowledgeable {other : OutboxRow} (hids : (rows.map (·.id)).Nodup)
    (hrow : row ∈ rows) (hhand : InHand context message row) (hother : other ∈ rows)
    (h : acknowledgeable context message.id other = true) : other = row := by
  simp only [Outbox.acknowledgeable, Bool.and_eq_true, beq_iff_eq] at h
  exact eq_of_id hids hother hrow (h.1.1.trans hhand.id.symm)

theorem any_acknowledgeable {p : OutboxRow → Bool} (hids : (rows.map (·.id)).Nodup)
    (hrow : row ∈ rows) (hhand : InHand context message row) (hp : p row = false) :
    ¬ (rows.any fun row => acknowledgeable context message.id row && p row) = true := by
  intro hany
  obtain ⟨other, hother, hboth⟩ := any_eq_true.mp hany
  rw [Bool.and_eq_true] at hboth
  rw [eq_of_acknowledgeable hids hrow hhand hother hboth.1, hp] at hboth
  cases hboth.2

def OutboxHost.Calm (host : OutboxHost) : Prop := ∀ n, (host.weather n).fault = none

theorem OutboxHost.onRows_none {α : Type} {a : α}
    {t : List OutboxRow → AppResult (α × List OutboxRow)}
    (ht : t host.rows = .ok (a, rows)) :
    host.onRows t none = (.ok a, { host with rows := rows }) := by
  unfold onRows
  refine transact_ok.mpr ?_
  rw [ht]
  rfl

theorem OutboxHost.Calm.exec (h : host.Calm) (call : OutboxCall) :
    exec call host = execIn
      ⟨none, (host.weather host.tick).now, (host.weather host.tick).answer⟩ call
      { host with tick := host.tick + 1 } := by
  rw [← h host.tick]
  rfl

theorem exec_markProcessed (hcalm : host.Calm) (hids : (host.rows.map (·.id)).Nodup)
    (hrow : row ∈ host.rows) (hhand : InHand context message row) :
    exec (.markProcessed context message.id) host =
      (.ok (), { host with
        rows := host.rows.map (updateOpen context message.id
          (OutboxRow.processed (host.weather host.tick).now))
        tick := host.tick + 1 }) := by
  rw [hcalm.exec]
  exact onRows_none (t := fun rows => markProcessed context _ rows message.id)
    (refuse_bind_neg (any_acknowledgeable hids hrow hhand (by
      rw [(OutboxRow.live_iff.mp hhand.live).2]
      rfl)))

theorem exec_recordFailure (error : String) (retryAfter : ℤ) (deadLetter : Bool)
    (hcalm : host.Calm) (hids : (host.rows.map (·.id)).Nodup) (hrow : row ∈ host.rows)
    (hhand : InHand context message row) (hroom : row.attempts < integerMax) :
    exec (.recordFailure context message.id error retryAfter deadLetter) host =
      (.ok (), { host with
        rows := host.rows.map (updateOpen context message.id (OutboxRow.refused
          (host.weather host.tick).now error retryAfter deadLetter))
        tick := host.tick + 1 }) := by
  rw [hcalm.exec]
  exact onRows_none
    (t := fun rows => recordFailure context _ rows message.id error retryAfter deadLetter)
    (refuse_bind_neg (any_acknowledgeable hids hrow hhand (beq_eq_false_iff_ne.mpr hroom.ne)))

variable (context) in
theorem exec_claimPending (limit : UInt32) (hcalm : host.Calm) :
    exec (.claimPending context limit) host =
      (.ok (claimPending context (host.weather host.tick).now host.rows limit),
        { host with tick := host.tick + 1 }) := by
  rw [hcalm.exec]
  exact onRows_none (t := fun rows => .ok (claimPending context _ rows limit, rows)) rfl

end

/-! ## What is claimed -/

section

variable {context : RequestContext} {rows : List OutboxRow} {now : Timestamp} {limit : UInt32}

theorem mem_of_mem_claimRows (h : row ∈ claimRows context now rows limit) :
    row ∈ rows ∧ claimable context now row = true :=
  mem_filter.mp ((mem_insertionSort _).mp (mem_of_mem_take h))

theorem claimable_iff : claimable context now row = true ↔
    row.workspaceId = context.workspaceId ∧ row.live = true ∧ row.nextAttemptAt ≤ now := by
  simp [claimable, and_assoc]

theorem claimPending_distinct (hids : (rows.map (·.id)).Nodup) :
    ((claimPending context now rows limit).map (·.id)).Nodup := by
  have heligible := hids.sublist ((filter_sublist (p := claimable context now)).map (·.id))
  have hsorted := ((perm_insertionSort (fun a b : OutboxRow => a.key ≤ b.key) _).map
    (·.id)).nodup_iff.mpr heligible
  rw [claimPending, map_map]
  exact hsorted.sublist ((take_sublist _ _).map _)

theorem claimPending_inHand {message : OutboxMessage}
    (h : message ∈ claimPending context now rows limit) :
    ∃ row ∈ rows, InHand context message row := by
  obtain ⟨row, hrow, rfl⟩ := mem_map.mp h
  obtain ⟨hmem, hclaimable⟩ := mem_of_mem_claimRows hrow
  obtain ⟨hws, hlive, -⟩ := claimable_iff.mp hclaimable
  exact ⟨row, hmem, rfl, hws, hlive⟩

end

end Vestrace.Outbox
