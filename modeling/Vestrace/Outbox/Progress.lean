import Mathlib.Algebra.Order.BigOperators.Group.List
import Mathlib.Algebra.Order.Ring.Nat
import Vestrace.Outbox.Drain

/-!
# Who waits in the outbox

Drains of one workspace, one after the other, with new messages coming in between. A message
that is handed over leaves the queue or has one attempt less to go, so the older messages get out
of the way of a younger one. But one whose topic nobody handles keeps its place at the head of the
queue (`passed_over_for_ever`).
-/

namespace Vestrace.Outbox

open Lib Effects List Nat OutboxRow

variable {row row' : OutboxRow} {messages : List OutboxMessage} {host' : OutboxHost}
  {message : OutboxMessage}

/-! ## One drain -/

section

variable {handlers : List String} {ctx : RequestContext} {host : OutboxHost}

/-- What becomes of a row when the messages under these ids are handed over: of the others
nothing; of those, one more attempt unless that was the last. -/
structure Turn (ids : List OutboxId) (row row' : OutboxRow) : Prop where
  id : row'.id = row.id
  workspaceId : row'.workspaceId = row.workspaceId
  topic : row'.topic = row.topic
  createdAt : row'.createdAt = row.createdAt
  others : row.id ∉ ids → row' = row
  settled : row.live = false → row' = row
  handed : row.id ∈ ids → row.live = true → row'.live = true →
    row'.attempts = row.attempts + 1 ∧ row.attempts + 1 < maxDeliveryAttempts

theorem Turn.key {ids : List OutboxId} (h : Turn ids row row') : row'.key = row.key := by
  unfold OutboxRow.key
  rw [h.id, h.createdAt]

theorem Turn.refl (row : OutboxRow) : Turn [] row row :=
  ⟨rfl, rfl, rfl, rfl, fun _ => rfl, fun _ => rfl, fun h => absurd h not_mem_nil⟩

/-- One message after the other, and none twice. -/
theorem Turn.append {ids ids' : List OutboxId} {a b c : OutboxRow} (h : Turn ids a b)
    (h' : Turn ids' b c) (hnew : ∀ id ∈ ids, id ∉ ids') : Turn (ids ++ ids') a c := by
  refine ⟨h'.id.trans h.id, h'.workspaceId.trans h.workspaceId, h'.topic.trans h.topic,
    h'.createdAt.trans h.createdAt, ?_, ?_, ?_⟩
  · intro hother
    rw [mem_append, not_or] at hother
    rw [h'.others (h.id ▸ hother.2), h.others hother.1]
  · intro hdone
    rw [h.settled hdone] at h'
    exact h'.settled hdone
  · intro hmem hlive hlive'
    by_cases hfirst : a.id ∈ ids
    · rw [h'.others (by rw [h.id]; exact hnew _ hfirst)] at hlive' ⊢
      exact h.handed hfirst hlive hlive'
    · rw [h.others hfirst] at h'
      exact h'.handed ((mem_append.mp hmem).resolve_left hfirst) hlive hlive'

section

variable {rows : List OutboxRow} {now : Timestamp}

theorem turn_updateOpen {g : OutboxRow → OutboxRow} (hids : (rows.map (·.id)).Nodup)
    (hrow : row ∈ rows) (hhand : InHand ctx message row) (hg : Turn [message.id] row (g row)) :
    ∀ other ∈ rows, Turn [message.id] other (updateOpen ctx message.id g other) := by
  intro other hother
  unfold updateOpen
  by_cases hack : acknowledgeable ctx message.id other = true
  · rw [if_pos hack, eq_of_acknowledgeable hids hrow hhand hother hack]
    exact hg
  · rw [if_neg hack]
    refine ⟨rfl, rfl, rfl, rfl, fun _ => rfl, fun _ => rfl, fun hid _ _ => absurd ?_ hack⟩
    rw [eq_of_id hids hother hrow ((mem_singleton.mp hid).trans hhand.id.symm)]
    exact hhand.acknowledgeable

theorem turn_processed (hhand : InHand ctx message row) :
    Turn [message.id] row (row.processed now) := by
  refine ⟨rfl, rfl, rfl, rfl, fun hne => ?_, fun hdone => ?_, fun _ _ hlive => ?_⟩
  · exact absurd (mem_singleton.mpr hhand.id) hne
  · exact absurd hhand.live (Bool.eq_false_iff.mp hdone)
  · simp [live, processed] at hlive

/-- The message is set aside with its last attempt. -/
theorem turn_refused {error : String} {retryAfter : ℤ} (hhand : InHand ctx message row) :
    Turn [message.id] row (row.refused now error retryAfter
      (decide (maxDeliveryAttempts ≤ message.attempts + 1))) := by
  refine ⟨rfl, rfl, rfl, rfl, fun hne => ?_, fun hdone => ?_, fun _ _ hlive => ⟨rfl, ?_⟩⟩
  · exact absurd (mem_singleton.mpr hhand.id) hne
  · exact absurd hhand.live (Bool.eq_false_iff.mp hdone)
  · rw [hhand.attempts]
    by_contra hlast
    rw [not_lt] at hlast
    simp [live, refused, hlast] at hlive

end

theorem acknowledge_run (report : DrainReport) (answer : AppResult Unit)
    (hcalm : host.Calm) (hids : (host.rows.map (·.id)).Nodup) (hrow : row ∈ host.rows)
    (hhand : InHand ctx message row) (hroom : row.attempts < integerMax) :
    ∃ report' f, (acknowledge ctx message report answer).run host =
        (.ok report', { host with rows := host.rows.map f, tick := host.tick + 1 }) ∧
      ∀ row ∈ host.rows, Turn [message.id] row (f row) := by
  cases answer with
  | ok _ =>
    refine ⟨{ report with delivered := report.delivered + 1 },
      updateOpen ctx message.id (processed (host.weather host.tick).now), ?_,
      turn_updateOpen hids hrow hhand (turn_processed hhand)⟩
    exact run_ask_bind (exec_markProcessed hcalm hids hrow hhand)
  | error error =>
    refine ⟨{ report with
        failed := report.failed + 1
        deadLettered := report.deadLettered +
          if decide (maxDeliveryAttempts ≤ message.attempts + 1) then 1 else 0 },
      updateOpen ctx message.id (refused (host.weather host.tick).now error.display
        (retryDelay (message.attempts + 1)) (decide (maxDeliveryAttempts ≤ message.attempts + 1))),
      ?_, turn_updateOpen hids hrow hhand (turn_refused hhand)⟩
    exact run_ask_bind (exec_recordFailure error.display _ _ hcalm hids hrow hhand hroom)

structure Drained (handlers : List String) (messages : List OutboxMessage)
    (host host' : OutboxHost) : Prop where
  rows : ∃ f, host'.rows = host.rows.map f ∧
    ∀ row ∈ host.rows, Turn (handedIds handlers messages) row (f row)
  handled : host'.handled.map Prod.fst =
    host.handled.map Prod.fst ++ messages.filter (handles handlers)
  weather : host'.weather = host.weather
  tick : host.tick ≤ host'.tick

theorem Drained.refl (host : OutboxHost) : Drained handlers [] host host :=
  ⟨⟨id, (map_id _).symm, fun row _ => Turn.refl row⟩, (append_nil _).symm, rfl, le_rfl⟩

theorem Drained.ids (h : Drained handlers messages host host') :
    host'.rows.map (·.id) = host.rows.map (·.id) := by
  obtain ⟨f, hrows, hf⟩ := h.rows
  rw [hrows, map_map]
  exact map_congr_left fun row hrow => (hf row hrow).id

theorem Drained.calm (h : Drained handlers messages host host') (hcalm : host.Calm) :
    host'.Calm := by
  intro n
  rw [h.weather]
  exact hcalm n

theorem Drained.cons {t : OutboxHost} (h : Drained handlers [message] host t)
    (h' : Drained handlers messages t host') (hnew : message.id ∉ messages.map (·.id)) :
    Drained handlers (message :: messages) host host' := by
  obtain ⟨f, hrows, hf⟩ := h.rows
  obtain ⟨g, hrows', hg⟩ := h'.rows
  refine ⟨⟨g ∘ f, ?_, ?_⟩, ?_, h'.weather.trans h.weather, h.tick.trans h'.tick⟩
  · rw [hrows', hrows, map_map]
  · intro row hrow
    rw [handedIds_cons]
    refine (hf row hrow).append (hg _ ?_) ?_
    · rw [hrows]
      exact mem_map_of_mem hrow
    · intro id hid hid'
      obtain ⟨first, hfirst, -, rfl⟩ := mem_handedIds.mp hid
      obtain ⟨other, hother, -, hsame⟩ := mem_handedIds.mp hid'
      rw [mem_singleton.mp hfirst] at hsame
      exact hnew (mem_map.mpr ⟨other, hother, hsame⟩)
  · rw [h'.handled, h.handled, append_assoc, ← filter_append, singleton_append]

structure Claimed (context : RequestContext) (rows : List OutboxRow)
    (messages : List OutboxMessage) : Prop where
  distinct : (messages.map (·.id)).Nodup
  rowOf : ∀ message ∈ messages, ∃ row ∈ rows, InHand context message row ∧
    row.attempts < integerMax

theorem deliver_run (report : DrainReport) (hcalm : host.Calm) (hids : (host.rows.map (·.id)).Nodup)
    (hrow : row ∈ host.rows) (hhand : InHand ctx message row)
    (hroom : row.attempts < integerMax) :
    ∃ report' host', (deliver handlers ctx message report).run host = (.ok report', host') ∧
      Drained handlers [message] host host' := by
  unfold deliver
  by_cases htopic : message.topic ∈ handlers
  · rw [if_pos htopic]
    have hhandled : handles handlers message = true := decide_eq_true htopic
    let answer := (host.weather host.tick).answer
    let t : OutboxHost := { host with
      handled := host.handled ++ [(message, answer)], tick := host.tick + 1 }
    have hcalm' : t.Calm := hcalm
    obtain ⟨report', f, hrun, hturn⟩ :=
      acknowledge_run report answer hcalm' hids hrow hhand hroom
    refine ⟨report', _, (run_ask_bind rfl).trans hrun, ⟨f, rfl, ?_⟩, ?_, rfl, ?_⟩
    · rw [handedIds, filter_cons_of_pos hhandled, filter_nil]
      exact hturn
    · rw [filter_cons_of_pos hhandled]
      exact map_append
    · show host.tick ≤ host.tick + 1 + 1
      omega
  · rw [if_neg htopic]
    have hunhandled : ¬ handles handlers message = true := by simpa [handles] using htopic
    refine ⟨_, host, rfl, ⟨id, (map_id _).symm, ?_⟩, ?_, rfl, le_rfl⟩
    · rw [handedIds, filter_cons_of_neg hunhandled]
      exact fun row _ => Turn.refl row
    · rw [filter_cons_of_neg hunhandled]
      exact (append_nil _).symm

variable (handlers) in
theorem deliverAll_run (messages : List OutboxMessage) (report : DrainReport) (hcalm : host.Calm)
    (hids : (host.rows.map (·.id)).Nodup) (hclaimed : Claimed ctx host.rows messages) :
    ∃ report' host', (deliverAll handlers ctx messages report).run host =
        (.ok report', host') ∧ Drained handlers messages host host' := by
  induction messages generalizing host report with
  | nil => exact ⟨report, host, rfl, Drained.refl host⟩
  | cons message messages ih =>
    obtain ⟨hnew, hdistinct⟩ := nodup_cons.mp hclaimed.distinct
    obtain ⟨row, hrow, hhand, hroom⟩ := hclaimed.rowOf message mem_cons_self
    obtain ⟨report', t, hrun, hfirst⟩ := deliver_run report hcalm hids hrow hhand hroom
    have hrest : Claimed ctx t.rows messages := by
      refine ⟨hdistinct, fun other hother => ?_⟩
      obtain ⟨row', hrow', hhand', hroom'⟩ :=
        hclaimed.rowOf other (mem_cons_of_mem _ hother)
      obtain ⟨f, hrows, hf⟩ := hfirst.rows
      -- the row of another message is as it was
      have hsame : f row' = row' := by
        refine (hf row' hrow').others fun hid => hnew ?_
        obtain ⟨_, hmem, -, hid⟩ := mem_handedIds.mp hid
        rw [mem_singleton.mp hmem, hhand'.id] at hid
        exact mem_map.mpr ⟨other, hother, hid.symm⟩
      refine ⟨row', ?_, hhand', hroom'⟩
      rw [hrows, ← hsame]
      exact mem_map_of_mem hrow'
    obtain ⟨report'', host', hrun', hdrained⟩ := ih report' (hfirst.calm hcalm)
      (hfirst.ids ▸ hids) hrest
    refine ⟨report'', host', ?_, hfirst.cons hdrained hnew⟩
    rw [deliverAll, Prog.run_bind, hrun]
    exact hrun'

section

variable {rows : List OutboxRow} {now : Timestamp} {limit : UInt32}

theorem claimRows_sorted (ctx : RequestContext) (now : Timestamp) (rows : List OutboxRow) :
    ((rows.filter (claimable ctx now)).insertionSort
      fun a b => a.key ≤ b.key).Pairwise fun a b => a.key ≤ b.key :=
  pairwise_insertionSort _ _

theorem claimRows_full (hrow : row ∈ rows) (hclaimable : claimable ctx now row = true)
    (hnot : row ∉ claimRows ctx now rows limit) :
    (claimRows ctx now rows limit).length = limit.toNat ∧
      ∀ other ∈ claimRows ctx now rows limit, other.key ≤ row.key := by
  have hmem : row ∈ (rows.filter (claimable ctx now)).insertionSort fun a b => a.key ≤ b.key :=
    (mem_insertionSort _).mpr (mem_filter.mpr ⟨hrow, hclaimable⟩)
  have hsplit := take_append_drop limit.toNat
    ((rows.filter (claimable ctx now)).insertionSort fun a b => a.key ≤ b.key)
  have hdrop : row ∈ ((rows.filter (claimable ctx now)).insertionSort
      fun a b => a.key ≤ b.key).drop limit.toNat := by
    rw [← hsplit] at hmem
    exact (mem_append.mp hmem).resolve_left hnot
  refine ⟨?_, fun other hother => ?_⟩
  · rw [claimRows, length_take]
    have hlength := length_pos_of_mem hdrop
    rw [length_drop] at hlength
    omega
  · have hsorted := claimRows_sorted ctx now rows
    rw [← hsplit, pairwise_append] at hsorted
    exact hsorted.2.2 other hother row hdrop

theorem countP_ahead_lt (h : row ∈ claimRows ctx now rows limit) :
    rows.countP (fun other => claimable ctx now other && decide (other.key < row.key)) <
      limit.toNat := by
  have hsorted := claimRows_sorted ctx now rows
  have hperm := perm_insertionSort (fun a b : OutboxRow => a.key ≤ b.key)
    (rows.filter (claimable ctx now))
  rw [← take_append_drop limit.toNat (List.insertionSort _ _)] at hsorted hperm
  obtain ⟨before, after, htake⟩ := append_of_mem h
  unfold claimRows at htake
  have hlength := length_take_le limit.toNat
    ((rows.filter (claimable ctx now)).insertionSort fun a b => a.key ≤ b.key)
  rw [htake, length_append, length_cons] at hlength
  rw [htake, append_assoc, cons_append] at hsorted hperm
  -- those ahead are all before it
  have hafter : (row :: (after ++ ((rows.filter (claimable ctx now)).insertionSort
      fun a b => a.key ≤ b.key).drop limit.toNat)).countP
      (fun other => decide (other.key < row.key)) = 0 := by
    refine countP_eq_zero.mpr fun other hother hlt => ?_
    have hrest := (pairwise_append.mp hsorted).2.1
    rcases mem_cons.mp hother with rfl | hother
    · exact lt_irrefl _ (of_decide_eq_true hlt)
    · exact absurd (of_decide_eq_true hlt) (not_lt.mpr (rel_of_pairwise_cons hrest hother))
  calc rows.countP (fun other => claimable ctx now other && decide (other.key < row.key))
      = (rows.filter (claimable ctx now)).countP
          (fun other => decide (other.key < row.key)) := by
        rw [countP_filter]
        simp only [Bool.and_comm]
    _ = before.countP (fun other => decide (other.key < row.key)) := by
        rw [← hperm.countP_eq, countP_append, hafter, add_zero]
    _ ≤ before.length := countP_le_length
    _ < limit.toNat := by omega

end

variable (handlers ctx) in
/-- **A drain when nobody interferes.** -/
theorem drainOnce_run (batch : UInt32) (hcalm : host.Calm) (hids : (host.rows.map (·.id)).Nodup)
    (hroom : ∀ row ∈ host.rows, row.live = true → row.attempts < integerMax) :
    ∃ report host', (drainOnce handlers ctx batch).run host = (.ok report, host') ∧
      Drained handlers (claimPending ctx (host.weather host.tick).now host.rows batch) host
        host' := by
  have hcalm' : ({ host with tick := host.tick + 1 } : OutboxHost).Calm := hcalm
  have hclaimed : Claimed ctx host.rows
      (claimPending ctx (host.weather host.tick).now host.rows batch) := by
    refine ⟨claimPending_distinct hids, fun message hmem => ?_⟩
    obtain ⟨row, hrow, hhand⟩ := claimPending_inHand hmem
    exact ⟨row, hrow, hhand, hroom row hrow hhand.live⟩
  obtain ⟨report, host', hrun, hdrained⟩ :=
    deliverAll_run handlers _ ⟨0, 0, 0, 0⟩ hcalm' hids hclaimed
  refine ⟨report, host', (run_ask_bind (exec_claimPending ctx batch hcalm)).trans hrun,
    hdrained.rows, hdrained.handled,
    hdrained.weather, (le_succ _).trans hdrained.tick⟩

end

/-! ## One drain after the other -/

/-- Drains of one workspace, and what producers save between them. -/
structure Course where
  handlers : List String
  context : RequestContext
  batch : UInt32
  start : OutboxHost
  arrivals : ℕ → List (RequestContext × OutboxMessage)

def OutboxHost.saveAll (host : OutboxHost) (messages : List (RequestContext × OutboxMessage)) :
    OutboxHost :=
  messages.foldl (fun host (context, message) =>
    (OutboxHost.exec (.save context message) host).2) host

namespace Course

section

variable (c : Course) (target row : OutboxRow)

def hostBefore : ℕ → OutboxHost
  | 0 => c.start
  | i + 1 => ((drainOnce c.handlers c.context c.batch).run (hostBefore i)).2.saveAll (c.arrivals i)

def claimedAt (i : ℕ) : List OutboxRow :=
  claimRows c.context ((c.hostBefore i).weather (c.hostBefore i).tick).now (c.hostBefore i).rows
    c.batch

def handed (i : ℕ) : List OutboxMessage :=
  (((drainOnce c.handlers c.context c.batch).run (c.hostBefore i)).2.handled.map Prod.fst).drop
    (c.hostBefore i).handled.length

/-- An older message of the workspace that is neither processed nor set aside. -/
def ahead : Bool :=
  row.workspaceId == c.context.workspaceId && row.live && decide (row.key < target.key)

def blocks : Bool :=
  c.ahead target row && !decide (row.topic ∈ c.handlers)

def burden : ℕ :=
  if c.ahead target row && decide (row.topic ∈ c.handlers) then
    maxDeliveryAttempts - min row.attempts (maxDeliveryAttempts - 1)
  else 0

end

/-- The database answers, its clock does not go back, ids are unique, no message is one attempt
short of the largest `integer`, and new messages get a later `created_at` than the one that waits.
-/
structure Regular (c : Course) (target : OutboxRow) : Prop where
  calm : c.start.Calm
  clock : ∀ m n, m ≤ n → (c.start.weather m).now ≤ (c.start.weather n).now
  ids : (c.start.rows.map (·.id)).Nodup
  room : ∀ row ∈ c.start.rows, row.live = true → row.attempts < integerMax
  later : ∀ i, ∀ arrival ∈ c.arrivals i, target.createdAt < pgTime arrival.2.createdAt

/-- A message that waits: due, neither processed nor set aside, and with a handler. -/
structure Due (c : Course) (target : OutboxRow) : Prop where
  mem : target ∈ c.start.rows
  claimable : claimable c.context (c.start.weather c.start.tick).now target = true
  topic : target.topic ∈ c.handlers

section

variable {c : Course} {target : OutboxRow} {host : OutboxHost}

/-- What holds when a drain begins, whatever has been handed over. -/
structure Steady (c : Course) (host : OutboxHost) : Prop where
  weather : host.weather = c.start.weather
  tick : c.start.tick ≤ host.tick
  ids : (host.rows.map (·.id)).Nodup
  room : ∀ row ∈ host.rows, row.live = true → row.attempts < integerMax

theorem Steady.calm (h : c.Steady host) (hregular : c.Regular target) : host.Calm := by
  intro n
  rw [h.weather]
  exact hregular.calm n

theorem Steady.drained (h : c.Steady host) (hdrained : Drained c.handlers messages host host') :
    c.Steady host' := by
  refine ⟨hdrained.weather.trans h.weather, h.tick.trans hdrained.tick, hdrained.ids ▸ h.ids, ?_⟩
  obtain ⟨f, hrows, hf⟩ := hdrained.rows
  rw [hrows]
  intro row' hrow' hlive'
  obtain ⟨row, hrow, rfl⟩ := mem_map.mp hrow'
  have hturn := hf row hrow
  by_cases hlive : row.live = true
  · by_cases hid : row.id ∈ handedIds c.handlers messages
    · obtain ⟨hattempts, hlast⟩ := hturn.handed hid hlive hlive'
      rw [hattempts]
      exact hlast.trans (by decide)
    · rw [hturn.others hid]
      exact h.room row hrow hlive
  · rw [hturn.settled (Bool.eq_false_iff.mpr hlive)] at hlive'
    exact absurd hlive' hlive

def Newer (target row : OutboxRow) : Prop := row.attempts = 0 ∧ target.createdAt < row.createdAt

theorem Steady.save (h : c.Steady host) (ctx : RequestContext)
    (hlater : target.createdAt < pgTime message.createdAt) :
    c.Steady (OutboxHost.exec (.save ctx message) host).2 ∧
      ∃ added, (OutboxHost.exec (.save ctx message) host).2.rows = host.rows ++ added ∧
        ∀ row ∈ added, Newer target row := by
  have hids := nodup_save ctx message h.ids
  obtain ⟨rows, hexec, hrows⟩ := exec_save host ctx message
  rw [hexec] at hids ⊢
  rcases hrows with rfl | ⟨-, rfl⟩
  · exact ⟨⟨h.weather, h.tick.trans (le_succ _), hids, h.room⟩, [],
      (append_nil _).symm, fun _ hrow => absurd hrow not_mem_nil⟩
  · refine ⟨⟨h.weather, h.tick.trans (le_succ _), hids, ?_⟩, _, rfl, ?_⟩
    · intro row hrow hlive
      rcases mem_append.mp hrow with hrow | hrow
      · exact h.room row hrow hlive
      · rw [mem_singleton.mp hrow]
        show 0 < integerMax
        decide
    · intro row hrow
      rw [mem_singleton.mp hrow]
      exact ⟨rfl, hlater⟩

theorem Steady.saveAll {arrivals : List (RequestContext × OutboxMessage)} (h : c.Steady host)
    (hlater : ∀ arrival ∈ arrivals, target.createdAt < pgTime arrival.2.createdAt) :
    c.Steady (host.saveAll arrivals) ∧ ∃ added, (host.saveAll arrivals).rows = host.rows ++ added ∧
      ∀ row ∈ added, Newer target row := by
  induction arrivals generalizing host with
  | nil => exact ⟨h, [], (append_nil _).symm, fun _ hrow => absurd hrow not_mem_nil⟩
  | cons arrival arrivals ih =>
    obtain ⟨hfirst, hrest⟩ := forall_mem_cons.mp hlater
    obtain ⟨hsteady, first, hrows, hnewer⟩ := h.save arrival.1 hfirst
    obtain ⟨hsteady', rest, hrows', hnewer'⟩ := ih hsteady hrest
    refine ⟨hsteady', first ++ rest, ?_, ?_⟩
    · rw [← append_assoc, ← hrows]
      exact hrows'
    · exact forall_mem_append.mpr ⟨hnewer, hnewer'⟩

/-- The ids under which the `i`-th drain hands messages over. -/
def handedAt (c : Course) (i : ℕ) : List OutboxId := (c.handed i).map (·.id)

structure Round (c : Course) (target : OutboxRow) (i : ℕ) : Prop where
  handed : c.handed i = ((c.claimedAt i).map (·.message)).filter (handles c.handlers)
  rows : ∃ f added, (c.hostBefore (i + 1)).rows = (c.hostBefore i).rows.map f ++ added ∧
    (∀ row ∈ (c.hostBefore i).rows, Turn (c.handedAt i) row (f row)) ∧
    ∀ row ∈ added, Newer target row

theorem Steady.round {i : ℕ} (h : c.Steady (c.hostBefore i)) (hregular : c.Regular target) :
    c.Steady (c.hostBefore (i + 1)) ∧ c.Round target i := by
  obtain ⟨report, host', hrun, hdrained⟩ := drainOnce_run c.handlers c.context c.batch
    (h.calm hregular) h.ids h.room
  obtain ⟨hsteady, added, hrows', hnewer⟩ := (h.drained hdrained).saveAll (hregular.later i)
  have hhanded : c.handed i = ((c.claimedAt i).map (·.message)).filter (handles c.handlers) := by
    rw [handed, hrun, hdrained.handled]
    exact drop_left' (length_map ..)
  have hnext : c.hostBefore (i + 1) = host'.saveAll (c.arrivals i) := by
    rw [hostBefore, hrun]
  refine ⟨hnext ▸ hsteady, hhanded, ?_⟩
  obtain ⟨f, hrows, hf⟩ := hdrained.rows
  refine ⟨f, added, ?_, ?_, hnewer⟩
  · rw [hnext, hrows', hrows]
  · rw [handedAt, hhanded]
    exact hf

theorem steady (hregular : c.Regular target) (i : ℕ) : c.Steady (c.hostBefore i) := by
  induction i with
  | zero => exact ⟨rfl, le_rfl, hregular.ids, hregular.room⟩
  | succ i ih => exact (ih.round hregular).1

theorem ahead_iff : c.ahead target row = true ↔
    row.workspaceId = c.context.workspaceId ∧ row.live = true ∧ row.key < target.key := by
  simp [ahead, and_assoc]

theorem Newer.not_ahead (h : Newer target row) : c.ahead target row = false := by
  refine Bool.eq_false_iff.mpr fun hahead => ?_
  have hlt := (ahead_iff.mp hahead).2.2
  rw [key, key, Prod.Lex.toLex_lt_toLex] at hlt
  rcases hlt with hlt | ⟨heq, -⟩
  · exact lt_irrefl _ (h.2.trans hlt)
  · exact h.2.ne heq.symm

theorem ahead_of_turn {ids : List OutboxId} (h : Turn ids row row')
    (hahead : c.ahead target row' = true) : c.ahead target row = true := by
  obtain ⟨hws, hlive', hkey⟩ := ahead_iff.mp hahead
  refine ahead_iff.mpr ⟨h.workspaceId ▸ hws, ?_, h.key ▸ hkey⟩
  by_contra hlive
  rw [h.settled (Bool.eq_false_iff.mpr hlive)] at hlive'
  exact hlive hlive'

theorem burden_of_ahead (hahead : c.ahead target row = true) (htopic : row.topic ∈ c.handlers) :
    c.burden target row = maxDeliveryAttempts - min row.attempts (maxDeliveryAttempts - 1) := by
  rw [burden, hahead, decide_eq_true htopic]
  rfl

theorem burden_eq_zero
    (h : ¬ (c.ahead target row = true ∧ row.topic ∈ c.handlers)) : c.burden target row = 0 := by
  refine if_neg fun hboth => h ?_
  rwa [Bool.and_eq_true, decide_eq_true_eq] at hboth

/-- A message that is handed over comes one step closer to its end. -/
theorem burden_lt {ids : List OutboxId} (h : Turn ids row row')
    (hid : row.id ∈ ids) (hahead : c.ahead target row = true) (htopic : row.topic ∈ c.handlers) :
    c.burden target row' < c.burden target row := by
  rw [burden_of_ahead hahead htopic]
  by_cases hstays : c.ahead target row' = true
  · obtain ⟨hattempts, hlast⟩ := h.handed hid (ahead_iff.mp hahead).2.1 (ahead_iff.mp hstays).2.1
    rw [burden_of_ahead hstays (h.topic ▸ htopic), hattempts]
    unfold maxDeliveryAttempts at hlast ⊢
    omega
  · rw [burden_eq_zero fun hboth => hstays hboth.1]
    unfold maxDeliveryAttempts
    omega

theorem burden_le {ids : List OutboxId} (h : Turn ids row row') :
    c.burden target row' ≤ c.burden target row := by
  by_cases hboth : c.ahead target row' = true ∧ row'.topic ∈ c.handlers
  · by_cases hid : row.id ∈ ids
    · exact (burden_lt h hid (ahead_of_turn h hboth.1) (h.topic ▸ hboth.2)).le
    · rw [h.others hid]
  · rw [burden_eq_zero hboth]
    exact zero_le _

def load (c : Course) (target : OutboxRow) (i : ℕ) : ℕ :=
  ((c.hostBefore i).rows.map (c.burden target)).sum

/-- How many older messages have no handler. -/
def blockers (c : Course) (target : OutboxRow) (i : ℕ) : ℕ :=
  (c.hostBefore i).rows.countP (c.blocks target)

variable {i : ℕ} {rows : List OutboxRow}

section

variable (h : c.Round target i)

include h

theorem Round.load_eq : ∃ f : OutboxRow → OutboxRow,
    (∀ row ∈ (c.hostBefore i).rows, Turn (c.handedAt i) row (f row)) ∧
      c.load target (i + 1) =
        ((c.hostBefore i).rows.map fun row => c.burden target (f row)).sum := by
  obtain ⟨f, added, hrows, hf, hnewer⟩ := h.rows
  refine ⟨f, hf, ?_⟩
  have hadded : (added.map (c.burden target)).sum = 0 := by
    refine sum_eq_zero fun weight hmem => ?_
    obtain ⟨row, hrow, rfl⟩ := mem_map.mp hmem
    exact burden_eq_zero fun hboth =>
      Bool.eq_false_iff.mp (Newer.not_ahead (hnewer row hrow)) hboth.1
  rw [load, hrows, map_append, List.sum_append, hadded, add_zero, map_map]
  rfl

theorem Round.blockers_le : c.blockers target (i + 1) ≤ c.blockers target i := by
  obtain ⟨f, added, hrows, hf, hnewer⟩ := h.rows
  have hadded : added.countP (c.blocks target) = 0 := by
    refine countP_eq_zero.mpr fun row hrow hblocks => ?_
    rw [blocks, Newer.not_ahead (hnewer row hrow)] at hblocks
    cases hblocks
  rw [blockers, hrows, countP_append, hadded, add_zero, countP_map]
  refine countP_mono_left fun row hrow hblocks => ?_
  have hturn := hf row hrow
  rw [Function.comp_apply, blocks, hturn.topic, Bool.and_eq_true] at hblocks
  rw [blocks, Bool.and_eq_true]
  exact ⟨ahead_of_turn hturn hblocks.1, hblocks.2⟩

theorem Round.mem (hrow : row ∈ (c.hostBefore i).rows) (hid : row.id ∉ c.handedAt i) :
    row ∈ (c.hostBefore (i + 1)).rows := by
  obtain ⟨f, added, hrows, hf, -⟩ := h.rows
  rw [hrows]
  refine mem_append_left _ ?_
  rw [← (hf row hrow).others hid]
  exact mem_map_of_mem hrow

theorem Round.mem_handedAt {id : OutboxId} :
    id ∈ c.handedAt i ↔ ∃ row ∈ c.claimedAt i, row.topic ∈ c.handlers ∧ row.id = id := by
  rw [handedAt, h.handed]
  simp [handles, message, and_assoc]

end

theorem Due.claimable_at (hdue : c.Due target) (hregular : c.Regular target) (i : ℕ) :
    Outbox.claimable c.context ((c.hostBefore i).weather (c.hostBefore i).tick).now target =
      true := by
  obtain ⟨hws, hlive, hnow⟩ := claimable_iff.mp hdue.claimable
  have hsteady := steady hregular i
  rw [hsteady.weather]
  exact claimable_iff.mpr ⟨hws, hlive, hnow.trans (hregular.clock _ _ hsteady.tick)⟩

theorem key_lt_of_le {a b : OutboxRow} (hids : (rows.map (·.id)).Nodup) (ha : a ∈ rows)
    (hb : b ∈ rows) (hne : a ≠ b) (hle : a.key ≤ b.key) : a.key < b.key := by
  refine lt_of_le_of_ne hle fun heq => hne (eq_of_id hids ha hb ?_)
  rw [key, key, toLex_inj, Prod.mk.injEq] at heq
  have hid : a.id.asUuid = b.id.asUuid := BitVec.eq_of_toNat_eq heq.2
  cases ha' : a.id
  cases hb' : b.id
  rw [ha', hb'] at hid
  exact congrArg _ hid

theorem countP_claimRows_le {ctx : RequestContext} {now : Timestamp} {limit : UInt32}
    (p : OutboxRow → Bool) : (claimRows ctx now rows limit).countP p ≤ rows.countP p := by
  calc (claimRows ctx now rows limit).countP p
      ≤ ((rows.filter (Outbox.claimable ctx now)).insertionSort
          fun a b => a.key ≤ b.key).countP p := (take_sublist _ _).countP_le
    _ = (rows.filter (Outbox.claimable ctx now)).countP p :=
        (perm_insertionSort _ _).countP_eq _
    _ ≤ rows.countP p := filter_sublist.countP_le

/-- **A round in which a due message is passed over** brings an older one closer to its end,
if fewer than `batch` of the older ones have no handler. -/
theorem load_lt_of_passed_over (hregular : c.Regular target) (hdue : c.Due target)
    (hmem : target ∈ (c.hostBefore i).rows) (hnot : target.id ∉ c.handedAt i)
    (hblockers : c.blockers target i < c.batch.toNat) :
    c.load target (i + 1) < c.load target i := by
  have hsteady := steady hregular i
  have hround := (hsteady.round hregular).2
  have hhanded : ∀ row ∈ c.claimedAt i, row.topic ∈ c.handlers → row.id ∈ c.handedAt i :=
    fun row hrow htopic => hround.mem_handedAt.mpr ⟨row, hrow, htopic, rfl⟩
  obtain ⟨hfull, hle⟩ := claimRows_full hmem (hdue.claimable_at hregular i)
    fun hclaimed => hnot (hhanded target hclaimed hdue.topic)
  have hahead : ∀ row ∈ c.claimedAt i, c.ahead target row = true := by
    intro row hrow
    obtain ⟨hrows, hclaimable⟩ := mem_of_mem_claimRows hrow
    obtain ⟨hws, hlive, -⟩ := claimable_iff.mp hclaimable
    refine ahead_iff.mpr ⟨hws, hlive, key_lt_of_le hsteady.ids hrows hmem ?_ (hle row hrow)⟩
    rintro rfl
    exact hnot (hhanded row hrow hdue.topic)
  -- those without a handler do not fill the batch
  obtain ⟨row, hrow, htopic⟩ : ∃ row ∈ c.claimedAt i, row.topic ∈ c.handlers := by
    by_contra hnone
    push Not at hnone
    have hall : (c.claimedAt i).countP (c.blocks target) = (c.claimedAt i).length := by
      refine countP_eq_length.mpr fun row hrow => ?_
      simp [blocks, hahead row hrow, hnone row hrow]
    have hcount : (c.claimedAt i).countP (c.blocks target) ≤ c.blockers target i :=
      countP_claimRows_le _
    rw [hall] at hcount
    exact absurd (hfull ▸ hcount) (Nat.not_le_of_lt hblockers)
  obtain ⟨f, hf, hload⟩ := hround.load_eq
  have hmine := (mem_of_mem_claimRows hrow).1
  rw [hload]
  exact sum_lt_sum _ _ (fun row hrow => burden_le (hf row hrow)) ⟨row, hmine,
    burden_lt (hf row hmine) (hhanded row hrow htopic) (hahead row hrow) htopic⟩

/-- As long as the message waits, the load goes down with every round. -/
theorem load_add_le (hregular : c.Regular target) (hdue : c.Due target)
    (hblockers : c.blockers target 0 < c.batch.toNat) (n : ℕ)
    (hwaits : ∀ i < n, target.id ∉ c.handedAt i) :
    target ∈ (c.hostBefore n).rows ∧ c.blockers target n < c.batch.toNat ∧
      c.load target n + n ≤ c.load target 0 := by
  induction n with
  | zero => exact ⟨hdue.mem, hblockers, le_rfl⟩
  | succ n ih =>
    obtain ⟨hmem, hfew, hload⟩ := ih fun i hi => hwaits i (lt_succ_of_lt hi)
    have hnot := hwaits n (lt_succ_self n)
    have hround := ((steady hregular n).round hregular).2
    have hless := load_lt_of_passed_over hregular hdue hmem hnot hfew
    refine ⟨hround.mem hmem hnot, hround.blockers_le.trans_lt hfew, ?_⟩
    omega

theorem burden_sum_le (rows : List OutboxRow) :
    (rows.map (c.burden target)).sum ≤ maxDeliveryAttempts * rows.countP (c.ahead target) := by
  induction rows with
  | nil => exact zero_le _
  | cons row rows ih =>
    rw [map_cons, sum_cons, countP_cons, mul_add, add_comm]
    refine Nat.add_le_add ih ?_
    by_cases hahead : c.ahead target row = true
    · rw [if_pos hahead, mul_one, burden]
      split
      · exact sub_le _ _
      · exact zero_le _
    · rw [burden_eq_zero fun hboth => hahead hboth.1]
      exact zero_le _

/-! ## Messages nobody handles -/

/-- An older message without a handler that is due when the first drain begins. -/
def stuck (c : Course) (target row : OutboxRow) : Bool :=
  c.blocks target row && Outbox.claimable c.context (c.start.weather c.start.tick).now row

theorem of_stuck (h : c.stuck target row = true) : row.topic ∉ c.handlers ∧ row.key < target.key ∧
      Outbox.claimable c.context (c.start.weather c.start.tick).now row = true := by
  rw [stuck, blocks, Bool.and_eq_true, Bool.and_eq_true, ahead_iff] at h
  obtain ⟨⟨⟨-, -, hkey⟩, htopic⟩, hclaimable⟩ := h
  exact ⟨by simpa using htopic, hkey, hclaimable⟩

theorem not_claimed_of_stuck (hregular : c.Regular target)
    (hstuck : c.batch.toNat ≤ (c.hostBefore i).rows.countP (c.stuck target)) :
    target ∉ c.claimedAt i := by
  intro hclaimed
  have hsteady := steady hregular i
  have hahead := countP_ahead_lt hclaimed
  refine absurd (hstuck.trans ?_) (Nat.not_le_of_lt hahead)
  refine countP_mono_left fun row _ hrow => ?_
  obtain ⟨-, hkey, hclaimable⟩ := of_stuck hrow
  obtain ⟨hws, hlive, hnow⟩ := claimable_iff.mp hclaimable
  rw [Bool.and_eq_true, decide_eq_true_eq, hsteady.weather]
  exact ⟨claimable_iff.mpr ⟨hws, hlive, hnow.trans (hregular.clock _ _ hsteady.tick)⟩, hkey⟩

theorem Round.stuck_le (h : c.Round target i) (hsteady : c.Steady (c.hostBefore i)) :
    (c.hostBefore i).rows.countP (c.stuck target) ≤
      (c.hostBefore (i + 1)).rows.countP (c.stuck target) := by
  obtain ⟨f, added, hrows, hf, -⟩ := h.rows
  rw [hrows, countP_append, countP_map]
  refine le_add_right_of_le (countP_mono_left fun row hrow hstuck => ?_)
  have hsame : f row = row := by
    refine (hf row hrow).others fun hid => ?_
    obtain ⟨other, hother, htopic, hid⟩ := h.mem_handedAt.mp hid
    rw [eq_of_id hsteady.ids (mem_of_mem_claimRows hother).1 hrow hid] at htopic
    exact (of_stuck hstuck).1 htopic
  rw [Function.comp_apply, hsame]
  exact hstuck

theorem handedAt_eq (hregular : c.Regular target) (hmem : target ∈ (c.hostBefore i).rows) :
    target.id ∈ c.handedAt i ↔ target.topic ∈ c.handlers ∧ target ∈ c.claimedAt i := by
  have hsteady := steady hregular i
  have hround := (hsteady.round hregular).2
  rw [hround.mem_handedAt]
  constructor
  · rintro ⟨row, hrow, htopic, hid⟩
    have hsame := eq_of_id hsteady.ids (mem_of_mem_claimRows hrow).1 hmem hid
    rw [hsame] at hrow htopic
    exact ⟨htopic, hrow⟩
  · exact fun h => ⟨target, h.2, h.1, rfl⟩

/-- **`batch` older messages without a handler**, and the message is passed over for ever. -/
theorem passed_over_for_ever (hregular : c.Regular target) (hmem : target ∈ c.start.rows)
    (hstuck : c.batch.toNat ≤ c.start.rows.countP (c.stuck target)) (n : ℕ) :
    target.id ∉ c.handedAt n := by
  have hstays : ∀ n, target ∈ (c.hostBefore n).rows ∧
      c.batch.toNat ≤ (c.hostBefore n).rows.countP (c.stuck target) := by
    intro n
    induction n with
    | zero => exact ⟨hmem, hstuck⟩
    | succ n ih =>
      have hround := ((steady hregular n).round hregular).2
      have hnot : target.id ∉ c.handedAt n := fun hid =>
        not_claimed_of_stuck hregular ih.2 ((handedAt_eq hregular ih.1).mp hid).2
      exact ⟨hround.mem ih.1 hnot, ih.2.trans (hround.stuck_le (steady hregular n))⟩
  intro hid
  exact not_claimed_of_stuck hregular (hstays n).2 ((handedAt_eq hregular (hstays n).1).mp hid).2

end

end Course

/-- **Who is handed over, and who never.** A due message with a handler is handed to it after at
most five drains for each older message, if fewer than `batch` of these have no handler; and
never, if `batch` of those are due. -/
theorem due_message_handed (c : Course) (target : OutboxRow) (hregular : c.Regular target)
    (hdue : c.Due target) :
    (c.start.rows.countP (c.blocks target) < c.batch.toNat →
      ∃ n ≤ maxDeliveryAttempts * c.start.rows.countP (c.ahead target),
        target.message ∈ c.handed n) ∧
    (c.batch.toNat ≤ c.start.rows.countP (c.stuck target) →
      ∀ n, target.id ∉ (c.handed n).map (·.id)) := by
  refine ⟨fun hblockers => ?_, Course.passed_over_for_ever hregular hdue.mem⟩
  have hbound : c.load target 0 ≤ maxDeliveryAttempts * c.start.rows.countP (c.ahead target) :=
    Course.burden_sum_le _
  have hsoon : ∃ n, target.id ∈ c.handedAt n := by
    by_contra hnever
    push Not at hnever
    have hload := (Course.load_add_le hregular hdue hblockers (c.load target 0 + 1)
      fun i _ => hnever i).2.2
    omega
  -- the first drain that hands it over finds it as it was
  obtain ⟨n, hn, hfirst⟩ : ∃ n, target.id ∈ c.handedAt n ∧ ∀ i < n, target.id ∉ c.handedAt i :=
    ⟨Nat.find hsoon, Nat.find_spec hsoon, fun i hi => Nat.find_min hsoon hi⟩
  obtain ⟨hmem, -, hload⟩ := Course.load_add_le hregular hdue hblockers n hfirst
  obtain ⟨-, hclaimed⟩ := (Course.handedAt_eq hregular hmem).mp hn
  refine ⟨n, by omega, ?_⟩
  rw [((Course.steady hregular n).round hregular).2.handed]
  exact mem_filter.mpr ⟨mem_map_of_mem hclaimed, decide_eq_true hdue.topic⟩

/-! A sample: an old message whose topic nobody handles, and a younger one with a handler. -/

def sampleRow (id : OutboxId) (topic : String) (createdAt : Timestamp) : OutboxRow :=
  OutboxRow.born 0 ⟨id, ⟨2⟩, topic, [], createdAt, 0⟩

def sampleCourse (batch : UInt32) : Course where
  handlers := ["memory.created"]
  context := ⟨⟨4⟩, ⟨5⟩, ⟨2⟩, ⟨3⟩⟩
  batch := batch
  start := {
    rows := [sampleRow ⟨1⟩ "event.recorded" 0, sampleRow ⟨2⟩ "memory.created" 1000]
    handled := []
    weather := fun _ => ⟨none, 0, .ok ()⟩
    tick := 0 }
  arrivals := fun _ => []

theorem sampleCourse_regular (batch : UInt32) :
    (sampleCourse batch).Regular (sampleRow ⟨2⟩ "memory.created" 1000) where
  calm := fun _ => rfl
  clock := fun _ _ _ => le_rfl
  ids := (by decide : [(⟨1⟩ : OutboxId), ⟨2⟩].Nodup)
  room := by
    have hroom : ∀ row ∈ [sampleRow ⟨1⟩ "event.recorded" 0, sampleRow ⟨2⟩ "memory.created" 1000],
        row.live = true → row.attempts < integerMax := by decide
    exact hroom
  later := fun _ _ h => absurd h not_mem_nil

theorem sampleCourse_due (batch : UInt32) :
    (sampleCourse batch).Due (sampleRow ⟨2⟩ "memory.created" 1000) :=
  ⟨mem_cons_of_mem _ mem_cons_self, rfl, mem_cons_self⟩

/-- With batches of one message the old one is claimed again and again. -/
theorem due_message_never_handed :
    let c := sampleCourse 1
    let target := sampleRow ⟨2⟩ "memory.created" 1000
    c.Regular target ∧ c.Due target ∧ ∀ n, target.id ∉ (c.handed n).map (·.id) := by
  refine ⟨sampleCourse_regular 1, sampleCourse_due 1, ?_⟩
  exact Course.passed_over_for_ever (sampleCourse_regular 1) (sampleCourse_due 1).mem
    (by decide +kernel)

/-- With batches of two it is not in the way. -/
theorem due_message_handed_sample :
    let target := sampleRow ⟨2⟩ "memory.created" 1000
    ∃ n ≤ 5, target.message ∈ (sampleCourse 2).handed n :=
  (due_message_handed (sampleCourse 2) (sampleRow ⟨2⟩ "memory.created" 1000)
    (sampleCourse_regular 2) (sampleCourse_due 2)).1 (by decide +kernel)

end Vestrace.Outbox
