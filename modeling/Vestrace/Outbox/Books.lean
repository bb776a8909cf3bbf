import Vestrace.Lib.Custody
import Vestrace.Outbox.Drain

/-!
# The books of the outbox

Any number of drains side by side. What a drain knows of a message it read when it claimed
it, and others may have claimed it as well: then a success can come too late for a message
another drain has set aside, and two failures count as one towards the limit.
-/

namespace Vestrace.Outbox

open Lib Effects List OutboxHost OutboxRow

variable {message : OutboxMessage} {s t : OutboxHost} {answer : AppResult Unit}
  {row : OutboxRow} {rest : List OutboxMessage} {report : DrainReport} {c : OutboxCall}
  {id : OutboxId} {handlers : List String} {ctx : RequestContext}
  {next : c.Answer → OutboxProg Unit}

/-! ## Those at work -/

inductive OutboxJob where
  | drain (handlers : List String) (context : RequestContext) (batch : UInt32)
  | save (context : RequestContext) (message : OutboxMessage)

/-- What the program returns does not matter, only whether it fails. -/
def finish {α : Type} (p : OutboxProg α) : OutboxProg Unit := do
  let _ ← p
  return ()

def OutboxJob.program : OutboxJob → OutboxProg Unit
  | .drain handlers context batch => finish (drainOnce handlers context batch)
  | .save context message => finish (ask (.save context message))

/-- The messages a drain has in hand: those it still has to ask about or to acknowledge, if
nothing goes wrong. -/
def inHand : OutboxProg Unit → List OutboxId
  | .ret _ => []
  | .call (.handle _ message) next => message.id :: inHand (next (Except.ok ()))
  | .call (.markProcessed _ id) next => id :: inHand (next (Except.ok ()))
  | .call (.recordFailure _ id _ _ _) next => id :: inHand (next (Except.ok ()))
  | .call (.claimPending _ _) _ => []
  | .call (.save _ _) _ => []

def delivering (handlers : List String) (context : RequestContext) (messages : List OutboxMessage)
    (report : DrainReport) : OutboxProg Unit :=
  finish (deliverAll handlers context messages report)

def acknowledging (handlers : List String) (context : RequestContext) (message : OutboxMessage)
    (answer : AppResult Unit) (rest : List OutboxMessage) (report : DrainReport) :
    OutboxProg Unit :=
  finish (acknowledge context message report answer >>= deliverAll handlers context rest)

theorem delivering_cons_of_mem (h : message.topic ∈ handlers) (rest : List OutboxMessage)
    (report : DrainReport) :
    delivering handlers ctx (message :: rest) report =
      .call (.handle ctx message) fun answer =>
        acknowledging handlers ctx message answer rest report := by
  unfold delivering deliverAll deliver
  rw [if_pos h]
  rfl

theorem delivering_cons_of_not_mem (h : message.topic ∉ handlers) (rest : List OutboxMessage)
    (report : DrainReport) :
    delivering handlers ctx (message :: rest) report =
      delivering handlers ctx rest { report with unhandled := report.unhandled + 1 } := by
  unfold delivering
  rw [deliverAll, deliver, if_neg h]
  rfl

theorem mem_inHand_delivering (messages : List OutboxMessage) (report : DrainReport) :
    id ∈ inHand (delivering handlers ctx messages report) ↔ id ∈ handedIds handlers messages := by
  induction messages generalizing report with
  | nil => rfl
  | cons message messages ih =>
    by_cases htopic : message.topic ∈ handlers
    · rw [delivering_cons_of_mem htopic, handedIds_cons_of_mem htopic]
      show id ∈ message.id :: message.id :: inHand (delivering handlers ctx messages _) ↔ _
      simp [ih]
    · rw [delivering_cons_of_not_mem htopic, handedIds_cons_of_not_mem htopic]
      exact ih _

variable (handlers ctx) in
theorem delivering_cases (messages : List OutboxMessage) (report : DrainReport) :
    delivering handlers ctx messages report = .ret (.ok ()) ∨
      ∃ message rest report', message.topic ∈ handlers ∧ (message :: rest).Sublist messages ∧
        handedIds handlers messages = message.id :: handedIds handlers rest ∧
        delivering handlers ctx messages report =
          .call (.handle ctx message) fun answer =>
            acknowledging handlers ctx message answer rest report' := by
  induction messages generalizing report with
  | nil => exact .inl rfl
  | cons message messages ih =>
    by_cases htopic : message.topic ∈ handlers
    · exact .inr ⟨message, messages, report, htopic, List.Sublist.refl _,
        handedIds_cons_of_mem htopic _, delivering_cons_of_mem htopic _ _⟩
    · rw [delivering_cons_of_not_mem htopic, handedIds_cons_of_not_mem htopic]
      refine (ih _).imp_right fun h => ?_
      obtain ⟨first, rest, report', hfirst, hsub, hids, heq⟩ := h
      exact ⟨first, rest, report', hfirst, hsub.cons message, hids, heq⟩

theorem mem_inHand_acknowledging (message : OutboxMessage) (answer : AppResult Unit)
    (rest : List OutboxMessage) (report : DrainReport) :
    id ∈ inHand (acknowledging handlers ctx message answer rest report) ↔
      id = message.id ∨ id ∈ handedIds handlers rest := by
  cases answer with
  | ok | error =>
    show id ∈ message.id :: inHand (delivering handlers ctx rest _) ↔ _
    rw [mem_cons, mem_inHand_delivering]

open OutboxJob

/-! ## The books -/

section

/-- Whether the calls about a message succeeded, in order. -/
def answersOf (id : OutboxId) (host : OutboxHost) : List Bool :=
  (host.handled.filter fun call => call.1.id == id).map (·.2.toBool)

def rowOf (id : OutboxId) (host : OutboxHost) : Option OutboxRow :=
  host.rows.find? (·.id == id)

def OutboxRow.calls (row : OutboxRow) : List Bool :=
  List.replicate row.attempts false ++ if row.processedAt.isSome then [true] else []

structure Booked (row : OutboxRow) (answers : List Bool) : Prop where
  calls : answers = row.calls
  attempts : row.attempts ≤ maxDeliveryAttempts
  last : row.deadLetteredAt.isSome = true ↔ row.attempts = maxDeliveryAttempts
  processed : row.processedAt.isSome = true → row.attempts < maxDeliveryAttempts

/-- A message nobody has in hand: its row is right, or there is none and no call was made. -/
def AtRest (id : OutboxId) (host : OutboxHost) : Prop :=
  (rowOf id host = none ∧ answersOf id host = []) ∨
    ∃ row, rowOf id host = some row ∧ Booked row (answersOf id host)

def Untouched (id : OutboxId) (s t : OutboxHost) : Prop :=
  answersOf id t = answersOf id s ∧ (rowOf id t = rowOf id s ∨
    (rowOf id s = none ∧ ∃ now message, rowOf id t = some (OutboxRow.born now message)))

theorem booked_born (now : Timestamp) (message : OutboxMessage) :
    Booked (born now message) [] :=
  ⟨rfl, Nat.zero_le _, by simp [born, maxDeliveryAttempts],
    fun h => by simp [born] at h⟩

theorem AtRest.stable (h : AtRest id s) (hrely : Untouched id s t) : AtRest id t := by
  obtain ⟨hanswers, hrow | ⟨hnone, now, message, hborn⟩⟩ := hrely
  · unfold AtRest
    rw [hanswers, hrow]
    exact h
  · rcases h with ⟨-, hempty⟩ | ⟨row, hrow, -⟩
    · refine .inr ⟨_, hborn, ?_⟩
      rw [hanswers, hempty]
      exact booked_born now message
    · rw [hnone] at hrow
      cases hrow

def Pending (context : RequestContext) (message : OutboxMessage) (host : OutboxHost) : Prop :=
  ∃ row, rowOf message.id host = some row ∧ InHand context message row ∧
    Booked row (answersOf message.id host)

def Answered (context : RequestContext) (message : OutboxMessage)
    (answer : AppResult Unit) (host : OutboxHost) : Prop :=
  ∃ row, rowOf message.id host = some row ∧ InHand context message row ∧
    row.attempts < maxDeliveryAttempts ∧
    answersOf message.id host = List.replicate row.attempts false ++ [answer.toBool]

theorem Pending.stable (h : Pending ctx message s) (hrely : Untouched message.id s t) :
    Pending ctx message t := by
  obtain ⟨row, hrow, hhand, hbooked⟩ := h
  obtain ⟨hanswers, hsame | ⟨hnone, -⟩⟩ := hrely
  · exact ⟨row, hsame.trans hrow, hhand, hanswers ▸ hbooked⟩
  · rw [hrow] at hnone
    cases hnone

theorem Answered.stable (h : Answered ctx message answer s) (hrely : Untouched message.id s t) :
    Answered ctx message answer t := by
  obtain ⟨row, hrow, hhand, hattempts, hcalls⟩ := h
  obtain ⟨hanswers, hsame | ⟨hnone, -⟩⟩ := hrely
  · exact ⟨row, hsame.trans hrow, hhand, hattempts, hanswers.trans hcalls⟩
  · rw [hrow] at hnone
    cases hnone

inductive Knows : OutboxProg Unit → OutboxHost → Prop where
  | job (job : OutboxJob) (host : OutboxHost) : Knows job.program host
  | done (host : OutboxHost) : Knows (.ret (.ok ())) host
  | delivering (handlers : List String) (context : RequestContext)
      (messages : List OutboxMessage) (report : DrainReport) (host : OutboxHost)
      (distinct : (messages.map (·.id)).Nodup)
      (pending : ∀ message ∈ messages, message.topic ∈ handlers → Pending context message host) :
      Knows (delivering handlers context messages report) host
  | acknowledging (handlers : List String) (context : RequestContext) (message : OutboxMessage)
      (answer : AppResult Unit) (rest : List OutboxMessage) (report : DrainReport)
      (host : OutboxHost) (distinct : ((message :: rest).map (·.id)).Nodup)
      (answered : Answered context message answer host)
      (pending : ∀ message ∈ rest, message.topic ∈ handlers → Pending context message host) :
      Knows (acknowledging handlers context message answer rest report) host

theorem Knows.stable {p : OutboxProg Unit} (h : Knows p s)
    (hrely : ∀ id ∈ inHand p, Untouched id s t) : Knows p t := by
  cases h with
  | job job => exact .job job t
  | done => exact .done t
  | delivering handlers ctx messages report _ hdistinct hpending =>
    refine .delivering _ _ _ _ _ hdistinct fun message hmem htopic => ?_
    refine (hpending message hmem htopic).stable (hrely _ ?_)
    exact (mem_inHand_delivering _ _).mpr (mem_handedIds.mpr ⟨message, hmem, htopic, rfl⟩)
  | acknowledging handlers ctx message answer rest report _ hdistinct hanswered hpending =>
    refine .acknowledging _ _ _ _ _ _ _ hdistinct ?_ fun other hmem htopic => ?_
    · exact hanswered.stable (hrely _ ((mem_inHand_acknowledging ..).mpr (.inl rfl)))
    · refine (hpending other hmem htopic).stable (hrely _ ?_)
      exact (mem_inHand_acknowledging ..).mpr
        (.inr (mem_handedIds.mpr ⟨other, hmem, htopic, rfl⟩))

def outboxCustody : Custody outboxPorts ApplicationError OutboxId where
  Inv := fun host => host.Calm ∧ (host.rows.map (·.id)).Nodup
  hand := fun p => { id | id ∈ inHand p }
  Knows := Knows
  Rest := AtRest
  Rely := Untouched
  Allowed := fun _ _ => True
  hand_ret := fun _ => Set.eq_empty_of_forall_notMem fun _ => not_mem_nil
  rest_stable := AtRest.stable
  knows_stable := Knows.stable

/-! ## One call -/

variable {host : OutboxHost}

theorem mem_of_rowOf (h : rowOf id host = some row) : row ∈ host.rows ∧ row.id = id :=
  ⟨mem_of_find?_eq_some h,
    beq_iff_eq.mp (find?_some (p := fun row : OutboxRow => row.id == id) h)⟩

theorem rowOf_of_mem (hids : (host.rows.map (·.id)).Nodup) (hrow : row ∈ host.rows) :
    rowOf row.id host = some row := by
  obtain ⟨found, hfound⟩ : ∃ found, rowOf row.id host = some found :=
    Option.isSome_iff_exists.mp (find?_isSome.mpr ⟨row, hrow, beq_self_eq_true _⟩)
  obtain ⟨hmem, hid⟩ := mem_of_rowOf hfound
  rw [hfound, eq_of_id hids hmem hrow hid]

section

variable {g : OutboxRow → OutboxRow} {n : ℕ} {acknowledged : OutboxId}

theorem updateOpen_id (hg : ∀ row, (g row).id = row.id) (row : OutboxRow) :
    (updateOpen ctx acknowledged g row).id = row.id := by
  unfold updateOpen
  split
  · exact hg row
  · rfl

theorem rowOf_updated (hg : ∀ row, (g row).id = row.id) (id : OutboxId) :
    rowOf id { host with
      rows := host.rows.map (updateOpen ctx acknowledged g), tick := n } =
        (rowOf id host).map (updateOpen ctx acknowledged g) := by
  show find? _ (map _ _) = _
  rw [find?_map]
  have hsame : (fun row : OutboxRow => row.id == id) ∘ updateOpen ctx acknowledged g =
      fun row => row.id == id := by
    funext row
    rw [Function.comp_apply, updateOpen_id hg]
  rw [hsame]
  rfl

/-- An update of one message touches no other. -/
theorem untouched_updated (hg : ∀ row, (g row).id = row.id) (hne : id ≠ acknowledged) :
    Untouched id host { host with
      rows := host.rows.map (updateOpen ctx acknowledged g), tick := n } := by
  refine ⟨rfl, .inl ?_⟩
  rw [rowOf_updated hg]
  cases hrow : rowOf id host with
  | none => rfl
  | some row =>
    have hother : acknowledgeable ctx acknowledged row = false := by
      simp [acknowledgeable, (mem_of_rowOf hrow).2, hne]
    rw [Option.map_some, updateOpen, hother]
    rfl

theorem ids_updated (hg : ∀ row, (g row).id = row.id) :
    (host.rows.map (updateOpen ctx acknowledged g)).map (·.id) = host.rows.map (·.id) := by
  rw [map_map]
  exact map_congr_left fun row _ => updateOpen_id hg row

end

theorem untouched_save (ctx : RequestContext) (message : OutboxMessage) :
    Untouched id host (exec (.save ctx message) host).2 := by
  obtain ⟨rows, hexec, rfl | ⟨hnew, rfl⟩⟩ := exec_save host ctx message
  · rw [hexec]
    exact ⟨rfl, .inl rfl⟩
  · rw [hexec]
    refine ⟨rfl, ?_⟩
    have happend : rowOf id { host with
        rows := host.rows ++ [born (host.weather host.tick).now message]
        tick := host.tick + 1 } = (rowOf id host).or
          ([born (host.weather host.tick).now message].find? (·.id == id)) :=
      find?_append
    rw [happend]
    by_cases hid : message.id = id
    · have hnone : rowOf id host = none := by
        refine find?_eq_none.mpr fun row hrow hsame => hnew ?_
        exact mem_map.mpr ⟨row, hrow, (beq_iff_eq.mp hsame).trans hid.symm⟩
      refine .inr ⟨hnone, (host.weather host.tick).now, message, ?_⟩
      rw [hnone, Option.none_or]
      exact find?_cons_of_pos (beq_iff_eq.mpr hid)
    · left
      rw [find?_cons_of_neg (by simpa [born] using hid), find?_nil,
        Option.or_none]

/-- A message in hand has attempts left. -/
theorem Booked.attempts_lt {answers : List Bool} (h : Booked row answers)
    (hlive : row.live = true) : row.attempts < maxDeliveryAttempts := by
  rw [live_iff] at hlive
  refine lt_of_le_of_ne h.attempts fun hlast => ?_
  have hdead := h.last.mpr hlast
  rw [hlive.2] at hdead
  cases hdead

theorem calls_of_live (hlive : row.live = true) :
    row.calls = List.replicate row.attempts false := by
  rw [calls, (live_iff.mp hlive).1]
  exact append_nil _

theorem booked_processed (now : Timestamp) (hhand : InHand ctx message row)
    (hattempts : row.attempts < maxDeliveryAttempts) :
    Booked (row.processed now) (List.replicate row.attempts false ++ [true]) := by
  have hlive := live_iff.mp hhand.live
  refine ⟨rfl, hattempts.le, ?_, fun _ => hattempts⟩
  show row.deadLetteredAt.isSome = true ↔ row.attempts = maxDeliveryAttempts
  rw [hlive.2]
  exact iff_of_false Bool.false_ne_true hattempts.ne

theorem booked_refused (now : Timestamp) (error : String) (retryAfter : ℤ)
    (hhand : InHand ctx message row) (hattempts : row.attempts < maxDeliveryAttempts) :
    Booked (row.refused now error retryAfter (decide (maxDeliveryAttempts ≤ message.attempts + 1)))
        (List.replicate row.attempts false ++ [false]) := by
  have hlive := live_iff.mp hhand.live
  rw [← hhand.attempts]
  refine ⟨?_, hattempts, ?_, fun hprocessed => ?_⟩
  · rw [calls, refused, hlive.1]
    exact replicate_succ'.symm.trans (append_nil _).symm
  · simp only [refused, hlive.2]
    unfold maxDeliveryAttempts at hattempts ⊢
    by_cases hlast : 5 ≤ row.attempts + 1
    · simp only [hlast, decide_true, if_true, Option.isSome_some, true_iff]
      omega
    · simp only [hlast, decide_false, Bool.false_eq_true, if_false, Option.isSome_none, false_iff]
      omega
  · rw [refused, hlive.1] at hprocessed
    cases hprocessed

theorem answersOf_handled (message : OutboxMessage) (answer : AppResult Unit)
    (n : ℕ) : answersOf id { host with
      handled := host.handled ++ [(message, answer)], tick := n } =
        answersOf id host ++ if message.id = id then [answer.toBool] else [] := by
  rw [answersOf, filter_append, map_append, answersOf]
  congr 1
  by_cases hid : message.id = id
  · simp [hid]
  · simp [hid]

theorem untouched_handled (answer : AppResult Unit) (n : ℕ) (hne : id ≠ message.id) :
    Untouched id host { host with
      handled := host.handled ++ [(message, answer)], tick := n } := by
  refine ⟨?_, .inl rfl⟩
  rw [answersOf_handled, if_neg hne.symm, append_nil]

/-! ### The four kinds of step -/

theorem drain_step (handlers : List String) (ctx : RequestContext) (batch : UInt32)
    (hinv : outboxCustody.Inv host)
    (hfresh : ∀ id ∈ outboxCustody.hand (finish (do
      let pending ← liftM (exec (.claimPending ctx batch) host).1
      deliverAll handlers ctx pending ⟨0, 0, 0, 0⟩)), AtRest id host) :
    outboxCustody.Step (.claimPending ctx batch) (fun claimed => finish (do
      let pending ← liftM claimed
      deliverAll handlers ctx pending ⟨0, 0, 0, 0⟩)) host := by
  have hexec := exec_claimPending ctx batch hinv.1
  rw [hexec] at hfresh
  refine .of_exec hexec hinv ?_ (fun _ _ => ⟨rfl, .inl rfl⟩)
    fun _ hid => absurd hid not_mem_nil
  -- what the drain claims is at rest
  refine .delivering _ _ _ _ _ (claimPending_distinct hinv.2) fun message hmem htopic => ?_
  obtain ⟨row, hrow, hhand⟩ := claimPending_inHand hmem
  have hfound : rowOf message.id host = some row := hhand.id ▸ rowOf_of_mem hinv.2 hrow
  have hhanded := mem_handedIds.mpr ⟨message, hmem, htopic, rfl⟩
  rcases hfresh _ ((mem_inHand_delivering _ _).mpr hhanded)
    with ⟨hnone, -⟩ | ⟨row', hrow', hbooked⟩
  · rw [hfound] at hnone
    cases hnone
  · rw [hfound] at hrow'
    cases hrow'
    exact ⟨row, hfound, hhand, hbooked⟩

/-- A handler is asked about the next message. -/
theorem handle_step (hinv : outboxCustody.Inv host) (htopic : message.topic ∈ handlers)
    (hdistinct : ((message :: rest).map (·.id)).Nodup)
    (hpending : ∀ other ∈ message :: rest, other.topic ∈ handlers → Pending ctx other host) :
    outboxCustody.Step (.handle ctx message)
      (fun answer => acknowledging handlers ctx message answer rest report) host := by
  have hhand : ∀ id, id ∈ outboxCustody.hand (.call (.handle ctx message) fun answer =>
      acknowledging handlers ctx message answer rest report) ↔
        id = message.id ∨ id ∈ handedIds handlers rest := by
    intro id
    show id ∈ message.id :: inHand _ ↔ _
    rw [mem_cons, mem_inHand_acknowledging, ← or_assoc, or_self]
  let answer := (host.weather host.tick).answer
  let host' : OutboxHost := { host with
    handled := host.handled ++ [(message, answer)], tick := host.tick + 1 }
  refine Custody.Step.of_exec (t := host') (a := answer) rfl hinv ?_ ?_ ?_
  · obtain ⟨row, hrow, hinHand, hbooked⟩ := hpending message mem_cons_self htopic
    refine .acknowledging _ _ _ _ _ _ _ hdistinct ?_ fun other hmem hother => ?_
    · refine ⟨row, hrow, hinHand, hbooked.attempts_lt hinHand.live, ?_⟩
      rw [answersOf_handled, if_pos rfl, hbooked.calls, calls_of_live hinHand.live]
    · refine (hpending other (mem_cons_of_mem _ hmem) hother).stable ?_
      refine untouched_handled _ _ fun hsame => ?_
      exact (nodup_cons.mp hdistinct).1 (mem_map.mpr ⟨other, hmem, hsame⟩)
  · intro id hid
    exact untouched_handled _ _ fun hsame => hid ((hhand id).mpr (.inl hsame))
  · intro id hid hdown
    exact absurd ((mem_inHand_acknowledging ..).mpr ((hhand id).mp hid)) hdown

/-- What an acknowledgement that goes through leaves. -/
theorem acknowledged_step {handlers : List String} (report : DrainReport)
    {a : c.Answer} {g : OutboxRow → OutboxRow}
    {answers : List Bool} (hinv : outboxCustody.Inv host) (hg : ∀ row, (g row).id = row.id)
    (hexec : exec c host = (a, { host with
      rows := host.rows.map (updateOpen ctx message.id g), tick := host.tick + 1 }))
    (hnext : next a = delivering handlers ctx rest report)
    (hhand : ∀ id, id ∈ outboxCustody.hand (.call c next) ↔
      id = message.id ∨ id ∈ handedIds handlers rest)
    (hdistinct : ((message :: rest).map (·.id)).Nodup)
    (hpending : ∀ other ∈ rest, other.topic ∈ handlers → Pending ctx other host)
    (hrow : rowOf message.id host = some row) (hinHand : InHand ctx message row)
    (hanswers : answersOf message.id host = answers) (hbooked : Booked (g row) answers) :
    outboxCustody.Step c next host := by
  refine .of_exec hexec ⟨hinv.1, (ids_updated hg).symm ▸ hinv.2⟩ ?_ ?_ ?_
  · rw [hnext]
    refine Knows.delivering _ _ _ _ _ (nodup_cons.mp hdistinct).2 fun other hmem htopic => ?_
    refine (hpending other hmem htopic).stable (untouched_updated hg fun hsame => ?_)
    exact (nodup_cons.mp hdistinct).1 (mem_map.mpr ⟨other, hmem, hsame⟩)
  · intro id hid
    exact untouched_updated hg fun hsame => hid ((hhand id).mpr (.inl hsame))
  · intro id hid hdown
    rw [hnext] at hdown
    have hsame : id = message.id := ((hhand id).mp hid).resolve_right fun hrest =>
      hdown ((mem_inHand_delivering _ _).mpr hrest)
    refine .inr ⟨g row, ?_, ?_⟩
    · rw [hsame, rowOf_updated hg, hrow, Option.map_some, updateOpen, hinHand.acknowledgeable]
      rfl
    · rw [hsame]
      exact hanswers ▸ hbooked

theorem acknowledge_step (hinv : outboxCustody.Inv host)
    (hdistinct : ((message :: rest).map (·.id)).Nodup)
    (hanswered : Answered ctx message answer host)
    (hpending : ∀ other ∈ rest, other.topic ∈ handlers → Pending ctx other host)
    (hp : acknowledging handlers ctx message answer rest report = .call c next) :
    outboxCustody.Step c next host := by
  obtain ⟨row, hrow, hinHand, hattempts, hanswers⟩ := hanswered
  have hmem := (mem_of_rowOf hrow).1
  have hhand : ∀ id, id ∈ outboxCustody.hand (.call c next) ↔
      id = message.id ∨ id ∈ handedIds handlers rest := by
    intro id
    rw [← hp]
    exact mem_inHand_acknowledging ..
  cases answer with
  | ok _ =>
    cases hp
    exact acknowledged_step (g := processed (host.weather host.tick).now)
      (a := Except.ok ()) { report with delivered := report.delivered + 1 } hinv (fun _ => rfl)
      (exec_markProcessed hinv.1 hinv.2 hmem hinHand) rfl hhand hdistinct hpending hrow hinHand
      hanswers (booked_processed _ hinHand hattempts)
  | error error =>
    cases hp
    have hroom : row.attempts < integerMax := hattempts.trans (by decide)
    exact acknowledged_step (a := Except.ok ())
      (g := refused (host.weather host.tick).now error.display
        (retryDelay (message.attempts + 1)) (decide (maxDeliveryAttempts ≤ message.attempts + 1)))
      { report with
        failed := report.failed + 1
        deadLettered := report.deadLettered +
          if decide (maxDeliveryAttempts ≤ message.attempts + 1) then 1 else 0 }
      hinv (fun _ => rfl) (exec_recordFailure error.display _ _ hinv.1 hinv.2 hmem hinHand hroom)
      rfl hhand hdistinct hpending hrow hinHand hanswers (booked_refused _ _ _ hinHand hattempts)

/-- **Every call keeps the books**, if nobody else has its messages in hand. -/
theorem outboxCustody_sound : outboxCustody.Sound := by
  intro c next s hinv hknows _ hfresh
  generalize hp : Prog.call c next = p at hknows
  cases hknows with
  | job job =>
    cases job with
    | drain handlers ctx batch =>
      cases hp
      refine drain_step handlers ctx batch hinv fun id hid => hfresh id hid ?_
      exact not_mem_nil
    | save ctx message =>
      cases hp
      refine ⟨⟨?_, nodup_save ctx message hinv.2⟩, .done _,
        fun _ _ => untouched_save ctx message, fun _ hid => absurd hid not_mem_nil⟩
      obtain ⟨rows, hexec, -⟩ := exec_save s ctx message
      show (exec (.save ctx message) s).2.Calm
      rw [hexec]
      exact hinv.1
  | done => cases hp
  | delivering handlers ctx messages report _ hdistinct hpending =>
    rcases delivering_cases handlers ctx messages report with
      hdone | ⟨message, rest, report', htopic, hsub, -, heq⟩
    · rw [hdone] at hp
      cases hp
    · rw [heq] at hp
      cases hp
      exact handle_step hinv htopic (hdistinct.sublist (hsub.map _)) fun other hmem =>
        hpending other (hsub.subset hmem)
  | acknowledging handlers ctx message answer rest report _ hdistinct hanswered hpending =>
    exact acknowledge_step hinv hdistinct hanswered hpending hp.symm

end

/-! ## Everybody together -/

abbrev OutboxWorld := World outboxPorts ApplicationError OutboxJob

def StandsAt (w : OutboxWorld) (call : OutboxCall) : Prop :=
  ∃ k thread, w.threads k = some thread ∧ thread.call = call

def returned (w : OutboxWorld) (k : ℕ) : Option (AppResult Unit) :=
  match w.threads k with
  | none => none
  | some thread =>
    match thread.next (exec thread.call w.state).1 with
    | .ret x => some x
    | .call .. => none

/-- What the books say of a message, while some drain may be about to write in them. -/
structure ExactBooks (w : OutboxWorld) (row : OutboxRow) : Prop where
  /-- What succeeded is processed, or is about to be, and is not set aside. -/
  succeeded : true ∈ answersOf row.id w.state → row.deadLetteredAt = none ∧
    (row.processedAt.isSome = true ∨ ∃ context, StandsAt w (.markProcessed context row.id))
  /-- What is set aside has failed often enough. -/
  deadLettered : row.deadLetteredAt.isSome = true →
    maxDeliveryAttempts ≤ (answersOf row.id w.state).count false
  /-- After that many failures there is no further call. -/
  last : maxDeliveryAttempts ≤ (answersOf row.id w.state).count false →
    answersOf row.id w.state = List.replicate maxDeliveryAttempts false
  /-- The attempts are the failed calls, but for one that is about to be recorded. -/
  attempts : row.attempts = (answersOf row.id w.state).count false ∨
    (row.attempts + 1 = (answersOf row.id w.state).count false ∧
      ∃ context error retryAfter deadLetter,
        StandsAt w (.recordFailure context row.id error retryAfter deadLetter))

section

variable {w : OutboxWorld} {thread : Thread outboxPorts ApplicationError OutboxJob}

theorem program_begins (job : OutboxJob) : outboxCustody.Begins job.program := by
  refine ⟨Set.eq_empty_of_forall_notMem fun id hid => ?_, fun s => .job job s⟩
  cases job <;> exact absurd hid not_mem_nil

theorem atRest_or_answered (h : outboxCustody.Upheld w) (id : OutboxId) :
    AtRest id w.state ∨ ∃ k thread handlers ctx message answer rest report,
      w.threads k = some thread ∧
        thread.rest = acknowledging handlers ctx message answer rest report ∧
        message.id = id ∧ Answered ctx message answer w.state := by
  by_cases hfree : ∀ k thread, w.threads k = some thread → id ∉ outboxCustody.hand thread.rest
  · exact .inl (h.rest id hfree)
  push Not at hfree
  obtain ⟨k, thread, hthread, hid⟩ := hfree
  have hpending : ∀ {ctx message}, Pending ctx message w.state → message.id = id →
      AtRest id w.state := by
    rintro ctx message ⟨row, hrow, -, hbooked⟩ rfl
    exact .inr ⟨row, hrow, hbooked⟩
  have hknows := h.knows k thread hthread
  generalize hp : thread.rest = p at hid hknows
  cases hknows with
  | job job =>
    rw [(program_begins job).1] at hid
    cases hid
  | done => exact absurd hid not_mem_nil
  | delivering handlers ctx messages report _ _ hall =>
    obtain ⟨message, hmem, htopic, hsame⟩ := mem_handedIds.mp ((mem_inHand_delivering _ _).mp hid)
    exact .inl (hpending (hall message hmem htopic) hsame)
  | acknowledging handlers ctx message answer rest report _ _ hanswered hall =>
    rcases (mem_inHand_acknowledging ..).mp hid with hsame | hrest
    · exact .inr ⟨k, thread, handlers, ctx, message, answer, rest, report, hthread, hp,
        hsame.symm, hanswered⟩
    · obtain ⟨other, hmem, htopic, hsame⟩ := mem_handedIds.mp hrest
      exact .inl (hpending (hall other hmem htopic) hsame)

theorem Booked.exact (h : Booked row (answersOf row.id w.state)) : ExactBooks w row := by
  have hcount : (answersOf row.id w.state).count false = row.attempts := by
    rw [h.calls, OutboxRow.calls, count_append, count_replicate_self]
    split <;> rfl
  refine ⟨fun hsuccess => ?_, fun hdead => ?_, fun hmany => ?_, .inl hcount.symm⟩
  · rw [h.calls, OutboxRow.calls] at hsuccess
    have hprocessed : row.processedAt.isSome = true := by
      by_contra hnot
      rw [if_neg hnot, append_nil] at hsuccess
      exact Bool.noConfusion (eq_of_mem_replicate hsuccess)
    refine ⟨?_, .inl hprocessed⟩
    rw [← Option.not_isSome_iff_eq_none]
    exact fun hdead => (h.processed hprocessed).ne (h.last.mp hdead)
  · rw [hcount, h.last.mp hdead]
  · rw [hcount] at hmany
    have hall := le_antisymm h.attempts hmany
    have hopen : ¬ row.processedAt.isSome = true := fun hprocessed =>
      (h.processed hprocessed).ne hall
    rw [h.calls, OutboxRow.calls, if_neg hopen, append_nil, hall]

theorem stands_of_rest {k : ℕ} (hthread : w.threads k = some thread)
    (hrest : thread.rest = .call c next) : StandsAt w c := by
  refine ⟨k, thread, hthread, ?_⟩
  cases hrest
  rfl

theorem Answered.exact {k : ℕ} (h : Answered ctx message answer w.state)
    (hrow : rowOf message.id w.state = some row) (hid : message.id = row.id)
    (hthread : w.threads k = some thread)
    (hrest : thread.rest = acknowledging handlers ctx message answer rest report) :
    ExactBooks w row := by
  obtain ⟨row', hrow', hinHand, hattempts, hanswers⟩ := h
  rw [hrow] at hrow'
  cases hrow'
  have hlive := live_iff.mp hinHand.live
  rw [hid] at hanswers
  cases answer with
  | ok _ =>
    have hcount : (answersOf row.id w.state).count false = row.attempts := by
      rw [hanswers, count_append, count_replicate_self]
      rfl
    refine ⟨fun _ => ⟨hlive.2, .inr ⟨ctx, hid ▸ stands_of_rest hthread hrest⟩⟩, ?_, ?_,
      .inl hcount.symm⟩
    · rw [hlive.2]
      exact fun h => absurd h Bool.noConfusion
    · rw [hcount]
      exact fun hmany => absurd hmany (Nat.not_le_of_lt hattempts)
  | error error =>
    have hcalls : answersOf row.id w.state = replicate (row.attempts + 1) false :=
      hanswers.trans replicate_succ'.symm
    have hcount : (answersOf row.id w.state).count false = row.attempts + 1 := by
      rw [hcalls, count_replicate_self]
    refine ⟨fun hsuccess => ?_, ?_, fun hmany => ?_, .inr ⟨hcount.symm, ctx, error.display,
      retryDelay (message.attempts + 1), decide (maxDeliveryAttempts ≤ message.attempts + 1),
      hid ▸ stands_of_rest hthread hrest⟩⟩
    · rw [hcalls] at hsuccess
      exact Bool.noConfusion (eq_of_mem_replicate hsuccess)
    · rw [hlive.2]
      exact fun h => absurd h Bool.noConfusion
    · rw [hcount] at hmany
      rw [hcalls, le_antisymm hattempts hmany]

/-- A drain that returns does so without an error. -/
theorem Knows.ret {host : OutboxHost}
    {x : AppResult Unit} (h : Knows (.ret x) host) : x = .ok () := by
  generalize hp : Prog.ret x = p at h
  cases h with
  | job job => cases job <;> cases hp
  | done =>
    cases hp
    rfl
  | delivering handlers ctx messages report =>
    rcases delivering_cases handlers ctx messages report with
      hdone | ⟨_, _, _, -, -, -, hcall⟩
    · rw [hdone] at hp
      cases hp
      rfl
    · rw [hcall] at hp
      cases hp
  | acknowledging handlers ctx message answer => cases answer <;> cases hp

/-- **Drains side by side keep exact books**, if no message is in the hands of two of them
when one claims, and none stops between an answer and its acknowledgement. -/
theorem drains_keep_books (host : OutboxHost) (actions : List (Action OutboxJob))
    (hrows : host.rows = []) (hhandled : host.handled = []) (hcalm : host.Calm)
    (hkept : outboxCustody.Kept program ⟨host, fun _ => none⟩ actions) :
    let w : OutboxWorld := World.run program ⟨host, fun _ => none⟩ actions
    (∀ row ∈ w.state.rows, ExactBooks w row) ∧
      ∀ k x, outboxCustody.Keeps w (.step k) → returned w k = some x → x = .ok () := by
  have hinv : outboxCustody.Inv host := by
    refine ⟨hcalm, ?_⟩
    rw [hrows]
    exact nodup_nil
  have hrest : ∀ id, AtRest id host := by
    intro id
    left
    rw [rowOf, answersOf, hrows, hhandled]
    exact ⟨rfl, rfl⟩
  have hstart : outboxCustody.Upheld (⟨host, fun _ => none⟩ : OutboxWorld) := .still hinv hrest
  have hupheld := hstart.run outboxCustody_sound program_begins hkept
  refine ⟨fun row hrow => ?_, fun k x hkeeps hreturned => ?_⟩
  · have hfound := rowOf_of_mem hupheld.inv.2 hrow
    rcases atRest_or_answered hupheld row.id with
      (⟨hnone, -⟩ | ⟨row', hrow', hbooked⟩) |
        ⟨k, thread, _, _, message, _, _, _, hthread, hthreadRest, hid, hanswered⟩
    · rw [hfound] at hnone
      cases hnone
    · rw [hfound] at hrow'
      cases hrow'
      exact hbooked.exact
    · exact hanswered.exact (hid ▸ hfound) hid hthread hthreadRest
  · unfold returned at hreturned
    split at hreturned
    · cases hreturned
    · next thread hthread =>
      have hstep := hupheld.stepOf outboxCustody_sound hkeeps hthread
      split at hreturned
      · next y hret =>
        cases hreturned
        have hknows := hstep.knows
        rw [show thread.next (outboxPorts.exec thread.call _).1 = _ from hret] at hknows
        exact hknows.ret
      · cases hreturned

end

/-! A sample: two messages, and a handler that fails, but for the nineteenth call of all. -/

def sampleOutboxContext : RequestContext := ⟨⟨4⟩, ⟨5⟩, ⟨2⟩, ⟨3⟩⟩

/-- A quarter of an hour passes with every call. -/
def sampleOutbox (succeeds : ℕ → Bool) : OutboxHost where
  rows := []
  handled := []
  weather := fun n => ⟨none, 900000000000 * n, if succeeds n then .ok ()
    else .error (.unavailable "the provider is down")⟩
  tick := 0

def sampleDrain : OutboxJob := .drain ["memory.created"] sampleOutboxContext 8

def sampleSave (id : OutboxId) : OutboxJob :=
  .save sampleOutboxContext ⟨id, ⟨2⟩, "memory.created", [], 0, 0⟩

def sampleFailures : List (Action OutboxJob) :=
  [.start 0 (sampleSave ⟨1⟩), .step 0] ++
    (List.replicate 4 [.start 0 sampleDrain, .step 0, .step 0, .step 0]).flatten

/-- Then two drains claim the message together with another one. The first fails with it and
sets it aside; after that the handler of the second succeeds. -/
def sampleClash : List (Action OutboxJob) :=
  sampleFailures ++ [.start 0 (sampleSave ⟨2⟩), .step 0, .start 1 sampleDrain, .start 2 sampleDrain,
    .step 1, .step 2, .step 1, .step 1, .step 2]

/-- **A success that comes too late** is refused by the table: the message stays set aside, and
the rest of the drain's batch is not delivered. -/
theorem late_success_refused :
    let w : OutboxWorld := World.run program
      ⟨sampleOutbox fun n => n == 18, fun _ => none⟩ sampleClash
    (∃ row ∈ w.state.rows, row.id = ⟨1⟩ ∧ row.deadLetteredAt.isSome = true ∧
      true ∈ answersOf row.id w.state) ∧
    (∃ row ∈ w.state.rows, row.id = ⟨2⟩ ∧ answersOf row.id w.state = []) ∧
    returned w 2 = some (.error (.storage "outbox_terminal_state_is_singular")) := by
  decide +kernel

/-- One drain after the other, the fourth of them with success. -/
theorem drains_keep_books_sample :
    let w : OutboxWorld := World.run program
      ⟨sampleOutbox fun n => n == 11, fun _ => none⟩ sampleFailures
    ∃ row ∈ w.state.rows, row.processedAt.isSome = true ∧ row.attempts = 3 ∧ ExactBooks w row := by
  have hkept : outboxCustody.Kept program
      ⟨sampleOutbox fun n => n == 11, fun _ => none⟩ sampleFailures :=
    Custody.Kept.alone (k := 0) (fun _ _ => rfl) (fun _ _ => trivial) (by simp [sampleFailures])
  have hbooks := (drains_keep_books _ sampleFailures rfl rfl (fun _ => rfl) hkept).1
  have hrow : ∃ row ∈ (World.run program
      ⟨sampleOutbox fun n => n == 11, fun _ => none⟩ sampleFailures : OutboxWorld).state.rows,
      row.processedAt.isSome = true ∧ row.attempts = 3 := by
    decide +kernel
  obtain ⟨row, hrow, hprocessed, hattempts⟩ := hrow
  exact ⟨row, hrow, hprocessed, hattempts, hbooks row hrow⟩

end Vestrace.Outbox
