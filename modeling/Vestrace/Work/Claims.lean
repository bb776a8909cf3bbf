import Vestrace.Base
import Vestrace.Lib.Guard
import Mathlib.Algebra.Order.Floor.Div
import Mathlib.Data.List.DropRight
import Mathlib.Data.Prod.Lex

/-!
# Work claims

The claim tables of migrations 0199 (with 0205) and 0217: a worker claims jobs for sixty
seconds under its owner string and finishes each of them. A finish is guarded by that string
and the deadline, not by the claim it is for. A retryable finish puts its job back where it was in
the queue.

A claim call takes its candidates from a snapshot that other calls may have overtaken and
passes over rows they have locked: both are arguments. The `WHERE` of its `ON CONFLICT` reads
the rows as they are.
-/

namespace Vestrace.Work

open Lib List Function

/-! ## Jobs -/

inductive JobState where
  | requested
  | running
  | succeeded
  | failedDefinite
  | inconclusiveUnknown
  | cancelled
  deriving DecidableEq, Repr

def JobState.isOpen : JobState → Bool
  | .requested | .running => true
  | _ => false

inductive EmbeddingJobKind where
  | retrievalQuery
  | delivery
  | rebuild
  deriving DecidableEq, Repr

structure EmbeddingJob where
  id : JobId
  workspaceId : WorkspaceId
  kind : EmbeddingJobKind
  state : JobState
  createdAt : Timestamp
  fences : List Timestamp

structure QualificationJob where
  id : JobId
  workspaceId : WorkspaceId
  state : JobState
  requestedAt : Timestamp

/-- A query is worth its work only before a fence. -/
def EmbeddingJob.ready (job : EmbeddingJob) (now : Timestamp) : Bool :=
  job.state.isOpen && match job.kind with
    | .delivery | .rebuild => true
    | .retrievalQuery => job.fences.any fun deadline => decide (now < deadline)

/-- `EmbeddingWorkKind`. -/
inductive WorkKind where
  | dispatch
  | reconcileKeys
  | finalizeResult
  | buildIndex
  | coordinateTransition
  | propagateErasure
  deriving DecidableEq, Repr

/-- The two tables are one with a column for the kind of work, which is `Unit` for qualification. -/
structure WorkFamily (J κ : Type) where
  id : J → JobId
  workspaceId : J → WorkspaceId
  since : J → Timestamp
  /-- What the candidate query asks of the job itself. -/
  ready : J → Timestamp → Bool
  /-- The kinds of work that have a producer. -/
  served : κ → Bool
  claimMalformed : String
  finishMalformed : String

def embeddingWork : WorkFamily EmbeddingJob WorkKind where
  id := EmbeddingJob.id
  workspaceId := EmbeddingJob.workspaceId
  since := EmbeddingJob.createdAt
  ready := EmbeddingJob.ready
  served kind := decide (kind = .dispatch)
  claimMalformed := "embedding work claim arguments are malformed"
  finishMalformed := "embedding work completion arguments are malformed"

def qualificationWork : WorkFamily QualificationJob Unit where
  id := QualificationJob.id
  workspaceId := QualificationJob.workspaceId
  since := QualificationJob.requestedAt
  ready job _ := job.state.isOpen
  served _ := true
  claimMalformed := "qualification work claim arguments are malformed"
  finishMalformed := "qualification work completion arguments are malformed"

/-! ## Claims -/

inductive WorkOutcome where
  | completed
  | retryableFailure
  | definiteFailure
  deriving DecidableEq, Repr

structure ClaimRow where
  claimOwner : String
  claimDeadline : Timestamp
  lastOutcome : Option WorkOutcome
  createdAt : Timestamp
  updatedAt : Timestamp
  deriving DecidableEq, Repr

structure ClaimKey (κ : Type) where
  workspaceId : WorkspaceId
  jobId : JobId
  kind : κ
  deriving DecidableEq

abbrev Claims (κ : Type) := ClaimKey κ → Option ClaimRow

structure Request (κ : Type) where
  session : Option WorkspaceId
  workspaceId : WorkspaceId
  kind : κ
  owner : String

inductive WorkError where
  | malformed (message : String)
  /-- `CHECK (claim_deadline > created_at)`. -/
  | deadlineCheck
  deriving DecidableEq, Repr

structure WorkClaim (κ : Type) where
  jobId : JobId
  kind : κ
  claimOwner : String
  claimDeadline : Timestamp

/-- What a claim call meets: the jobs, the claims of its snapshot and the rows others hold. -/
structure Scene (J κ : Type) where
  jobs : List J
  seen : Claims κ
  locked : JobId → Bool

variable {J κ : Type}

def Request.key (r : Request κ) (job : JobId) : ClaimKey κ := ⟨r.workspaceId, job, r.kind⟩

def deadline (now : Timestamp) : Timestamp := now + 60000000000

def Request.wellFormed (r : Request κ) : Bool :=
  let owner := (r.owner.toList.dropWhile (· == ' ')).rdropWhile (· == ' ')
  decide (r.session = some r.workspaceId ∧ 1 ≤ owner.length ∧ owner.length ≤ 128)

def Claims.free (claims : Claims κ) (now : Timestamp) (key : ClaimKey κ) : Bool :=
  (claims key).all fun row => decide (row.claimDeadline ≤ now)

def eligible (F : WorkFamily J κ) (jobs : List J) (claims : Claims κ) (r : Request κ)
    (now : Timestamp) : List JobId :=
  ((jobs.filter fun job => decide (F.workspaceId job = r.workspaceId) && F.ready job now &&
      claims.free now (r.key (F.id job))).insertionSort fun a b =>
    (toLex (F.since a, (F.id a).asUuid.toNat) : ℤ ×ₗ ℕ) ≤
      toLex (F.since b, (F.id b).asUuid.toNat)).map F.id

variable [DecidableEq κ]

/-- The `INSERT … ON CONFLICT DO UPDATE`: an expired claim keeps its `created_at`. -/
def Claims.take (claims : Claims κ) (r : Request κ) (now : Timestamp)
    (keys : List (ClaimKey κ)) : Claims κ := fun key =>
  if key ∈ keys then
    some ⟨r.owner, deadline now, none, ((claims key).map ClaimRow.createdAt).getD now, now⟩
  else claims key

def claimWork (F : WorkFamily J κ) (scene : Scene J κ) (r : Request κ) (limit : ℤ)
    (now : Timestamp) (claims : Claims κ) :
    Except WorkError (List (WorkClaim κ) × Claims κ) := do
  refuse (r.wellFormed = false ∨ limit < 1 ∨ 128 < limit) (.malformed F.claimMalformed)
  if F.served r.kind then
    let candidates := ((eligible F scene.jobs scene.seen r now).filter
      fun id => !scene.locked id).take limit.toNat
    let claimed := candidates.filter fun id => claims.free now (r.key id)
    .ok ((claimed.insertionSort fun a b => a.asUuid.toNat ≤ b.asUuid.toNat).map
      fun id => ⟨id, r.kind, r.owner, deadline now⟩, claims.take r now (claimed.map r.key))
  else .ok ([], claims)

def finishWork (F : WorkFamily J κ) (r : Request κ) (job : JobId) (outcome : WorkOutcome)
    (now : Timestamp) (claims : Claims κ) : Except WorkError (Bool × Claims κ) := do
  refuse (r.wellFormed = false) (.malformed F.finishMalformed)
  match (claims (r.key job)).filter
      fun row => decide (row.claimOwner = r.owner ∧ now < row.claimDeadline) with
  | none => .ok (false, claims)
  | some row =>
    if outcome = .retryableFailure then
      refuse (now ≤ row.createdAt) .deadlineCheck
      .ok (true, update claims (r.key job) (some { row with
        claimDeadline := now, lastOutcome := some outcome, updatedAt := now }))
    else .ok (true, update claims (r.key job) none)

def vestraceClaimEmbeddingWork := claimWork embeddingWork
def vestraceFinishEmbeddingWork := finishWork embeddingWork
def vestraceClaimQualificationWork := claimWork qualificationWork
def vestraceFinishQualificationWork := finishWork qualificationWork

section

variable {F : WorkFamily J κ} {r : Request κ} {now : Timestamp} {claims claims' : Claims κ}

theorem claimWork_eq_ok {scene : Scene J κ} {limit : ℤ} {work : List (WorkClaim κ)}
    (h : claimWork F scene r limit now claims = .ok (work, claims')) :
    ∃ keys, claims' = claims.take r now keys ∧
      (∀ key, key ∈ work.map (fun claim => r.key claim.jobId) ↔ key ∈ keys) ∧
      ∀ key ∈ keys, claims.free now key = true := by
  have h := of_unit_bind h
  split at h
  · cases h
    refine ⟨_, rfl, fun key => ?_, fun key hkey => ?_⟩
    · simp only [mem_map, mem_insertionSort, exists_exists_and_eq_and]
    · obtain ⟨id, hid, rfl⟩ := mem_map.mp hkey
      exact (mem_filter.mp hid).2
  · cases h
    exact ⟨[], funext fun _ => (if_neg not_mem_nil).symm, fun _ => Iff.rfl, nofun⟩

theorem finishWork_eq_ok {job : JobId} {outcome : WorkOutcome} {found : Bool}
    (h : finishWork F r job outcome now claims = .ok (found, claims')) :
    (found = false ∧ claims' = claims) ∨
      found = true ∧ ∃ row, claims (r.key job) = some row ∧
        (row.claimOwner = r.owner ∧ now < row.claimDeadline) ∧
        ∃ left : Option ClaimRow, claims' = update claims (r.key job) left ∧
          ∀ row' ∈ left, row'.claimOwner = r.owner ∧ row'.claimDeadline = now := by
  have h := of_unit_bind h
  split at h
  · cases h
    exact .inl ⟨rfl, rfl⟩
  · rename_i row hrow
    obtain ⟨hrow, hguard⟩ := Option.filter_eq_some_iff.mp hrow
    have hguard := of_decide_eq_true hguard
    refine .inr ?_
    split at h
    · cases of_unit_bind h
      exact ⟨rfl, row, hrow, hguard, _, rfl, fun row' h' => by cases h'; exact ⟨hguard.1, rfl⟩⟩
    · cases h
      exact ⟨rfl, row, hrow, hguard, none, rfl, nofun⟩

end

/-! ## Fencing

A finish call belongs to a claim, but does not say so. The ledger keeps account beside the
table: every claim that was handed out, under the number of its call. -/

structure Handout where
  ticket : ℕ
  owner : String
  /-- When the claim ends: its deadline, or the time it was finished at. -/
  ends : Timestamp
  finished : Bool
  deriving DecidableEq

def Handout.finish (ticket : ℕ) (now : Timestamp) (handout : Handout) : Handout :=
  if handout.ticket = ticket then { handout with finished := true, ends := now } else handout

structure Ledger (κ : Type) where
  claims : Claims κ
  /-- The claims of a job, newest first. -/
  past : ClaimKey κ → List Handout
  calls : ℕ

def Ledger.empty : Ledger κ := ⟨fun _ => none, fun _ => [], 0⟩

inductive Call (J κ : Type) where
  | claim (scene : Scene J κ) (r : Request κ) (limit : ℤ) (now : Timestamp)
  | finish (r : Request κ) (job : JobId) (outcome : WorkOutcome) (now : Timestamp) (ticket : ℕ)

def Call.owner : Call J κ → String
  | .claim _ r _ _ | .finish r _ _ _ _ => r.owner

def Call.now : Call J κ → Timestamp
  | .claim _ _ _ now | .finish _ _ _ now _ => now

def Call.finishes : Call J κ → Option (ClaimKey κ × ℕ)
  | .claim .. => none
  | .finish r job _ _ ticket => some (r.key job, ticket)

variable (F : WorkFamily J κ) (l : Ledger κ)

def Call.taken : Call J κ → List (ClaimKey κ)
  | .claim scene r limit now => match claimWork F scene r limit now l.claims with
    | .ok (work, _) => work.map fun claim => r.key claim.jobId
    | .error _ => []
  | .finish .. => []

def Ledger.step (call : Call J κ) : Ledger κ :=
  match call with
  | .claim scene r limit now => match claimWork F scene r limit now l.claims with
    | .ok (_, claims) =>
      { claims, calls := l.calls + 1
        past := fun key => if key ∈ call.taken F l then
          ⟨l.calls, r.owner, deadline now, false⟩ :: l.past key else l.past key }
    | .error _ => { l with calls := l.calls + 1 }
  | .finish r job outcome now ticket => match finishWork F r job outcome now l.claims with
    | .ok (true, claims) =>
      { claims, calls := l.calls + 1
        past := update l.past (r.key job)
          ((l.past (r.key job)).map (Handout.finish ticket now)) }
    | _ => { l with calls := l.calls + 1 }

/-- The worker of a finish call claimed the job with that ticket, or never claimed it. -/
def Call.Attributed (call : Call J κ) : Prop :=
  ∀ key ticket, call.finishes = some (key, ticket) →
    (∃ handout ∈ l.past key, handout.ticket = ticket ∧ handout.owner = call.owner) ∨
      ∀ handout ∈ l.past key, handout.owner ≠ call.owner

/-- No finish comes while a claim other than its own runs under its owner string. -/
def Call.Timely (call : Call J κ) : Prop :=
  ∀ key ticket, call.finishes = some (key, ticket) → ∀ newest ∈ (l.past key).head?,
    newest.owner = call.owner → newest.ticket ≠ ticket → newest.ends ≤ call.now

structure Call.Fenced (call : Call J κ) : Prop where
  /-- A job is claimed when its newest claim is finished or past its deadline. -/
  exclusive : ∀ key ∈ call.taken F l, ∀ newest ∈ (l.past key).head?,
    newest.finished = true ∨ newest.ends ≤ call.now
  /-- A finish that belongs to an earlier claim has no effect on the newest. -/
  stale : ∀ key ticket, call.finishes = some (key, ticket) →
    ∀ newest ∈ (l.past key).head?, newest.ticket ≠ ticket →
      (l.step F call).claims key = l.claims key
  /-- A row changes through a new claim or the finish of the newest one. -/
  own : ∀ key, (l.step F call).claims key ≠ l.claims key → key ∈ call.taken F l ∨
    ∃ newest ∈ (l.past key).head?, call.finishes = some (key, newest.ticket)

/-- Every call of a run meets the condition in the state it comes in. -/
def Along (F : WorkFamily J κ) (P : Ledger κ → Call J κ → Prop) (l : Ledger κ) :
    List (Call J κ) → Prop
  | [] => True
  | call :: calls => P l call ∧ Along F P (l.step F call) calls

/-- The table and the account of a job agree: a row is that of the newest claim, and a claim that
is not finished has its row. -/
structure Ledger.Kept (l : Ledger κ) (key : ClaimKey κ) : Prop where
  newest : ∀ {row}, l.claims key = some row → ∃ newest ∈ (l.past key).head?,
    newest.owner = row.claimOwner ∧ newest.ends = row.claimDeadline
  runs : ∀ {newest}, newest ∈ (l.past key).head? → newest.finished = false →
    ∃ row, l.claims key = some row ∧ row.claimDeadline = newest.ends

section

variable {F : WorkFamily J κ} {l : Ledger κ} {call : Call J κ} {key : ClaimKey κ}

theorem Ledger.step_cases (F : WorkFamily J κ) (l : Ledger κ) (call : Call J κ)
    (key : ClaimKey κ) :
    (key ∉ call.taken F l ∧ (l.step F call).claims key = l.claims key ∧
        (l.step F call).past key = l.past key) ∨
      (key ∈ call.taken F l ∧ l.claims.free call.now key = true ∧
        (∃ row, (l.step F call).claims key = some row ∧ row.claimOwner = call.owner ∧
          row.claimDeadline = deadline call.now) ∧
        (l.step F call).past key =
          ⟨l.calls, call.owner, deadline call.now, false⟩ :: l.past key) ∨
      ∃ ticket, call.finishes = some (key, ticket) ∧
        (∃ row, l.claims key = some row ∧ row.claimOwner = call.owner ∧
          call.now < row.claimDeadline) ∧
        (∀ row, (l.step F call).claims key = some row →
          row.claimOwner = call.owner ∧ row.claimDeadline = call.now) ∧
        (l.step F call).past key = (l.past key).map (Handout.finish ticket call.now) := by
  cases call with
  | claim scene r limit now =>
    rcases hcall : claimWork F scene r limit now l.claims with e | ⟨work, claims'⟩
    · simp only [Ledger.step, Call.taken, hcall]
      exact .inl ⟨not_mem_nil, trivial, trivial⟩
    · obtain ⟨keys, rfl, hmem, hfree⟩ := claimWork_eq_ok hcall
      simp only [Ledger.step, Call.taken, hcall, hmem]
      by_cases hkey : key ∈ keys
      · exact .inr (.inl ⟨hkey, hfree key hkey, ⟨_, if_pos hkey, rfl, rfl⟩, if_pos hkey⟩)
      · exact .inl ⟨hkey, if_neg hkey, if_neg hkey⟩
  | finish r job outcome now ticket =>
    rcases hcall : finishWork F r job outcome now l.claims with e | ⟨found, claims'⟩
    · simp only [Ledger.step, hcall]
      exact .inl ⟨not_mem_nil, trivial, trivial⟩
    · obtain ⟨rfl, rfl⟩ | ⟨rfl, row, hrow, hguard, left, rfl, hleft⟩ := finishWork_eq_ok hcall
      · simp only [Ledger.step, hcall]
        exact .inl ⟨not_mem_nil, trivial, trivial⟩
      · simp only [Ledger.step, hcall]
        by_cases hkey : key = r.key job
        · subst hkey
          simp only [update_self]
          exact .inr (.inr ⟨ticket, rfl, ⟨row, hrow, hguard⟩, hleft, rfl⟩)
        · simp only [update_of_ne hkey]
          exact .inl ⟨not_mem_nil, trivial, trivial⟩

omit [DecidableEq κ] in
/-- What a finish ends is the claim it belongs to. -/
theorem Ledger.Kept.own {ticket : ℕ} {row : ClaimRow} (h : l.Kept key) (htimely : call.Timely l)
    (hfor : call.finishes = some (key, ticket)) (hrow : l.claims key = some row)
    (howner : row.claimOwner = call.owner) (hruns : call.now < row.claimDeadline) :
    ∃ newest ∈ (l.past key).head?, newest.ticket = ticket ∧ newest.owner = call.owner := by
  obtain ⟨newest, hnewest, hsame, hends⟩ := h.newest hrow
  refine ⟨newest, hnewest, ?_, hsame.trans howner⟩
  by_contra hne
  have hover := htimely key ticket hfor newest hnewest (hsame.trans howner) hne
  exact absurd (hends ▸ hover) (not_le.mpr hruns)

theorem Ledger.Kept.step (h : l.Kept key) (htimely : call.Timely l) :
    (l.step F call).Kept key := by
  obtain ⟨-, hclaims, hpast⟩ | ⟨-, -, ⟨row, hrow, howner, hdeadline⟩, hpast⟩ |
    ⟨ticket, hfor, ⟨row, hrow, howner, hruns⟩, hleft, hpast⟩ := l.step_cases F call key
  · exact ⟨hclaims ▸ hpast ▸ h.newest, hclaims ▸ hpast ▸ h.runs⟩
  · refine ⟨fun hrow' => ⟨_, hpast ▸ head?_cons, ?_⟩, fun hnewest _ => ?_⟩
    · cases Option.mem_unique hrow hrow'
      exact ⟨howner.symm, hdeadline.symm⟩
    · rw [hpast] at hnewest
      cases hnewest
      exact ⟨row, hrow, hdeadline⟩
  · -- the claim that ends is the newest, so it is the one that is marked finished
    obtain ⟨newest, hnewest, hticket, hown⟩ := h.own htimely hfor hrow howner hruns
    have hhead : ((l.past key).map (Handout.finish ticket call.now)).head? =
        some { newest with finished := true, ends := call.now } := by
      rw [head?_map, hnewest, Option.map_some, Handout.finish, if_pos hticket]
    refine ⟨fun hrow' => ⟨_, hpast ▸ hhead, ?_⟩, fun hnewest' hunfinished => ?_⟩
    · obtain ⟨howner', hdeadline'⟩ := hleft _ hrow'
      exact ⟨hown.trans howner'.symm, hdeadline'.symm⟩
    · rw [hpast, hhead] at hnewest'
      cases hnewest'
      cases hunfinished

theorem Ledger.Kept.fenced (h : ∀ key, l.Kept key) (htimely : call.Timely l) :
    call.Fenced F l := by
  have hown : ∀ key, (l.step F call).claims key ≠ l.claims key → key ∈ call.taken F l ∨
      ∃ newest ∈ (l.past key).head?, call.finishes = some (key, newest.ticket) := by
    intro key hchange
    obtain ⟨-, hsame, -⟩ | ⟨hkey, -⟩ | ⟨ticket, hfor, ⟨row, hrow, howner, hruns⟩, -⟩ :=
      l.step_cases F call key
    · exact absurd hsame hchange
    · exact .inl hkey
    · obtain ⟨newest, hnewest, rfl, -⟩ := (h key).own htimely hfor hrow howner hruns
      exact .inr ⟨newest, hnewest, hfor⟩
  -- a call that finishes claims nothing
  have hnone : ∀ {key ticket}, call.finishes = some (key, ticket) → call.taken F l = [] := by
    intro key ticket hfor
    cases call with
    | claim => cases hfor
    | finish => rfl
  refine ⟨fun key hkey newest hnewest => ?_, fun key ticket hfor newest hnewest hne => ?_, hown⟩
  · obtain ⟨hnot, -⟩ | ⟨-, hfree, -⟩ | ⟨ticket, hfor, -⟩ := l.step_cases F call key
    · exact absurd hkey hnot
    · refine (Bool.eq_false_or_eq_true newest.finished).imp_right fun hruns => ?_
      obtain ⟨row, hrow, hdeadline⟩ := (h key).runs hnewest hruns
      rw [Claims.free, hrow] at hfree
      exact hdeadline ▸ of_decide_eq_true hfree
    · exact absurd (hnone hfor ▸ hkey) not_mem_nil
  · by_contra hchange
    obtain htaken | ⟨newest', hnewest', hfor'⟩ := hown key hchange
    · exact not_mem_nil (hnone hfor ▸ htaken)
    · cases hfor.symm.trans hfor'
      exact hne (congrArg Handout.ticket (Option.mem_unique hnewest hnewest'))

theorem Ledger.Kept.along {calls : List (Call J κ)} (h : ∀ key, l.Kept key)
    (htimely : Along F Call.Timely l calls) : Along F (Call.Fenced F) l calls := by
  induction calls generalizing l with
  | nil => trivial
  | cons call calls ih =>
    exact ⟨fenced h htimely.1, ih (fun key => (h key).step htimely.1) htimely.2⟩

end

/-- Claims are exclusive and fenced, whatever the calls, their times and what they meet, if no
finish of an older claim comes while a newer one runs under its owner string. -/
theorem claims_fenced (F : WorkFamily J κ) (calls : List (Call J κ))
    (htimely : Along F Call.Timely .empty calls) : Along F (Call.Fenced F) .empty calls :=
  Ledger.Kept.along (fun _ => ⟨nofun, nofun⟩) htimely

def second : Timestamp := 1000000000

def worker : Request Unit := ⟨some ⟨1⟩, ⟨1⟩, (), "w"⟩

def jobSeven : QualificationJob := ⟨⟨7⟩, ⟨1⟩, .requested, 0⟩

def claimAt (r : Request Unit) (now : Timestamp) : Call QualificationJob Unit :=
  .claim ⟨[jobSeven], fun _ => none, fun _ => false⟩ r 1 now

def otherWorker : Request Unit := { worker with owner := "v" }

/-- The claim of `w` expires and `v` claims the job; `w` finishes too late, `v` in time, and `w`
claims the job once more. -/
def overtaken : List (Call QualificationJob Unit) :=
  [claimAt worker 0, claimAt otherWorker (60 * second),
    .finish worker ⟨7⟩ .completed (61 * second) 0,
    .finish otherWorker ⟨7⟩ .retryableFailure (62 * second) 1,
    claimAt worker (63 * second), .finish worker ⟨7⟩ .completed (64 * second) 4]

theorem overtaken_fenced :
    Along qualificationWork (Call.Fenced qualificationWork) .empty overtaken := by
  refine claims_fenced _ _ ⟨nofun, nofun, ?_, ?_, nofun, ?_, trivial⟩ <;>
  · intro key ticket hfor
    cases hfor
    decide

/-- The claim expires, the worker claims the job again, and its first finish comes in late. -/
def lateFinish : List (Call QualificationJob Unit) :=
  [claimAt worker 0, claimAt worker (60 * second), .finish worker ⟨7⟩ .completed (61 * second) 0]

/-- It ends the second claim. -/
theorem late_finish_ends_later_claim :
    Along qualificationWork Call.Attributed .empty lateFinish ∧
      ¬ Along qualificationWork (Call.Fenced qualificationWork) .empty lateFinish := by
  refine ⟨⟨nofun, nofun, fun _ _ h => by cases h; decide, trivial⟩, fun h => ?_⟩
  have hsame := h.2.2.1.stale _ _ rfl ⟨1, "w", 120 * second, false⟩ (by decide) (by decide)
  exact absurd hsame (by decide)

/-! ## Starvation

One worker in rounds: it claims what the limit allows, and every job it got fails retryably
before the next round. -/

/-- What a round meets: the job table, when the claim is made, and when which job is finished. -/
structure Plan (J : Type) where
  jobs : List J
  now : Timestamp
  finishes : List (JobId × Timestamp)

structure Round where
  eligible : List JobId
  claimed : List JobId
  deriving DecidableEq

def finishAll (F : WorkFamily J κ) (r : Request κ) :
    List (JobId × Timestamp) → Claims κ → Option (Claims κ)
  | [], claims => some claims
  | (job, now) :: finishes, claims =>
    match finishWork F r job .retryableFailure now claims with
    | .ok (true, claims) => finishAll F r finishes claims
    | _ => none

def runRounds (F : WorkFamily J κ) (r : Request κ) (limit : ℕ) :
    List (Plan J) → Claims κ → Option (List Round)
  | [], _ => some []
  | plan :: plans, claims =>
    match claimWork F ⟨plan.jobs, claims, fun _ => false⟩ r limit plan.now claims with
    | .error _ => none
    | .ok (work, claimed) => do
      guard ((plan.finishes.map Prod.fst).Perm (work.map WorkClaim.jobId) ∧
        (∀ finish ∈ plan.finishes, plan.now < finish.2) ∧ ∀ next ∈ plans.head?,
          plan.now < next.now ∧ ∀ finish ∈ plan.finishes, finish.2 < next.now)
      let rounds ← runRounds F r limit plans (← finishAll F r plan.finishes claimed)
      return ⟨eligible F plan.jobs claims r plan.now, work.map WorkClaim.jobId⟩ :: rounds

structure Fair (jobs : List JobId) (limit : ℕ) (rounds : List Round) : Prop where
  /-- A job comes a second time after everyone who was always eligible came once. -/
  inTurn : ∀ before round after, rounds = before ++ round :: after → ∀ job ∈ round.claimed,
    (∃ earlier ∈ before, job ∈ earlier.claimed) →
    ∀ other, (∀ round' ∈ before ++ [round], other ∈ round'.eligible) →
      ∃ round' ∈ before ++ [round], other ∈ round'.claimed
  inTime : jobs.length ⌈/⌉ limit ≤ rounds.length → ∀ job ∈ jobs,
    (∀ round ∈ rounds.take (jobs.length ⌈/⌉ limit), job ∈ round.eligible) →
      ∃ round ∈ rounds.take (jobs.length ⌈/⌉ limit), job ∈ round.claimed

section

variable {F : WorkFamily J κ} {r : Request κ} {limit : ℕ} {jobs : List JobId}
  {rounds : List Round} {claims : Claims κ}

theorem runRounds_all_claimed {plans : List (Plan J)} (hkind : F.served r.kind = true)
    (hfit : ∀ round ∈ rounds, round.eligible.length ≤ limit)
    (h : runRounds F r limit plans claims = some rounds) :
    ∀ round ∈ rounds, ∀ job ∈ round.eligible, job ∈ round.claimed := by
  induction plans generalizing claims rounds with
  | nil =>
    cases h
    exact nofun
  | cons plan plans ih =>
    rw [runRounds] at h
    split at h
    · cases h
    · next hcall =>
      simp only [Option.bind_eq_bind, Option.bind_eq_some_iff] at h
      obtain ⟨_, -, _, -, rounds', hrounds, h⟩ := h
      cases h
      obtain ⟨hfirst, hfit⟩ := forall_mem_cons.mp hfit
      refine forall_mem_cons.mpr ⟨fun job hjob => ?_, ih hfit hrounds⟩
      have hcall := of_unit_bind hcall
      rw [if_pos hkind] at hcall
      cases hcall
      obtain ⟨row, hrow, rfl⟩ := mem_map.mp hjob
      have hfree := (mem_filter.mp ((mem_insertionSort _).mp hrow)).2
      simp only [map_map, Bool.not_false, filter_true, Int.toNat_natCast, take_of_length_le hfirst]
      exact mem_map.mpr ⟨_, (mem_insertionSort _).mpr (mem_filter.mpr
        ⟨hjob, (Bool.and_eq_true_iff.mp hfree).2⟩), rfl⟩

/-- No job has to wait for another to come round again, if all that are ever eligible fit into
one claim. -/
theorem retries_fair (F : WorkFamily J κ) (r : Request κ) (hkind : F.served r.kind = true)
    (limit : ℕ) (plans : List (Plan J)) (claims : Claims κ) (jobs : List JobId)
    (rounds : List Round) (hrun : runRounds F r limit plans claims = some rounds)
    (hjobs : ∀ round ∈ rounds, round.eligible.Subperm jobs) (hfit : jobs.length ≤ limit) :
    Fair jobs limit rounds := by
  have h := runRounds_all_claimed hkind (fun round hround =>
    (hjobs round hround).length_le.trans hfit) hrun
  refine ⟨fun before round after heq job _ _ other hother => ?_, fun hlen job hjob helig => ?_⟩
  · have hround : round ∈ before ++ [round] := mem_append_right _ mem_cons_self
    exact ⟨round, hround, h round (heq ▸ mem_append_right _ mem_cons_self) other
      (hother round hround)⟩
  · -- with a job there is a first round, and the job is claimed in it
    have hpos := length_pos_of_mem hjob
    have hceil : 0 < jobs.length ⌈/⌉ limit := by
      rw [← not_le, ceilDiv_le_iff_le_mul (hpos.trans_le hfit)]
      omega
    cases rounds with
    | nil => exact absurd hlen (not_le.mpr hceil)
    | cons round rounds =>
      have hround : round ∈ (round :: rounds).take (jobs.length ⌈/⌉ limit) := by
        obtain ⟨n, hn⟩ := Nat.exists_eq_succ_of_ne_zero hceil.ne'
        exact hn ▸ mem_cons_self
      exact ⟨round, hround, h round mem_cons_self job (helig round hround)⟩

end

def jobEight : QualificationJob := ⟨⟨8⟩, ⟨1⟩, .requested, second⟩

/-- Both jobs are claimed and fail, twice. -/
theorem two_jobs_fair : Fair [⟨7⟩, ⟨8⟩] 2
    [⟨[⟨7⟩, ⟨8⟩], [⟨7⟩, ⟨8⟩]⟩, ⟨[⟨7⟩, ⟨8⟩], [⟨7⟩, ⟨8⟩]⟩] :=
  retries_fair qualificationWork worker rfl 2
    [⟨[jobEight, jobSeven], 2 * second, [(⟨8⟩, 3 * second), (⟨7⟩, 4 * second)]⟩,
      ⟨[jobEight, jobSeven], 5 * second, [(⟨7⟩, 6 * second), (⟨8⟩, 7 * second)]⟩]
    (fun _ => none) _ _ (by decide) (by decide) le_rfl

/-- Two jobs and a limit of one: the older one comes in every round. -/
theorem younger_job_starves :
    runRounds qualificationWork worker 1
        [⟨[jobSeven, jobEight], 2 * second, [(⟨7⟩, 3 * second)]⟩,
          ⟨[jobSeven, jobEight], 4 * second, [(⟨7⟩, 5 * second)]⟩] (fun _ => none) =
      some [⟨[⟨7⟩, ⟨8⟩], [⟨7⟩]⟩, ⟨[⟨7⟩, ⟨8⟩], [⟨7⟩]⟩] ∧
    ¬ Fair [⟨7⟩, ⟨8⟩] 1 [⟨[⟨7⟩, ⟨8⟩], [⟨7⟩]⟩, ⟨[⟨7⟩, ⟨8⟩], [⟨7⟩]⟩] := by
  refine ⟨by decide, fun h => ?_⟩
  have hturn := h.inTurn [_] _ [] rfl ⟨7⟩ (by decide) (by decide) ⟨8⟩ (by decide)
  exact absurd hturn (by decide)

end Vestrace.Work
