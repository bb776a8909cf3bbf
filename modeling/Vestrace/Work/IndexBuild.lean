import Vestrace.Work.Claims

/-!
# Index builds

The claim of an index build and its publication (migrations 0197 and 0198), and the changes of a
corpus that come before (0195 and 0203). The claim takes the first canonical space without a
current generation and fails if that one is refused, so a refused space blocks all behind it.

What `vestrace_assert_canonical_embedding_space` asks is one flag of the space. The worker is alone
and publishes what it was given before it calls again, so a claim never meets an open attempt or a
building generation, and the branches for them are left out.
-/

namespace Vestrace.Index

open Lib List Work Function

structure Projection where
  id : Uuid
  ordinal : ℕ
  deriving DecidableEq, Repr

/-- A published index of the space. -/
structure Generation where
  memberCount : ℕ
  epoch : ℕ
  capturedGuardVersion : ℕ
  corpusRevision : ℕ
  builtThrough : ℕ
  members : List Projection
  deriving DecidableEq, Repr

/-- What a claim reads of `embedding_index_rebuild_events`. -/
structure RebuildEvent where
  afterCorpusRevision : ℕ
  afterLiveMemberCount : ℕ
  builtThrough : ℕ
  deriving DecidableEq, Repr

/-- A registered space with its corpus state, its generation guard and its projections: Live ones,
retired ones and prepared ones. -/
structure Space where
  canonical : Bool
  qualified : Bool
  corpusRevision : ℕ
  liveMemberCount : ℕ
  nextProjectionOrdinal : ℕ
  epoch : ℕ
  guardVersion : ℕ
  current : Option Generation
  live : List Projection
  retired : List Projection
  prepared : List (List Projection)
  events : List RebuildEvent
  deriving DecidableEq, Repr

namespace Space

variable (s : Space)

/-- A canonical space with `guard.current_generation_id IS NULL`. -/
def pending : Bool := s.canonical && s.current.isNone

def watermark : ℕ := (s.live.map Projection.ordinal).foldr max 0

def captured : Generation :=
  ⟨s.live.length, s.epoch + 1, s.guardVersion, s.corpusRevision, s.watermark, s.live⟩

/-- `vestrace_capture_embedding_generation`, with the guard version the caller has read. -/
def capture : Except String Generation := do
  refuse (s.qualified = false)
    "canonical embedding space requires exact qualified structural evidence"
  refuse (s.live.length ≠ s.liveMemberCount) "canonical corpus live count mismatch"
  .ok s.captured

def event? : Option RebuildEvent :=
  s.events.find? fun e => decide (e.afterCorpusRevision = s.corpusRevision ∧
    e.afterLiveMemberCount = s.liveMemberCount ∧ e.builtThrough = s.nextProjectionOrdinal - 1)

def initial : Bool :=
  decide (s.corpusRevision = 0 ∧ s.liveMemberCount = 0 ∧ s.nextProjectionOrdinal = 1)

/-- `vestrace_validate_embedding_index_attempt` for a new attempt: at startup without an event,
otherwise with the event of the change. -/
def validateAttempt (event : Option RebuildEvent) (g : Generation) : Except String Unit :=
  match event with
  | none => refuse (¬ (g.corpusRevision = 0 ∧ g.builtThrough = 0 ∧ g.memberCount = 0))
      "embedding index startup requires initial empty corpus"
  | some e => refuse (¬ (e.afterCorpusRevision = g.corpusRevision ∧
      e.afterLiveMemberCount = g.memberCount ∧ e.builtThrough = g.builtThrough))
      "embedding index attempt event must match captured corpus"

/-- `vestrace_claim_embedding_index_build`, for one space. -/
def claimBuild (r : Request Unit) (limit : ℤ) (s : Space) : Except String Generation := do
  refuse (r.wellFormed = false ∨ limit ≤ 0) "embedding index claim arguments malformed"
  refuse (limit < s.liveMemberCount) "embedding-index-memory-limit"
  let g ← s.capture
  refuse (s.event? = none ∧ s.initial = false) "embedding index corpus change authority absent"
  validateAttempt s.event? g
  return g

def publish (g : Generation) : Except String Space := do
  refuse (s.qualified = false)
    "canonical embedding space requires exact qualified structural evidence"
  refuse (s.guardVersion ≠ g.capturedGuardVersion ∨ g.epoch ≠ s.epoch + 1 ∨
    g.corpusRevision ≠ s.corpusRevision) "canonical generation publication capture conflict"
  refuse (s.live.length ≠ g.memberCount ∨ s.live.length ≠ s.liveMemberCount ∨
      s.watermark ≠ g.builtThrough ∨ s.live.length ≠ g.members.length ∨ ∃ p ∈ s.live, p ∉ g.members)
    "canonical generation publication requires its exact Live member set"
  return { s with epoch := g.epoch, current := some g, guardVersion := s.guardVersion + 1 }

def published : Space :=
  { s with epoch := s.epoch + 1, current := some s.captured, guardVersion := s.guardVersion + 1 }

def cycle (r : Request Unit) (limit : ℤ) (s : Space) : Space :=
  ((s.claimBuild r limit >>= s.publish).toOption).getD s

/-- The space is within the member limit and has the event of its last change. -/
def Fit (limit : ℤ) (s : Space) : Prop := s.liveMemberCount ≤ limit ∧ s.event? ≠ none

/-- Nothing about the call and the space is refused. The last condition says that the event was
recorded at the highest ordinal that is still Live. -/
def Granted (r : Request Unit) (limit : ℤ) (s : Space) : Prop :=
  r.wellFormed = true ∧ 0 < limit ∧ s.liveMemberCount ≤ limit ∧
    (s.event? ≠ none ∨ s.initial = true) ∧ s.qualified = true ∧
    s.live.length = s.liveMemberCount ∧ ∀ e ∈ s.event?, e.builtThrough = s.watermark

variable {r : Request Unit} {limit : ℤ} {s : Space} {g : Generation}

theorem validateAttempt_captured (hexact : s.live.length = s.liveMemberCount)
    (hevent : s.event? ≠ none ∨ s.initial = true) :
    validateAttempt s.event? s.captured = .ok () ↔
      ∀ e ∈ s.event?, e.builtThrough = s.watermark := by
  cases hfound : s.event? with
  | none =>
    have hinitial := of_decide_eq_true (hevent.resolve_left (not_not.mpr hfound))
    have hlive : s.live = [] := length_eq_zero_iff.mp (hexact.trans hinitial.2.1)
    have hwatermark : s.watermark = 0 := by rw [watermark, hlive]; rfl
    simp [validateAttempt, captured, hinitial.1, hwatermark, hlive]
  | some e =>
    have hmatch := find?_some hfound
    rw [decide_eq_true_eq] at hmatch
    simp [validateAttempt, captured, hmatch.1, hmatch.2.1, hexact]

theorem claimBuild_eq_ok : s.claimBuild r limit = .ok g ↔ Granted r limit s ∧ s.captured = g := by
  have hevent : ¬ (s.event? = none ∧ s.initial = false) ↔ s.event? ≠ none ∨ s.initial = true := by
    rw [not_and_or, Bool.not_eq_false]
  constructor
  · intro h
    obtain ⟨hargs, h⟩ := unit_bind_eq_ok.mp h
    obtain ⟨hlimit, h⟩ := unit_bind_eq_ok.mp h
    obtain ⟨_, hcapture, h⟩ := bind_eq_ok.mp h
    obtain ⟨hqualified, hcapture⟩ := unit_bind_eq_ok.mp hcapture
    obtain ⟨hexact, hcapture⟩ := unit_bind_eq_ok.mp hcapture
    cases hcapture
    obtain ⟨hfound, h⟩ := unit_bind_eq_ok.mp h
    obtain ⟨hvalid, h⟩ := unit_bind_eq_ok.mp h
    simp only [refuse_eq_ok, not_or, Bool.not_eq_false, not_not, not_lt, not_le, hevent] at *
    exact ⟨⟨hargs.1, hargs.2, hlimit, hfound, hqualified, hexact,
      (validateAttempt_captured hexact hfound).mp hvalid⟩, pure_eq_ok.mp h⟩
  · rintro ⟨⟨hformed, hpos, hlimit, hfound, hqualified, hexact, hreached⟩, rfl⟩
    have hcapture : s.capture = .ok s.captured := by
      rw [capture, refuse_bind_neg (by simp [hqualified]), refuse_bind_neg (by simp [hexact])]
    rw [claimBuild, refuse_bind_neg (by simp [hformed, hpos]), refuse_bind_neg (not_lt.mpr hlimit),
      hcapture, ok_bind, refuse_bind_neg (hevent.mpr hfound),
      (validateAttempt_captured hexact hfound).mpr hreached]
    rfl

theorem publish_captured (h : Granted r limit s) : s.publish s.captured = .ok s.published := by
  obtain ⟨-, -, -, -, hqualified, hexact, -⟩ := h
  rw [publish, refuse_bind_neg (by simp [hqualified]), refuse_bind_neg (by simp [captured]),
    refuse_bind_neg (by simp [captured, hexact])]
  rfl

theorem pending_published (s : Space) : s.published.pending = false := Bool.and_false _

theorem cycle_of_granted (h : Granted r limit s) : s.cycle r limit = s.published := by
  rw [cycle, claimBuild_eq_ok.mpr ⟨h, rfl⟩, ok_bind, publish_captured h]
  rfl

theorem cycle_of_refused (h : ¬ Granted r limit s) : s.cycle r limit = s := by
  cases hclaim : s.claimBuild r limit with
  | error e => rw [cycle, hclaim]; rfl
  | ok g => exact absurd (claimBuild_eq_ok.mp hclaim).1 h

end Space

/-- The call takes the first space, by registration id, that has no current generation. -/
def onFirstPending (f : Space → Space) : List Space → List Space
  | [] => []
  | s :: spaces => if s.pending then f s :: spaces else s :: onFirstPending f spaces

def runCycles (r : Request Unit) (limit : ℤ) (calls : ℕ) (spaces : List Space) : List Space :=
  (onFirstPending (Space.cycle r limit))^[calls] spaces

/-- A space that is refused stands before one that should get its index, or is one itself. -/
def Blocked (r : Request Unit) (limit : ℤ) : List Space → Prop
  | [] => False
  | s :: spaces => (s.pending = true ∧ ¬ s.Granted r limit ∧
      ∃ t ∈ s :: spaces, t.pending = true ∧ t.Fit limit) ∨
    ((s.pending = true → s.Granted r limit) ∧ Blocked r limit spaces)

section

variable {r : Request Unit} {limit : ℤ} {s : Space} {spaces : List Space}

theorem runCycles_cons (hs : s.pending = false) (calls : ℕ) :
    runCycles r limit calls (s :: spaces) = s :: runCycles r limit calls spaces := by
  induction calls generalizing spaces with
  | zero => rfl
  | succ calls ih =>
    rw [runCycles, iterate_succ_apply, onFirstPending, hs]
    exact ih

theorem runCycles_refused (hs : s.pending = true) (h : ¬ s.Granted r limit) (calls : ℕ) :
    runCycles r limit calls (s :: spaces) = s :: spaces := by
  refine iterate_fixed ?_ calls
  rw [onFirstPending, if_pos hs, Space.cycle_of_refused h]

theorem runCycles_granted (hs : s.pending = true) (h : s.Granted r limit) (calls : ℕ) :
    runCycles r limit (calls + 1) (s :: spaces) =
      s.cycle r limit :: runCycles r limit calls spaces := by
  rw [runCycles, iterate_succ_apply, onFirstPending, if_pos hs]
  exact runCycles_cons (by rw [Space.cycle_of_granted h, Space.pending_published]) calls

/-- As many calls as there are spaces without a current generation leave none without that is
within the limit and has its change event, if and only if no refused space stands at or before
such a one. -/
theorem index_built_iff (r : Request Unit) (limit : ℤ) (spaces : List Space) :
    (∀ s ∈ runCycles r limit (spaces.countP Space.pending) spaces,
      s.pending = true → ¬ s.Fit limit) ↔ ¬ Blocked r limit spaces := by
  induction spaces with
  | nil => exact iff_of_true nofun id
  | cons s spaces ih =>
    cases hs : s.pending with
    | false =>
      rw [countP_cons_of_neg (by simp [hs]), runCycles_cons hs, forall_mem_cons, ih]
      simp [Blocked, hs]
    | true =>
      by_cases hgranted : s.Granted r limit
      · rw [countP_cons_of_pos hs, runCycles_granted hs hgranted, forall_mem_cons, ih]
        simp [Blocked, hs, hgranted, Space.cycle_of_granted hgranted, Space.pending_published]
      · rw [runCycles_refused hs hgranted]
        simp [Blocked, hs, hgranted]

end

def emptySpace : Space := ⟨true, true, 0, 0, 1, 0, 1, none, [], [], [], []⟩

/-- One result with one output was published. -/
def singleSpace : Space :=
  { emptySpace with
    corpusRevision := 1, liveMemberCount := 1, nextProjectionOrdinal := 2, epoch := 1
    guardVersion := 2, live := [⟨1, 1⟩], events := [⟨1, 1, 1⟩] }

/-- And another one after it. -/
def pairSpace : Space :=
  { singleSpace with
    corpusRevision := 2, liveMemberCount := 2, nextProjectionOrdinal := 3, epoch := 2
    guardVersion := 3, live := [⟨1, 1⟩, ⟨2, 2⟩], events := [⟨2, 2, 2⟩, ⟨1, 1, 1⟩] }

/-- With a limit of one member, the larger space keeps the other from its index. -/
theorem single_space_not_built :
    ∃ s ∈ runCycles worker 1 2 [pairSpace, singleSpace], s.pending = true ∧ s.Fit 1 :=
  ⟨singleSpace, by decide, rfl, by decide, by decide⟩

/-! ## What changes a corpus -/

namespace Space

variable (s : Space)

/-- `vestrace_invalidate_canonical_generation_guard`. -/
def changed (live : List Projection) (count builtThrough : ℕ) : Space :=
  { s with
    corpusRevision := s.corpusRevision + 1, liveMemberCount := count, epoch := s.epoch + 1
    guardVersion := s.guardVersion + 1, current := none, live
    events := ⟨s.corpusRevision + 1, count, builtThrough⟩ :: s.events }

/-- `vestrace_commit_embedding_result_preparation`: each output reserves the next ordinal. -/
def prepare (ids : List Uuid) : Space :=
  { s with
    nextProjectionOrdinal := s.nextProjectionOrdinal + ids.length
    prepared :=
      zipWith Projection.mk ids (range' s.nextProjectionOrdinal ids.length) :: s.prepared }

/-- `vestrace_publish_embedding_job_result`. -/
def publishResult (i : ℕ) : Except String Space := do
  let outputs ← okOr s.prepared[i]? "result finalization preparation absent"
  let next := s.changed (s.live ++ outputs) (s.liveMemberCount + outputs.length)
    ((outputs.map Projection.ordinal).foldr max 0)
  return { next with prepared := s.prepared.eraseIdx i }

/-- `vestrace_validate_canonical_generation_guard`. -/
def validateGuard : Except String Unit :=
  refuse (∃ g ∈ s.current, ¬ (g.epoch = s.epoch ∧ g.capturedGuardVersion + 1 = s.guardVersion ∧
      g.corpusRevision = s.corpusRevision ∧ g.memberCount = s.liveMemberCount))
    "canonical generation guard requires exact Ready snapshot"

/-- `vestrace_propagate_embedding_source_erasure` in a space with projections of the source. The
guard loses its generation only if that has one of them as a member. -/
def eraseSource (dependsOn : Projection → Bool) : Except String Space := do
  let remaining := s.live.filter (!dependsOn ·)
  let next := { s.changed remaining remaining.length (max (s.nextProjectionOrdinal - 1) 1) with
    current := s.current.filter (!·.members.any dependsOn)
    retired := s.live.filter dependsOn ++ s.retired }
  next.validateGuard
  return next

inductive Step (s : Space) : Space → Prop
  | prepare (ids : List Uuid) : Step s (s.prepare ids)
  | publishResult {next} (i : ℕ) : s.publishResult i = .ok next → Step s next
  | cycle (r : Request Unit) (limit : ℤ) : Step s (s.cycle r limit)

/-- What committed changes and builds make of a new space. -/
inductive Reached : Space → Prop
  | new : Reached emptySpace
  | step {s next} : Reached s → s.Step next → Reached next
  | eraseSource {s next} (dependsOn : Projection → Bool) : Reached s →
      s.eraseSource dependsOn = .ok next → Reached next

/-- The highest ordinal that was ever reserved is Live, and the last change was recorded at it. -/
def Aligned : Prop :=
  s.watermark + 1 = s.nextProjectionOrdinal ∧
    ∀ e ∈ s.events.head?, e.builtThrough + 1 = s.nextProjectionOrdinal

/-- The last event is of the corpus as it is, and no other is. The guard is not behind its
generation. -/
structure Recorded (s : Space) : Prop where
  qualified : s.qualified = true
  exact : s.live.length = s.liveMemberCount
  ordinal : 1 ≤ s.nextProjectionOrdinal
  first : s.events = [] → s.corpusRevision = 0 ∧ s.live = []
  last : ∀ e older, s.events = e :: older → 0 < s.corpusRevision ∧
    e.afterCorpusRevision = s.corpusRevision ∧ e.afterLiveMemberCount = s.liveMemberCount ∧
    ∀ old ∈ older, old.afterCorpusRevision < s.corpusRevision
  epoch : ∀ g ∈ s.current, g.epoch ≤ s.epoch

variable {r : Request Unit} {limit : ℤ} {s : Space}

theorem Recorded.changed (h : s.Recorded) {live : List Projection} {count builtThrough : ℕ}
    (hcount : live.length = count) : (s.changed live count builtThrough).Recorded where
  qualified := h.qualified
  exact := hcount
  ordinal := h.ordinal
  first := nofun
  last e older heq := by
    cases heq
    refine ⟨Nat.succ_pos _, rfl, rfl, fun old hold => Nat.lt_succ_of_le ?_⟩
    obtain ⟨newest, rest, hevents⟩ := exists_cons_of_ne_nil (ne_nil_of_mem hold)
    obtain ⟨-, hnewest, -, hrest⟩ := h.last newest rest hevents
    rw [hevents] at hold
    rcases mem_cons.mp hold with rfl | hold
    · exact hnewest.le
    · exact (hrest old hold).le
  epoch := nofun

theorem Recorded.step {next : Space} (h : s.Recorded) (hstep : s.Step next) : next.Recorded := by
  cases hstep with
  | prepare ids => exact { h with ordinal := h.ordinal.trans (Nat.le_add_right _ _) }
  | publishResult i hpublish =>
    obtain ⟨outputs, -, hpublish⟩ := bind_eq_ok.mp hpublish
    cases pure_eq_ok.mp hpublish
    have hlength : (s.live ++ outputs).length = s.liveMemberCount + outputs.length := by
      rw [length_append, h.exact]
    exact { h.changed hlength with }
  | cycle r limit =>
    by_cases hgranted : s.Granted r limit
    · rw [cycle_of_granted hgranted]
      refine { h with epoch := ?_ }
      rintro _ ⟨⟩
      exact le_rfl
    · rwa [cycle_of_refused hgranted]

theorem Reached.recorded (h : s.Reached) : s.Recorded := by
  induction h with
  | new => exact ⟨rfl, rfl, le_rfl, fun _ => ⟨rfl, rfl⟩, nofun, nofun⟩
  | step _ hstep ih => exact ih.step hstep
  | eraseSource dependsOn _ herase ih =>
    obtain ⟨hguard, herase⟩ := unit_bind_eq_ok.mp herase
    cases pure_eq_ok.mp herase
    refine { ih.changed rfl with epoch := fun g hg => ?_ }
    by_contra hlt
    exact refuse_eq_ok.mp hguard ⟨g, hg, fun hexact => hlt hexact.1.le⟩

theorem Recorded.event?_eq (h : s.Recorded) {e : RebuildEvent} {older : List RebuildEvent}
    (hevents : s.events = e :: older) :
    s.event? = if e.builtThrough = s.nextProjectionOrdinal - 1 then some e else none := by
  obtain ⟨-, hrevision, hcount, holder⟩ := h.last e older hevents
  rw [event?, hevents, find?_cons, find?_eq_none.mpr]
  · by_cases hbuilt : e.builtThrough = s.nextProjectionOrdinal - 1 <;>
      simp [hrevision, hcount, hbuilt]
  · intro old hmem
    simp [(holder old hmem).ne]

theorem Recorded.aligned_iff (h : s.Recorded) :
    s.Aligned ↔ (s.event? ≠ none ∨ s.initial = true) ∧
      ∀ e ∈ s.event?, e.builtThrough = s.watermark := by
  have hordinal := h.ordinal
  cases hevents : s.events with
  | nil =>
    obtain ⟨hrevision, hlive⟩ := h.first hevents
    have hcount : s.liveMemberCount = 0 := by rw [← h.exact, hlive]; rfl
    have hwatermark : s.watermark = 0 := by rw [watermark, hlive]; rfl
    simp [Aligned, event?, initial, hevents, hrevision, hcount, hwatermark, eq_comm]
  | cons e older =>
    have hinitial : s.initial = false := by
      simp [initial, (h.last e older hevents).1.ne']
    rw [h.event?_eq hevents]
    by_cases hbuilt : e.builtThrough = s.nextProjectionOrdinal - 1
    · rw [if_pos hbuilt, Aligned, hevents]
      simp only [head?_cons, Option.mem_some_iff, forall_eq', ne_eq, reduceCtorEq,
        not_false_eq_true, true_or, true_and]
      omega
    · rw [if_neg hbuilt, Aligned, hevents, hinitial]
      simp only [head?_cons, Option.mem_some_iff, forall_eq', ne_eq, not_true_eq_false,
        reduceCtorEq, or_self, false_and, iff_false, not_and]
      omega

/-- A space within the limit without a current generation can be indexed if and only if the
highest reserved ordinal is Live and the last change was recorded at it. -/
theorem reached_indexed_iff (hreached : s.Reached) (hformed : r.wellFormed = true)
    (hlimit : 0 < limit) (hfits : (s.liveMemberCount : ℤ) ≤ limit) :
    (∃ g next, s.claimBuild r limit = .ok g ∧ s.publish g = .ok next ∧ next.current = some g) ↔
      s.Aligned := by
  have h := hreached.recorded
  rw [h.aligned_iff]
  constructor
  · rintro ⟨g, next, hclaim, -, -⟩
    obtain ⟨-, -, -, hevent, -, -, hbuilt⟩ := (claimBuild_eq_ok.mp hclaim).1
    exact ⟨hevent, hbuilt⟩
  · rintro ⟨hevent, hbuilt⟩
    have hgranted : s.Granted r limit :=
      ⟨hformed, hlimit, hfits, hevent, h.qualified, h.exact, hbuilt⟩
    exact ⟨_, _, claimBuild_eq_ok.mpr ⟨hgranted, rfl⟩, publish_captured hgranted, rfl⟩

theorem reached_pair : pairSpace.Reached :=
  have hsingle : singleSpace.Reached := .step (.step .new (.prepare [1])) (.publishResult 0 rfl)
  .step (.step hsingle (.prepare [2])) (.publishResult 0 rfl)

theorem pair_indexed : ∃ g next, pairSpace.claimBuild worker 2 = .ok g ∧
    pairSpace.publish g = .ok next ∧ next.current = some g :=
  (reached_indexed_iff reached_pair rfl (by decide) (by decide)).mpr ⟨by decide, by decide⟩

/-- After the erasure of the later one, the claim fails for good. -/
theorem erased_pair_not_indexed : ∃ s, Reached s ∧ s.pending = true ∧ s.liveMemberCount = 1 ∧
    s.claimBuild worker 2 = .error "embedding index attempt event must match captured corpus" :=
  ⟨_, .eraseSource (·.ordinal == 2) reached_pair rfl, rfl, rfl, rfl⟩

/-- A generation that stays in the guard is behind it. -/
theorem Reached.erases_iff (h : s.Reached) (dependsOn : Projection → Bool) :
    (∃ next, s.eraseSource dependsOn = .ok next) ↔
      ∀ g ∈ s.current, g.members.any dependsOn = true := by
  constructor
  · rintro ⟨next, herase⟩ g hg
    by_contra hnone
    refine refuse_eq_ok.mp (unit_bind_eq_ok.mp herase).1 ⟨g, ?_, fun hexact => ?_⟩
    · exact Option.mem_filter_iff.mpr ⟨hg, by simpa using hnone⟩
    · exact absurd (h.recorded.epoch g hg) (by simp [hexact.1, changed])
  · intro hall
    refine ⟨_, unit_bind_eq_ok.mpr ⟨refuse_neg ?_, rfl⟩⟩
    rintro ⟨g, hg, -⟩
    obtain ⟨hg, hnone⟩ := Option.mem_filter_iff.mp hg
    rw [hall g hg] at hnone
    cases hnone

/-- **The current generation is the corpus.** It holds exactly the projections that are Live. -/
theorem Reached.current_exact (h : s.Reached) : ∀ g ∈ s.current,
    g.members = s.live ∧ g.memberCount = s.liveMemberCount ∧ g.epoch = s.epoch ∧
      g.corpusRevision = s.corpusRevision ∧ g.capturedGuardVersion + 1 = s.guardVersion := by
  induction h with
  | new => exact nofun
  | @step s next hreached hstep ih =>
    cases hstep with
    | prepare ids => exact ih
    | publishResult i hpublish =>
      obtain ⟨outputs, -, hpublish⟩ := bind_eq_ok.mp hpublish
      cases pure_eq_ok.mp hpublish
      exact nofun
    | cycle r limit =>
      by_cases hgranted : s.Granted r limit
      · rw [cycle_of_granted hgranted]
        rintro _ ⟨⟩
        exact ⟨rfl, hreached.recorded.exact, rfl, rfl, rfl⟩
      · rwa [cycle_of_refused hgranted]
  | @eraseSource s next dependsOn hreached herase ih =>
    have hall := (hreached.erases_iff dependsOn).mp ⟨next, herase⟩
    cases pure_eq_ok.mp (unit_bind_eq_ok.mp herase).2
    intro g hg
    obtain ⟨hg, hnone⟩ := Option.mem_filter_iff.mp hg
    rw [hall g hg] at hnone
    cases hnone

theorem pair_current_exact : ∃ g ∈ (pairSpace.cycle worker 2).current, g.members = pairSpace.live :=
  ⟨_, rfl, (Reached.current_exact (.step reached_pair (.cycle worker 2)) _ rfl).1⟩

theorem prepare_ordinals (ids : List Uuid) (start : ℕ) :
    (zipWith Projection.mk ids (range' start ids.length)).map Projection.ordinal =
      range' start ids.length :=
  ext_getElem (by simp) (by simp)

/-- **Each ordinal is given out once.** Every ordinal that was ever reserved belongs to exactly one
projection, which is Live, retired or still prepared. -/
theorem Reached.ordinals_perm (h : s.Reached) :
    (s.live ++ s.retired ++ s.prepared.flatten).map Projection.ordinal ~
      range' 1 (s.nextProjectionOrdinal - 1) := by
  induction h with
  | new => exact .nil
  | @step s next hreached hstep ih =>
    cases hstep with
    | prepare ids =>
      obtain ⟨n, hn⟩ := Nat.exists_eq_add_of_le hreached.recorded.ordinal
      simp only [prepare, flatten_cons, hn, Nat.add_sub_cancel_left, Nat.add_assoc] at ih ⊢
      rw [← range'_append_1]
      refine .trans ?_ (ih.append_right _)
      conv_rhs => rw [← prepare_ordinals ids (1 + n), ← map_append]
      refine Perm.map _ ?_
      rw [append_assoc _ s.prepared.flatten]
      exact perm_append_comm.append_left _
    | publishResult i hpublish =>
      obtain ⟨outputs, houtputs, hpublish⟩ := bind_eq_ok.mp hpublish
      cases pure_eq_ok.mp hpublish
      obtain ⟨hi, rfl⟩ := List.getElem?_eq_some_iff.mp (okOr_eq_ok.mp houtputs)
      refine (Perm.map _ ?_).trans ih
      refine .trans ?_ ((getElem_cons_eraseIdx_perm hi).flatten.append_left _)
      show s.live ++ s.prepared[i] ++ s.retired ++ (s.prepared.eraseIdx i).flatten ~ _
      rw [flatten_cons, ← append_assoc (s.live ++ s.retired)]
      refine Perm.append_right _ ?_
      rw [append_assoc, append_assoc]
      exact perm_append_comm.append_left _
    | cycle r limit =>
      by_cases hgranted : s.Granted r limit
      · rw [cycle_of_granted hgranted]
        exact ih
      · rwa [cycle_of_refused hgranted]
  | @eraseSource s next dependsOn _ herase ih =>
    cases pure_eq_ok.mp (unit_bind_eq_ok.mp herase).2
    refine (Perm.map _ (Perm.append_right _ ?_)).trans ih
    show s.live.filter (!dependsOn ·) ++ (s.live.filter dependsOn ++ s.retired) ~ _
    rw [← append_assoc]
    exact (perm_append_comm.trans (filter_append_perm _ _)).append_right _

theorem pair_ordinals : (pairSpace.live ++ pairSpace.retired ++ pairSpace.prepared.flatten).map
    Projection.ordinal ~ range' 1 2 := reached_pair.ordinals_perm

end Space

/-! ## The erasure of a source -/

structure Corpus (ι : Type) where
  spaces : ι → Space
  propagated : List Uuid

def Space.affected (s : Space) (dependsOn : Projection → Bool) : Bool :=
  (s.live ++ s.retired ++ s.prepared.flatten).any dependsOn

namespace Corpus

-- `embedding_projection_source_dependencies`, by the id of the projection. The outputs of one
-- result have all sources of its job; the results here do not need that.
variable {ι : Type} [DecidableEq ι] (sources : Uuid → List Uuid)

def dependsOn (source : Uuid) (p : Projection) : Bool := decide (source ∈ sources p.id)

/-- The loop is over the spaces with a projection of the source, in whatever state. -/
def visit (source : Uuid) (s : Space) : Except String Space :=
  if s.affected (dependsOn sources source) then s.eraseSource (dependsOn sources source)
  else .ok s

/-- `vestrace_propagate_embedding_source_erasure` of a Live source commits. -/
structure Propagates (c : Corpus ι) (source : Uuid) (next : Corpus ι) : Prop where
  live : source ∉ c.propagated
  spaces : ∀ i, visit sources source (c.spaces i) = .ok (next.spaces i)
  propagated : next.propagated = source :: c.propagated

/-- What the committed calls in all spaces make of new ones. -/
inductive Reached : Corpus ι → Prop
  | new : Reached ⟨fun _ => emptySpace, []⟩
  | change {c next} (i : ι) : Reached c → (c.spaces i).Step next →
      Reached { c with spaces := update c.spaces i next }
  | erase {c next} (source : Uuid) : Reached c → c.Propagates sources source next → Reached next

variable {sources} {c : Corpus ι}

theorem Reached.space (h : c.Reached sources) (j : ι) : (c.spaces j).Reached := by
  induction h with
  | new => exact .new
  | @change c next i _ hstep ih =>
    show (update c.spaces i next j).Reached
    by_cases hj : j = i
    · subst hj
      rw [update_self]
      exact .step ih hstep
    · rwa [update_of_ne hj]
  | erase source _ herase ih =>
    have hvisit := herase.spaces j
    rw [visit] at hvisit
    split at hvisit
    · exact .eraseSource _ ih hvisit
    · rwa [← Except.ok.inj hvisit]

/-- With no result left to publish, a Live source can be erased if and only if every current
generation of a space with a projection of it has one as a member. -/
theorem erasable_iff (h : c.Reached sources) (hprepared : ∀ i, (c.spaces i).prepared = [])
    {source : Uuid} (hlive : source ∉ c.propagated) :
    (∃ next, c.Propagates sources source next) ↔
      ∀ i, ∀ p ∈ (c.spaces i).live ++ (c.spaces i).retired, source ∈ sources p.id →
        ∀ g ∈ (c.spaces i).current, ∃ member ∈ g.members, source ∈ sources member.id := by
  have hvisit (i : ι) : (∃ next, visit sources source (c.spaces i) = .ok next) ↔
      ∀ p ∈ (c.spaces i).live ++ (c.spaces i).retired, source ∈ sources p.id →
        ∀ g ∈ (c.spaces i).current, ∃ member ∈ g.members, source ∈ sources member.id := by
    rw [visit, Space.affected, hprepared, flatten_nil, append_nil]
    split
    · next hany =>
      obtain ⟨p, hp, hdepends⟩ := any_eq_true.mp hany
      rw [(h.space i).erases_iff]
      simp only [any_eq_true, dependsOn, decide_eq_true_eq] at hdepends ⊢
      exact ⟨fun hall _ _ _ => hall, fun hall => hall p hp hdepends⟩
    · next hnone =>
      refine iff_of_true ⟨_, rfl⟩ fun p hp hdepends => absurd (any_eq_true.mpr ⟨p, hp, ?_⟩) hnone
      exact decide_eq_true hdepends
  simp only [← hvisit]
  constructor
  · rintro ⟨next, hnext⟩ i
    exact ⟨_, hnext.spaces i⟩
  · intro hall
    obtain ⟨spaces, hspaces⟩ := Classical.axiomOfChoice hall
    exact ⟨⟨spaces, source :: c.propagated⟩, hlive, hspaces, rfl⟩

/-- The first result is computed from the sources 1 and 2, the second from 3. -/
def pairSources (id : Uuid) : List Uuid := if id = 1 then [1, 2] else [3]

theorem reached_pair : Reached pairSources (⟨fun _ => pairSpace, []⟩ : Corpus Unit) :=
  have hsingle : Reached pairSources (⟨fun _ => singleSpace, []⟩ : Corpus Unit) :=
    .change () (.change () .new (.prepare [1])) (.publishResult 0 rfl)
  .change () (.change () hsingle (.prepare [2])) (.publishResult 0 rfl)

/-- Both are indexed, and the index goes with the source. -/
theorem indexed_pair_erasable : ∃ next : Corpus Unit,
    Propagates pairSources ⟨fun _ => pairSpace.cycle worker 2, []⟩ 1 next := by
  refine (erasable_iff (.change () reached_pair (.cycle worker 2)) (fun _ => rfl)
    not_mem_nil).mpr fun _ _ _ _ g hg => ?_
  cases hg
  exact ⟨⟨1, 1⟩, by decide, by decide⟩

def retiredPair : Space :=
  { pairSpace with
    corpusRevision := 3, liveMemberCount := 1, epoch := 3, guardVersion := 4
    live := [⟨2, 2⟩], retired := [⟨1, 1⟩], events := [⟨3, 1, 2⟩, ⟨2, 2, 2⟩, ⟨1, 1, 1⟩] }

/-- Once a source of it is erased and what remains is indexed, the other cannot be erased. -/
theorem retired_pair_not_erasable : ∃ c : Corpus Unit, c.Reached pairSources ∧ 2 ∉ c.propagated ∧
    (∀ i, (c.spaces i).prepared = []) ∧ ¬ ∃ next, c.Propagates pairSources 2 next := by
  have herased : Reached pairSources (⟨fun _ => retiredPair, [1]⟩ : Corpus Unit) :=
    .erase 1 reached_pair ⟨not_mem_nil, fun _ => rfl, rfl⟩
  refine ⟨⟨fun _ => retiredPair.cycle worker 2, [1]⟩, .change () herased (.cycle worker 2),
    by decide, fun _ => rfl, ?_⟩
  rintro ⟨next, hnext⟩
  cases hnext.spaces ()

end Corpus

/-! ## The stream of changes -/

/-- A row of `embedding_index_rebuild_events`, as far as it describes the change. -/
structure ChangeEvent where
  beforeCorpusRevision : ℕ
  afterCorpusRevision : ℕ
  beforeEpoch : ℕ
  afterEpoch : ℕ
  beforeLiveMemberCount : ℕ
  afterLiveMemberCount : ℕ

def publicationEvent (s next : Space) : ChangeEvent :=
  ⟨s.corpusRevision, s.corpusRevision + 1, s.epoch, s.epoch + 1, s.liveMemberCount,
    next.liveMemberCount⟩

def erasureEvent (next : Space) : ChangeEvent :=
  ⟨next.corpusRevision - 1, next.corpusRevision, next.epoch - 1, next.epoch, next.liveMemberCount,
    next.liveMemberCount⟩

inductive SpaceCall where
  | prepare (ids : List Uuid)
  | publishResult (i : ℕ)
  | cycle (r : Request Unit) (limit : ℤ)
  | eraseSource (dependsOn : Projection → Bool)

structure Stream where
  space : Space
  changes : List ChangeEvent

namespace Stream

def act (st : Stream) : SpaceCall → Stream
  | .prepare ids => { st with space := st.space.prepare ids }
  | .publishResult i =>
    match st.space.publishResult i with
    | .ok next => ⟨next, publicationEvent st.space next :: st.changes⟩
    | .error _ => st
  | .cycle r limit => { st with space := st.space.cycle r limit }
  | .eraseSource dependsOn =>
    match st.space.affected dependsOn, st.space.eraseSource dependsOn with
    | true, .ok next => ⟨next, erasureEvent next :: st.changes⟩
    | _, _ => st

def run (calls : List SpaceCall) : Stream := calls.foldl act ⟨emptySpace, []⟩

/-- The events lead from nothing to this revision and this many members. -/
def Chained (revision live : ℕ) : List ChangeEvent → Prop
  | [] => revision = 0 ∧ live = 0
  | e :: older => e.afterCorpusRevision = revision ∧ e.afterLiveMemberCount = live ∧
      e.afterCorpusRevision = e.beforeCorpusRevision + 1 ∧
      (∀ p ∈ older.head?, p.afterEpoch ≤ e.beforeEpoch) ∧
      Chained e.beforeCorpusRevision e.beforeLiveMemberCount older

def IsChain (st : Stream) : Prop :=
  Chained st.space.corpusRevision st.space.liveMemberCount st.changes

def Retires (st : Stream) : SpaceCall → Prop
  | .eraseSource dependsOn =>
    (∃ next, st.space.eraseSource dependsOn = .ok next) ∧ ∃ p ∈ st.space.live, dependsOn p = true
  | _ => False

structure Tracked (st : Stream) : Prop where
  reached : st.space.Reached
  first : st.changes = [] → st.space.liveMemberCount = 0
  last : ∀ e ∈ st.changes.head?, e.afterLiveMemberCount = st.space.liveMemberCount ∧
    e.afterEpoch ≤ st.space.epoch

variable {st : Stream}

/-- A chain to another number of members is none. -/
theorem Tracked.chained_iff (h : st.Tracked) {live : ℕ} :
    Chained st.space.corpusRevision live st.changes ↔
      live = st.space.liveMemberCount ∧ st.IsChain := by
  have hfirst := h.first
  have hlast := h.last
  rw [IsChain]
  cases hchanges : st.changes with
  | nil =>
    rw [hfirst hchanges]
    simp [Chained, and_comm]
  | cons e older =>
    rw [← (hlast e (by simp [hchanges])).1]
    simp only [Chained, true_and]
    constructor
    · rintro ⟨hrevision, rfl, hrest⟩
      exact ⟨rfl, hrevision, hrest⟩
    · rintro ⟨rfl, hrevision, hrest⟩
      exact ⟨hrevision, rfl, hrest⟩

theorem Tracked.push (h : st.Tracked) {next : Space} {e : ChangeEvent} (hreached : next.Reached)
    (hnext : next.corpusRevision = st.space.corpusRevision + 1)
    (hbefore : e.beforeCorpusRevision = st.space.corpusRevision ∧ e.beforeEpoch = st.space.epoch)
    (hafter : e.afterCorpusRevision = next.corpusRevision ∧ e.afterEpoch = next.epoch ∧
      e.afterLiveMemberCount = next.liveMemberCount) :
    Tracked ⟨next, e :: st.changes⟩ ∧ (IsChain ⟨next, e :: st.changes⟩ ↔
      e.beforeLiveMemberCount = st.space.liveMemberCount ∧ st.IsChain) := by
  refine ⟨⟨hreached, nofun, ?_⟩, ?_⟩
  · rintro _ ⟨⟩
    exact ⟨hafter.2.2, hafter.2.1.le⟩
  · rw [← h.chained_iff]
    simp only [IsChain, Chained, hafter, hbefore, hnext, true_and]
    exact and_iff_right fun p hp => (h.last p hp).2

theorem Tracked.act (h : st.Tracked) (call : SpaceCall) :
    (st.act call).Tracked ∧ ((st.act call).IsChain ↔ ¬ st.Retires call ∧ st.IsChain) := by
  cases call with
  | prepare ids =>
    exact ⟨⟨.step h.reached (.prepare ids), h.first, h.last⟩, (and_iff_right id).symm⟩
  | publishResult i =>
    rw [Stream.act]
    split
    · next next hpublish =>
      have hreached := h.reached.step (.publishResult i hpublish)
      obtain ⟨outputs, -, hpublish⟩ := bind_eq_ok.mp hpublish
      cases pure_eq_ok.mp hpublish
      obtain ⟨htracked, hchain⟩ := h.push (e := publicationEvent st.space _) hreached rfl
        ⟨rfl, rfl⟩ ⟨rfl, rfl, rfl⟩
      exact ⟨htracked, hchain.trans (and_congr_left' (iff_of_true rfl id))⟩
    · exact ⟨h, (and_iff_right id).symm⟩
  | cycle r limit =>
    have hreached := h.reached.step (.cycle r limit)
    rw [Stream.act]
    by_cases hgranted : st.space.Granted r limit
    · rw [Space.cycle_of_granted hgranted] at hreached ⊢
      refine ⟨⟨hreached, h.first, fun e he => ?_⟩, (and_iff_right id).symm⟩
      exact (h.last e he).imp_right fun hle => hle.trans (Nat.le_succ _)
    · rw [Space.cycle_of_refused hgranted]
      exact ⟨h, (and_iff_right id).symm⟩
  | eraseSource dependsOn =>
    rw [Stream.act]
    split
    · next next _ herase =>
      have hreached := Space.Reached.eraseSource dependsOn h.reached herase
      have hexact := h.reached.recorded.exact
      have hretires : st.Retires (.eraseSource dependsOn) ↔
          ∃ p ∈ st.space.live, dependsOn p = true := and_iff_right ⟨next, herase⟩
      cases pure_eq_ok.mp (unit_bind_eq_ok.mp herase).2
      obtain ⟨htracked, hchain⟩ := h.push (e := erasureEvent _) hreached rfl
        ⟨rfl, rfl⟩ ⟨rfl, rfl, rfl⟩
      -- the event starts from what remains, which is all there was if nothing is retired
      refine ⟨htracked, hchain.trans (and_congr_left' ?_)⟩
      rw [hretires, ← hexact]
      show (st.space.live.filter _).length = _ ↔ _
      rw [length_filter_eq_length_iff]
      simp
    · next hneither =>
      refine ⟨h, (and_iff_right ?_).symm⟩
      rintro ⟨⟨next, hnext⟩, p, hp, hdepends⟩
      refine hneither next (any_eq_true.mpr ⟨p, ?_, hdepends⟩) hnext
      exact mem_append_left _ (mem_append_left _ hp)

theorem run_concat (calls : List SpaceCall) (call : SpaceCall) :
    run (calls ++ [call]) = (run calls).act call := foldl_concat ..

theorem run_tracked (calls : List SpaceCall) : (run calls).Tracked := by
  induction calls using List.reverseRecOn with
  | nil => exact ⟨.new, fun _ => rfl, nofun⟩
  | append_singleton calls call ih =>
    rw [run_concat]
    exact (ih.act call).1

/-- **The events are a chain exactly if no erasure has retired a Live projection.** -/
theorem stream_chained_iff (calls : List SpaceCall) :
    (run calls).IsChain ↔
      ∀ before call after, calls = before ++ call :: after → ¬ (run before).Retires call := by
  induction calls using List.reverseRecOn with
  | nil => exact iff_of_true ⟨rfl, rfl⟩ fun before call after h => by simp at h
  | append_singleton calls last ih =>
    rw [run_concat, ((run_tracked calls).act last).2, ih]
    constructor
    · rintro ⟨hlast, hall⟩ before call after heq
      rcases eq_nil_or_concat after with rfl | ⟨after, x, rfl⟩
      · obtain ⟨rfl, ⟨⟩⟩ := append_inj' heq rfl
        exact hlast
      · rw [concat_eq_append, ← cons_append, ← append_assoc] at heq
        exact hall before call after (append_inj' heq rfl).1
    · intro hall
      refine ⟨hall calls last [] rfl, fun before call after heq => ?_⟩
      refine hall before call (after ++ [last]) ?_
      rw [heq, append_assoc, cons_append]

def erasedPair : List SpaceCall :=
  [.prepare [1], .publishResult 0, .prepare [2], .publishResult 0, .eraseSource (·.ordinal == 2)]

/-- The second publication ends with two members, and the erasure starts from one. -/
theorem erasedPair_not_chain : (run erasedPair).changes =
      [⟨2, 3, 2, 3, 1, 1⟩, ⟨1, 2, 1, 2, 1, 2⟩, ⟨0, 1, 0, 1, 0, 1⟩] ∧
      ¬ (run erasedPair).IsChain :=
  ⟨rfl, fun h => absurd h.2.2.2.2.2.1 (by decide)⟩

end Stream

end Vestrace.Index
