import Vestrace.Effects.Consistent
import Vestrace.Effects.Recovery
import Vestrace.Lib.Rounds

/-!
# Sweep after sweep

Each of a sequence of undisturbed sweeps leaves a mark on the candidates it asked about, and for
a minute the mark keeps them out of the search (`Marked.rests`). So the sweeps are rounds in the
sense of `Lib.Rounds`. Those that come too rarely ask the same few again and again.
-/

namespace Vestrace.Effects

open Lib Vestrace.Legacy List Nat EffectTables

variable {row : CandidateRow} {subject : Subject} {i : ℕ}

/-! ## The newest transition of each effect -/

theorem newest_pairwise (l : List Transition) :
    (newest l).Pairwise fun a b => ¬ (a.effectId = b.effectId ∧ a.workspaceId = b.workspaceId) := by
  induction l with
  | nil => exact List.Pairwise.nil
  | cons row rest ih =>
    rw [newest]
    split
    · exact ih
    · next hnone =>
      refine List.Pairwise.cons ?_ ih
      intro newer hnewer hsame
      refine hnone (any_eq_true.mpr ⟨newer, mem_of_mem_newest hnewer, ?_⟩)
      simp [hsame.1, hsame.2]

theorem exists_append_of_mem_newest {l : List Transition} {row : Transition} (h : row ∈ newest l) :
    ∃ before after, l = before ++ row :: after ∧
      ∀ newer ∈ after, ¬ (newer.effectId = row.effectId ∧ newer.workspaceId = row.workspaceId) := by
  induction l with
  | nil => cases h
  | cons first rest ih =>
    rw [newest] at h
    split at h
    · obtain ⟨before, after, rfl, hafter⟩ := ih h
      exact ⟨first :: before, after, rfl, hafter⟩
    · next hnone =>
      rcases mem_cons.mp h with rfl | h
      · refine ⟨[], rest, rfl, ?_⟩
        intro newer hnewer hsame
        refine hnone (any_eq_true.mpr ⟨newer, hnewer, ?_⟩)
        simp [hsame.1, hsame.2]
      · obtain ⟨before, after, rfl, hafter⟩ := ih h
        exact ⟨first :: before, after, rfl, hafter⟩

theorem mem_newest_append {l more : List Transition} {row : Transition}
    (h : row ∈ newest (l ++ more)) : row ∈ more ∨ row ∈ newest l := by
  induction l with
  | nil => exact .inl (mem_of_mem_newest h)
  | cons first rest ih =>
    rw [cons_append, newest] at h
    split at h
    · rw [newest]
      split
      · exact ih h
      · exact (ih h).imp_right (mem_cons_of_mem _)
    · next hnone =>
      rw [any_append, Bool.or_eq_true, not_or] at hnone
      rw [newest, if_neg hnone.1]
      rcases mem_cons.mp h with rfl | h
      · exact .inr mem_cons_self
      · exact (ih h).imp_right (mem_cons_of_mem _)

namespace EffectTables

variable {tables tables' : EffectTables} {workspaceId : WorkspaceId} {cutoffs : Cutoffs}
  {transition : Transition} {ctx : RequestContext}

/-! ## Candidates are about different subjects -/

theorem receiptRow_eq_some {receipt : ReceiptRow}
    (h : tables.receiptRow workspaceId cutoffs receipt = some row) :
    ∃ intent, (tables.intents.find? fun intent => intent.id == receipt.receipt.effectId &&
        intent.workspaceId == receipt.workspaceId) = some intent ∧
      receipt.receipt.effectId = intent.id ∧ receipt.workspaceId = workspaceId ∧
      receipt.receipt.requiresReconciliation = true ∧
      tables.mayAsk workspaceId cutoffs intent.id (some receipt.receipt.id) = true ∧
      row = ⟨⟨intent, some receipt.receipt, none⟩, receipt.createdAt⟩ := by
  obtain ⟨intent, hfind, h⟩ := Option.bind_eq_some_iff.mp h
  obtain ⟨⟨hws, hrequires, hmay⟩, hrow⟩ := Option.ite_none_right_eq_some.mp h
  have hfound := List.find?_some hfind
  simp only [Bool.and_eq_true, beq_iff_eq] at hfound
  exact ⟨intent, hfind, hfound.1.symm, hws, hrequires, hmay, (Option.some.inj hrow).symm⟩

theorem lostDispatchRow_eq_some
    (h : tables.lostDispatchRow workspaceId cutoffs transition = some row) :
    ∃ intent lost, (tables.intents.find? fun intent => intent.id == transition.effectId &&
        intent.workspaceId == transition.workspaceId) = some intent ∧
      tables.lostDispatch workspaceId cutoffs transition = some lost ∧
      transition.effectId = intent.id ∧ transition.workspaceId = workspaceId ∧
      tables.hasReceipt workspaceId intent.id = false ∧
      tables.mayAsk workspaceId cutoffs intent.id none = true ∧
      row = ⟨⟨intent, none, some lost⟩, transition.recordedAt⟩ := by
  obtain ⟨intent, hfind, h⟩ := Option.bind_eq_some_iff.mp h
  obtain ⟨lost, hlost, h⟩ := Option.bind_eq_some_iff.mp h
  obtain ⟨⟨hws, hreceipt, hmay⟩, hrow⟩ := Option.ite_none_right_eq_some.mp h
  have hfound := List.find?_some hfind
  simp only [Bool.and_eq_true, beq_iff_eq] at hfound
  exact ⟨intent, lost, hfind, hlost, hfound.1.symm, hws, hreceipt, hmay,
    (Option.some.inj hrow).symm⟩

theorem Consistent.candidateRows_nodup (h : tables.Consistent) :
    ((tables.candidateRows workspaceId cutoffs).map (·.candidate.subject)).Nodup := by
  rw [List.Nodup, pairwise_map, candidateRows, pairwise_append]
  refine ⟨?_, ?_, ?_⟩
  · refine List.Pairwise.filterMap _ ?_ (pairwise_map.mp h.receiptIds)
    intro a a' hne b hb b' hb' hsame
    obtain ⟨_, -, -, -, -, -, rfl⟩ := receiptRow_eq_some hb
    obtain ⟨_, -, -, -, -, -, rfl⟩ := receiptRow_eq_some hb'
    exact hne (Option.some.inj (congrArg Prod.snd hsame))
  · refine List.Pairwise.filterMap _ ?_ (newest_pairwise tables.transitions)
    intro a a' hne b hb b' hb' hsame
    obtain ⟨_, _, -, -, heffect, hws, -, -, rfl⟩ := lostDispatchRow_eq_some hb
    obtain ⟨_, _, -, -, heffect', hws', -, -, rfl⟩ := lostDispatchRow_eq_some hb'
    refine hne ⟨?_, hws.trans hws'.symm⟩
    rw [heffect, heffect']
    exact congrArg Prod.fst hsame
  · -- one is about a receipt, the other about none
    intro b hb b' hb' hsame
    obtain ⟨_, -, hb⟩ := mem_filterMap.mp hb
    obtain ⟨_, -, hb'⟩ := mem_filterMap.mp hb'
    obtain ⟨_, -, -, -, -, -, rfl⟩ := receiptRow_eq_some hb
    obtain ⟨_, _, -, -, -, -, -, -, rfl⟩ := lostDispatchRow_eq_some hb'
    cases congrArg Prod.snd hsame

theorem Consistent.not_adopted (h : tables.Consistent)
    (hmem : transition ∈ newest tables.transitions)
    (hws : transition.workspaceId = ctx.workspaceId)
    (hstarted : isDispatching transition.event = true) :
    tables.adoptedAsLost ctx transition.effectId transition.id = false := by
  refine any_eq_false.mpr fun lost hlost hsame => ?_
  simp only [Bool.and_eq_true, beq_iff_eq] at hsame
  obtain ⟨⟨hlostws, heffect⟩, hevent⟩ := hsame
  obtain ⟨before, after, hsplit, hafter⟩ := exists_append_of_mem_newest hmem
  rw [hsplit] at hlost
  rcases mem_append.mp hlost with hlost | hlost
  · -- an earlier adoption would name a dispatch that is earlier still
    obtain ⟨first, rest, rfl⟩ := append_of_mem hlost
    have hearlier := h.adoptedAfter first lost (rest ++ transition :: after)
      (by rw [hsplit, append_assoc, cons_append]) transition.id hevent
    obtain ⟨started, hfirst, hid⟩ := hearlier
    have hids := h.transitionIds
    rw [hsplit, append_assoc, map_append, nodup_append] at hids
    exact hids.2.2 started.id (mem_map_of_mem hfirst) transition.id (mem_map_of_mem (by simp)) hid
  · rcases mem_cons.mp hlost with rfl | hlost
    · rw [hevent] at hstarted
      cases hstarted
    · exact hafter lost hlost ⟨heffect, hlostws.trans hws.symm⟩

theorem Consistent.askable (h : tables.Consistent)
    (hrow : row ∈ tables.candidateRows ctx.workspaceId cutoffs) :
    Askable ctx tables row.candidate := by
  rcases mem_candidateRows.mp hrow with ⟨receipt, hreceipt, hrow⟩ | ⟨transition, hmem, hrow⟩
  · obtain ⟨intent, hfind, heffect, hws, hrequires, -, rfl⟩ := receiptRow_eq_some hrow
    rw [heffect, hws] at hfind
    refine ⟨⟨hfind, ?_⟩, nofun⟩
    intro found hfound
    cases hfound
    exact ⟨heffect, hrequires, receipt, hreceipt, rfl, hws⟩
  · obtain ⟨intent, lost, hfind, hlost, heffect, hws, -, -, rfl⟩ := lostDispatchRow_eq_some hrow
    rw [heffect, hws] at hfind
    refine ⟨⟨hfind, nofun⟩, ?_⟩
    intro dispatch hneeds
    cases hneeds
    have hstarted : isDispatching transition.event = true ∧ dispatch = transition.id := by
      unfold lostDispatch at hlost
      split at hlost
      · next hevent =>
        rw [hevent]
        split at hlost
        · cases hlost
          exact ⟨rfl, rfl⟩
        · cases hlost
      · split at hlost <;> cases hlost
      · cases hlost
    obtain ⟨hdispatching, rfl⟩ := hstarted
    refine ⟨rfl, ?_, transition, mem_of_mem_newest hmem, rfl, heffect, hws, hdispatching⟩
    rw [← heffect]
    exact h.not_adopted hmem hws hdispatching

/-! ## What is still open -/

section

variable (tables workspaceId)

def isOpen (subject : Subject) : Bool :=
  (tables.lastReconciliation workspaceId subject.1 subject.2).all fun row => !row.settled

def isLosable : LifecycleEvent → Bool
  | .dispatchStarted _ (some _) | .dispatchLost _ => true
  | _ => false

def openReceipt (row : ReceiptRow) : Option Subject :=
  if row.workspaceId = workspaceId ∧ row.receipt.requiresReconciliation = true ∧
      tables.isOpen workspaceId (row.receipt.effectId, some row.receipt.id) = true then
    some (row.receipt.effectId, some row.receipt.id)
  else none

def openDispatch (row : Transition) : Option Subject :=
  if row.workspaceId = workspaceId ∧ isLosable row.event = true ∧
      tables.hasReceipt workspaceId row.effectId = false ∧
      tables.isOpen workspaceId (row.effectId, none) = true then
    some (row.effectId, none)
  else none

/-- The reconciliation candidates of a workspace, at whatever time a search may find them. -/
def openSubjects : Finset Subject :=
  (tables.receipts.filterMap (tables.openReceipt workspaceId) ++
    (newest tables.transitions).filterMap (tables.openDispatch workspaceId)).toFinset

variable {tables workspaceId} {subjects : List Subject}

theorem mem_openSubjects : subject ∈ tables.openSubjects workspaceId ↔
      (∃ row ∈ tables.receipts, tables.openReceipt workspaceId row = some subject) ∨
        ∃ row ∈ newest tables.transitions, tables.openDispatch workspaceId row = some subject := by
  rw [openSubjects, mem_toFinset, mem_append, mem_filterMap, mem_filterMap]

theorem isOpen_of_mayAsk {effectId : ExternalEffectId} {receiptId : Option ExternalEffectReceiptId}
    (h : tables.mayAsk workspaceId cutoffs effectId receiptId = true) :
    tables.isOpen workspaceId (effectId, receiptId) = true := by
  rw [mayAsk, Bool.and_eq_true] at h
  unfold isOpen
  cases hlast : tables.lastReconciliation workspaceId effectId receiptId with
  | none => rfl
  | some row =>
    rw [hlast] at h
    have hfirst := h.1
    simp only [Option.all_some, Bool.and_eq_true] at hfirst
    exact hfirst.1

/-- Whatever a search finds is open. -/
theorem subject_open (hrow : row ∈ tables.candidateRows workspaceId cutoffs) :
    row.candidate.subject ∈ tables.openSubjects workspaceId := by
  rcases mem_candidateRows.mp hrow with ⟨receipt, hreceipt, hrow⟩ | ⟨transition, hmem, hrow⟩
  · obtain ⟨intent, -, heffect, hws, hrequires, hmay, rfl⟩ := receiptRow_eq_some hrow
    refine mem_openSubjects.mpr (.inl ⟨receipt, hreceipt, ?_⟩)
    rw [openReceipt, heffect]
    exact if_pos ⟨hws, hrequires, isOpen_of_mayAsk hmay⟩
  · obtain ⟨intent, lost, -, hlost, heffect, hws, hreceipt, hmay, rfl⟩ :=
      lostDispatchRow_eq_some hrow
    refine mem_openSubjects.mpr (.inr ⟨transition, hmem, ?_⟩)
    have hlosable : isLosable transition.event = true := by
      unfold lostDispatch at hlost
      split at hlost
      · next owner expiresAt hevent =>
        rw [hevent]
        cases expiresAt with
        | none => cases hlost
        | some _ => rfl
      · next hevent =>
        rw [hevent]
        rfl
      · cases hlost
    rw [openDispatch, heffect]
    exact if_pos ⟨hws, hlosable, hreceipt, isOpen_of_mayAsk hmay⟩

/-- Asking about others does not change the last word on a subject. -/
theorem isOpen_touched (ht : Touched workspaceId subjects tables tables')
    (hother : subject ∉ subjects) :
    tables'.isOpen workspaceId subject = tables.isOpen workspaceId subject := by
  obtain ⟨more, hmore, hsubjects⟩ := ht.reconciliations
  have hnone : (more.filter fun row => row.reconciliation.effectId == subject.1 &&
      row.reconciliation.receiptId == subject.2 && row.workspaceId == workspaceId) = [] := by
    refine filter_eq_nil_iff.mpr fun row hrow hsame => ?_
    simp only [Bool.and_eq_true, beq_iff_eq] at hsame
    have hmem := hsubjects row hrow
    rw [hsame.1.1, hsame.1.2] at hmem
    exact hother hmem
  rw [isOpen, isOpen, lastReconciliation, lastReconciliation, hmore, filter_append, hnone,
    append_nil]

/-- **Asking opens nothing**: what is open after asking about open subjects was open before. -/
theorem openSubjects_touched (ht : Touched workspaceId subjects tables tables')
    (hopen : ∀ subject ∈ subjects, subject ∈ tables.openSubjects workspaceId) :
    tables'.openSubjects workspaceId ⊆ tables.openSubjects workspaceId := by
  intro subject hsubject
  by_cases hasked : subject ∈ subjects
  · exact hopen subject hasked
  rcases mem_openSubjects.mp hsubject with ⟨row, hrow, h⟩ | ⟨row, hrow, h⟩
  · obtain ⟨⟨hws, hrequires, hisOpen⟩, heq⟩ := Option.ite_none_right_eq_some.mp h
    obtain rfl := Option.some.inj heq
    rw [isOpen_touched ht hasked] at hisOpen
    rw [ht.receipts] at hrow
    exact mem_openSubjects.mpr (.inl ⟨row, hrow, if_pos ⟨hws, hrequires, hisOpen⟩⟩)
  · obtain ⟨⟨hws, hlosable, hreceipt, hisOpen⟩, heq⟩ := Option.ite_none_right_eq_some.mp h
    obtain rfl := Option.some.inj heq
    rw [isOpen_touched ht hasked] at hisOpen
    rw [hasReceipt, ht.receipts] at hreceipt
    obtain ⟨more, hmore, hsubjects⟩ := ht.transitions
    rw [hmore] at hrow
    rcases mem_newest_append hrow with hnew | hold
    · exact absurd (hsubjects row hnew).2 hasked
    · exact mem_openSubjects.mpr (.inr ⟨row, hold, if_pos ⟨hws, hlosable, hreceipt, hisOpen⟩⟩)

end

/-! ## A mark keeps the search away -/

theorem exists_argmax_le {α : Type} {rows : List α} {time : α → ℤ} {id : α → ℕ} {row : α}
    (hrow : row ∈ rows) : ∃ last,
      (rows.argmax fun row => (toLex (time row, id row) : ℤ ×ₗ ℕ)) = some last ∧
        time row ≤ time last := by
  cases hlast : rows.argmax fun row => (toLex (time row, id row) : ℤ ×ₗ ℕ) with
  | none => exact absurd (argmax_eq_none.mp hlast) (ne_nil_of_mem hrow)
  | some last => exact ⟨last, rfl, Prod.Lex.monotone_fst _ _ (le_of_mem_argmax hrow hlast)⟩

theorem exists_lastReconciliation {row : ReconciliationRow}
    (hrow : row ∈ tables.reconciliations) (hws : row.workspaceId = workspaceId) :
    ∃ last, tables.lastReconciliation workspaceId row.reconciliation.effectId
      row.reconciliation.receiptId = some last ∧ row.reconciledAt ≤ last.reconciledAt :=
  exists_argmax_le (by simp [hrow, hws])

theorem exists_lastAttempt {row : RecoveryAttemptRow} (hrow : row ∈ tables.attempts)
    (hws : row.workspaceId = workspaceId) :
    ∃ last, tables.lastAttempt workspaceId row.effectId = some last ∧
      row.attemptedAt ≤ last.attemptedAt :=
  exists_argmax_le (by simp [hrow, hws])

/-- Whoever was asked about is left alone for a minute. -/
theorem Marked.not_mayAsk {at_ later : ℤ} (h : tables.Marked workspaceId at_ subject)
    (hsoon : later ≤ at_ + retryAfter) :
    tables.mayAsk workspaceId (sweepCutoffs later) subject.1 subject.2 = false := by
  have hcutoff : pgTime (later - retryAfter) ≤ pgTime at_ := pgTime_mono (by omega)
  refine Bool.eq_false_iff.mpr fun hmay => ?_
  rw [mayAsk, Bool.and_eq_true] at hmay
  obtain ⟨hanswer, hattempt⟩ := hmay
  rcases h with ⟨row, hrow, hws, rfl, hat⟩ | ⟨row, hrow, hws, heffect, hat⟩
  · -- an answer as young as the mark is too young
    obtain ⟨last, hlast, hle⟩ := exists_lastReconciliation hrow hws
    rw [hlast] at hanswer
    simp only [Option.all_some, Bool.and_eq_true, decide_eq_true_eq] at hanswer
    exact lt_irrefl _ (hanswer.2.trans_le (hcutoff.trans (hat.symm.le.trans hle)))
  · obtain ⟨failed, hfailed, hle⟩ := exists_lastAttempt hrow hws
    rw [heffect] at hfailed
    rw [hfailed] at hattempt
    simp only [Option.all_some, Bool.or_eq_true, decide_eq_true_eq] at hattempt
    rcases hattempt with hsince | hold
    · -- and so is an answer that came after the failure
      cases hlast : tables.lastReconciliation workspaceId subject.1 subject.2 with
      | none =>
        rw [hlast] at hsince
        cases hsince
      | some last =>
        rw [hlast] at hanswer hsince
        simp only [Option.all_some, Option.any_some, Bool.and_eq_true, decide_eq_true_eq]
          at hanswer hsince
        exact lt_irrefl _ (hanswer.2.trans_le (hcutoff.trans (hat.symm.le.trans
          (hle.trans hsince.le))))
    · exact lt_irrefl _ (hold.trans_le (hcutoff.trans (hat.symm.le.trans hle)))

theorem candidateRows_mayAsk (hrow : row ∈ tables.candidateRows workspaceId cutoffs) :
    tables.mayAsk workspaceId cutoffs row.candidate.subject.1 row.candidate.subject.2 = true := by
  rcases mem_candidateRows.mp hrow with ⟨receipt, -, hrow⟩ | ⟨transition, -, hrow⟩
  · obtain ⟨_, -, -, -, -, hmay, rfl⟩ := receiptRow_eq_some hrow
    exact hmay
  · obtain ⟨_, _, -, -, -, -, -, hmay, rfl⟩ := lostDispatchRow_eq_some hrow
    exact hmay

/-! ## The limit -/

section

variable {limit : UInt32}

theorem exists_row_of_found {candidate : ExternalEffectRecoveryCandidate}
    (h : candidate ∈ tables.findReconciliationCandidates cutoffs ctx limit) :
    ∃ row ∈ tables.candidateRows ctx.workspaceId cutoffs, row.candidate = candidate := by
  obtain ⟨row, hrow, rfl⟩ := mem_map.mp h
  exact ⟨row, (mem_insertionSort _).mp (mem_of_mem_take hrow), rfl⟩

/-- Who is eligible is found, unless the batch is full. -/
theorem found_or_full (hrow : row ∈ tables.candidateRows ctx.workspaceId cutoffs) :
    row.candidate ∈ tables.findReconciliationCandidates cutoffs ctx limit ∨
      (tables.findReconciliationCandidates cutoffs ctx limit).length = limit.toNat := by
  rcases lt_or_ge limit.toNat (tables.candidateRows ctx.workspaceId cutoffs).length
    with hmore | hroom
  · right
    rw [findReconciliationCandidates, length_map, length_take, length_insertionSort]
    omega
  · exact .inl ((mem_findReconciliationCandidates hroom).mpr ⟨row, hrow, rfl⟩)

theorem Consistent.found_nodup (h : tables.Consistent) :
    ((tables.findReconciliationCandidates cutoffs ctx limit).map (·.subject)).Nodup := by
  rw [findReconciliationCandidates, map_map]
  have hsorted : (((tables.candidateRows ctx.workspaceId cutoffs).insertionSort
      fun a b => a.key ≤ b.key).map (·.candidate.subject)).Nodup :=
    ((perm_insertionSort _ _).map _).nodup_iff.mpr h.candidateRows_nodup
  exact hsorted.sublist ((take_sublist _ _).map _)

end

end EffectTables

/-! ## One sweep after the other -/

structure Sweeps where
  routes : ReadBackRegistry
  context : RequestContext
  limit : UInt32
  time : ℕ → ℤ
  start : EffectsHost

def sweepCalls (limit : UInt32) (sweeps : ℕ) : ℕ := sweeps * (5 * limit.toNat + 1)

/-- Between two sweeps more than a minute apart, there are sweeps enough within the minute
after the first to ask about so many candidates. -/
def SweepsPaced (time : ℕ → ℤ) (count limit candidates : ℕ) : Prop :=
  ∀ i j, i < j → j < count → time i + retryAfter < time j →
    candidates ≤ limit * ((Finset.Ioo i j).filter fun m => time m ≤ time i + retryAfter).card

instance (time : ℕ → ℤ) (count limit candidates : ℕ) :
    Decidable (SweepsPaced time count limit candidates) :=
  decidable_of_iff (∀ j < count, ∀ i < j, time i + retryAfter < time j →
    candidates ≤ limit * ((Finset.Ioo i j).filter fun m => time m ≤ time i + retryAfter).card)
    ⟨fun h i j hij hj => h j hj i hij, fun h j hj i hij => h i j hij hj⟩

namespace Sweeps

section

variable (s : Sweeps)

def hostBefore : ℕ → EffectsHost
  | 0 => s.start
  | i + 1 => ((sweepWith s.routes s.context (s.time i) s.limit).run (hostBefore i)).2

def candidates : Finset Subject := s.start.tables.openSubjects s.context.workspaceId

def eligible (i : ℕ) : Finset Subject :=
  (((s.hostBefore i).tables.candidateRows s.context.workspaceId (sweepCutoffs (s.time i))).map
    (·.candidate.subject)).toFinset

def found (i : ℕ) : List ExternalEffectRecoveryCandidate :=
  (s.hostBefore i).tables.findReconciliationCandidates (sweepCutoffs (s.time i)) s.context s.limit

def asked (i : ℕ) : Finset Subject := ((s.found i).map (·.subject)).toFinset

end

variable {s : Sweeps} {count : ℕ}

/-- What holds when a sweep begins, if nobody disturbs those before it. -/
structure Undisturbed (s : Sweeps) (count i : ℕ) : Prop where
  consistent : (s.hostBefore i).tables.Consistent
  calm : Calm (sweepCalls s.limit (count - i)) (s.hostBefore i)
  shrinks : (s.hostBefore i).tables.openSubjects s.context.workspaceId ⊆ s.candidates

theorem mem_asked : subject ∈ s.asked i ↔ ∃ candidate ∈ s.found i, candidate.subject = subject := by
  rw [asked, mem_toFinset, mem_map]

theorem mem_eligible :
    subject ∈ s.eligible i ↔ ∃ row ∈ (s.hostBefore i).tables.candidateRows s.context.workspaceId
      (sweepCutoffs (s.time i)), row.candidate.subject = subject := by
  rw [eligible, mem_toFinset, mem_map]

theorem asked_subset_eligible (i : ℕ) : s.asked i ⊆ s.eligible i := by
  intro subject hsubject
  obtain ⟨candidate, hfound, rfl⟩ := mem_asked.mp hsubject
  obtain ⟨row, hrow, rfl⟩ := exists_row_of_found hfound
  exact mem_eligible.mpr ⟨row, hrow, rfl⟩

theorem Undisturbed.eligible_subset (h : s.Undisturbed count i) : s.eligible i ⊆ s.candidates := by
  intro subject hsubject
  obtain ⟨row, hrow, rfl⟩ := mem_eligible.mp hsubject
  exact h.shrinks (subject_open hrow)

theorem Undisturbed.sweep (h : s.Undisturbed count i) (hi : i < count) :
    ∃ report, (sweepWith s.routes s.context (s.time i) s.limit).run (s.hostBefore i) =
        (.ok report, s.hostBefore (i + 1)) ∧
      Calm (sweepCalls s.limit (count - (i + 1))) (s.hostBefore (i + 1)) ∧
      Touched s.context.workspaceId ((s.found i).map (·.subject)) (s.hostBefore i).tables
        (s.hostBefore (i + 1)).tables ∧
      ∀ candidate ∈ s.found i,
        (s.hostBefore (i + 1)).tables.Marked s.context.workspaceId (s.time i) candidate.subject ∧
          report.Covers candidate := by
  have hcalls : sweepCalls s.limit (count - i) =
      sweepCalls s.limit (count - (i + 1)) + 5 * s.limit.toNat + 1 := by
    have hsplit : count - i = count - (i + 1) + 1 := by omega
    rw [sweepCalls, hsplit, Nat.add_mul, Nat.one_mul]
    rfl
  have haskable : ∀ candidate ∈ s.found i,
      Askable s.context (s.hostBefore i).tables candidate := by
    intro candidate hfound
    obtain ⟨row, hrow, rfl⟩ := exists_row_of_found hfound
    exact h.consistent.askable hrow
  obtain ⟨report, host', hrun, hcalm, htouched, hmarked⟩ :=
    sweepWith_run s.routes (s.time i) s.limit (hcalls ▸ h.calm) haskable h.consistent.found_nodup
  have hnext : s.hostBefore (i + 1) = host' := congrArg Prod.snd hrun
  rw [hnext]
  exact ⟨report, hrun, hcalm, htouched, hmarked⟩

theorem Undisturbed.next (h : s.Undisturbed count i) (hi : i < count) :
    s.Undisturbed count (i + 1) := by
  obtain ⟨report, -, hcalm, htouched, -⟩ := h.sweep hi
  refine ⟨?_, hcalm, ?_⟩
  · exact Prog.run_keeps (I := fun host : EffectsHost => host.tables.Consistent)
      (sweepWith s.routes s.context (s.time i) s.limit) (fun call _ ht => ht.exec call) h.consistent
  · refine (openSubjects_touched htouched ?_).trans h.shrinks
    intro subject hsubject
    obtain ⟨candidate, hfound, rfl⟩ := mem_map.mp hsubject
    obtain ⟨row, hrow, rfl⟩ := exists_row_of_found hfound
    exact subject_open hrow

theorem undisturbed (hreached : Reached s.start) (hcalm : Calm (sweepCalls s.limit count) s.start) :
    ∀ i ≤ count, s.Undisturbed count i := by
  intro i hi
  induction i with
  | zero => exact ⟨hreached.consistent, hcalm, subset_rfl⟩
  | succ i ih => exact (ih (le_of_succ_le hi)).next hi

theorem marked_later (h : ∀ i ≤ count, s.Undisturbed count i) {j : ℕ} (hij : i < j) (hj : j ≤ count)
    (hasked : subject ∈ s.asked i) :
    (s.hostBefore j).tables.Marked s.context.workspaceId (s.time i) subject := by
  induction j, hij using le_induction with
  | base =>
    obtain ⟨report, -, -, -, hmarked⟩ := (h i (by omega)).sweep hj
    obtain ⟨candidate, hfound, rfl⟩ := mem_asked.mp hasked
    exact (hmarked candidate hfound).1
  | succ j hij ih =>
    obtain ⟨report, -, -, htouched, -⟩ := (h j (by omega)).sweep hj
    exact (ih (by omega)).touched htouched

/-- Undisturbed sweeps are rounds in which whoever was asked about rests for a minute. -/
def rounds (h : ∀ i ≤ count, s.Undisturbed count i)
    (htime : ∀ i j, i < j → j < count → s.time i < s.time j) :
    Rounds Subject s.limit.toNat retryAfter count where
  time := s.time
  ready := s.eligible
  served := s.asked
  items := s.candidates
  rest_nonneg := by decide
  time_mono := by
    intro i j hij hj
    rcases eq_or_lt_of_le hij with rfl | hlt
    · exact le_rfl
    · exact (htime i j hlt hj).le
  ready_items := fun hi => (h _ hi.le).eligible_subset
  served_ready := fun _ => asked_subset_eligible _
  served_full := by
    intro i subject hi hready hnot
    obtain ⟨row, hrow, rfl⟩ := mem_eligible.mp hready
    rcases found_or_full hrow with hfound | hfull
    · exact absurd (mem_asked.mpr ⟨_, hfound, rfl⟩) hnot
    · have hnodup : ((s.found i).map (·.subject)).Nodup := (h i hi.le).consistent.found_nodup
      rw [asked, toFinset_card_of_nodup hnodup, length_map]
      exact hfull
  rests := by
    intro i j hij hj hsoon
    refine Finset.disjoint_left.mpr fun subject hasked hready => ?_
    have hmarked := marked_later h hij hj.le hasked
    obtain ⟨row, hrow, rfl⟩ := mem_eligible.mp hready
    have hmay := candidateRows_mayAsk hrow
    rw [hmarked.not_mayAsk hsoon] at hmay
    cases hmay

end Sweeps

/-- **Nobody is passed over by sweeps that are paced.** If the sweeps within any minute are enough
to ask about everyone, then before a subject is asked about again, whoever has been eligible since
has been; and all that stay eligible are asked about in as many sweeps as it takes to count them
in batches. -/
theorem sweeps_pass_over_nobody (s : Sweeps) (count : ℕ) (hreached : Reached s.start)
    (hcalm : Calm (sweepCalls s.limit count) s.start) (hlimit : 1 ≤ s.limit.toNat)
    (htime : ∀ i j, i < j → j < count → s.time i < s.time j)
    (hpaced : SweepsPaced s.time count s.limit.toNat s.candidates.card) :
    (∀ i < count, ∃ report,
      ((sweepWith s.routes s.context (s.time i) s.limit).run (s.hostBefore i)).1 = .ok report ∧
        ∀ candidate ∈ s.found i, report.Covers candidate) ∧
    (∀ i j, i < j → j < count → ∀ again ∈ s.asked i, again ∈ s.asked j →
      ∀ other, (∀ m, i < m → m ≤ j → other ∈ s.eligible m) → ∃ m < j, other ∈ s.asked m) ∧
    ∀ rounds, rounds = (s.candidates.card + s.limit.toNat - 1) / s.limit.toNat → rounds ≤ count →
      ∀ subject ∈ s.candidates,
        (∀ m < rounds, (∀ k < m, subject ∉ s.asked k) → subject ∈ s.eligible m) →
          ∃ m < rounds, subject ∈ s.asked m := by
  have hundisturbed := Sweeps.undisturbed hreached hcalm
  refine ⟨?_, ?_, ?_⟩
  · intro i hi
    obtain ⟨report, hrun, -, -, hmarked⟩ := (hundisturbed i hi.le).sweep hi
    exact ⟨report, congrArg Prod.fst hrun, fun candidate hfound => (hmarked candidate hfound).2⟩
  · intro i j hij hj again hagain hagain' other hother
    exact (Sweeps.rounds hundisturbed htime).served_before_return hpaced hij hj hagain hagain'
      hother
  · intro rounds hrounds hcount subject hsubject huntil
    have hpos : 0 < s.candidates.card := Finset.card_pos.mpr ⟨subject, hsubject⟩
    have hle : s.candidates.card ≤ s.limit.toNat * rounds := by
      have hdiv := lt_div_mul_add (a := s.candidates.card + s.limit.toNat - 1) hlimit
      rw [← hrounds, mul_comm] at hdiv
      omega
    have hlt : s.limit.toNat * (rounds - 1) < s.candidates.card := by
      have hdiv := div_mul_le_self (s.candidates.card + s.limit.toNat - 1) s.limit.toNat
      rw [← hrounds, mul_comm] at hdiv
      rw [Nat.mul_sub, Nat.mul_one]
      omega
    have hsome : 0 < rounds := by
      by_contra hzero
      rw [Nat.eq_zero_of_not_pos hzero, Nat.mul_zero] at hle
      omega
    exact (Sweeps.rounds hundisturbed htime).served_in_time hpaced hsome hcount hle hlt huntil

/-! ## Two candidates and a limit of one -/

def sampleReceipt (id : ExternalEffectReceiptId) (effectId : ExternalEffectId) :
    ExternalEffectReceipt :=
  .fromDispatch id effectId "calendar" ⟨.acknowledged, "created", none, none, none, []⟩ 0

/-- Two effects of the workspace, each with a receipt that settles nothing. -/
def sampleBacklog : EffectsHost :=
  (sampleHost (sampleWeather none)).afterCalls [.insertIntent sampleContext sampleIntent,
      .insertIntent sampleContext { sampleIntent with id := ⟨2⟩ },
      .insertReceipt sampleContext (sampleReceipt ⟨11⟩ ⟨1⟩),
      .insertReceipt sampleContext (sampleReceipt ⟨12⟩ ⟨2⟩)]

def sampleSweeps (seconds : List ℤ) : Sweeps where
  routes := [sampleDescriptor]
  context := sampleContext
  limit := 1
  time := fun i => seconds.getD i 0 * 1000000000
  start := sampleBacklog

theorem sampleBacklog_reached : Reached sampleBacklog := ⟨_, _, rfl, rfl⟩

/-- Ids are counted up, so those of the next calls are new. -/
theorem sampleBacklog_calm {calls : ℕ} (hcalls : calls < 1000) : Calm calls sampleBacklog := by
  have hids : sampleBacklog.tick = 4 ∧ sampleBacklog.tables.attempts = [] ∧
      sampleBacklog.tables.reconciliations = [] ∧
      ∀ row ∈ sampleBacklog.tables.transitions, row.id.asUuid.toNat < 104 := by
    decide +kernel
  obtain ⟨htick, hattempts, hreconciliations, htransitions⟩ := hids
  have huuid : ∀ n < 2000, (sampleBacklog.weather n).uuid.toNat = 100 + n := by
    intro n hn
    exact (BitVec.toNat_ofNat (100 + n) 128).trans (mod_eq_of_lt (by omega))
  refine ⟨fun _ _ _ => rfl, ?_, ?_, ?_⟩
  · intro m n _ hmn hlt hsame
    have hnat := congrArg BitVec.toNat hsame
    rw [huuid m (by omega), huuid n (by omega)] at hnat
    omega
  · intro n hn hlt
    refine ⟨?_, by simp [hattempts], by simp [hreconciliations]⟩
    intro row hrow hsame
    have hnat := htransitions row hrow
    rw [hsame, huuid n (by omega)] at hnat
    omega
  · rintro n - - observations hobserved best hbest
    cases hobserved
    cases hbest
    rfl

/-- With a sweep every hundred seconds the older one is asked about every time and the other,
which is always eligible, never. -/
theorem older_candidate_asked_again :
    let s := sampleSweeps [100, 200]
    Reached s.start ∧ Calm (sweepCalls s.limit 2) s.start ∧ s.candidates.card = 2 ∧
      s.asked 0 = {(⟨1⟩, some ⟨11⟩)} ∧ s.asked 1 = {(⟨1⟩, some ⟨11⟩)} ∧
      (⟨2⟩, some ⟨12⟩) ∈ s.eligible 0 ∧ (⟨2⟩, some ⟨12⟩) ∈ s.eligible 1 := by
  refine ⟨sampleBacklog_reached, sampleBacklog_calm (by decide), ?_⟩
  decide +kernel

/-- With three sweeps in a minute both have been asked about after two of them. -/
theorem sweeps_pass_over_nobody_sample :
    let s := sampleSweeps [100, 130, 140, 165]
    SweepsPaced s.time 4 1 s.candidates.card ∧
      ∃ m < 2, (⟨2⟩, some ⟨12⟩) ∈ s.asked m := by
  intro s
  have hpaced : SweepsPaced s.time 4 1 s.candidates.card := by decide +kernel
  have htime : ∀ j < 4, ∀ i < j, s.time i < s.time j := by decide +kernel
  obtain ⟨-, -, hall⟩ := sweeps_pass_over_nobody s 4 sampleBacklog_reached
    (sampleBacklog_calm (by decide)) le_rfl (fun i j hij hj => htime j hj i hij) hpaced
  refine ⟨hpaced, hall 2 (by decide +kernel) (by decide) (⟨2⟩, some ⟨12⟩) (by decide +kernel) ?_⟩
  have huntil : ∀ m < 2, (∀ k < m, (⟨2⟩, some ⟨12⟩) ∉ s.asked k) →
      (⟨2⟩, some ⟨12⟩) ∈ s.eligible m := by decide +kernel
  exact huntil

end Vestrace.Effects
