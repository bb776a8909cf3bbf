import Mathlib.Data.Set.BooleanAlgebra
import Mathlib.Order.CompletePartialOrder
import Vestrace.Lib.Threads

/-!
# Custody — threads with things in hand

A state that consists of many things, and threads that work on some of them at a time. What a
thread has in hand is read off the program it still has to run (`hand`). Nobody touches what is in
another's hand; what nobody has in hand is at rest (`Rest`), and a thread that takes something up
finds it so.
-/

namespace Lib

open Function

variable {k : ℕ}

variable {σ ε J R : Type} {P : Ports σ}

structure Custody (P : Ports σ) (ε R : Type) where
  Inv : σ → Prop
  hand : Prog P ε Unit → Set R
  /-- What a program knows when it stands there. -/
  Knows : Prog P ε Unit → σ → Prop
  /-- What holds of a thing nobody has in hand. -/
  Rest : R → σ → Prop
  /-- What others may do to a thing. -/
  Rely : R → σ → σ → Prop
  /-- The calls that may be made in a state. -/
  Allowed : σ → P.Call → Prop
  hand_ret : ∀ x, hand (.ret x) = ∅
  rest_stable : ∀ {r s t}, Rest r s → Rely r s t → Rest r t
  knows_stable : ∀ {p s t}, Knows p s → (∀ r ∈ hand p, Rely r s t) → Knows p t

namespace Custody

variable (C : Custody P ε R)

structure Step (c : P.Call) (next : P.Answer c → Prog P ε Unit) (s : σ) : Prop where
  inv : C.Inv (P.exec c s).2
  knows : C.Knows (next (P.exec c s).1) (P.exec c s).2
  others : ∀ r, r ∉ C.hand (.call c next) → C.Rely r s (P.exec c s).2
  down : ∀ r ∈ C.hand (.call c next), r ∉ C.hand (next (P.exec c s).1) → C.Rest r (P.exec c s).2

variable {C} in
theorem Step.of_exec {c : P.Call} {next : P.Answer c → Prog P ε Unit} {s t : σ} {a : P.Answer c}
    (hexec : P.exec c s = (a, t)) (hinv : C.Inv t) (hknows : C.Knows (next a) t)
    (hothers : ∀ r, r ∉ C.hand (.call c next) → C.Rely r s t)
    (hdown : ∀ r ∈ C.hand (.call c next), r ∉ C.hand (next a) → C.Rest r t) : C.Step c next s := by
  have hanswer := congrArg Prod.fst hexec
  have hstate := congrArg Prod.snd hexec
  refine ⟨?_, ?_, ?_, ?_⟩
  · rw [hstate]
    exact hinv
  · rw [hanswer, hstate]
    exact hknows
  · rw [hstate]
    exact hothers
  · rw [hanswer, hstate]
    exact hdown

def Sound : Prop :=
  ∀ c next s, C.Inv s → C.Knows (.call c next) s → C.Allowed s c →
    (∀ r ∈ C.hand (next (P.exec c s).1), r ∉ C.hand (.call c next) → C.Rest r s) → C.Step c next s

def Begins (p : Prog P ε Unit) : Prop := C.hand p = ∅ ∧ ∀ s, C.Knows p s

/-- What an action may be: a call that is allowed and takes up nothing that another has in
hand; and a thread stops for good only if it leaves things at rest. -/
def Keeps (w : World P ε J) : Action J → Prop
  | .start _ _ => True
  | .step k => ∀ thread, w.threads k = some thread → C.Allowed w.state thread.call ∧
      ∀ k' other, k' ≠ k → w.threads k' = some other →
        Disjoint (C.hand (thread.next (P.exec thread.call w.state).1)) (C.hand other.rest)
  | .crash k => ∀ thread, w.threads k = some thread → ∀ r ∈ C.hand thread.rest, C.Rest r w.state

variable (program : J → Prog P ε Unit)

def Kept : World P ε J → List (Action J) → Prop
  | _, [] => True
  | w, action :: actions => C.Keeps w action ∧ Kept (w.act program action) actions

/-- What holds of the world between any two actions. -/
structure Upheld (w : World P ε J) : Prop where
  inv : C.Inv w.state
  knows : ∀ k thread, w.threads k = some thread → C.Knows thread.rest w.state
  apart : ∀ k k' thread thread', k ≠ k' → w.threads k = some thread →
    w.threads k' = some thread' → Disjoint (C.hand thread.rest) (C.hand thread'.rest)
  rest : ∀ r, (∀ k thread, w.threads k = some thread → r ∉ C.hand thread.rest) → C.Rest r w.state

variable {C} {program} {job : J} {w : World P ε J} {actions : List (Action J)}

theorem Upheld.still {s : σ} (hinv : C.Inv s) (hrest : ∀ r, C.Rest r s) :
    C.Upheld (⟨s, fun _ => none⟩ : World P ε J) := by
  refine ⟨hinv, ?_, ?_, fun r _ => hrest r⟩
  · intro _ _ h
    cases h
  · intro _ _ _ _ _ h
    cases h

/-- What is not in the hands of the new program, if nobody has it in hand. -/
theorem not_mem_hand_of_update {threads : ℕ → Option (Thread P ε J)} {p : Prog P ε Unit} {r : R}
    (h : ∀ k' thread, Function.update threads k (Thread.of job p) k' = some thread →
      r ∉ C.hand thread.rest) : r ∉ C.hand p := by
  cases p with
  | ret x =>
    rw [C.hand_ret]
    exact Set.notMem_empty r
  | call c next => exact h k ⟨job, c, next⟩ (update_self ..)

theorem Upheld.start (h : C.Upheld w) (hbegins : C.Begins (program job)) :
    C.Upheld (w.act program (.start k job)) := by
  simp only [World.act]
  cases hk : w.threads k with
  | some thread => exact h
  | none =>
    refine ⟨h.inv, ?_, ?_, ?_⟩
    · exact forall_update (Q := fun _ _ p => C.Knows p w.state)
        (fun k' thread _ => h.knows k' thread) (hbegins.2 _)
    · refine Apart.update (R := fun _ p _ p' => Disjoint (C.hand p) (C.hand p')) h.apart
        (fun hdisjoint => hdisjoint.symm) fun k' other _ _ => ?_
      rw [hbegins.1]
      exact Set.empty_disjoint _
    · intro r hr
      refine h.rest r fun k' thread hthread => hr k' thread ?_
      have hkk : k' ≠ k := by
        rintro rfl
        rw [hk] at hthread
        cases hthread
      exact (update_of_ne hkk _ _).trans hthread

theorem Upheld.stepOf (h : C.Upheld w) (hsound : C.Sound) {thread : Thread P ε J}
    (hkeeps : C.Keeps w (.step k)) (hk : w.threads k = some thread) :
    C.Step thread.call thread.next w.state := by
  obtain ⟨hallowed, hfree⟩ := hkeeps thread hk
  -- what the call takes up nobody has in hand, neither this thread nor another
  refine hsound _ _ _ h.inv (h.knows k thread hk) hallowed fun r hr hnew => ?_
  refine h.rest r fun k' other hother hmem => ?_
  by_cases hkk : k' = k
  · rw [hkk, hk] at hother
    cases hother
    exact hnew hmem
  · exact Set.disjoint_left.mp (hfree k' other hkk hother) hr hmem

theorem Upheld.step (h : C.Upheld w) (hsound : C.Sound) (hkeeps : C.Keeps w (.step k)) :
    C.Upheld (w.act program (.step k)) := by
  simp only [World.act]
  cases hk : w.threads k with
  | none => exact h
  | some thread =>
    have hfree := (hkeeps thread hk).2
    have hstep := h.stepOf hsound hkeeps hk
    refine ⟨hstep.inv, ?_, ?_, ?_⟩
    · refine forall_update (Q := fun _ _ p => C.Knows p _) (fun k' other hkk hother => ?_)
        hstep.knows
      refine C.knows_stable (h.knows k' other hother) fun r hr => hstep.others r fun hmine => ?_
      exact Set.disjoint_left.mp (h.apart k k' thread other hkk.symm hk hother) hmine hr
    · exact Apart.update (R := fun _ p _ p' => Disjoint (C.hand p) (C.hand p')) h.apart
        (fun hdisjoint => hdisjoint.symm) hfree
    · intro r hr
      by_cases hmine : r ∈ C.hand thread.rest
      · exact hstep.down r hmine (not_mem_hand_of_update hr)
      · refine C.rest_stable (h.rest r fun k' other hother => ?_) (hstep.others r hmine)
        by_cases hkk : k' = k
        · rw [hkk, hk] at hother
          cases hother
          exact hmine
        · exact hr k' other ((update_of_ne hkk _ _).trans hother)

theorem Upheld.crash (h : C.Upheld w) (hkeeps : C.Keeps w (.crash k)) :
    C.Upheld (w.act program (.crash k)) := by
  refine ⟨h.inv, ?_, ?_, ?_⟩
  · exact fun k' thread hthread => h.knows k' thread (threads_of_update_none hthread)
  · exact fun i j thread thread' hij hi hj => h.apart i j thread thread' hij
      (threads_of_update_none hi) (threads_of_update_none hj)
  · intro r hr
    by_cases hmine : ∃ thread, w.threads k = some thread ∧ r ∈ C.hand thread.rest
    · obtain ⟨thread, hthread, hmem⟩ := hmine
      exact hkeeps thread hthread r hmem
    · refine h.rest r fun k' thread hthread hmem => ?_
      have hkk : k' ≠ k := by
        rintro rfl
        exact hmine ⟨thread, hthread, hmem⟩
      exact hr k' thread ((update_of_ne hkk _ _).trans hthread) hmem

/-- **Things stay as they should be in every interleaving in which no two threads have the
same thing in hand.** -/
theorem Upheld.run (hsound : C.Sound) (hbegins : ∀ job, C.Begins (program job)) (h : C.Upheld w)
    (hkept : C.Kept program w actions) : C.Upheld (w.run program actions) := by
  induction actions generalizing w with
  | nil => exact h
  | cons action actions ih =>
    obtain ⟨hkeeps, hrest⟩ := hkept
    refine ih ?_ hrest
    cases action with
    | start k job => exact h.start (hbegins job)
    | step k => exact h.step hsound hkeeps
    | crash k => exact h.crash hkeeps

/-- A thread beside which there is no other takes up what it likes. -/
theorem Kept.alone (hothers : ∀ k', k' ≠ k → w.threads k' = none) (hallowed : ∀ s c, C.Allowed s c)
    (hactions : ∀ action ∈ actions, action = .step k ∨ ∃ job, action = .start k job) :
    C.Kept program w actions := by
  induction actions generalizing w with
  | nil => trivial
  | cons action actions ih =>
    obtain ⟨hfirst, hrest⟩ := List.forall_mem_cons.mp hactions
    have hthread : action.thread = k := by
      rcases hfirst with rfl | ⟨job, rfl⟩ <;> rfl
    refine ⟨?_, ih (fun k' hkk => ?_) hrest⟩
    · rcases hfirst with rfl | ⟨job, rfl⟩
      · refine fun thread _ => ⟨hallowed _ _, fun k' other hkk hother => ?_⟩
        rw [hothers k' hkk] at hother
        cases hother
      · trivial
    · rw [World.act_threads_of_ne (hthread ▸ hkk)]
      exact hothers k' hkk

end Custody

end Lib
