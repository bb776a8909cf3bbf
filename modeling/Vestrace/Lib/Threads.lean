import Vestrace.Lib.Ports

/-!
# Threads — programs that share a state

Any number of programs run on one state, one call at a time, in any order; a program
may stop for good at any call.
-/

namespace Lib

open Function

variable {σ ε J : Type} {P : Ports σ}

/-! ## Interleavings -/

/-- A program that has begun: whose it is, the call it stands at, and how it goes on. -/
structure Thread (P : Ports σ) (ε J : Type) where
  job : J
  call : P.Call
  next : P.Answer call → Prog P ε Unit

def Thread.of (job : J) : Prog P ε Unit → Option (Thread P ε J)
  | .ret _ => none
  | .call c next => some ⟨job, c, next⟩

def Thread.rest (thread : Thread P ε J) : Prog P ε Unit := .call thread.call thread.next

section

variable {threads : ℕ → Option (Thread P ε J)} {k : ℕ} {changed : Option (Thread P ε J)}
  {job : J} {p : Prog P ε Unit} {Q : Thread P ε J → Prop} {thread : Thread P ε J}

theorem Thread.of_eq_some (h : Thread.of job p = some thread) :
    thread.job = job ∧ thread.rest = p := by
  cases p with
  | ret x => cases h
  | call c next =>
    cases h
    exact ⟨rfl, rfl⟩

/-- What holds of all other threads, and of the program that comes in the place of one. -/
theorem forall_update {Q : ℕ → J → Prog P ε Unit → Prop}
    (hrest : ∀ k' thread, k' ≠ k → threads k' = some thread → Q k' thread.job thread.rest)
    (hp : Q k job p) (k' : ℕ) (thread : Thread P ε J)
    (hthread : update threads k (Thread.of job p) k' = some thread) :
    Q k' thread.job thread.rest := by
  by_cases hk : k' = k
  · rw [hk, update_self] at hthread
    obtain ⟨hjob, hprogram⟩ := Thread.of_eq_some hthread
    rw [hk, hjob, hprogram]
    exact hp
  · rw [update_of_ne hk] at hthread
    exact hrest k' thread hk hthread

theorem threads_of_update_none {k' : ℕ} (h : update threads k none k' = some thread) :
    threads k' = some thread := by
  by_cases hk : k' = k
  · rw [hk, update_self] at h
    cases h
  · rwa [update_of_ne hk] at h

theorem exists_update (h : ∃ k' thread, threads k' = some thread ∧ Q thread)
    (hk : ∀ thread, threads k = some thread → ¬ Q thread) :
    ∃ k' thread, update threads k changed k' = some thread ∧ Q thread := by
  obtain ⟨k', thread, hthread, hQ⟩ := h
  have hkk : k' ≠ k := by
    rintro rfl
    exact hk thread hthread hQ
  exact ⟨k', thread, (update_of_ne hkk _ _).trans hthread, hQ⟩

def Apart (R : J → Prog P ε Unit → J → Prog P ε Unit → Prop)
    (threads : ℕ → Option (Thread P ε J)) : Prop :=
  ∀ k k' thread thread', k ≠ k' → threads k = some thread → threads k' = some thread' →
    R thread.job thread.rest thread'.job thread'.rest

theorem Apart.update {R : J → Prog P ε Unit → J → Prog P ε Unit → Prop} (h : Apart R threads)
    (hsymm : ∀ {job p job' p'}, R job p job' p' → R job' p' job p)
    (hp : ∀ k' thread, k' ≠ k → threads k' = some thread → R job p thread.job thread.rest) :
    Apart R (update threads k (Thread.of job p)) := by
  intro i j thread thread' hij hi hj
  by_cases hik : i = k
  · have hjk : j ≠ k := fun hjk => hij (hik.trans hjk.symm)
    rw [hik, update_self] at hi
    rw [update_of_ne hjk] at hj
    obtain ⟨hjob, hprogram⟩ := Thread.of_eq_some hi
    rw [hjob, hprogram]
    exact hp j thread' hjk hj
  · rw [update_of_ne hik] at hi
    refine forall_update (Q := fun k' job' p' => i ≠ k' → R thread.job thread.rest job' p')
      (fun k' other _ hother hne => h i k' thread other hne hi hother)
      (fun _ => hsymm (hp i thread hik hi)) j thread' hj hij

end

structure World (P : Ports σ) (ε J : Type) where
  state : σ
  threads : ℕ → Option (Thread P ε J)

/-- A thread begins a job, makes its next call, or stops for good. -/
inductive Action (J : Type) where
  | start (k : ℕ) (job : J)
  | step (k : ℕ)
  | crash (k : ℕ)
  deriving DecidableEq, Repr

def Action.thread : Action J → ℕ
  | start k _ | step k | crash k => k

variable (program : J → Prog P ε Unit)

/-- One action. What a thread that does not exist does, and a start under a number that is
taken, come to nothing. -/
def World.act (w : World P ε J) : Action J → World P ε J
  | .start k job =>
    match w.threads k with
    | some _ => w
    | none => ⟨w.state, Function.update w.threads k (Thread.of job (program job))⟩
  | .step k =>
    match w.threads k with
    | none => w
    | some thread =>
      let answer := P.exec thread.call w.state
      ⟨answer.2, Function.update w.threads k (Thread.of thread.job (thread.next answer.1))⟩
  | .crash k => ⟨w.state, Function.update w.threads k none⟩

def World.run (w : World P ε J) (actions : List (Action J)) : World P ε J :=
  actions.foldl (World.act program) w

variable {program} {w : World P ε J}

theorem World.act_threads_of_ne {action : Action J} {k : ℕ} (h : k ≠ action.thread) :
    (w.act program action).threads k = w.threads k := by
  cases action with
  | start | step =>
    simp only [World.act]
    split
    · rfl
    · exact update_of_ne h _ _
  | crash j => exact update_of_ne h _ _

theorem World.run_threads_of_ne {actions : List (Action J)} {k : ℕ}
    (h : ∀ action ∈ actions, k ≠ action.thread) :
    (w.run program actions).threads k = w.threads k := by
  induction actions generalizing w with
  | nil => rfl
  | cons action actions ih =>
    obtain ⟨haction, hrest⟩ := List.forall_mem_cons.mp h
    exact (ih hrest).trans (World.act_threads_of_ne haction)

end Lib
