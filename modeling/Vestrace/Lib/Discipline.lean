import Mathlib.Data.List.Induction
import Vestrace.Lib.Threads

/-!
# Disciplines — what a thread may call, given what it has seen

Who may call what is often a matter of what the caller has been told before. A `Discipline` gives
every thread a memory, changed by the answers it gets, and says what may be called with which
memory.
-/

namespace Lib

open List Function World

variable {σ ε α β J L : Type} {P : Ports σ} {action : Action J} {actions : List (Action J)}

/-! ## The record of an interleaving -/

structure Made (P : Ports σ) (J : Type) where
  thread : ℕ
  job : J
  call : P.Call
  before : σ

namespace Made

def answer (m : Made P J) : P.Answer m.call := (P.exec m.call m.before).1

def after (m : Made P J) : σ := (P.exec m.call m.before).2

end Made

variable (program : J → Prog P ε Unit)

namespace World

def makes (w : World P ε J) : Action J → Option (Made P J)
  | .step k => (w.threads k).map fun thread => ⟨k, thread.job, thread.call, w.state⟩
  | _ => none

def made (w : World P ε J) : List (Action J) → List (Made P J)
  | [] => []
  | action :: actions => (w.makes action).toList ++ made (w.act program action) actions

variable {program} {w : World P ε J}

theorem run_snoc (w : World P ε J) (actions : List (Action J)) (action : Action J) :
    w.run program (actions ++ [action]) = (w.run program actions).act program action := by
  rw [run, foldl_append]
  rfl

theorem made_snoc (w : World P ε J) (actions : List (Action J)) (action : Action J) :
    w.made program (actions ++ [action]) =
      w.made program actions ++ ((w.run program actions).makes action).toList := by
  induction actions generalizing w with
  | nil => exact append_nil _
  | cons head actions ih =>
    rw [cons_append, made, made, ih, append_assoc]
    rfl

theorem makes_eq_some {m : Made P J} (h : w.makes action = some m) : ∃ thread,
    action = .step m.thread ∧ w.threads m.thread = some thread ∧ m.job = thread.job ∧
      m.call = thread.call ∧ m.before = w.state := by
  cases action with
  | step k =>
    obtain ⟨thread, hthread, rfl⟩ := Option.map_eq_some_iff.mp h
    exact ⟨thread, rfl, hthread, rfl, rfl, rfl⟩
  | start | crash => cases h

/-- Every call of the record was made by some action, with what was recorded by then. -/
theorem made_split {earlier later : List (Made P J)} {m : Made P J}
    (h : w.made program actions = earlier ++ m :: later) :
    ∃ before action after, actions = before ++ action :: after ∧
      w.made program before = earlier ∧ (w.run program before).makes action = some m := by
  induction actions generalizing w earlier with
  | nil => exact absurd h.symm (append_ne_nil_of_right_ne_nil _ (cons_ne_nil _ _))
  | cons action actions ih =>
    rw [made] at h
    cases hmakes : w.makes action with
    | none =>
      rw [hmakes] at h
      obtain ⟨before, action', after, rfl, hmade, hm⟩ := ih h
      refine ⟨action :: before, action', after, rfl, ?_, hm⟩
      rw [made, hmakes]
      exact hmade
    | some first =>
      rw [hmakes] at h
      cases earlier with
      | nil =>
        cases h
        exact ⟨[], action, actions, rfl, rfl, hmakes⟩
      | cons head earlier =>
        obtain ⟨rfl, htail⟩ := List.cons.inj h
        obtain ⟨before, action', after, rfl, hmade, hm⟩ := ih htail
        refine ⟨action :: before, action', after, rfl, ?_, hm⟩
        rw [made, hmakes, hmade]
        rfl

end World

/-! ## Disciplines -/

structure Discipline (P : Ports σ) (J L : Type) where
  /-- What may be assumed of the state that answers. -/
  Sound : σ → Prop
  fresh : L
  May : J → L → P.Call → Prop
  learn : L → (c : P.Call) → P.Answer c → L

namespace Discipline

variable (D : Discipline P J L)

/-- The obligation of a program that starts with a memory: it calls only what it may. -/
def Follows (job : J) : Prog P ε α → L → (Except ε α → L → Prop) → Prop
  | .ret x, l, post => post x l
  | .call c next, l, post => D.May job l c ∧ ∀ s, D.Sound s →
      Follows job (next (P.exec c s).1) (D.learn l c (P.exec c s).1) post

variable {D} {job : J} {l : L} {p : Prog P ε α} {f : α → Prog P ε β} {post : Except ε β → L → Prop}

theorem Follows.mono {post post' : Except ε α → L → Prop} (h : D.Follows job p l post)
    (himp : ∀ x l', post x l' → post' x l') : D.Follows job p l post' := by
  induction p generalizing l with
  | ret x => exact himp x l h
  | call c next ih => exact ⟨h.1, fun s hs => ih _ (h.2 s hs)⟩

theorem Follows.bind {Q : Except ε α → L → Prop} (h : D.Follows job p l Q)
    (hok : ∀ a l', Q (.ok a) l' → D.Follows job (f a) l' post)
    (herror : ∀ e l', Q (.error e) l' → post (.error e) l') : D.Follows job (p >>= f) l post := by
  induction p generalizing l with
  | ret x =>
    cases x with
    | error e => exact herror e l h
    | ok a => exact hok a l h
  | call c next ih => exact ⟨h.1, fun s hs => ih _ (h.2 s hs)⟩

theorem Follows.lift_bind {x : Except ε α} (hok : ∀ a, x = .ok a → D.Follows job (f a) l post)
    (herror : ∀ e, x = .error e → post (.error e) l) :
    D.Follows job ((liftM x : Prog P ε α) >>= f) l post := by
  cases x with
  | ok a => exact hok a rfl
  | error e => exact herror e rfl

theorem Follows.attempt {ε' : Type} {post : Except ε' (Except ε α) → L → Prop}
    (h : D.Follows job p l fun x l' => post (.ok x) l') : D.Follows job p.attempt l post := by
  induction p generalizing l with
  | ret x => exact h
  | call c next ih => exact ⟨h.1, fun s hs => ih _ (h.2 s hs)⟩

theorem Follows.perform {c : P.Call} {post : Except ε (P.Answer c) → L → Prop}
    (hmay : D.May job l c)
    (hpost : ∀ s, D.Sound s → post (.ok (P.exec c s).1) (D.learn l c (P.exec c s).1)) :
    D.Follows job (Prog.perform c) l post := ⟨hmay, hpost⟩

end Discipline

/-! ## Memories -/

namespace World

variable (D : Discipline P J L)

def remember (w : World P ε J) (memory : ℕ → L) : Action J → ℕ → L
  | .start k _ =>
    match w.threads k with
    | some _ => memory
    | none => Function.update memory k D.fresh
  | .step k =>
    match w.threads k with
    | some thread =>
      Function.update memory k (D.learn (memory k) thread.call (P.exec thread.call w.state).1)
    | none => memory
  | .crash _ => memory

def remembered (w : World P ε J) (memory : ℕ → L) : List (Action J) → ℕ → L
  | [] => memory
  | action :: actions => remembered (w.act program action) (w.remember D memory action) actions

variable {program D}

theorem remembered_snoc (w : World P ε J) (memory : ℕ → L) (actions : List (Action J))
    (action : Action J) :
    w.remembered program D memory (actions ++ [action]) =
      (w.run program actions).remember D (w.remembered program D memory actions) action := by
  induction actions generalizing w memory with
  | nil => rfl
  | cons head actions ih =>
    rw [cons_append, remembered, remembered, ih]
    rfl

end World

/-! ## Accounts -/

/-- What a record of calls says of the state, and of the threads' memories. -/
structure Account (D : Discipline P J L) where
  Inv : List (Made P J) → σ → Prop
  Knows : List (Made P J) → σ → ℕ → J → L → Prop
  sound : ∀ {log : List (Made P J)} {s : σ}, Inv log s → D.Sound s
  fresh : ∀ (log : List (Made P J)) (s : σ) (k : ℕ) (job : J), Knows log s k job D.fresh

namespace Account

variable {D : Discipline P J L} (A : Account D)

/-- What holds between any two actions. -/
structure Upheld (log : List (Made P J)) (w : World P ε J) (memory : ℕ → L) : Prop where
  inv : A.Inv log w.state
  follows : ∀ k thread, w.threads k = some thread →
    D.Follows thread.job (.call thread.call thread.next) (memory k) (fun _ _ => True) ∧
      A.Knows log w.state k thread.job (memory k)

structure Renews (log : List (Made P J)) (w : World P ε J) (memory : ℕ → L) (m : Made P J) :
    Prop where
  inv : A.Inv (log ++ [m]) m.after
  own : A.Knows (log ++ [m]) m.after m.thread m.job (D.learn (memory m.thread) m.call m.answer)
  others : ∀ k thread, k ≠ m.thread → w.threads k = some thread →
    A.Knows log m.before k thread.job (memory k) →
      A.Knows (log ++ [m]) m.after k thread.job (memory k)

variable {A} {program : J → Prog P ε Unit} {log : List (Made P J)} {w : World P ε J}
variable {memory : ℕ → L}

theorem Upheld.start (h : A.Upheld log w memory) (k : ℕ) {job : J}
    (hprogram : D.Follows job (program job) D.fresh fun _ _ => True) :
    A.Upheld log (w.act program (.start k job)) (w.remember D memory (.start k job)) := by
  simp only [act, remember]
  cases hk : w.threads k with
  | some thread => exact h
  | none =>
    refine ⟨h.inv, forall_update (Q := fun k' job p => D.Follows job p
      (update memory k D.fresh k') (fun _ _ => True) ∧
        A.Knows log w.state k' job (update memory k D.fresh k')) ?_ ?_⟩
    · intro k' thread hkk hthread
      rw [update_of_ne hkk]
      exact h.follows k' thread hthread
    · rw [update_self]
      exact ⟨hprogram, A.fresh ..⟩

theorem Upheld.crash (h : A.Upheld log w memory) (k : ℕ) :
    A.Upheld log (w.act program (.crash k)) memory := by
  exact ⟨h.inv, fun k' thread hthread => h.follows k' thread (threads_of_update_none hthread)⟩

theorem Upheld.step {k : ℕ} {thread : Thread P ε J} (h : A.Upheld log w memory)
    (hk : w.threads k = some thread)
    (hrenews : A.Renews log w memory ⟨k, thread.job, thread.call, w.state⟩) :
    A.Upheld (log ++ [⟨k, thread.job, thread.call, w.state⟩]) (w.act program (.step k))
      (w.remember D memory (.step k)) := by
  obtain ⟨⟨-, hnext⟩, -⟩ := h.follows k thread hk
  simp only [act, remember, hk]
  refine ⟨hrenews.inv, forall_update (Q := fun k' job p => D.Follows job p
    (update memory k _ k') (fun _ _ => True) ∧
      A.Knows _ _ k' job (update memory k _ k')) ?_ ?_⟩
  · intro k' other hkk hother
    rw [update_of_ne hkk]
    obtain ⟨hfollows, hknows⟩ := h.follows k' other hother
    exact ⟨hfollows, hrenews.others k' other hkk hother hknows⟩
  · rw [update_self]
    exact ⟨hnext w.state (A.sound h.inv), hrenews.own⟩

/-- What the account says of a call about to be made. -/
theorem Upheld.makes {m : Made P J} (h : A.Upheld log w memory) (hmakes : w.makes action = some m) :
    A.Inv log m.before ∧ D.May m.job (memory m.thread) m.call ∧
      A.Knows log m.before m.thread m.job (memory m.thread) := by
  obtain ⟨thread, -, hthread, hjob, hcall, hbefore⟩ := makes_eq_some hmakes
  obtain ⟨hfollows, hknows⟩ := h.follows m.thread thread hthread
  rw [hjob, hcall, hbefore]
  exact ⟨h.inv, hfollows.1, hknows⟩

/-- **Programs that follow the discipline keep the account, in every interleaving** in which
every call is one that renews it. -/
theorem Upheld.run (hprogram : ∀ job, D.Follows job (program job) D.fresh fun _ _ => True)
    (h : A.Upheld [] w memory)
    (hrenews : ∀ before action after m, actions = before ++ action :: after →
      (w.run program before).makes action = some m →
      A.Upheld (w.made program before) (w.run program before)
        (w.remembered program D memory before) →
        A.Renews (w.made program before) (w.run program before)
          (w.remembered program D memory before) m) :
    A.Upheld (w.made program actions) (w.run program actions)
      (w.remembered program D memory actions) := by
  induction actions using List.reverseRecOn with
  | nil => exact h
  | append_singleton actions action ih =>
    have hupheld := ih fun before action' after m heq => by
      refine hrenews before action' (after ++ [action]) m ?_
      rw [heq, append_assoc, cons_append]
    rw [made_snoc, run_snoc, remembered_snoc]
    cases action with
    | start k job =>
      show A.Upheld (_ ++ []) _ _
      rw [append_nil]
      exact hupheld.start k (hprogram job)
    | crash k =>
      show A.Upheld (_ ++ []) _ _
      rw [append_nil]
      exact hupheld.crash k
    | step k =>
      cases hk : (w.run program actions).threads k with
      | none =>
        simp only [World.makes, act, remember, hk, Option.map_none,
          Option.toList_none, append_nil]
        exact hupheld
      | some thread =>
        have hmakes : (w.run program actions).makes (.step k) =
            some ⟨k, thread.job, thread.call, (w.run program actions).state⟩ := by
          rw [World.makes, hk]
          rfl
        rw [hmakes]
        exact hupheld.step hk (hrenews actions (.step k) [] _ rfl hmakes hupheld)

end Account

end Lib
