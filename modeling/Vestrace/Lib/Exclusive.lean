import Vestrace.Lib.Threads

/-!
# Exclusive jobs

What threads keep together, proved program by program against everything the others may do
in the meantime. A `Pact` says what that is. The obligation of one program is `Pact.Safe`, with a
rule for each way of building programs.
-/

namespace Lib

open List

variable {k : ℕ}

variable {σ ε α β J : Type} {P : Ports σ} {f : α → Prog P ε β} {Q : Except ε α → σ → Prop}
  {actions : List (Action J)}

/-- An invariant of the state, how the state may move under the feet of a job (`Rely`), and a
goal. The goal may be down for a while, as long as some thread stands at a call that puts it
back (`Owes`), and that thread must not stop there. Some jobs must not be under way together
(`Clash`), and some calls must not be made while somebody is at a certain job (`Bars`). -/
structure Pact (P : Ports σ) (J : Type) where
  Inv : σ → Prop
  Goal : σ → Prop
  /-- A thread of this job that stands at this call will put the goal back. -/
  Owes : σ → J → P.Call → Prop
  /-- The jobs there are. -/
  Job : J → Prop
  /-- Jobs that are not under way at the same time. -/
  Clash : J → J → Prop
  /-- Calls that are not made while somebody else is at this job. -/
  Bars : J → P.Call → Prop
  /-- The calls a job may make in a state. -/
  Allowed : σ → J → P.Call → Prop
  /-- How others may move the state under the feet of a job. -/
  Rely : J → σ → σ → Prop
  clash_symm : ∀ {job job' : J}, Clash job job' → Clash job' job
  rely_refl : ∀ job s, Rely job s s
  rely_trans : ∀ {job : J} {s t u : σ}, Rely job s t → Rely job t u → Rely job s u

namespace Pact

variable (C : Pact P J)

/-- The next call of a program puts the goal back. -/
def OwesNext (s : σ) (job : J) : Prog P ε α → Prop
  | .ret _ => False
  | .call c _ => C.Owes s job c

structure Guar (s t : σ) (job : J) (c : P.Call) (rest : Prog P ε α) : Prop where
  inv : C.Inv t
  rely : ∀ job', ¬ C.Clash job job' → ¬ C.Bars job' c → C.Rely job' s t
  goal : C.Goal s ∨ C.Owes s job c → C.Goal t ∨ C.OwesNext t job rest
  others : ∀ job' c', ¬ C.Clash job job' → C.Owes s job' c' → C.Goal t ∨ C.Owes t job' c'

/-- The obligation of a program from a state on: whatever the others have done by the time
it makes a call, the call keeps the pact. -/
def Safe (job : J) : Prog P ε α → σ → (Except ε α → σ → Prop) → Prop
  | .ret x, s, post => post x s
  | .call c next, s, post => ∀ t, C.Rely job s t → C.Inv t → C.Allowed t job c →
      C.Guar t (P.exec c t).2 job c (next (P.exec c t).1) ∧
        Safe job (next (P.exec c t).1) (P.exec c t).2 post

variable {C} {job : J} {p : Prog P ε α} {s : σ} {post : Except ε α → σ → Prop} {c : P.Call}

theorem Safe.mono {post post' : Except ε α → σ → Prop}
    (h : C.Safe job p s post) (himp : ∀ x t, post x t → post' x t) : C.Safe job p s post' := by
  induction p generalizing s with
  | ret x => exact himp x s h
  | call c next ih =>
    intro t hrely hinv hallowed
    obtain ⟨hguar, hrest⟩ := h t hrely hinv hallowed
    exact ⟨hguar, ih _ hrest⟩

/-- A job that is in nobody's way moves the state only as it may be moved under its feet. -/
theorem Safe.moved (h : C.Safe job p s post) (hclash : ¬ C.Clash job job)
    (hbars : ∀ c, ¬ C.Bars job c) : C.Safe job p s fun x t => C.Rely job s t ∧ post x t := by
  induction p generalizing s with
  | ret x => exact ⟨C.rely_refl job s, h⟩
  | call c next ih =>
    intro t hrely hinv hallowed
    obtain ⟨hguar, hrest⟩ := h t hrely hinv hallowed
    have hmoved := C.rely_trans hrely (hguar.rely job hclash (hbars c))
    exact ⟨hguar, (ih _ hrest).mono fun x u hu => ⟨C.rely_trans hmoved hu.1, hu.2⟩⟩

theorem OwesNext.bind (f : α → Prog P ε β) (h : C.OwesNext s job p) :
    C.OwesNext s job (p >>= f) := by
  cases p with
  | ret x => exact h.elim
  | call c next => exact h

theorem OwesNext.attempt {ε' : Type} (h : C.OwesNext s job p) :
    C.OwesNext s job (p.attempt : Prog P ε' (Except ε α)) := by
  cases p with
  | ret x => exact h.elim
  | call c next => exact h

/-- A sequence, of which the second program begins where the first has returned. -/
theorem Safe.bind {post : Except ε β → σ → Prop} (h : C.Safe job p s Q)
    (hok : ∀ a t, Q (.ok a) t → C.Safe job (f a) t post)
    (herror : ∀ e t, Q (.error e) t → post (.error e) t) : C.Safe job (p >>= f) s post := by
  induction p generalizing s with
  | ret x =>
    cases x with
    | error e => exact herror e s h
    | ok a => exact hok a s h
  | call c next ih =>
    intro t hrely hinv hallowed
    obtain ⟨hguar, hrest⟩ := h t hrely hinv hallowed
    refine ⟨⟨hguar.inv, hguar.rely, ?_, hguar.others⟩, ih _ hrest⟩
    intro hgoal
    exact (hguar.goal hgoal).imp_right (OwesNext.bind f)

/-- A sequence of which nothing is to be shown but that it is safe. -/
theorem Safe.seq (h : C.Safe job p s fun _ _ => True)
    (hrest : ∀ a t, C.Safe job (f a) t fun _ _ => True) : C.Safe job (p >>= f) s fun _ _ => True :=
  h.bind (fun a t _ => hrest a t) fun _ _ _ => trivial

theorem Safe.attempt {ε' : Type} {post : Except ε' (Except ε α) → σ → Prop}
    (h : C.Safe job p s fun x t => post (.ok x) t) : C.Safe job p.attempt s post := by
  induction p generalizing s with
  | ret x => exact h
  | call c next ih =>
    intro t hrely hinv hallowed
    obtain ⟨hguar, hrest⟩ := h t hrely hinv hallowed
    refine ⟨⟨hguar.inv, hguar.rely, ?_, hguar.others⟩, ih _ hrest⟩
    intro hgoal
    exact (hguar.goal hgoal).imp_right OwesNext.attempt

/-- A call comes first. The rest begins in the state the call leaves. -/
theorem Safe.call_bind {f : P.Answer c → Prog P ε β} {post : Except ε β → σ → Prop}
    (h : ∀ t, C.Rely job s t → C.Inv t → C.Allowed t job c →
      C.Guar t (P.exec c t).2 job c (f (P.exec c t).1) ∧
        C.Safe job (f (P.exec c t).1) (P.exec c t).2 post) :
    C.Safe job (Prog.perform c >>= f) s post := h

/-- A step outside the ports comes first: nothing happens meanwhile. -/
theorem Safe.lift_bind {x : Except ε α} {post : Except ε β → σ → Prop}
    (hok : ∀ a, x = .ok a → C.Safe job (f a) s post)
    (herror : ∀ e, x = .error e → post (.error e) s) :
    C.Safe job ((liftM x : Prog P ε α) >>= f) s post := by
  cases x with
  | ok a => exact hok a rfl
  | error e => exact herror e rfl

/-- A program all of whose calls are alike: each keeps the pact, and what is known. -/
theorem Safe.of_makes {Q : P.Call → Prop} {K : σ → Prop}
    (hp : p.Makes Q) (hstable : ∀ s t, C.Rely job s t → K s → K t)
    (hcall : ∀ (c : P.Call) (t : σ) (rest : Prog P ε α), Q c → C.Inv t → C.Allowed t job c →
      C.Guar t (P.exec c t).2 job c rest ∧ (K t → K (P.exec c t).2)) (h : K s) :
    C.Safe job p s fun _ t => K t := by
  induction p generalizing s with
  | ret x => exact h
  | call c next ih =>
    intro t hrely hinv hallowed
    obtain ⟨hguar, hkept⟩ := hcall c t (next (P.exec c t).1) hp.1 hinv hallowed
    exact ⟨hguar, ih _ (hp.2 _) (hkept (hstable s t hrely h))⟩

/-- A program that stands at a call stays safe while others move. -/
theorem Safe.stable {next : P.Answer c → Prog P ε α} {t : σ} (h : C.Safe job (.call c next) s post)
    (hrely : C.Rely job s t) : C.Safe job (.call c next) t post :=
  fun u hu => h u (C.rely_trans hrely hu)

/-! ## Whole interleavings -/

variable (C) (program : J → Prog P ε Unit)

/-- What an action may be: the start of a job that clashes with none under way, a call that
is allowed and that nobody bars, and no end for a thread that owes. -/
def Keeps (w : World P ε J) : Action J → Prop
  | .start _ job => C.Job job ∧ ∀ k thread, w.threads k = some thread → ¬ C.Clash thread.job job
  | .step k => ∀ thread, w.threads k = some thread → C.Allowed w.state thread.job thread.call ∧
        ∀ k' other, k' ≠ k → w.threads k' = some other → ¬ C.Bars other.job thread.call
  | .crash k => ∀ thread, w.threads k = some thread → ¬ C.Owes w.state thread.job thread.call

/-- Every action of a sequence is one that may be. -/
def Kept : World P ε J → List (Action J) → Prop
  | _, [] => True
  | w, action :: actions => C.Keeps w action ∧ Kept (w.act program action) actions

/-- What holds of the world between any two actions. -/
structure Upheld (w : World P ε J) : Prop where
  inv : C.Inv w.state
  apart : ∀ k k' thread thread', k ≠ k' → w.threads k = some thread →
    w.threads k' = some thread' → ¬ C.Clash thread.job thread'.job
  safe : ∀ k thread, w.threads k = some thread →
    C.Safe thread.job (.call thread.call thread.next) w.state fun _ _ => True
  goal : C.Goal w.state ∨ ∃ k thread, w.threads k = some thread ∧
    C.Owes w.state thread.job thread.call

/-- What a job finds when it starts: the invariant, and the goal, if whoever owes it would
be in its way. -/
structure Starts (job : J) (s : σ) : Prop where
  known : C.Job job
  inv : C.Inv s
  goal : (∀ job' c, C.Owes s job' c → C.Clash job' job) → C.Goal s

variable {C} {program} {w : World P ε J} {count : ℕ}

theorem Upheld.still (hinv : C.Inv s) (hgoal : C.Goal s) :
    C.Upheld (⟨s, fun _ => none⟩ : World P ε J) := by
  refine ⟨hinv, ?_, ?_, .inl hgoal⟩
  · intro _ _ _ _ _ h
    cases h
  · intro _ _ h
    cases h

theorem Upheld.starts (h : C.Upheld w)
    (hkeeps : C.Keeps w (.start k job)) : C.Starts job w.state := by
  refine ⟨hkeeps.1, h.inv, fun hclash => ?_⟩
  rcases h.goal with hgoal | ⟨k', thread, hthread, howes⟩
  · exact hgoal
  · exact absurd (hclash _ _ howes) (hkeeps.2 k' thread hthread)

theorem Upheld.start (h : C.Upheld w) (hkeeps : C.Keeps w (.start k job))
    (hsafe : C.Safe job (program job) w.state fun _ _ => True) :
    C.Upheld (w.act program (.start k job)) := by
  simp only [World.act]
  cases hk : w.threads k with
  | some thread => exact h
  | none =>
    refine ⟨h.inv, ?_, ?_, h.goal.imp_right fun howed => exists_update howed ?_⟩
    · exact Apart.update (R := fun job _ job' _ => ¬ C.Clash job job') h.apart
        (fun hclash hclash' => hclash (C.clash_symm hclash'))
        fun k' thread _ hthread hclash => hkeeps.2 k' thread hthread (C.clash_symm hclash)
    · exact forall_update (Q := fun _ job p => C.Safe job p w.state fun _ _ => True)
        (fun k' thread _ => h.safe k' thread) hsafe
    · intro thread hthread
      rw [hk] at hthread
      cases hthread

theorem Upheld.step (h : C.Upheld w) (hkeeps : C.Keeps w (.step k)) :
    C.Upheld (w.act program (.step k)) := by
  simp only [World.act]
  cases hk : w.threads k with
  | none => exact h
  | some thread =>
    -- nobody has moved since the obligation was read off this very state
    obtain ⟨hallowed, hbars⟩ := hkeeps thread hk
    obtain ⟨hguar, hnext⟩ :=
      h.safe k thread hk w.state (C.rely_refl _ _) h.inv hallowed
    have hclash : ∀ k' other, k' ≠ k → w.threads k' = some other →
        ¬ C.Clash thread.job other.job :=
      fun k' other hkk hother => h.apart k k' thread other hkk.symm hk hother
    refine ⟨hguar.inv, ?_, ?_, ?_⟩
    · exact Apart.update (R := fun job _ job' _ => ¬ C.Clash job job') h.apart
        (fun hclash hclash' => hclash (C.clash_symm hclash')) hclash
    · refine forall_update (Q := fun _ job p => C.Safe job p _ fun _ _ => True) ?_ hnext
      intro k' other hkk hother
      exact (h.safe k' other hother).stable
        (hguar.rely _ (hclash k' other hkk hother) (hbars k' other hkk hother))
    · -- the goal is up or owed: by this thread so far, or by another one
      have hmine : C.Goal w.state ∨ C.Owes w.state thread.job thread.call →
          C.Goal (P.exec thread.call w.state).2 ∨ ∃ k' thread',
            Function.update w.threads k (Thread.of thread.job
              (thread.next (P.exec thread.call w.state).1)) k' = some thread' ∧
            C.Owes (P.exec thread.call w.state).2 thread'.job thread'.call := by
        intro hgoal
        refine (hguar.goal hgoal).imp_right fun howes => ?_
        cases hp : thread.next (P.exec thread.call w.state).1 with
        | ret x =>
          rw [hp] at howes
          exact howes.elim
        | call c next =>
          rw [hp] at howes
          exact ⟨k, ⟨thread.job, c, next⟩, Function.update_self .., howes⟩
      rcases h.goal with hgoal | ⟨k', other, hother, howes⟩
      · exact hmine (.inl hgoal)
      · by_cases hkk : k' = k
        · rw [hkk, hk] at hother
          cases hother
          exact hmine (.inr howes)
        · refine (hguar.others _ _ (hclash k' other hkk hother) howes).imp_right fun howes' => ?_
          exact ⟨k', other, (Function.update_of_ne hkk _ _).trans hother, howes'⟩

theorem Upheld.crash (h : C.Upheld w) (hkeeps : C.Keeps w (.crash k)) :
    C.Upheld (w.act program (.crash k)) := by
  refine ⟨h.inv, ?_, ?_, h.goal.imp_right fun howed => exists_update howed hkeeps⟩
  · exact fun i j thread thread' hij hi hj => h.apart i j thread thread' hij
      (threads_of_update_none hi) (threads_of_update_none hj)
  · exact fun k' thread hthread => h.safe k' thread (threads_of_update_none hthread)

/-- **Safe programs keep the pact in every interleaving that respects the exclusions.** -/
theorem Upheld.run (hprogram : ∀ job s, C.Starts job s → C.Safe job (program job) s fun _ _ => True)
    (h : C.Upheld w) (hkept : C.Kept program w actions) : C.Upheld (w.run program actions) := by
  induction actions generalizing w with
  | nil => exact h
  | cons action actions ih =>
    obtain ⟨hkeeps, hrest⟩ := hkept
    refine ih ?_ hrest
    cases action with
    | start k job => exact h.start hkeeps (hprogram job w.state (h.starts hkeeps))
    | step k => exact h.step hkeeps
    | crash k => exact h.crash hkeeps

/-! ## One job after the other -/

theorem Kept.append {first second : List (Action J)}
    (hfirst : C.Kept program w first) (hsecond : C.Kept program (w.run program first) second) :
    C.Kept program w (first ++ second) := by
  induction first generalizing w with
  | nil => exact hsecond
  | cons action actions ih => exact ⟨hfirst.1, ih hfirst.2 hsecond⟩

theorem Kept.steps (hothers : ∀ k', k' ≠ k → w.threads k' = none)
    (hallowed : ∀ i < count, ∀ thread ∈ (w.run program (replicate i (.step k))).threads k,
      C.Allowed (w.run program (replicate i (.step k))).state thread.job thread.call) :
    C.Kept program w (replicate count (.step k)) := by
  induction count generalizing w with
  | zero => trivial
  | succ count ih =>
    refine ⟨fun thread hthread => ⟨hallowed 0 (Nat.succ_pos _) thread hthread, ?_⟩, ih ?_ ?_⟩
    · intro k' other hkk hother
      rw [hothers k' hkk] at hother
      cases hother
    · exact fun k' hkk => (World.act_threads_of_ne hkk).trans (hothers k' hkk)
    · exact fun i hi => hallowed (i + 1) (Nat.succ_lt_succ hi)

def turn (job : J) (count : ℕ) : List (Action J) := .start 0 job :: replicate count (.step 0)

variable (C program) in
def InTurn : World P ε J → List (J × ℕ) → Prop
  | _, [] => True
  | w, (job, count) :: turns =>
    (∀ i < count, ∀ thread ∈ (w.run program (turn job i)).threads 0,
      C.Allowed (w.run program (turn job i)).state thread.job thread.call) ∧
    ((w.run program (turn job count)).threads 0).isNone = true ∧
    InTurn (w.run program (turn job count)) turns

instance InTurn.decidable [∀ s job c, Decidable (C.Allowed s job c)] :
    ∀ (w : World P ε J) (turns : List (J × ℕ)), Decidable (C.InTurn program w turns)
  | _, [] => isTrue trivial
  | w, (job, count) :: turns =>
    have := InTurn.decidable (w.run program (turn job count)) turns
    inferInstanceAs (Decidable (_ ∧ _ ∧ _))

theorem turn_still (hstill : ∀ k, w.threads k = none)
    (hdone : ((w.run program (turn job count)).threads 0).isNone = true) (k : ℕ) :
    (w.run program (turn job count)).threads k = none := by
  by_cases hk : k = 0
  · rw [hk]
    exact Option.isNone_iff_eq_none.mp hdone
  · refine (World.run_threads_of_ne fun action haction => ?_).trans (hstill k)
    rcases mem_cons.mp haction with rfl | haction
    · exact hk
    · rw [eq_of_mem_replicate haction]
      exact hk

theorem InTurn.kept {turns : List (J × ℕ)} (h : C.InTurn program w turns)
    (hstill : ∀ k, w.threads k = none) (hjobs : ∀ job ∈ turns.map Prod.fst, C.Job job) :
    C.Kept program w (turns.flatMap fun (job, count) => turn job count) := by
  induction turns generalizing w with
  | nil => trivial
  | cons first turns ih =>
    obtain ⟨hallowed, hdone, hrest⟩ := h
    obtain ⟨hjob, hjobs⟩ := forall_mem_cons.mp hjobs
    refine Kept.append ⟨⟨hjob, fun k thread hthread => ?_⟩, Kept.steps ?_ hallowed⟩
      (ih hrest (turn_still hstill hdone) hjobs)
    · rw [hstill k] at hthread
      cases hthread
    · exact fun k hk => (World.act_threads_of_ne hk).trans (hstill k)

end Pact

/-! ## Contracts -/

structure Contract (P : Ports σ) (J : Type) where
  Inv : σ → Prop
  /-- How others may move the state. -/
  Rely : σ → σ → Prop
  Goal : σ → Prop
  /-- A thread of this job that stands at this call will put the goal back. -/
  Owes : σ → J → P.Call → Prop
  /-- The jobs there are. -/
  Job : J → Prop
  /-- The calls a job may make in a state. -/
  Allowed : σ → J → P.Call → Prop
  rely_refl : ∀ s, Rely s s
  rely_trans : ∀ {s t u : σ}, Rely s t → Rely t u → Rely s u

namespace Contract

variable (C : Contract P J)

def pact : Pact P J where
  Inv := C.Inv
  Goal := C.Goal
  Owes := C.Owes
  Job := C.Job
  Clash _ _ := False
  Bars _ _ := False
  Allowed := C.Allowed
  Rely _ := C.Rely
  clash_symm := False.elim
  rely_refl _ := C.rely_refl
  rely_trans := C.rely_trans

abbrev Safe (job : J) (p : Prog P ε α) (s : σ) (post : Except ε α → σ → Prop) : Prop :=
  C.pact.Safe job p s post

/-- A sequence: the second program starts where the first has returned, and others have moved the
state only as they may. -/
theorem Safe.bind {C : Contract P J} {job : J} {p : Prog P ε α} {s : σ}
    {post : Except ε β → σ → Prop} (h : C.Safe job p s Q)
    (hok : ∀ a t, C.Rely s t → Q (.ok a) t → C.Safe job (f a) t post)
    (herror : ∀ e t, C.Rely s t → Q (.error e) t → post (.error e) t) :
    C.Safe job (p >>= f) s post :=
  (Pact.Safe.moved h id fun _ => id).bind (fun a t hmoved => hok a t hmoved.1 hmoved.2)
    fun e t hmoved => herror e t hmoved.1 hmoved.2

variable (program : J → Prog P ε Unit)

/-- What an action may be: a job of the contract, a call it allows, and no end for a
thread that owes. -/
def Keeps (w : World P ε J) : Action J → Prop
  | .start _ job => C.Job job
  | .step k => ∀ thread, w.threads k = some thread → C.Allowed w.state thread.job thread.call
  | .crash k => ∀ thread, w.threads k = some thread → ¬ C.Owes w.state thread.job thread.call

/-- Every action of a sequence is one that may be. -/
def Kept : World P ε J → List (Action J) → Prop
  | _, [] => True
  | w, action :: actions => C.Keeps w action ∧ Kept (w.act program action) actions

variable {C} {program}

theorem Kept.pact {w : World P ε J} (h : C.Kept program w actions) :
    C.pact.Kept program w actions := by
  induction actions generalizing w with
  | nil => trivial
  | cons action actions ih =>
    refine ⟨?_, ih h.2⟩
    have hkeeps := h.1
    cases action with
    | start k job => exact ⟨hkeeps, fun _ _ _ => id⟩
    | step k => exact fun thread hthread => ⟨hkeeps thread hthread, fun _ _ _ _ => id⟩
    | crash k => exact hkeeps

end Contract

end Lib
