import Vestrace.Lib.Guard

/-!
# Programs over ports

A routine that works on a shared state through ports is a tree: either it has returned, or
it stands at a call and goes on with the answer. `Prog.run` is what it does when it is
alone; `Lib.Threads` is what several of them do together.
-/

namespace Lib

/-- What can be asked of a shared state: the calls, what each answers and does. -/
structure Ports (σ : Type) where
  Call : Type
  Answer : Call → Type
  exec : (call : Call) → σ → Answer call × σ

variable {σ ε α β : Type} {P : Ports σ}

/-- A failure leaves the state as it was. -/
def transact (t : σ → Except ε (α × σ)) (s : σ) : Except ε α × σ :=
  match t s with
  | .ok (a, s') => (.ok a, s')
  | .error e => (.error e, s)

variable {s s' : σ} {t : σ → Except ε (α × σ)} {a : α}

theorem transact_ok : transact t s = (.ok a, s') ↔ t s = .ok (a, s') := by
  unfold transact
  rcases t s with _ | ⟨b, u⟩ <;> simp

theorem transact_state {Q : σ → Prop} (h : Q s) (hok : ∀ a s', t s = .ok (a, s') → Q s') :
    Q (transact t s).2 := by
  unfold transact
  cases ht : t s with
  | error e => exact h
  | ok result => exact hok _ _ ht

inductive Prog (P : Ports σ) (ε α : Type) : Type where
  | ret (x : Except ε α)
  | call (c : P.Call) (next : P.Answer c → Prog P ε α)

namespace Prog

/-- Go on with what a program returns; an error ends it. -/
protected def bind : Prog P ε α → (α → Prog P ε β) → Prog P ε β
  | ret (.ok a), f => f a
  | ret (.error e), _ => ret (.error e)
  | call c next, f => call c fun a => (next a).bind f

instance : Monad (Prog P ε) where
  pure a := ret (.ok a)
  bind := Prog.bind

instance : MonadLift (Except ε) (Prog P ε) := ⟨ret⟩

def perform (c : P.Call) : Prog P ε (P.Answer c) := call c fun a => ret (.ok a)

def attempt {ε' : Type} : Prog P ε α → Prog P ε' (Except ε α)
  | ret x => ret (.ok x)
  | call c next => call c fun a => (next a).attempt

def mapError {ε' : Type} (f : ε → ε') : Prog P ε α → Prog P ε' α
  | ret x => ret (x.mapError f)
  | call c next => call c fun a => (next a).mapError f

def run : Prog P ε α → σ → Except ε α × σ
  | ret x, s => (x, s)
  | call c next, s => (next (P.exec c s).1).run (P.exec c s).2

variable {f : α → Prog P ε β} {p : Prog P ε α} {b : β}

theorem run_bind_ok :
    (p >>= f).run s = (.ok b, s') ↔ ∃ a t, p.run s = (.ok a, t) ∧ (f a).run t = (.ok b, s') := by
  induction p generalizing s with
  | ret x =>
    cases x with
    | error e =>
      show ((.error e, s) : Except ε β × σ) = _ ↔ ∃ a t, ((.error e, s) : Except ε α × σ) = _ ∧ _
      simp
    | ok a =>
      show (f a).run s = _ ↔ ∃ a' t, ((.ok a, s) : Except ε α × σ) = _ ∧ _
      constructor
      · intro h
        exact ⟨a, s, rfl, h⟩
      · rintro ⟨_, _, heq, h⟩
        cases heq
        exact h
  | call c next ih => exact ih (P.exec c s).1

theorem run_pure_ok {b : α} : (pure a : Prog P ε α).run s = (.ok b, s') ↔ a = b ∧ s = s' := by
  show ((.ok a, s) : Except ε α × σ) = _ ↔ _
  simp

variable {x : Except ε α} {c : P.Call} {ε' : Type}

theorem run_lift_ok : (liftM x : Prog P ε α).run s = (.ok a, s') ↔ x = .ok a ∧ s = s' := by
  show (x, s) = _ ↔ _
  simp

theorem run_lift_bind_ok : ((liftM x : Prog P ε α) >>= f).run s = (.ok b, s') ↔
      ∃ a, x = .ok a ∧ (f a).run s = (.ok b, s') := by
  rw [run_bind_ok]
  constructor
  · intro h
    obtain ⟨a, t, hlift, hf⟩ := h
    obtain ⟨hx, rfl⟩ := run_lift_ok.mp hlift
    exact ⟨a, hx, hf⟩
  · intro h
    obtain ⟨a, hx, hf⟩ := h
    exact ⟨a, s, run_lift_ok.mpr ⟨hx, rfl⟩, hf⟩

theorem run_bind (p : Prog P ε α) (f : α → Prog P ε β) (s : σ) :
    (p >>= f).run s = match p.run s with
      | (.ok a, t) => (f a).run t
      | (.error e, t) => (.error e, t) := by
  induction p generalizing s with
  | ret x => cases x <;> rfl
  | call c next ih => exact ih (P.exec c s).1 (P.exec c s).2

theorem run_perform_bind {f : P.Answer c → Prog P ε β} {t : σ} {a : P.Answer c}
    (h : P.exec c s = (a, t)) : (perform c >>= f).run s = (f a).run t := by
  show (f (P.exec c s).1).run (P.exec c s).2 = _
  rw [h]

theorem run_attempt (p : Prog P ε α) (s : σ) :
    (p.attempt : Prog P ε' (Except ε α)).run s = (.ok (p.run s).1, (p.run s).2) := by
  induction p generalizing s with
  | ret x => rfl
  | call c next ih => exact ih (P.exec c s).1 (P.exec c s).2

theorem run_mapError (f : ε → ε') (p : Prog P ε α) (s : σ) :
    (p.mapError f).run s = ((p.run s).1.mapError f, (p.run s).2) := by
  induction p generalizing s with
  | ret x => rfl
  | call c next ih => exact ih (P.exec c s).1 (P.exec c s).2

theorem run_mapError_ok {f : ε → ε'} :
    (p.mapError f).run s = (.ok a, s') ↔ p.run s = (.ok a, s') := by
  rw [run_mapError, Prod.mk.injEq, mapError_eq_ok, Prod.ext_iff]

/-- The state when the program stops after so many calls. -/
def stoppedAfter : ℕ → Prog P ε α → σ → σ
  | 0, _, s => s
  | _ + 1, ret _, s => s
  | n + 1, call c next, s => (next (P.exec c s).1).stoppedAfter n (P.exec c s).2

/-! ## What holds after every call -/

/-- `I` holds after every call a program makes when nobody else is there. -/
def Always (I : σ → Prop) : Prog P ε α → σ → Prop
  | ret _, _ => True
  | call c next, s => I (P.exec c s).2 ∧ (next (P.exec c s).1).Always I (P.exec c s).2

variable {I : σ → Prop}

theorem Always.run (hp : p.Always I s) (h : I s) : I (p.run s).2 := by
  induction p generalizing s with
  | ret x => exact h
  | call c next ih => exact ih _ hp.2 hp.1

theorem run_keeps (p : Prog P ε α) (hkeep : ∀ c t, I t → I (P.exec c t).2) (h : I s) :
    I (p.run s).2 := by
  induction p generalizing s with
  | ret x => exact h
  | call c next ih => exact ih _ (hkeep c s h)

theorem Always.mono {J : σ → Prop} (hp : p.Always I s) (h : ∀ t, I t → J t) : p.Always J s := by
  induction p generalizing s with
  | ret x => trivial
  | call c next ih => exact ⟨h _ hp.1, ih _ hp.2⟩

/-- Wherever the program stops. -/
theorem Always.stoppedAfter (hp : p.Always I s) (h : I s) (n : ℕ) : I (p.stoppedAfter n s) := by
  induction n generalizing p s with
  | zero => exact h
  | succ n ih =>
    cases p with
    | ret x => exact h
    | call c next => exact ih hp.2 hp.1

theorem Always.mapError {f : ε → ε'} (hp : p.Always I s) : (p.mapError f).Always I s := by
  induction p generalizing s with
  | ret x => trivial
  | call c next ih => exact ⟨hp.1, ih _ hp.2⟩

theorem Always.bind (hp : p.Always I s) (hok : ∀ a t, p.run s = (.ok a, t) → (f a).Always I t) :
    (p >>= f).Always I s := by
  induction p generalizing s with
  | ret x =>
    cases x with
    | error e => trivial
    | ok a => exact hok a s rfl
  | call c next ih => exact ⟨hp.1, ih _ hp.2 hok⟩

theorem Always.lift_bind (hok : ∀ a, x = .ok a → (f a).Always I s) :
    ((liftM x : Prog P ε α) >>= f).Always I s := by
  cases x with
  | error e => trivial
  | ok a => exact hok a rfl

/-! ## What holds before a call -/

/-- The call a program stands at after so many calls; none if it has returned. -/
def callAfter : ℕ → Prog P ε α → σ → Option P.Call
  | _, ret _, _ => none
  | 0, call c _, _ => some c
  | n + 1, call c next, s => (next (P.exec c s).1).callAfter n (P.exec c s).2

/-- `Q` holds of every call a program makes and the state it makes it in. -/
def Before (Q : P.Call → σ → Prop) : Prog P ε α → σ → Prop
  | ret _, _ => True
  | call c next, s => Q c s ∧ (next (P.exec c s).1).Before Q (P.exec c s).2

section

variable {Q : P.Call → σ → Prop}

theorem Before.callAfter (hp : p.Before Q s) {n : ℕ} (hc : p.callAfter n s = some c) :
    Q c (p.stoppedAfter n s) := by
  induction n generalizing p s with
  | zero =>
    cases p with
    | ret x => cases hc
    | call c' next =>
      cases hc
      exact hp.1
  | succ n ih =>
    cases p with
    | ret x => cases hc
    | call c' next => exact ih hp.2 hc

theorem Before.mono {R : P.Call → σ → Prop} (hp : p.Before Q s) (h : ∀ c t, Q c t → R c t) :
    p.Before R s := by
  induction p generalizing s with
  | ret x => trivial
  | call c next ih => exact ⟨h c s hp.1, ih _ hp.2⟩

theorem Before.always (hp : p.Before (fun c t => I (P.exec c t).2) s) : p.Always I s := by
  induction p generalizing s with
  | ret x => trivial
  | call c next ih => exact ⟨hp.1, ih _ hp.2⟩

theorem Before.bind (hp : p.Before Q s) (hok : ∀ a t, p.run s = (.ok a, t) → (f a).Before Q t) :
    (p >>= f).Before Q s := by
  induction p generalizing s with
  | ret x =>
    cases x with
    | error e => trivial
    | ok a => exact hok a s rfl
  | call c next ih => exact ⟨hp.1, ih _ hp.2 hok⟩

theorem Before.call_bind {f : P.Answer c → Prog P ε β} (hc : Q c s)
    (hf : (f (P.exec c s).1).Before Q (P.exec c s).2) : (perform c >>= f).Before Q s :=
  ⟨hc, hf⟩

theorem Before.lift_bind (hok : ∀ a, x = .ok a → (f a).Before Q s) :
    ((liftM x : Prog P ε α) >>= f).Before Q s := by
  cases x with
  | error e => trivial
  | ok a => exact hok a rfl

end

/-! ## How a program can fail -/

/-- Whatever error the program returns when nobody else is there, it is one of these. -/
def FailsWith (E : ε → Prop) (p : Prog P ε α) : Prop := ∀ s e, (p.run s).1 = .error e → E e

section

variable {E : ε → Prop}

theorem FailsWith.pure (a : α) : (Pure.pure a : Prog P ε α).FailsWith E := nofun

theorem FailsWith.lift (h : Lib.FailsWith E x) :
    (liftM x : Prog P ε α).FailsWith E := fun _ e he => h e he

theorem FailsWith.bind (hp : p.FailsWith E) (hf : ∀ a, (f a).FailsWith E) :
    (p >>= f).FailsWith E := by
  intro s e he
  rw [run_bind] at he
  rcases hrun : p.run s with ⟨x, t⟩
  rw [hrun] at he
  cases x with
  | error e' =>
    cases he
    exact hp s e (congrArg Prod.fst hrun)
  | ok a => exact hf a t e he

theorem FailsWith.call_bind {f : P.Answer c → Prog P ε β}
    (hf : ∀ s, (f (P.exec c s).1).FailsWith E) : (perform c >>= f).FailsWith E :=
  fun s e he => hf s _ e he

end

/-! ## What a program can call at all -/

/-- Every call the program can make, whatever it is answered, is one of these. -/
def Makes (Q : P.Call → Prop) : Prog P ε α → Prop
  | ret _ => True
  | call c next => Q c ∧ ∀ a, (next a).Makes Q

section

variable {Q R : P.Call → Prop}

theorem Makes.pure (a : α) : (pure a : Prog P ε α).Makes Q := trivial

theorem Makes.lift (x : Except ε α) : (liftM x : Prog P ε α).Makes Q := trivial

theorem Makes.perform (h : Q c) : (perform c : Prog P ε (P.Answer c)).Makes Q :=
  ⟨h, fun _ => trivial⟩

theorem Makes.bind (hp : p.Makes Q) (hf : ∀ a, (f a).Makes Q) : (p >>= f).Makes Q := by
  induction p with
  | ret x =>
    cases x with
    | error e => trivial
    | ok a => exact hf a
  | call c next ih => exact ⟨hp.1, fun a => ih a (hp.2 a)⟩

theorem Makes.attempt (hp : p.Makes Q) : (p.attempt : Prog P ε' (Except ε α)).Makes Q := by
  induction p with
  | ret x => trivial
  | call c next ih => exact ⟨hp.1, fun a => ih a (hp.2 a)⟩

theorem Makes.mapError {f : ε → ε'} (hp : p.Makes Q) : (p.mapError f).Makes Q := by
  induction p with
  | ret x => trivial
  | call c next ih => exact ⟨hp.1, fun a => ih a (hp.2 a)⟩

theorem Makes.mono (hp : p.Makes Q) (h : ∀ c, Q c → R c) : p.Makes R := by
  induction p with
  | ret x => trivial
  | call c next ih => exact ⟨h c hp.1, fun a => ih a (hp.2 a)⟩

theorem Makes.and (hp : p.Makes Q) (hp' : p.Makes R) : p.Makes fun c => Q c ∧ R c := by
  induction p with
  | ret x => trivial
  | call c next ih => exact ⟨⟨hp.1, hp'.1⟩, fun a => ih a (hp.2 a) (hp'.2 a)⟩

/-- What a call meets, if each of the calls keeps the invariant. -/
theorem Makes.before {B : P.Call → σ → Prop} (hp : p.Makes Q)
    (hkeep : ∀ c t, Q c → I t → B c t ∧ I (P.exec c t).2) (h : I s) : p.Before B s := by
  induction p generalizing s with
  | ret x => trivial
  | call c next ih =>
    obtain ⟨hb, hnext⟩ := hkeep c s hp.1 h
    exact ⟨hb, ih _ (hp.2 _) hnext⟩

/-- What each of the calls keeps, the program keeps all the way. -/
theorem Makes.always (hp : p.Makes Q) (hkeep : ∀ c t, Q c → I t → I (P.exec c t).2) (h : I s) :
    p.Always I s := by
  induction p generalizing s with
  | ret x => trivial
  | call c next ih =>
    have hnext : I (P.exec c s).2 := hkeep c s hp.1 h
    exact ⟨hnext, ih _ (hp.2 _) hnext⟩

end

end Prog

end Lib
