import Mathlib.Tactic.Common

/-!
# Guards — peeling an `Except` computation apart

A fallible routine written as a sequence of early returns is a chain of binds. What it means
for such a chain to succeed is read off link by link (`bind_eq_ok`, `refuse_eq_ok`).
-/

namespace Lib

variable {ε α β : Type} {c : Prop} [Decidable c]

/-- An early return: fail with `e` when `c` holds, otherwise go on. -/
def refuse (c : Prop) [Decidable c] (e : ε) : Except ε Unit :=
  if c then .error e else .ok ()

def okOr (o : Option α) (e : ε) : Except ε α :=
  match o with
  | some a => .ok a
  | none => .error e

variable {f : Unit → Except ε β} {e : ε} {o : Option α} {a : α} {x : Except ε α} {b : β} {ε' : Type}

@[simp] theorem refuse_eq_ok {u : Unit} : refuse c e = .ok u ↔ ¬ c := by
  by_cases h : c <;> simp [refuse, h]

theorem refuse_pos (h : c) : refuse c e = .error e := if_pos h

theorem refuse_neg (h : ¬ c) : refuse c e = .ok () := if_neg h

@[simp] theorem okOr_eq_ok : okOr o e = .ok a ↔ o = some a := by
  cases o <;> simp [okOr]

theorem bind_eq_ok {f : α → Except ε β} : (x >>= f) = .ok b ↔ ∃ a, x = .ok a ∧ f a = .ok b := by
  cases x <;> simp [bind, Except.bind]

/-- A step that returns nothing is a check. -/
theorem unit_bind_eq_ok {x : Except ε Unit} : (x >>= f) = .ok b ↔ x = .ok () ∧ f () = .ok b := by
  cases x <;> simp [bind, Except.bind]

/-- What follows a check that has passed. -/
theorem of_unit_bind {x : Except ε Unit} (h : (x >>= f) = .ok b) : f () = .ok b :=
  (unit_bind_eq_ok.mp h).2

theorem refuse_bind_pos (h : c) : (refuse c e >>= f) = .error e := by
  rw [refuse_pos h]
  rfl

theorem refuse_bind_neg (h : ¬ c) : (refuse c e >>= f) = f () := by
  rw [refuse_neg h]
  rfl

theorem ok_bind {f : α → Except ε β} : ((.ok a : Except ε α) >>= f) = f a := rfl

theorem mapError_eq_ok {f : ε → ε'} : x.mapError f = .ok a ↔ x = .ok a := by
  cases x <;> simp [Except.mapError]

theorem pure_eq_ok {b : α} : (pure a : Except ε α) = .ok b ↔ a = b := by
  simp [pure, Except.pure]

theorem throw_eq_ok {b : α} : (throw e : Except ε α) = .ok b ↔ False := by
  simp [throw, throwThe, MonadExceptOf.throw]

def FailsWith (P : ε → Prop) (x : Except ε α) : Prop := ∀ e, x = .error e → P e

section

variable {P : ε → Prop}

theorem FailsWith.ok (a : α) : FailsWith P (.ok a : Except ε α) := nofun

theorem FailsWith.refuse (h : P e) : FailsWith P (refuse c e) := by
  intro e' he
  by_cases hc : c
  · rw [refuse_pos hc] at he
    cases he
    exact h
  · rw [refuse_neg hc] at he
    cases he

theorem FailsWith.okOr (h : P e) : FailsWith P (okOr o e) := by
  cases o with
  | some a => exact FailsWith.ok a
  | none =>
    intro e' he
    cases he
    exact h

theorem FailsWith.mapError {f : ε' → ε} {x : Except ε' α} (h : ∀ e, P (f e)) :
    FailsWith P (x.mapError f) := by
  cases x with
  | ok a => exact FailsWith.ok a
  | error e =>
    intro e' he
    cases he
    exact h e

theorem FailsWith.bind {f : α → Except ε β} (hx : FailsWith P x) (hf : ∀ a, FailsWith P (f a)) :
    FailsWith P (x >>= f) := by
  cases x with
  | ok a => exact hf a
  | error e => exact fun e' he => hx e' (by cases he; rfl)

theorem FailsWith.foldlM {f : β → α → Except ε β} (hf : ∀ b a, FailsWith P (f b a))
    (as : List α) (b : β) : FailsWith P (as.foldlM f b) := by
  induction as generalizing b with
  | nil => exact FailsWith.ok b
  | cons a as ih =>
    rw [List.foldlM_cons]
    exact (hf b a).bind ih

end

/-- The same reading for a routine that returns the first failed check, or nothing. -/
theorem ite_some_eq_none : (if c then some a else o) = none ↔ ¬ c ∧ o = none := by
  by_cases h : c <;> simp [h]

theorem not_any_iff {p : α → Bool} : ¬ o.any p = true ↔ ∀ a, o = some a → p a = false := by
  cases o <;> simp

end Lib
