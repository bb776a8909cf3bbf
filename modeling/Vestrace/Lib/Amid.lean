import Vestrace.Lib.Ports

/-!
# A program among others

`Prog.run` is what a program does alone. Here others act between its calls. They may do
anything to the state, depending on everything they have seen.

A program whose calls are separate transactions can fail halfway. It is `Atomic` if it cannot.
-/

namespace Lib

/-- What happens next: the program makes its next call, or somebody else acts. -/
abbrev Turn (σ τ : Type) := Option (σ × τ → σ × τ)

def without {σ τ : Type} (m : σ × τ) (turns : List (Turn σ τ)) : σ × τ :=
  turns.foldl (fun m turn => turn.elim m fun act => act m) m

namespace Prog

variable {σ τ ε α : Type} {P : Ports σ}

def takeTurn : Prog P ε α × (σ × τ) → Turn σ τ → Prog P ε α × (σ × τ)
  | (p, m), some act => (p, act m)
  | (ret x, m), none => (ret x, m)
  | (call c next, m), none => (next (P.exec c m.1).1, ((P.exec c m.1).2, m.2))

def amid (p : Prog P ε α) (m : σ × τ) (turns : List (Turn σ τ)) : Prog P ε α × (σ × τ) :=
  turns.foldl takeTurn (p, m)

variable (Allowed : σ → P.Call → Prop)

def Within : Prog P ε α × (σ × τ) → List (Turn σ τ) → Prop
  | _, [] => True
  | now, turn :: turns =>
    (turn = none → ∀ c next, now.1 = call c next → Allowed now.2.1 c) ∧
      Within (takeTurn now turn) turns

/-- From here on the program does not fail, whatever others do. -/
def Sure : Prog P ε α → Prop
  | ret x => ∃ a, x = .ok a
  | call c next => ∀ s, Allowed s c → Sure (next (P.exec c s).1)

/-- The program does not fail once it has changed anything. -/
def Atomic : Prog P ε α → Prop
  | ret _ => True
  | call c next => ∀ s, Allowed s c →
      ((P.exec c s).2 = s ∧ Atomic (next (P.exec c s).1)) ∨ Sure Allowed (next (P.exec c s).1)

variable {Allowed} {p : Prog P ε α} {m m' : σ × τ} {turns : List (Turn σ τ)}

theorem Sure.amid {x : Except ε α} (h : Sure Allowed p) (hwithin : Within Allowed (p, m) turns)
    (hamid : p.amid m turns = (ret x, m')) : ∃ a, x = .ok a := by
  induction turns generalizing p m with
  | nil =>
    cases hamid
    exact h
  | cons turn turns ih =>
    obtain ⟨hallowed, hrest⟩ := hwithin
    cases turn with
    | some act => exact ih h hrest hamid
    | none =>
      cases p with
      | ret y => exact ih h hrest hamid
      | call c next => exact ih (h m.1 (hallowed rfl c next rfl)) hrest hamid

/-- **A failed run of an atomic program has no effect**: the state, and all that others know,
are what they would be without it. -/
theorem Atomic.failed {e : ε} (h : Atomic Allowed p) (hwithin : Within Allowed (p, m) turns)
    (hamid : p.amid m turns = (ret (.error e), m')) : m' = without m turns := by
  induction turns generalizing p m with
  | nil =>
    cases hamid
    rfl
  | cons turn turns ih =>
    obtain ⟨hallowed, hrest⟩ := hwithin
    cases turn with
    | some act => exact ih h hrest hamid
    | none =>
      cases p with
      | ret y => exact ih h hrest hamid
      | call c next =>
        rcases h m.1 (hallowed rfl c next rfl) with ⟨hsame, hatomic⟩ | hsure
        · have hstate : ((P.exec c m.1).2, m.2) = m := by rw [hsame]
          have hamid' : (next (P.exec c m.1).1).amid ((P.exec c m.1).2, m.2) turns =
            (ret (.error e), m') := hamid
          rw [takeTurn, hstate] at hrest
          rw [hstate] at hamid'
          exact ih hatomic hrest hamid'
        · obtain ⟨a, ha⟩ := hsure.amid hrest hamid
          cases ha

end Prog

end Lib
