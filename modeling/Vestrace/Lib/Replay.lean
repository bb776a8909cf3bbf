import Mathlib.Data.List.Range

/-!
# Replay — folding a stream of events into a state

An event-sourced aggregate is a function `apply` that takes the state so far (none
before the first event) and one event, and may refuse. Replaying a stream folds it.
-/

namespace Lib

open List

variable {first : Nat}

variable {σ ε Err : Type} {apply : Option σ → ε → Except Err σ} {events xs : List ε}
  {state final : Option σ} {event : ε}

def replayFrom (apply : Option σ → ε → Except Err σ) : Option σ → List ε → Except Err (Option σ)
  | state, [] => .ok state
  | state, event :: events =>
    match apply state event with
    | .error e => .error e
    | .ok state' => replayFrom apply (some state') events

@[simp] theorem replayFrom_nil (state : Option σ) : replayFrom apply state [] = .ok state := rfl

theorem replayFrom_append {mid : Option σ} (h : replayFrom apply state xs = .ok mid) (ys : List ε) :
    replayFrom apply state (xs ++ ys) = replayFrom apply mid ys := by
  induction xs generalizing state with
  | nil =>
    cases h
    rfl
  | cons x xs ih =>
    rw [cons_append, replayFrom]
    rw [replayFrom] at h
    cases hx : apply state x with
    | error e =>
      rw [hx] at h
      cases h
    | ok s =>
      rw [hx] at h
      exact ih h

theorem replayFrom_append_ok {ys : List ε} (h : replayFrom apply state (xs ++ ys) = .ok final) :
    ∃ mid, replayFrom apply state xs = .ok mid ∧ replayFrom apply mid ys = .ok final := by
  induction xs generalizing state with
  | nil => exact ⟨state, rfl, h⟩
  | cons x xs ih =>
    rw [cons_append, replayFrom] at h
    rw [replayFrom]
    cases hx : apply state x with
    | error e =>
      rw [hx] at h
      cases h
    | ok s =>
      rw [hx] at h
      exact ih h

theorem replayFrom_singleton : replayFrom apply state [event] = .ok final ↔
      ∃ s, apply state event = .ok s ∧ final = some s := by
  rw [replayFrom]
  cases apply state event with
  | error e => simp
  | ok s => simp [eq_comm]

/-- Only the empty stream leaves no state. -/
theorem replayFrom_none_eq_none (h : replayFrom apply none events = .ok none) : events = [] := by
  induction events using reverseRecOn with
  | nil => rfl
  | append_singleton events event ih =>
    obtain ⟨mid, -, hlast⟩ := replayFrom_append_ok h
    obtain ⟨s, -, hnone⟩ := replayFrom_singleton.mp hlast
    cases hnone

/-- **The replay rule.** What holds before the first event and is kept by every
accepted one holds after every accepted stream. -/
theorem replayFrom_induction {motive : List ε → Option σ → Prop} (init : motive [] none)
    (step : ∀ events state event state', replayFrom apply none events = .ok state →
      motive events state → apply state event = .ok state' →
      motive (events ++ [event]) (some state')) (h : replayFrom apply none events = .ok state) :
    motive events state := by
  induction events using reverseRecOn generalizing state with
  | nil =>
    cases h
    exact init
  | append_singleton events event ih =>
    obtain ⟨mid, hmid, hlast⟩ := replayFrom_append_ok h
    obtain ⟨s, hs, rfl⟩ := replayFrom_singleton.mp hlast
    exact step events mid event s hmid (ih hmid) hs

/-- The loop that carries a state rather than an option of one: the same fold. -/
theorem foldlM_eq_ok {Err' : Type} {g : Err → Err'} {s t : σ} :
    events.foldlM (fun s event => (apply (some s) event).mapError g) s = .ok t ↔
      replayFrom apply (some s) events = .ok (some t) := by
  induction events generalizing s with
  | nil => simp [pure, Except.pure]
  | cons event events ih =>
    rw [foldlM_cons, replayFrom]
    cases happ : apply (some s) event with
    | error e => exact iff_of_false nofun nofun
    | ok s' => exact ih

/-! ## Numbered streams

A log whose entries carry their own position. Cutting such a log by position and
cutting it by the number its entries carry is the same cut. -/

variable {num : ε → Nat}

def Numbered (num : ε → Nat) (first : Nat) (events : List ε) : Prop :=
  events.map num = List.range' first events.length

theorem numbered_cons : Numbered num first (event :: events) ↔
      num event = first ∧ Numbered num (first + 1) events := by
  simp [Numbered, range'_succ]

section

variable (h : Numbered num first events)

include h

theorem Numbered.take (n : Nat) : Numbered num first (events.take n) := by
  induction events generalizing first n with
  | nil => simpa using h
  | cons event events ih =>
    obtain ⟨hnum, htail⟩ := numbered_cons.mp h
    cases n with
    | zero => rfl
    | succ n => exact numbered_cons.mpr ⟨hnum, ih htail n⟩

theorem Numbered.snoc (hnum : num event = first + events.length) :
    Numbered num first (events ++ [event]) := by
  rw [Numbered, map_append, h, length_append, length_singleton, range'_1_concat]
  simp [hnum]

/-- The numbers still free are the ones past the end. -/
theorem Numbered.free_iff {n : Nat} (hn : first ≤ n) :
    (∀ event ∈ events, num event ≠ n) ↔ first + events.length ≤ n := by
  have hmem : (∃ event ∈ events, num event = n) ↔ first ≤ n ∧ n < first + events.length := by
    rw [← mem_range'_1, ← h, mem_map]
  constructor
  · intro hfree
    by_contra hlt
    obtain ⟨event, hevent, hnum⟩ := hmem.mpr ⟨hn, by omega⟩
    exact hfree event hevent hnum
  · intro hle event hevent hnum
    have := (hmem.mp ⟨event, hevent, hnum⟩).2
    omega

/-- The events up to a number and those past it are the two parts of the log cut there. -/
theorem Numbered.filter_cut (n : Nat) :
    events.filter (fun e => num e ≤ n) = events.take (n + 1 - first) ∧
      events.filter (fun e => n < num e) = events.drop (n + 1 - first) := by
  induction events generalizing first with
  | nil => simp
  | cons event events ih =>
    obtain ⟨hnum, htail⟩ := numbered_cons.mp h
    obtain ⟨hle, hlt⟩ := ih htail
    rw [filter_cons, filter_cons, hle, hlt, hnum]
    by_cases hfirst : first ≤ n
    · have hcount : n + 1 - first = (n + 1 - (first + 1)) + 1 := by omega
      simp [hcount, hfirst, Nat.not_lt.mpr hfirst]
    · have hcount : n + 1 - (first + 1) = 0 := by omega
      have hzero : n + 1 - first = 0 := by omega
      simp [hcount, hzero, hfirst, Nat.not_le.mp hfirst]

end

/-- A log cut at `n`, cut again at `m`. -/
theorem take_append_drop_take (events : List ε) {m n : Nat} (h : m ≤ n) :
    events.take m ++ (events.take n).drop m = events.take n := by
  have hm : events.take m = (events.take n).take m := by rw [take_take, min_eq_left h]
  rw [hm, take_append_drop]

end Lib
