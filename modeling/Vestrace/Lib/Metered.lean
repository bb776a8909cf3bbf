import Vestrace.Lib.Bytes

/-!
# Metered decoders — what reading a message asks of the machine

A decoder that reads counts from its input before what they announce can ask for more
than the input is worth. A `Metered` decoder keeps a record of what it asks for.
-/

namespace Lib

open List Except Decoder Nat

variable {n : Nat}

/-- Something a decoder asks of the machine, or stops with. -/
inductive Event where
  | allocate (elements : Nat)
  | rounds (begun : Nat)
  | panic
  deriving DecidableEq

/-- No allocation is for more than `n` elements, no loop begins more than `n + 1` rounds,
and there is no panic. -/
def Event.Within (n : Nat) : Event → Prop
  | allocate elements => elements ≤ n
  | rounds begun => begun ≤ n + 1
  | panic => False

theorem Event.Within.mono {m : Nat} (h : m ≤ n) {event : Event} (hevent : event.Within m) :
    event.Within n := by
  cases event with
  | allocate elements => exact le_trans hevent h
  | rounds begun => exact le_trans hevent (succ_le_succ h)
  | panic => exact hevent

/-- How a run that returns no value ends. -/
inductive Fault (ε : Type) where
  | error (e : ε)
  | panic

structure MeteredRun (ε α : Type) where
  requests : List Event
  outcome : Except (Fault ε) (α × Bytes)

def MeteredRun.Does {ε α : Type} (run : MeteredRun ε α) : Event → Prop
  | .panic => run.outcome = .error .panic
  | event => event ∈ run.requests

def MeteredRun.Bounded {ε α : Type} (run : MeteredRun ε α) (n : Nat) : Prop :=
  ∀ event, run.Does event → event.Within n

/-- A decoder with a record of the elements its allocations are for and of the rounds its loops
began. It may also stop with a panic. -/
def Metered (ε α : Type) := Bytes → MeteredRun ε α

namespace Metered

variable {ε α β : Type}

instance : Monad (Metered ε) where
  pure a := fun s => ⟨[], .ok (a, s)⟩
  bind x f := fun s =>
    match (x s).outcome with
    | .error e => ⟨(x s).requests, .error e⟩
    | .ok (a, t) => ⟨(x s).requests ++ (f a t).requests, (f a t).outcome⟩

def lift (d : Decoder ε α) : Metered ε α := fun s => ⟨[], (d s).mapError Fault.error⟩

def record (event : Event) : Metered ε Unit := fun s => ⟨[event], .ok ((), s)⟩

def recordIf (c : Prop) [Decidable c] (event : Event) : Metered ε Unit :=
  if c then record event else pure ()

/-- `Vec::with_capacity` for elements of `size` bytes: a request of more than `limit`
bytes panics. -/
def withCapacity (size limit elements : Nat) : Metered ε Unit := fun s =>
  ⟨[.allocate elements], if size * elements ≤ limit then .ok ((), s) else .error .panic⟩

/-- The rounds of a loop, and how many were begun. -/
def runRounds : Nat → (α → Metered ε α) → α → Bytes → Nat × MeteredRun ε α
  | 0, _, a, s => (0, ⟨[], .ok (a, s)⟩)
  | n + 1, f, a, s =>
    match (f a s).outcome with
    | .error e => (1, ⟨(f a s).requests, .error e⟩)
    | .ok (b, t) =>
      ((runRounds n f b t).1 + 1,
        ⟨(f a s).requests ++ (runRounds n f b t).2.requests, (runRounds n f b t).2.outcome⟩)

def times (n : Nat) (f : α → Metered ε α) (a : α) : Metered ε α := fun s =>
  ⟨(runRounds n f a s).2.requests ++ [.rounds (runRounds n f a s).1], (runRounds n f a s).2.outcome⟩

/-- `xs.iter().any(p)`, which stops at the first hit: how many rounds it begins. -/
def anyRounds {γ : Type} (p : γ → Bool) (xs : List γ) : Nat := min (xs.findIdx p + 1) xs.length

theorem anyRounds_le {γ : Type} (p : γ → Bool) (xs : List γ) : anyRounds p xs ≤ xs.length :=
  min_le_right _ _

def nested {ε' : Type} (m : Metered ε α) (replace : ε → ε') (bytes : Bytes) :
    Metered ε' α := fun s =>
  ⟨(m bytes).requests,
    match (m bytes).outcome with
    | .error (.error e) => .error (.error (replace e))
    | .error .panic => .error .panic
    | .ok (a, _) => .ok (a, s)⟩

/-! ## What a run does -/

variable {s t : Bytes} {event : Event}

variable {f : α → Metered ε β} {x : Metered ε α}

theorem bind_apply : (x >>= f) s = match (x s).outcome with
      | .error e => ⟨(x s).requests, .error e⟩
      | .ok (a, t) => ⟨(x s).requests ++ (f a t).requests, (f a t).outcome⟩ := rfl

variable {d : Decoder ε α} {a : α} {u : Unit} {size limit elements : Nat} {asked : Event}
  {m : Metered ε α} {c : Prop} {ε' : Type}

theorem lift_eq_ok : (lift d s).outcome = .ok (a, t) ↔ d s = .ok (a, t) := mapError_eq_ok

theorem record_eq_ok : ((record event : Metered ε Unit) s).outcome = .ok (u, t) ↔ s = t := by
  show (ok ((), s) : Except (Fault ε) (Unit × Bytes)) = .ok (u, t) ↔ _
  rw [ok.injEq, Prod.mk.injEq]
  exact and_iff_right rfl

theorem withCapacity_eq_ok :
    ((withCapacity size limit elements : Metered ε Unit) s).outcome = .ok (u, t) ↔
      size * elements ≤ limit ∧ s = t := by
  unfold withCapacity
  by_cases h : size * elements ≤ limit
  · simp [h]
  · simp [h]

theorem does_bind : ((x >>= f) s).Does event ↔
      (x s).Does event ∨ ∃ a r, (x s).outcome = .ok (a, r) ∧ (f a r).Does event := by
  rw [bind_apply]
  rcases hx : (x s).outcome with e | ⟨a, r⟩
  · cases event <;> simp [MeteredRun.Does, hx]
  · cases event <;> simp [MeteredRun.Does, hx]

theorem does_pure : ¬ ((pure a : Metered ε α) s).Does event := by
  intro h
  cases event with
  | allocate | rounds => exact not_mem_nil h
  | panic => cases (show (ok (a, s) : Except (Fault ε) _) = .error .panic from h)

theorem does_lift : ¬ (lift d s).Does event := by
  intro h
  cases event with
  | allocate | rounds => exact not_mem_nil h
  | panic =>
    change (d s).mapError Fault.error = .error .panic at h
    cases hd : d s with
    | error | ok =>
      rw [hd] at h
      cases h

theorem eq_of_does_record (h : ((record asked : Metered ε Unit) s).Does event) : event = asked := by
  cases event with
  | allocate | rounds => exact mem_singleton.mp h
  | panic => cases (show (ok ((), s) : Except (Fault ε) _) = .error .panic from h)

theorem eq_of_does_recordIf [Decidable c] (h : ((recordIf c asked : Metered ε Unit) s).Does event) :
    event = asked := by
  unfold recordIf at h
  split at h
  · exact eq_of_does_record h
  · exact absurd h does_pure

theorem does_withCapacity : ((withCapacity size limit elements : Metered ε Unit) s).Does event ↔
      event = .allocate elements ∨ event = .panic ∧ limit < size * elements := by
  unfold withCapacity
  cases event with
  | allocate | rounds => simp [MeteredRun.Does]
  | panic =>
    by_cases h : size * elements ≤ limit
    · simp [MeteredRun.Does, h]
    · simp [MeteredRun.Does, h, Nat.lt_of_not_le h]

theorem does_nested {bytes : Bytes} {replace : ε → ε'} :
    (nested m replace bytes s).Does event ↔ (m bytes).Does event := by
  unfold nested
  cases event with
  | allocate | rounds => exact Iff.rfl
  | panic =>
    rcases h : (m bytes).outcome with (e | _) | ⟨a, r⟩
    · simp [MeteredRun.Does, h]
    · simp [MeteredRun.Does, h]
    · simp [MeteredRun.Does, h]

/-! ## Loops -/

/-- A round that reads one item, if what the loop carries admits it. -/
def ReadsItem (f : α → Metered ε α) (ok : α → β → Prop) (put : α → β → α)
    (encode : β → Bytes) : Prop :=
  ∀ a b s t, (f a s).outcome = .ok (b, t) ↔ ∃ x, ok a x ∧ b = put a x ∧ s = encode x ++ t

section

variable {f : α → Metered ε α} {ok : α → β → Prop} {put : α → β → α} {encode : β → Bytes}

theorem runRounds_error {e : Fault ε} (h : (f a s).outcome = .error e) :
    runRounds (n + 1) f a s = (1, f a s) := by
  rw [runRounds, h]
  show (1, (⟨(f a s).requests, .error e⟩ : MeteredRun ε α)) = (1, f a s)
  rw [← h]

theorem runRounds_ok {b : α} (h : (f a s).outcome = .ok (b, t)) :
    runRounds (n + 1) f a s = ((runRounds n f b t).1 + 1,
      ⟨(f a s).requests ++ (runRounds n f b t).2.requests, (runRounds n f b t).2.outcome⟩) := by
  rw [runRounds, h]

theorem ReadsItem.does_runRounds (hf : ReadsItem f ok put encode) :
    (runRounds n f a s).2.Does event ↔
      ∃ xs t, xs.length < n ∧ Decoder.Admits ok put a xs ∧ s = xs.flatMap encode ++ t ∧
        (f (xs.foldl put a) t).Does event := by
  induction n generalizing a s with
  | zero =>
    constructor
    · intro h
      exact absurd h does_pure
    · intro h
      obtain ⟨xs, _, hlen, -⟩ := h
      exact absurd hlen (not_lt_zero _)
  | succ n ih =>
    cases hround : (f a s).outcome with
    | error e =>
      rw [runRounds_error hround]
      constructor
      · intro h
        exact ⟨[], s, succ_pos n, trivial, rfl, h⟩
      · intro h
        obtain ⟨xs, t, -, hxs, hs, hdoes⟩ := h
        cases xs with
        | nil =>
          obtain rfl : s = t := hs
          exact hdoes
        | cons x xs =>
          -- an item that can be read is read
          have hread := (hf a (put a x) s (xs.flatMap encode ++ t)).mpr
            ⟨x, hxs.1, rfl, by rw [hs, flatMap_cons, append_assoc]⟩
          rw [hround] at hread
          cases hread
    | ok result =>
      obtain ⟨b, r⟩ := result
      have hsplit : (runRounds (n + 1) f a s).2.Does event ↔
          (f a s).Does event ∨ (runRounds n f b r).2.Does event := by
        rw [runRounds_ok hround]
        cases event <;> simp [MeteredRun.Does, hround]
      rw [hsplit, ih]
      constructor
      · intro h
        rcases h with h | ⟨xs, t, hlen, hxs, hs, hdoes⟩
        · exact ⟨[], s, succ_pos n, trivial, rfl, h⟩
        · obtain ⟨x, hx, rfl, rfl⟩ := (hf a b s r).mp hround
          exact ⟨x :: xs, t, succ_lt_succ hlen, ⟨hx, hxs⟩,
            by rw [hs, flatMap_cons, append_assoc], hdoes⟩
      · intro h
        obtain ⟨xs, t, hlen, hxs, hs, hdoes⟩ := h
        cases xs with
        | nil =>
          obtain rfl : s = t := hs
          exact .inl hdoes
        | cons x xs =>
          have hread := (hf a (put a x) s (xs.flatMap encode ++ t)).mpr
            ⟨x, hxs.1, rfl, by rw [hs, flatMap_cons, append_assoc]⟩
          obtain ⟨rfl, rfl⟩ := Prod.mk.inj (Except.ok.inj (hround.symm.trans hread))
          exact .inr ⟨xs, t, lt_of_succ_lt_succ hlen, hxs.2, rfl, hdoes⟩

theorem ReadsItem.does_times (hf : ReadsItem f ok put encode) :
    (times n f a s).Does event ↔ event = .rounds (runRounds n f a s).1 ∨
      ∃ xs t, xs.length < n ∧ Decoder.Admits ok put a xs ∧ s = xs.flatMap encode ++ t ∧
        (f (xs.foldl put a) t).Does event := by
  rw [← hf.does_runRounds]
  unfold times
  cases event with
  | allocate | panic => simp [MeteredRun.Does]
  | rounds begun => simp [MeteredRun.Does, or_comm]

/-- Every round but the last leaves fewer bytes than it found. -/
theorem ReadsItem.rounds_le (hf : ReadsItem f ok put encode) (hpos : ∀ x, 0 < (encode x).length)
    (n : Nat) (a : α) (s : Bytes) : (runRounds n f a s).1 ≤ s.length + 1 := by
  induction n generalizing a s with
  | zero => exact zero_le _
  | succ n ih =>
    cases hround : (f a s).outcome with
    | error e =>
      rw [runRounds_error hround]
      exact le_add_left 1 _
    | ok result =>
      obtain ⟨b, r⟩ := result
      obtain ⟨x, -, -, rfl⟩ := (hf a b s r).mp hround
      have hx := hpos x
      have hrest := ih b r
      rw [runRounds_ok hround, length_append]
      omega

/-- All a loop of plain rounds does is begin them, and at most one more than there are
bytes. -/
theorem ReadsItem.does_times_lift {d : α → Decoder ε α} (hd : Decoder.ReadsItem d ok put encode)
    (hpos : ∀ x, 0 < (encode x).length) (h : (times n (fun a => lift (d a)) a s).Does event) :
    event.Within s.length := by
  have hreads : ReadsItem (fun a => lift (d a)) ok put encode :=
    fun a b s t => lift_eq_ok.trans (hd a b s t)
  rcases hreads.does_times.mp h with rfl | ⟨_, _, _, _, _, hround⟩
  · exact hreads.rounds_le hpos n a s
  · exact absurd hround does_lift

end

/-! ## The decoder without the meter -/

def Erases (m : Metered ε α) (d : Decoder ε α) : Prop :=
  ∀ s, (m s).outcome = .error .panic ∨ (m s).outcome = (d s).mapError Fault.error

/-- A metered run returns what the decoder returns, if it does not panic. -/
theorem Erases.eq_ok_iff (h : Erases m d) :
    (m s).outcome = .ok (a, t) ↔ d s = .ok (a, t) ∧ ¬ (m s).Does .panic := by
  show _ ↔ _ ∧ ¬ (m s).outcome = .error .panic
  rcases h s with h | h
  · simp [h]
  · rw [h, mapError_eq_ok]
    exact (and_iff_left_of_imp fun hd => by simp [hd, Except.mapError]).symm

theorem Erases.lift (d : Decoder ε α) : Erases (lift d) d := fun _ => Or.inr rfl

theorem Erases.pure (a : α) : Erases (Pure.pure a : Metered ε α) (Pure.pure a) :=
  fun _ => .inr rfl

theorem Erases.bind {k : α → Decoder ε β} (hx : Erases x d) (hf : ∀ a, Erases (f a) (k a)) :
    Erases (x >>= f) (d >>= k) := by
  intro s
  have hdecoder : (d >>= k) s = (d s >>= fun result => k result.1 result.2) := rfl
  rw [bind_apply, hdecoder]
  rcases hx s with h | h
  · rw [h]
    exact .inl rfl
  · cases hd : d s with
    | error e =>
      rw [h, hd]
      exact .inr rfl
    | ok result =>
      rw [h, hd]
      exact hf result.1 result.2

theorem Erases.check_bind {x : Except ε α} {g : α → Except ε β}
    (hf : ∀ a, Erases (f a) (check (g a))) :
    Erases (Metered.lift (check x) >>= f) (check (x >>= g)) := by
  have hcheck : check (x >>= g) = check x >>= fun a => check (g a) := by
    cases x with
    | error | ok => rfl
  rw [hcheck]
  exact .bind (.lift _) hf

/-- A request leaves no trace in the decoder. -/
theorem Erases.record_bind {f : Unit → Metered ε α} (event : Event) (hf : Erases (f ()) d) :
    Erases (record event >>= f) d := hf

theorem Erases.recordIf_bind [Decidable c] {f : Unit → Metered ε α} (event : Event)
    (hf : Erases (f ()) d) : Erases (recordIf c event >>= f) d := by
  unfold recordIf
  split
  · exact hf
  · exact hf

theorem Erases.withCapacity_bind {f : Unit → Metered ε α} (size limit elements : Nat)
    (hf : Erases (f ()) d) : Erases (withCapacity size limit elements >>= f) d := by
  intro s
  rw [bind_apply]
  by_cases h : size * elements ≤ limit
  · simp only [withCapacity, if_pos h]
    exact hf s
  · exact .inl (by simp only [withCapacity, if_neg h])

theorem Erases.nested (h : Erases m d) (replace : ε → ε') (bytes : Bytes) :
    Erases (nested m replace bytes)
      (check (((d bytes).map Prod.fst).mapError replace)) := by
  intro s
  unfold Metered.nested
  rcases h bytes with hm | hm
  · exact .inl (by rw [hm])
  · rw [hm]
    cases d bytes with
    | error | ok => exact .inr rfl

theorem Erases.times {f : α → Metered ε α} {d : α → Decoder ε α} (hf : ∀ a, Erases (f a) (d a))
    (n : Nat) (a : α) : Erases (times n f a) (Decoder.times n d a) := by
  intro s
  show (runRounds n f a s).2.outcome = _ ∨ (runRounds n f a s).2.outcome = _
  induction n generalizing a s with
  | zero => exact .inr rfl
  | succ n ih =>
    have hdecoder : Decoder.times (n + 1) d a s =
        (d a s >>= fun result => Decoder.times n d result.1 result.2) := rfl
    rw [hdecoder]
    rcases hf a s with h | h
    · rw [runRounds_error h]
      exact .inl h
    · cases hd : d a s with
      | error e =>
        rw [hd] at h
        rw [runRounds_error h]
        exact .inr h
      | ok result =>
        rw [hd] at h
        rw [runRounds_ok h]
        exact ih result.1 result.2

end Metered

end Lib
