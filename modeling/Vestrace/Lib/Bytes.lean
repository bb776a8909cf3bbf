import Mathlib.Tactic.Ring
import Vestrace.Lib.Guard

/-!
# Bytes — big-endian words, length-delimited fields, and reading them back

A canonical encoding is a concatenation of fixed-width big-endian words and of
fields preceded by their length. A `Decoder` is a cursor over the bytes that are left.
-/

namespace Lib

open List Nat Except

abbrev Bytes := List UInt8

/-- `to_be_bytes`: the `width` low bytes of a number, most significant first. -/
def beBytes : Nat → Nat → Bytes
  | 0, _ => []
  | width + 1, n => UInt8.ofNat (n / 256 ^ width) :: beBytes width n

def ofBeBytes (bytes : Bytes) : Nat := bytes.foldl (fun n b => 256 * n + b.toNat) 0

def field (bytes : Bytes) : Bytes := beBytes 8 bytes.length ++ bytes

def optionalField : Option Bytes → Bytes
  | none => [0]
  | some bytes => 1 :: field bytes

/-! ## Reading -/

/-- A routine that reads from the front of the bytes that are left. -/
abbrev Decoder (ε α : Type) := StateT Bytes (Except ε) α

namespace Decoder

variable {ε α β : Type} {s s' : Bytes}

def take (e : ε) (n : Nat) : Decoder ε Bytes := fun bytes =>
  if n ≤ bytes.length then .ok (bytes.take n, bytes.drop n) else .error e

def uint (e : ε) (width : Nat) : Decoder ε Nat := do return ofBeBytes (← take e width)

def u8 (e : ε) : Decoder ε UInt8 := do return UInt8.ofNat (← uint e 1)

def u32 (e : ε) : Decoder ε UInt32 := do return UInt32.ofNat (← uint e 4)

def u64 (e : ε) : Decoder ε UInt64 := do return UInt64.ofNat (← uint e 8)

def fieldBytes (e : ε) : Decoder ε Bytes := do take e (← uint e 8)

def finish (e : ε) : Decoder ε Unit := fun bytes =>
  if bytes = [] then .ok ((), []) else .error e

def isFinished : Decoder ε Bool := fun bytes => .ok (bytes.isEmpty, bytes)

def check (x : Except ε α) : Decoder ε α := fun bytes => x.map fun a => (a, bytes)

def times : Nat → (α → Decoder ε α) → α → Decoder ε α
  | 0, _, a => pure a
  | n + 1, f, a => do times n f (← f a)

theorem bind_eq_ok {x : Decoder ε α} {f : α → Decoder ε β} {b : β} :
    (x >>= f) s = .ok (b, s') ↔ ∃ a t, x s = .ok (a, t) ∧ f a t = .ok (b, s') := by
  show (x s >>= fun p => f p.1 p.2) = .ok (b, s') ↔ _
  rw [Lib.bind_eq_ok]
  exact Prod.exists

theorem pure_eq_ok {a b : α} : (pure a : Decoder ε α) s = .ok (b, s') ↔ a = b ∧ s = s' := by
  show (ok (a, s) : Except ε (α × Bytes)) = .ok (b, s') ↔ _
  rw [ok.injEq, Prod.mk.injEq]

theorem check_eq_ok {x : Except ε α} {a : α} : check x s = .ok (a, s') ↔ x = .ok a ∧ s = s' := by
  cases x with
  | error | ok => simp [check, Except.map]

end Decoder

/-! ## Reading back what was written -/

@[simp] theorem length_beBytes (width n : Nat) : (beBytes width n).length = width := by
  induction width with
  | zero => rfl
  | succ width ih => rw [beBytes, length_cons, ih]

theorem field_injective {bytes other : Bytes} (h : field bytes = field other) : bytes = other :=
  (append_inj h ((length_beBytes ..).trans (length_beBytes ..).symm)).2

/-- Items that take up room are no more than the bytes they fill. -/
theorem length_le_length_flatMap {α : Type} {f : α → Bytes} (hf : ∀ x, 0 < (f x).length)
    (xs : List α) : xs.length ≤ (xs.flatMap f).length := by
  induction xs with
  | nil => exact zero_le _
  | cons x xs ih =>
    have hx := hf x
    rw [flatMap_cons, length_append, length_cons]
    omega

theorem foldl_ofBeBytes (bytes : Bytes) (n : Nat) :
    bytes.foldl (fun n b => 256 * n + b.toNat) n = n * 256 ^ bytes.length + ofBeBytes bytes := by
  induction bytes generalizing n with
  | nil => simp [ofBeBytes]
  | cons b bytes ih =>
    rw [ofBeBytes, foldl_cons, foldl_cons, ih, ih (256 * 0 + b.toNat), length_cons, pow_succ]
    ring

theorem ofBeBytes_cons (b : UInt8) (bytes : Bytes) :
    ofBeBytes (b :: bytes) = b.toNat * 256 ^ bytes.length + ofBeBytes bytes := by
  rw [ofBeBytes, foldl_cons, foldl_ofBeBytes, mul_zero, zero_add]

theorem ofBeBytes_lt (bytes : Bytes) : ofBeBytes bytes < 256 ^ bytes.length := by
  induction bytes with
  | nil => exact one_pos
  | cons b bytes ih =>
    have hb : b.toNat + 1 ≤ 256 := b.toNat_lt
    rw [ofBeBytes_cons, length_cons, pow_succ, mul_comm (256 ^ _) 256]
    calc b.toNat * 256 ^ bytes.length + ofBeBytes bytes
        < b.toNat * 256 ^ bytes.length + 256 ^ bytes.length := Nat.add_lt_add_left ih _
      _ = (b.toNat + 1) * 256 ^ bytes.length := (succ_mul _ _).symm
      _ ≤ 256 * 256 ^ bytes.length := mul_le_mul_right _ hb

theorem beBytes_add (width k n : Nat) : beBytes width (k * 256 ^ width + n) = beBytes width n := by
  induction width generalizing k with
  | zero => rfl
  | succ width ih =>
    have hsplit : k * 256 ^ (width + 1) + n = k * 256 * 256 ^ width + n := by
      rw [pow_succ]
      ring
    have hpos : 0 < 256 ^ width := Nat.pow_pos (by decide)
    rw [beBytes, beBytes, hsplit, ih]
    congr 1
    rw [add_comm, add_mul_div_right _ _ hpos]
    apply UInt8.toNat_inj.mp
    rw [UInt8.toNat_ofNat', UInt8.toNat_ofNat', add_mul_mod_self_right]

theorem beBytes_ofBeBytes (bytes : Bytes) : beBytes bytes.length (ofBeBytes bytes) = bytes := by
  induction bytes with
  | nil => rfl
  | cons b bytes ih =>
    have hpos : 0 < 256 ^ bytes.length := Nat.pow_pos (by decide)
    rw [ofBeBytes_cons, length_cons, beBytes, beBytes_add, ih, add_comm,
      add_mul_div_right _ _ hpos, div_eq_of_lt (ofBeBytes_lt bytes), zero_add,
      UInt8.ofNat_toNat]

theorem ofBeBytes_beBytes (width n : Nat) : ofBeBytes (beBytes width n) = n % 256 ^ width := by
  induction width with
  | zero => exact (mod_one n).symm
  | succ width ih =>
    have hbyte : (UInt8.ofNat (n / 256 ^ width)).toNat = n / 256 ^ width % 256 :=
      UInt8.toNat_ofNat'
    rw [mod_pow_succ, beBytes, ofBeBytes_cons, length_beBytes, hbyte, ih, add_comm, mul_comm]

variable {width : Nat}

theorem beBytes_injOn {m n : Nat} (hm : m < 256 ^ width) (hn : n < 256 ^ width)
    (h : beBytes width m = beBytes width n) : m = n := by
  have hback := congrArg ofBeBytes h
  rwa [ofBeBytes_beBytes, ofBeBytes_beBytes, mod_eq_of_lt hm, mod_eq_of_lt hn] at hback

namespace Decoder

variable {ε α β : Type} {e : ε} {s t : Bytes} {n : Nat} {bytes : Bytes} {d : Decoder ε α}

theorem take_eq_ok : take e n s = .ok (bytes, t) ↔ bytes.length = n ∧ s = bytes ++ t := by
  unfold take
  constructor
  · intro h
    split_ifs at h with hn
    obtain ⟨rfl, rfl⟩ := Prod.mk.inj (ok.inj h)
    exact ⟨length_take_of_le hn, (take_append_drop n s).symm⟩
  · intro h
    obtain ⟨rfl, rfl⟩ := h
    rw [if_pos (by simp), take_left, drop_left]

theorem uint_eq_ok : uint e width s = .ok (n, t) ↔ n < 256 ^ width ∧ s = beBytes width n ++ t := by
  simp only [uint, bind_eq_ok, take_eq_ok, pure_eq_ok]
  constructor
  · intro h
    obtain ⟨bytes, _, ⟨rfl, rfl⟩, rfl, rfl⟩ := h
    exact ⟨ofBeBytes_lt bytes, by rw [beBytes_ofBeBytes]⟩
  · intro h
    obtain ⟨hlt, rfl⟩ := h
    exact ⟨_, t, ⟨length_beBytes width n, rfl⟩,
      (ofBeBytes_beBytes width n).trans (mod_eq_of_lt hlt), rfl⟩

/-- A word is read as the value of a type that has as many. -/
theorem word_eq_ok {f : Nat → α} {g : α → Nat} {a : α} (hlt : ∀ a, g a < 256 ^ width)
    (hleft : ∀ a, f (g a) = a) (hright : ∀ n, n < 256 ^ width → g (f n) = n) :
    (do return f (← uint e width) : Decoder ε α) s = .ok (a, t) ↔
      s = beBytes width (g a) ++ t := by
  simp only [bind_eq_ok, uint_eq_ok, pure_eq_ok]
  constructor
  · intro h
    obtain ⟨n, _, ⟨hn, rfl⟩, rfl, rfl⟩ := h
    rw [hright n hn]
  · intro h
    exact ⟨g a, t, ⟨hlt a, h⟩, hleft a, rfl⟩

theorem u8_eq_ok {b : UInt8} : u8 e s = .ok (b, t) ↔ s = b :: t := by
  have hbyte : beBytes 1 b.toNat = [b] := by simp [beBytes]
  refine (word_eq_ok (g := UInt8.toNat) UInt8.toNat_lt (fun _ => UInt8.ofNat_toNat)
    fun n hn => UInt8.toNat_ofNat_of_lt' hn).trans ?_
  rw [hbyte, singleton_append]

theorem u32_eq_ok {n : UInt32} : u32 e s = .ok (n, t) ↔ s = beBytes 4 n.toNat ++ t :=
  word_eq_ok UInt32.toNat_lt (fun _ => UInt32.ofNat_toNat) fun _ hn => UInt32.toNat_ofNat_of_lt' hn

theorem u64_eq_ok {n : UInt64} : u64 e s = .ok (n, t) ↔ s = beBytes 8 n.toNat ++ t :=
  word_eq_ok UInt64.toNat_lt (fun _ => UInt64.ofNat_toNat) fun _ hn => UInt64.toNat_ofNat_of_lt' hn

theorem fieldBytes_eq_ok :
    fieldBytes e s = .ok (bytes, t) ↔ bytes.length < 256 ^ 8 ∧ s = field bytes ++ t := by
  simp only [fieldBytes, bind_eq_ok, uint_eq_ok, take_eq_ok, field]
  constructor
  · intro h
    obtain ⟨n, _, ⟨hlt, rfl⟩, rfl, rfl⟩ := h
    exact ⟨hlt, (append_assoc ..).symm⟩
  · intro h
    obtain ⟨hlt, rfl⟩ := h
    exact ⟨_, _, ⟨hlt, append_assoc ..⟩, rfl, rfl⟩

/-- Of what a decoder reads exactly, nothing is the beginning of another. -/
theorem append_inj {encode : α → Bytes} (hd : ∀ {a s t}, d s = .ok (a, t) ↔ s = encode a ++ t)
    {a b : α} (h : encode a ++ s = encode b ++ t) : a = b ∧ s = t := by
  have hread : d (encode a ++ s) = .ok (a, s) := hd.mpr rfl
  rw [hd.mpr h] at hread
  obtain ⟨rfl, rfl⟩ := Prod.mk.inj (ok.inj hread)
  exact ⟨rfl, rfl⟩

/-- Items taken in one after another, each of them admitted by what came of those before. -/
def Admits (ok : α → β → Prop) (put : α → β → α) : α → List β → Prop
  | _, [] => True
  | a, x :: xs => ok a x ∧ Admits ok put (put a x) xs

/-- A round of a loop: it reads one item, if what the loop carries admits it. -/
def ReadsItem (f : α → Decoder ε α) (ok : α → β → Prop) (put : α → β → α)
    (encode : β → Bytes) : Prop :=
  ∀ a b s t, f a s = .ok (b, t) ↔ ∃ x, ok a x ∧ b = put a x ∧ s = encode x ++ t

/-- If a round reads one item, the loop reads a list of them. -/
theorem ReadsItem.times_eq_ok {f : α → Decoder ε α} {ok : α → β → Prop} {put : α → β → α}
    {encode : β → Bytes} (hf : ReadsItem f ok put encode) {a b : α} :
    times n f a s = .ok (b, t) ↔ ∃ xs, xs.length = n ∧ Admits ok put a xs ∧ b = xs.foldl put a ∧
        s = xs.flatMap encode ++ t := by
  induction n generalizing a s with
  | zero =>
    rw [times, pure_eq_ok]
    constructor
    · intro h
      obtain ⟨rfl, rfl⟩ := h
      exact ⟨[], rfl, trivial, rfl, rfl⟩
    · intro h
      obtain ⟨xs, hlen, -, rfl, rfl⟩ := h
      obtain rfl := length_eq_zero_iff.mp hlen
      exact ⟨rfl, rfl⟩
  | succ n ih =>
    simp only [times, bind_eq_ok, hf _ _ _ _, ih]
    constructor
    · intro h
      obtain ⟨_, _, ⟨x, hx, rfl, rfl⟩, xs, hlen, hxs, rfl, rfl⟩ := h
      exact ⟨x :: xs, congrArg (· + 1) hlen, ⟨hx, hxs⟩, rfl, (append_assoc ..).symm⟩
    · intro h
      obtain ⟨xs, hlen, hxs, rfl, rfl⟩ := h
      obtain ⟨x, xs, rfl⟩ := exists_cons_of_length_eq_add_one hlen
      exact ⟨_, _, ⟨x, hxs.1, rfl, append_assoc ..⟩, xs, Nat.succ.inj hlen, hxs.2, rfl, rfl⟩

def whole (d : Decoder ε α) (bytes : Bytes) : Except ε α := (d bytes).map Prod.fst

theorem whole_eq_ok {a : α} : d.whole s = .ok a ↔ ∃ t, d s = .ok (a, t) := by
  unfold whole
  cases d s with
  | error e => simp [Except.map]
  | ok result => simp [Except.map, Prod.ext_iff]

theorem finish_eq_ok {u : Unit} : finish e s = .ok (u, t) ↔ s = [] ∧ t = [] := by
  unfold finish
  split_ifs with hnil
  · simp [hnil, eq_comm]
  · simp [hnil]

end Decoder

theorem field_append_inj {a b s t : Bytes} (ha : a.length < 256 ^ 8) (hb : b.length < 256 ^ 8)
    (h : field a ++ s = field b ++ t) : a = b ∧ s = t := by
  have hread : Decoder.fieldBytes () (field a ++ s) = .ok (a, s) :=
    Decoder.fieldBytes_eq_ok.mpr ⟨ha, rfl⟩
  rw [Decoder.fieldBytes_eq_ok.mpr ⟨hb, h⟩] at hread
  obtain ⟨rfl, rfl⟩ := Prod.mk.inj (ok.inj hread)
  exact ⟨rfl, rfl⟩

theorem beBytes_append_inj {m n : Nat} {s t : Bytes} (hm : m < 256 ^ width) (hn : n < 256 ^ width)
    (h : beBytes width m ++ s = beBytes width n ++ t) : m = n ∧ s = t := by
  obtain ⟨hbytes, rfl⟩ := append_inj h (by rw [length_beBytes, length_beBytes])
  exact ⟨beBytes_injOn hm hn hbytes, rfl⟩

/-- As many items one after another are told apart if two of them are. -/
theorem flatMap_append_inj {α : Type} {P : α → Prop} {encode : α → Bytes}
    (hinj : ∀ x y s t, P x → P y → encode x ++ s = encode y ++ t → x = y ∧ s = t)
    {xs ys : List α} (hlen : xs.length = ys.length) (hxs : ∀ x ∈ xs, P x) (hys : ∀ y ∈ ys, P y)
    {s t : Bytes} (h : xs.flatMap encode ++ s = ys.flatMap encode ++ t) : xs = ys ∧ s = t := by
  induction xs generalizing ys with
  | nil =>
    obtain rfl := length_eq_zero_iff.mp hlen.symm
    exact ⟨rfl, h⟩
  | cons x xs ih =>
    obtain ⟨y, ys, rfl⟩ := exists_cons_of_length_eq_add_one hlen.symm
    rw [flatMap_cons, flatMap_cons, append_assoc, append_assoc] at h
    obtain ⟨rfl, hrest⟩ := hinj x y _ _ (hxs x mem_cons_self) (hys y mem_cons_self) h
    obtain ⟨rfl, rfl⟩ := ih (Nat.succ.inj hlen) (fun z hz => hxs z (mem_cons_of_mem _ hz))
      (fun z hz => hys z (mem_cons_of_mem _ hz)) hrest
    exact ⟨rfl, rfl⟩

end Lib
