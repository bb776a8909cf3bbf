import Mathlib.Algebra.BigOperators.Group.Finset.Basic
import Mathlib.Data.List.AList
import Mathlib.Data.UInt

/-!
# Association lists — a hash map as an `AList`, and sums over it

A `HashMap` keyed by `κ` is Mathlib's `AList` here. This module adds what
programs do with one beyond `lookup` and `insert` — change an entry in place,
sum over the values — and reads such sums as `Finset` sums over the keys.
-/

namespace Lib.Assoc

open List

variable {κ β : Type} [DecidableEq κ]

def values (m : AList fun _ : κ => β) : List β := m.entries.map Sigma.snd

/-- `HashMap::get_mut` followed by an assignment. -/
def modify (k : κ) (f : β → β) (m : AList fun _ : κ => β) : AList fun _ : κ => β :=
  match m.lookup k with
  | some v => m.insert k (f v)
  | none => m

theorem mem_values {m : AList fun _ : κ => β} {v : β} :
    v ∈ values m ↔ ∃ k, m.lookup k = some v := by
  rw [values, mem_map]
  constructor
  · rintro ⟨⟨k, v'⟩, he, rfl⟩
    exact ⟨k, AList.mem_lookup_iff.mpr he⟩
  · rintro ⟨k, hk⟩
    exact ⟨⟨k, v⟩, AList.mem_lookup_iff.mp hk, rfl⟩

theorem sum_map_filter (p : β → Bool) (f : β → ℕ) (l : List β) :
    ((l.filter p).map f).sum = (l.map fun v => if p v then f v else 0).sum := by
  induction l with
  | nil => rfl
  | cons v l ih =>
    by_cases hv : p v = true
    · rw [filter_cons_of_pos hv, map_cons, map_cons, sum_cons, sum_cons, ih, if_pos hv]
    · rw [filter_cons_of_neg hv, map_cons, sum_cons, ih, if_neg hv, Nat.zero_add]

theorem sum_values_filter (m : AList fun _ : κ => β) (p : β → Bool) (f : β → ℕ) :
    (((values m).filter p).map f).sum =
      ∑ k ∈ m.keys.toFinset with (m.lookup k).any p = true, (m.lookup k).elim 0 f := by
  rw [Finset.sum_filter, sum_toFinset _ m.keys_nodup, sum_map_filter, values, map_map,
    AList.keys, keys, map_map]
  refine congrArg sum (map_congr_left fun e he => ?_)
  have hlook : m.lookup e.1 = some e.2 := AList.mem_lookup_iff.mpr he
  simp [hlook]

theorem sum_values (m : AList fun _ : κ => β) (f : β → ℕ) :
    ((values m).map f).sum = ∑ k ∈ m.keys.toFinset, (m.lookup k).elim 0 f := by
  rw [sum_toFinset _ m.keys_nodup, values, map_map, AList.keys, keys, map_map]
  refine congrArg sum (map_congr_left fun e he => ?_)
  have hlook : m.lookup e.1 = some e.2 := AList.mem_lookup_iff.mpr he
  simp [hlook]

/-- A wrapping sum is the true one when the true one fits. -/
theorem toNat_sum_of_lt {l : List UInt64} (h : (l.map UInt64.toNat).sum < 2 ^ 64) :
    l.sum.toNat = (l.map UInt64.toNat).sum := by
  induction l with
  | nil => rfl
  | cons x l ih =>
    rw [map_cons, sum_cons] at h
    have hl := ih (by omega)
    rw [sum_cons, map_cons, sum_cons, UInt64.toNat_add, hl]
    exact Nat.mod_eq_of_lt h

end Lib.Assoc
