import Mathlib.Data.List.Sort

/-!
# Bounded selection by insertion

To keep the `c` least of a stream, each element is placed in a sorted list of at most `c` by a
binary search, and the last one makes room. If no two keys are equal, what is kept is the sorted
stream cut at `c` (`foldl_keep`).
-/

namespace Lib

open List

variable {α K : Type} [LinearOrder K] (key : α → K)

/-- The loop of a binary search for `k` in the `size` elements from `base` on. -/
def bisect (k : K) (l : List α) (base size : ℕ) : ℕ :=
  if size ≤ 1 then base
  else if l[base + size / 2]?.any (k < key ·) then bisect k l base (size - size / 2)
  else bisect k l (base + size / 2) (size - size / 2)
termination_by size

/-- Where `k` is, or where it belongs. -/
def position (k : K) (l : List α) : ℕ :=
  let base := bisect key k l 0 l.length
  if l[base]?.any (key · < k) then base + 1 else base

def keep (c : ℕ) (l : List α) (x : α) : List α :=
  let at_ := position key (key x) l
  if at_ < c then
    let room := if l.length = c then l.dropLast else l
    room.take at_ ++ x :: room.drop at_
  else l

variable {key} {k : K} {c : ℕ}

section

variable {front back : List α} (hfront : ∀ a ∈ front, key a < k) (hback : ∀ b ∈ back, k < key b)

include hfront hback

theorem any_gt_iff {i : ℕ} (hi : i < (front ++ back).length) :
    (front ++ back)[i]?.any (k < key ·) = true ↔ front.length ≤ i := by
  rw [getElem?_append]
  split
  · next h =>
    refine iff_of_false ?_ (by omega)
    simpa [h] using (hfront _ (getElem_mem h)).le
  · next h =>
    have hb : i - front.length < back.length := by
      rw [length_append] at hi
      omega
    simpa [hb, not_lt.mp h] using hback _ (getElem_mem hb)

theorem any_lt_iff {i : ℕ} : (front ++ back)[i]?.any (key · < k) = true ↔ i < front.length := by
  rw [getElem?_append]
  split
  · next h => simpa [h] using hfront _ (getElem_mem h)
  · next h =>
    refine iff_of_false ?_ h
    rw [Option.any_eq_true]
    rintro ⟨b, hb, hlt⟩
    exact (hback b (mem_of_getElem? hb)).not_gt (of_decide_eq_true hlt)

/-- The search stays between an element that is less, or the first one, and one that is not. -/
theorem bisect_spec (base size : ℕ) (hbase : base = 0 ∨ base < front.length)
    (hsize : front.length ≤ base + size) (hlen : base + size ≤ (front ++ back).length) :
    (bisect key k (front ++ back) base size = 0 ∨
        bisect key k (front ++ back) base size < front.length) ∧
      front.length ≤ bisect key k (front ++ back) base size + 1 := by
  fun_induction bisect key k (front ++ back) base size with
  | case1 base size h => exact ⟨hbase, by omega⟩
  | case2 base size h hgt ih =>
    rw [any_gt_iff hfront hback (by omega)] at hgt
    exact ih hbase (by omega) (by omega)
  | case3 base size h hgt ih =>
    rw [any_gt_iff hfront hback (by omega)] at hgt
    exact ih (by omega) (by omega) (by omega)

theorem position_append : position key k (front ++ back) = front.length := by
  obtain ⟨hbase, hlast⟩ := bisect_spec hfront hback 0 (front ++ back).length (.inl rfl)
    (by simp) (by simp)
  rw [position]
  split
  · next h =>
    rw [any_lt_iff hfront hback] at h
    omega
  · next h =>
    rw [any_lt_iff hfront hback] at h
    omega

end

/-- Without its last element, if it is full, a list has room for one more. -/
theorem dropLast_take_of_full (l : List α) :
    (if (l.take (c + 1)).length = c + 1 then (l.take (c + 1)).dropLast else l.take (c + 1)) =
      l.take c := by
  rw [length_take]
  split
  · rw [dropLast_eq_take, length_take, take_take]
    congr 1
    omega
  · rw [take_of_length_le (by omega), take_of_length_le (by omega)]

theorem keep_take {front back : List α} {x : α} (hfront : ∀ a ∈ front, key a < key x)
    (hback : ∀ b ∈ back, key x < key b) :
    keep key c ((front ++ back).take c) x = (front ++ x :: back).take c := by
  have hat : position key (key x) ((front ++ back).take c) = (front.take c).length := by
    rw [take_append]
    exact position_append (fun a h => hfront a (mem_of_mem_take h))
      fun b h => hback b (mem_of_mem_take h)
  rw [length_take] at hat
  simp only [keep, hat]
  split
  · next hlt =>
    obtain ⟨d, rfl⟩ : ∃ d, c = d + 1 := ⟨c - 1, by omega⟩
    have hroom : front.length ≤ d := by omega
    rw [dropLast_take_of_full, min_eq_right (by omega), take_take, min_eq_left hroom,
      take_left, drop_take, drop_left, take_append, take_of_length_le (by omega : _ ≤ d + 1),
      Nat.succ_sub hroom, take_succ_cons]
  · rw [take_append_of_le_length (by omega), take_append_of_le_length (by omega)]

/-- Where a key that is not in a sorted list splits it. -/
theorem exists_split {l : List α} (hl : l.Pairwise (key · < key ·)) (hk : ∀ a ∈ l, key a ≠ k) :
    ∃ front back, l = front ++ back ∧ (∀ a ∈ front, key a < k) ∧ ∀ b ∈ back, k < key b := by
  induction l with
  | nil => exact ⟨[], [], rfl, nofun, nofun⟩
  | cons a l ih =>
    obtain ⟨ha, hl⟩ := pairwise_cons.mp hl
    rcases lt_or_gt_of_ne (hk a mem_cons_self) with hlt | hgt
    · obtain ⟨front, back, rfl, hfront, hback⟩ := ih hl fun b hb => hk b (mem_cons_of_mem a hb)
      exact ⟨a :: front, back, rfl, forall_mem_cons.mpr ⟨hlt, hfront⟩, hback⟩
    · exact ⟨[], a :: l, rfl, nofun, forall_mem_cons.mpr ⟨hgt, fun b hb => hgt.trans (ha b hb)⟩⟩

/-- What is kept is the beginning of the sorted stream. -/
theorem foldl_keep_sorted {l xs : List α} (hl : l.Pairwise (key · < key ·))
    (hxs : (xs ++ l).Pairwise (key · ≠ key ·)) :
    ∃ sorted, sorted ~ xs ++ l ∧ sorted.Pairwise (key · < key ·) ∧
      xs.foldl (keep key c) (l.take c) = sorted.take c := by
  induction xs generalizing l with
  | nil => exact ⟨l, .refl l, hl, rfl⟩
  | cons x xs ih =>
    obtain ⟨hx, hxs⟩ := pairwise_cons.mp hxs
    obtain ⟨front, back, rfl, hfront, hback⟩ :=
      exists_split hl fun a ha => (hx a (mem_append_right xs ha)).symm
    have hl' : (front ++ x :: back).Pairwise (key · < key ·) := by
      rw [pairwise_append] at hl ⊢
      refine ⟨hl.1, pairwise_cons.mpr ⟨hback, hl.2.1⟩, fun a ha => forall_mem_cons.mpr ?_⟩
      exact ⟨hfront a ha, hl.2.2 a ha⟩
    have hperm : xs ++ (front ++ x :: back) ~ x :: xs ++ (front ++ back) := by
      rw [← append_assoc, ← append_assoc]
      exact perm_middle
    obtain ⟨sorted, hsorted, hlt, heq⟩ := ih hl'
      (hperm.symm.pairwise (pairwise_cons.mpr ⟨hx, hxs⟩) fun h => h.symm)
    refine ⟨sorted, hsorted.trans hperm, hlt, ?_⟩
    rw [foldl_cons, keep_take hfront hback, heq]

theorem foldl_keep {xs : List α} (hxs : xs.Pairwise (key · ≠ key ·)) :
    xs.foldl (keep key c) [] = (xs.insertionSort (key · ≤ key ·)).take c := by
  obtain ⟨sorted, hperm, hlt, heq⟩ := foldl_keep_sorted (l := []) (c := c) .nil (by simpa using hxs)
  rw [append_nil] at hperm
  rw [take_nil] at heq
  have hsorted := perm_insertionSort (key · ≤ key ·) xs
  have hlt' : (xs.insertionSort (key · ≤ key ·)).Pairwise (key · < key ·) :=
    ((pairwise_insertionSort _ xs).and (hsorted.symm.pairwise hxs fun h => h.symm)).imp
      fun h => h.1.lt_of_ne h.2
  rw [heq, (hperm.trans hsorted.symm).eq_of_pairwise
    (fun _ _ _ _ h h' => absurd h' h.not_gt) hlt hlt']

end Lib
