import Mathlib.Algebra.Order.BigOperators.Group.Finset

/-!
# Allocation trees — budgets handed down

A finite tree whose nodes each hold an allocation, spend part of it themselves
and hand part of it on to their children. An operation looks only at what a node has spent and
what it has handed to its direct children. So the whole tree together never spends more than its
root holds (`sum_used_le_root`), although no field records the total.
-/

namespace Lib

open Function Finset

variable {κ : Type} [DecidableEq κ]

structure AllocTree (κ : Type) [DecidableEq κ] where
  nodes : Finset κ
  parent : κ → Option κ
  alloc : κ → ℕ
  used : κ → ℕ
  root : κ
  root_mem : root ∈ nodes
  root_parent : parent root = none
  only_root : ∀ k ∈ nodes, parent k = none → k = root
  /-- Following parents from any node leads to the root, through nodes only. -/
  reaches : ∀ k ∈ nodes,
    Relation.ReflTransGen (fun a b => a ∈ nodes ∧ b ∈ nodes ∧ parent a = some b) k root
  /-- The local rule. -/
  within : ∀ k ∈ nodes, used k + ∑ c ∈ nodes with parent c = some k, alloc c ≤ alloc k

namespace AllocTree

def handedOn (t : AllocTree κ) (k : κ) : ℕ := ∑ c ∈ t.nodes with t.parent c = some k, t.alloc c

theorem used_add_handedOn_le (t : AllocTree κ) {k : κ} (hk : k ∈ t.nodes) :
    t.used k + t.handedOn k ≤ t.alloc k := t.within k hk

theorem parent_mem (t : AllocTree κ) {k p : κ} (hk : k ∈ t.nodes) (hp : t.parent k = some p) :
    p ∈ t.nodes := by
  rcases Relation.ReflTransGen.cases_head (t.reaches k hk) with rfl | ⟨b, ⟨-, hb, hkb⟩, -⟩
  · rw [t.root_parent] at hp
    cases hp
  · rw [hp, Option.some_inj] at hkb
    rw [hkb]
    exact hb

theorem sum_handedOn (t : AllocTree κ) :
    ∑ k ∈ t.nodes, t.handedOn k = ∑ c ∈ t.nodes.erase t.root, t.alloc c := by
  have hmaps : ∀ c ∈ t.nodes.erase t.root, (t.parent c).getD t.root ∈ t.nodes := by
    intro c hc
    cases hp : t.parent c with
    | none => exact t.root_mem
    | some p => exact t.parent_mem (mem_of_mem_erase hc) hp
  rw [← sum_fiberwise_of_maps_to hmaps]
  refine sum_congr rfl fun k _ => ?_
  -- the two ways of saying "child of `k`" pick the same nodes
  refine sum_congr (ext fun c => ?_) fun _ _ => rfl
  simp only [mem_filter, mem_erase]
  constructor
  · rintro ⟨hc, hp⟩
    refine ⟨⟨?_, hc⟩, by rw [hp]; rfl⟩
    rintro rfl
    rw [t.root_parent] at hp
    cases hp
  · rintro ⟨⟨hne, hc⟩, hp⟩
    refine ⟨hc, ?_⟩
    cases hpc : t.parent c with
    | none => exact absurd (t.only_root c hc hpc) hne
    | some p =>
      rw [hpc, Option.getD_some] at hp
      rw [hp]

/-- **The whole tree spends at most its root's allocation.** -/
theorem sum_used_le_root (t : AllocTree κ) : ∑ k ∈ t.nodes, t.used k ≤ t.alloc t.root := by
  have hlocal : ∑ k ∈ t.nodes, (t.used k + t.handedOn k) ≤ ∑ k ∈ t.nodes, t.alloc k :=
    sum_le_sum fun k hk => t.used_add_handedOn_le hk
  rw [sum_add_distrib, t.sum_handedOn] at hlocal
  have hroot := add_sum_erase t.nodes t.alloc t.root_mem
  omega

/-! ## Building trees -/

def single (r : κ) (a : ℕ) : AllocTree κ where
  nodes := {r}
  parent := fun _ => none
  alloc := fun _ => a
  used := fun _ => 0
  root := r
  root_mem := mem_singleton_self r
  root_parent := rfl
  only_root := fun k hk _ => mem_singleton.mp hk
  reaches := fun k hk => by
    rw [mem_singleton.mp hk]
  within := fun k _ => by simp

section

variable (t : AllocTree κ) {p c : κ} (a : ℕ)

theorem sum_children_reserve (hc : c ∉ t.nodes) (k : κ) :
    ∑ n ∈ insert c t.nodes with update t.parent c (some p) n = some k,
        update t.alloc c a n =
      (if p = k then a else 0) + if k = c then 0 else t.handedOn k := by
  have hold : ∀ n ∈ t.nodes, n ≠ c := fun n hn hnc => hc (hnc ▸ hn)
  have hsum : ∑ n ∈ t.nodes with update t.parent c (some p) n = some k,
      update t.alloc c a n = ∑ n ∈ t.nodes with t.parent n = some k, t.alloc n := by
    rw [sum_filter, sum_filter]
    refine sum_congr rfl fun n hn => ?_
    rw [update_of_ne (hold n hn), update_of_ne (hold n hn)]
  have hchild : (if k = c then 0 else t.handedOn k) =
      ∑ n ∈ t.nodes with t.parent n = some k, t.alloc n := by
    split
    next hkc =>
      rw [filter_false_of_mem fun n hn hp => hc (t.parent_mem hn (hkc ▸ hp))]
      rfl
    next => rfl
  rw [filter_insert, update_self, hchild, ← hsum]
  by_cases hpk : p = k
  · rw [if_pos (by rw [hpk]), if_pos hpk, sum_insert (by simp [hc]), update_self]
  · rw [if_neg (fun h => hpk (Option.some_inj.mp h)), if_neg hpk, Nat.zero_add]

def reserve (p c : κ) (hp : p ∈ t.nodes) (hc : c ∉ t.nodes)
    (hfit : t.used p + t.handedOn p + a ≤ t.alloc p) : AllocTree κ where
  nodes := insert c t.nodes
  parent := Function.update t.parent c (some p)
  alloc := Function.update t.alloc c a
  used := Function.update t.used c 0
  root := t.root
  root_mem := mem_insert_of_mem t.root_mem
  root_parent := by
    have hne : t.root ≠ c := fun h => hc (h ▸ t.root_mem)
    rw [update_of_ne hne]
    exact t.root_parent
  only_root := by
    intro k hk hnone
    by_cases hkc : k = c
    · rw [hkc, update_self] at hnone
      cases hnone
    · rw [update_of_ne hkc] at hnone
      exact t.only_root k (mem_of_mem_insert_of_ne hk hkc) hnone
  reaches := by
    -- the old paths are still paths, and the new node is one link away from one
    have hold : ∀ k ∈ t.nodes, Relation.ReflTransGen (fun a b => a ∈ insert c t.nodes ∧
        b ∈ insert c t.nodes ∧ Function.update t.parent c (some p) a = some b) k t.root := by
      intro k hk
      refine Relation.ReflTransGen.mono (fun a b hab => ?_) _ _ (t.reaches k hk)
      have hne : a ≠ c := fun h => hc (h ▸ hab.1)
      refine ⟨mem_insert_of_mem hab.1, mem_insert_of_mem hab.2.1, ?_⟩
      rw [update_of_ne hne]
      exact hab.2.2
    intro k hk
    rcases mem_insert.mp hk with rfl | hk
    · refine Relation.ReflTransGen.head ⟨hk, mem_insert_of_mem hp, ?_⟩ (hold p hp)
      rw [update_self]
    · exact hold k hk
  within := by
    intro k hk
    rw [t.sum_children_reserve a hc k]
    rcases mem_insert.mp hk with rfl | hk
    · have hpk : p ≠ k := fun h => hc (h ▸ hp)
      rw [update_self, update_self, if_neg hpk, if_pos rfl]
      omega
    · have hkc : k ≠ c := fun h => hc (h ▸ hk)
      rw [update_of_ne hkc, update_of_ne hkc, if_neg hkc]
      have hk' := t.used_add_handedOn_le hk
      split
      next hpk =>
        rw [hpk] at hfit
        omega
      next => omega

end

def spend (t : AllocTree κ) (k : κ) (a : ℕ) (hfit : t.used k + t.handedOn k + a ≤ t.alloc k) :
    AllocTree κ where
  nodes := t.nodes
  parent := t.parent
  alloc := t.alloc
  used := Function.update t.used k (t.used k + a)
  root := t.root
  root_mem := t.root_mem
  root_parent := t.root_parent
  only_root := t.only_root
  reaches := t.reaches
  within := by
    intro n hn
    by_cases hnk : n = k
    · rw [hnk, update_self]
      have hsum : t.handedOn k = ∑ c ∈ t.nodes with t.parent c = some k, t.alloc c := rfl
      omega
    · rw [update_of_ne hnk]
      exact t.within n hn

end AllocTree

end Lib
