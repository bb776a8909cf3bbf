import Mathlib.Algebra.Order.BigOperators.Group.Finset
import Mathlib.Order.Interval.Finset.Nat

/-!
# Rounds — bounded service that lets nobody wait for ever

Items are served in rounds. In each round some of them are ready, at most `limit` are
served, and nobody who is ready goes without unless the round is full. Whoever was served
is not ready again for a while. With enough rounds in a rest (`Paced`) everyone gets a turn.
-/

namespace Lib

open Finset

/-- The course of a service: the ready and the served of each round, out of finitely many
items. -/
structure Rounds (κ : Type) [DecidableEq κ] (limit : ℕ) (rest : ℤ) (count : ℕ) where
  time : ℕ → ℤ
  ready : ℕ → Finset κ
  served : ℕ → Finset κ
  items : Finset κ
  rest_nonneg : 0 ≤ rest
  time_mono : ∀ {i j}, i ≤ j → j < count → time i ≤ time j
  ready_items : ∀ {i}, i < count → ready i ⊆ items
  served_ready : ∀ {i}, i < count → served i ⊆ ready i
  /-- Nobody goes without unless the round is full. -/
  served_full : ∀ {i d}, i < count → d ∈ ready i → d ∉ served i → (served i).card = limit
  /-- Whoever was served rests. -/
  rests : ∀ {i j}, i < j → j < count → time j ≤ time i + rest → Disjoint (served i) (ready j)

namespace Rounds

variable {κ : Type} [DecidableEq κ] {limit : ℕ} {rest : ℤ} {count : ℕ}
  (r : Rounds κ limit rest count)

/-- The rounds between two others in which those served in the first still rest. -/
def within (i j : ℕ) : Finset ℕ := (Finset.Ioo i j).filter fun m => r.time m ≤ r.time i + rest

/-- Two rounds more than a rest apart have rounds enough for everyone between them. -/
def Paced : Prop :=
  ∀ i j, i < j → j < count → r.time i + rest < r.time j → r.items.card ≤ limit * (r.within i j).card

variable {r} {d : κ}

theorem mem_items {i : ℕ} (hi : i < count) (hd : d ∈ r.ready i) : d ∈ r.items :=
  r.ready_items hi hd

/-- Rounds that lie within a rest of each other serve different items. If an item waits
through all of them, they are full, and there are more items than places. -/
theorem limit_mul_card_lt {rounds : Finset ℕ} (hd : d ∈ r.items)
    (hcount : ∀ m ∈ rounds, m < count) (hwaits : ∀ m ∈ rounds, d ∈ r.ready m ∧ d ∉ r.served m)
    (hnear : ∀ m ∈ rounds, ∀ m' ∈ rounds, r.time m' ≤ r.time m + rest) :
    limit * rounds.card < r.items.card := by
  have hdisjoint : ∀ m ∈ rounds, ∀ m' ∈ rounds, m ≠ m' →
      Disjoint (r.served m) (r.served m') := by
    -- the later of the two finds the earlier one's items at rest
    have hlater : ∀ m ∈ rounds, ∀ m' ∈ rounds, m < m' →
        Disjoint (r.served m) (r.served m') := by
      intro m hm m' hm' hlt
      have hrests := r.rests hlt (hcount m' hm') (hnear m hm m' hm')
      exact hrests.mono_right (r.served_ready (hcount m' hm'))
    intro m hm m' hm' hne
    rcases Nat.lt_or_gt_of_ne hne with hlt | hlt
    · exact hlater m hm m' hm' hlt
    · exact (hlater m' hm' m hm hlt).symm
  have hfull : (rounds.biUnion r.served).card = limit * rounds.card := by
    rw [card_biUnion hdisjoint, Nat.mul_comm]
    refine sum_const_nat fun m hm => ?_
    exact r.served_full (hcount m hm) (hwaits m hm).1 (hwaits m hm).2
  have hothers : rounds.biUnion r.served ⊆ r.items.erase d := by
    intro c hc
    obtain ⟨m, hm, hserved⟩ := mem_biUnion.mp hc
    refine mem_erase.mpr ⟨?_, ?_⟩
    · rintro rfl
      exact (hwaits m hm).2 hserved
    · exact r.ready_items (hcount m hm) (r.served_ready (hcount m hm) hserved)
  calc limit * rounds.card = (rounds.biUnion r.served).card := hfull.symm
    _ ≤ (r.items.erase d).card := card_le_card hothers
    _ < r.items.card := card_erase_lt_of_mem hd

/-- **Nobody is passed over**: before anyone is served a second time, whoever has been ready
in every round since has been served. -/
theorem served_before_return (hpaced : r.Paced) {i j : ℕ} {c : κ} (hij : i < j) (hj : j < count)
    (hi : c ∈ r.served i) (hagain : c ∈ r.served j) (hready : ∀ m, i < m → m ≤ j → d ∈ r.ready m) :
    ∃ m < j, d ∈ r.served m := by
  have hapart : r.time i + rest < r.time j := by
    by_contra hnear
    have hrests := r.rests hij hj (not_lt.mp hnear)
    exact disjoint_left.mp hrests hi (r.served_ready hj hagain)
  by_contra hnever
  push Not at hnever
  have hroom := hpaced i j hij hj hapart
  have hwithin : ∀ m ∈ r.within i j, i < m ∧ m < j ∧ r.time m ≤ r.time i + rest := by
    intro m hm
    obtain ⟨hm, htime⟩ := mem_filter.mp hm
    exact ⟨(mem_Ioo.mp hm).1, (mem_Ioo.mp hm).2, htime⟩
  have hlt : limit * (r.within i j).card < r.items.card := by
    refine limit_mul_card_lt (mem_items hj (hready j hij le_rfl)) ?_ ?_ ?_
    · exact fun m hm => (hwithin m hm).2.1.trans hj
    · intro m hm
      obtain ⟨him, hmj, -⟩ := hwithin m hm
      exact ⟨hready m him hmj.le, hnever m hmj⟩
    · intro m hm m' hm'
      have hmono := r.time_mono (hwithin m hm).1.le ((hwithin m hm).2.1.trans hj)
      have htime := (hwithin m' hm').2.2
      omega
  omega

/-- **Everyone is served in time**: `rounds` rounds in which there is a place for each item
serve whoever is ready until then. -/
theorem served_in_time (hpaced : r.Paced) {rounds : ℕ} (hpos : 0 < rounds)
    (hcount : rounds ≤ count) (henough : r.items.card ≤ limit * rounds)
    (hneeded : limit * (rounds - 1) < r.items.card)
    (huntil : ∀ m < rounds, (∀ k < m, d ∉ r.served k) → d ∈ r.ready m) :
    ∃ m < rounds, d ∈ r.served m := by
  by_contra hnever
  push Not at hnever
  have hready : ∀ m < rounds, d ∈ r.ready m :=
    fun m hm => huntil m hm fun k hk => hnever k (hk.trans hm)
  have hlast : rounds - 1 < count := by omega
  have hnear : r.time (rounds - 1) ≤ r.time 0 + rest := by
    -- otherwise the first and the last of them were paced, with fewer rounds between
    by_contra hapart
    have hrest := r.rest_nonneg
    have hpair : 0 < rounds - 1 := by
      by_contra hzero
      have hone : rounds - 1 = 0 := by omega
      rw [hone] at hapart
      omega
    have hroom := hpaced 0 (rounds - 1) hpair hlast (not_le.mp hapart)
    have hfew : (r.within 0 (rounds - 1)).card ≤ rounds - 1 := by
      calc (r.within 0 (rounds - 1)).card ≤ (Finset.Ioo 0 (rounds - 1)).card :=
            card_filter_le _ _
        _ ≤ rounds - 1 := by
          rw [Nat.card_Ioo]
          omega
    have hplaces := Nat.mul_le_mul_left limit hfew
    omega
  have hlt : limit * (range rounds).card < r.items.card := by
    refine limit_mul_card_lt (mem_items (by omega) (hready 0 hpos)) ?_ ?_ ?_
    · exact fun m hm => (mem_range.mp hm).trans_le hcount
    · exact fun m hm => ⟨hready m (mem_range.mp hm), hnever m (mem_range.mp hm)⟩
    · intro m hm m' hm'
      have hm := mem_range.mp hm
      have hm' := mem_range.mp hm'
      have hstart := r.time_mono (Nat.zero_le m) (hm.trans_le hcount)
      have hend := r.time_mono (show m' ≤ rounds - 1 by omega) hlast
      omega
  rw [card_range] at hlt
  omega

end Rounds

end Lib
