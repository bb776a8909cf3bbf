import Vestrace.Lib.Select
import Vestrace.Lib.Guard
import Vestrace.Base
import Mathlib.Data.Prod.Lex

/-!
# The flat embedding index

Vectors are pushed in the order of their ordinals, and a search scans them all, keeping the nearest
ones (`search_exact`). What is done with floats is left open: a norm, which may be refused, and a
distance in a linear order. The contiguous vectors are cut into one for each member.
-/

namespace Vestrace.Index

open Lib List

variable {F N D : Type} [LinearOrder D]

structure Member (F N : Type) where
  projectionId : Uuid
  projectionOrdinal : ℕ
  materialId : Uuid
  vector : List F
  norm : N

structure IndexHit (D : Type) where
  projectionId : Uuid
  projectionOrdinal : ℕ
  materialId : Uuid
  distance : D

/-- Hits are compared by distance, and then by ordinal. -/
def IndexHit.key (hit : IndexHit D) : D ×ₗ ℕ := toLex (hit.distance, hit.projectionOrdinal)

structure FlatEmbeddingIndex (F N : Type) where
  dimensions : ℕ
  builtThroughProjectionOrdinal : ℕ
  members : List (Member F N)
  ordered : members.Pairwise (·.projectionOrdinal < ·.projectionOrdinal)

structure FlatEmbeddingIndexBuilder (F N : Type) where
  index : FlatEmbeddingIndex F N
  expected : ℕ

def invalid : ApplicationError := .policy "embedding-index-invalid-vector"

def limitError : ApplicationError := .unavailable "embedding-index-memory-limit"

structure IndexVector (F : Type) where
  projectionId : Uuid
  projectionOrdinal : ℕ
  materialId : Uuid
  values : List F

theorem FlatEmbeddingIndex.ordered_concat {index : FlatEmbeddingIndex F N} {member : Member F N}
    (h : ¬ index.members.getLast?.any (·.projectionOrdinal ≥ member.projectionOrdinal) = true) :
    (index.members ++ [member]).Pairwise (·.projectionOrdinal < ·.projectionOrdinal) := by
  refine pairwise_append.mpr ⟨index.ordered, pairwise_singleton _ _, ?_⟩
  intro other hother _ hmember
  cases mem_singleton.mp hmember
  obtain ⟨front, last, hlast⟩ :=
    (eq_nil_or_concat index.members).resolve_left (ne_nil_of_mem hother)
  have hless : last.projectionOrdinal < member.projectionOrdinal := by simpa [hlast] using h
  have hordered := index.ordered
  rw [hlast, concat_eq_append, pairwise_append] at hordered
  rw [hlast, concat_eq_append, mem_append, mem_singleton] at hother
  rcases hother with hfront | rfl
  · exact (hordered.2.2 other hfront last (mem_singleton_self _)).trans hless
  · exact hless

def FlatEmbeddingIndexBuilder.push (builder : FlatEmbeddingIndexBuilder F N)
    (norm : List F → AppResult N) (vector : IndexVector F) :
    AppResult (FlatEmbeddingIndexBuilder F N) := do
  let members := builder.index.members
  refuse (members.length ≥ builder.expected ∨ vector.values.length ≠ builder.index.dimensions ∨
    vector.projectionId = 0 ∨ vector.materialId = 0 ∨ vector.projectionOrdinal = 0 ∨
    vector.projectionOrdinal > builder.index.builtThroughProjectionOrdinal) invalid
  if h : members.getLast?.any (·.projectionOrdinal ≥ vector.projectionOrdinal) then throw invalid
  else
    refuse (members.any fun member =>
      member.projectionId == vector.projectionId || member.materialId == vector.materialId) invalid
    let norm ← norm vector.values
    return { builder with
      index.members := members ++
        [⟨vector.projectionId, vector.projectionOrdinal, vector.materialId, vector.values, norm⟩]
      index.ordered := FlatEmbeddingIndex.ordered_concat h }

def FlatEmbeddingIndexBuilder.finish (builder : FlatEmbeddingIndexBuilder F N) :
    AppResult (FlatEmbeddingIndex F N) := do
  refuse (builder.index.members.length ≠ builder.expected) invalid
  return builder.index

namespace FlatEmbeddingIndexBuilder

def byOrdinal (vectors : List (IndexVector F)) : List (IndexVector F) :=
  vectors.insertionSort (·.projectionOrdinal ≤ ·.projectionOrdinal)

def build (begun : FlatEmbeddingIndexBuilder F N) (norm : List F → AppResult N)
    (vectors : List (IndexVector F)) : AppResult (FlatEmbeddingIndex F N) := do
  let builder ← (byOrdinal vectors).foldlM (fun builder vector => builder.push norm vector) begun
  builder.finish

/-- What was pushed to become a member. -/
def pushed (member : Member F N) : IndexVector F :=
  ⟨member.projectionId, member.projectionOrdinal, member.materialId, member.vector⟩

def Distinct (members : List (Member F N)) : Prop :=
  members.Pairwise fun a b => a.projectionId ≠ b.projectionId ∧ a.materialId ≠ b.materialId

variable {norm : List F → AppResult N} {begun next : FlatEmbeddingIndexBuilder F N}
  {vectors : List (IndexVector F)}

theorem push_eq_ok {vector : IndexVector F} (h : begun.push norm vector = .ok next)
    (hdistinct : Distinct begun.index.members) :
    next.index.members.map pushed = begun.index.members.map pushed ++ [vector] ∧
      Distinct next.index.members := by
  obtain ⟨-, h⟩ := unit_bind_eq_ok.mp h
  split at h
  · cases h
  · obtain ⟨hfresh, h⟩ := unit_bind_eq_ok.mp h
    obtain ⟨n, -, h⟩ := bind_eq_ok.mp h
    cases pure_eq_ok.mp h
    refine ⟨map_append, pairwise_append.mpr ⟨hdistinct, pairwise_singleton _ _, ?_⟩⟩
    intro member hmember _ hnew
    cases mem_singleton.mp hnew
    have hall := refuse_eq_ok.mp hfresh
    simp only [Bool.not_eq_true, any_eq_false, Bool.or_eq_true, beq_iff_eq, not_or] at hall
    exact hall member hmember

theorem foldlM_push_eq_ok
    (h : vectors.foldlM (fun builder vector => builder.push norm vector) begun = .ok next)
    (hdistinct : Distinct begun.index.members) :
    next.index.members.map pushed = begun.index.members.map pushed ++ vectors ∧
      Distinct next.index.members := by
  induction vectors generalizing begun with
  | nil =>
    cases pure_eq_ok.mp h
    exact ⟨(append_nil _).symm, hdistinct⟩
  | cons vector vectors ih =>
    rw [foldlM_cons] at h
    obtain ⟨builder, hpush, h⟩ := bind_eq_ok.mp h
    obtain ⟨hmembers, hdistinct⟩ := push_eq_ok hpush hdistinct
    obtain ⟨hrest, hnext⟩ := ih h hdistinct
    rw [hrest, hmembers, append_assoc]
    exact ⟨rfl, hnext⟩

/-- **An index holds what it was built from.** Its members are the vectors that were handed over,
each once and no two of one projection or material, and in whatever order they are handed over, the
index is the same. -/
theorem build_exact (hbegun : begun.index.members = []) {index : FlatEmbeddingIndex F N}
    (h : begun.build norm vectors = .ok index) :
    index.members.map pushed ~ vectors ∧ Distinct index.members ∧
      ∀ vectors', vectors' ~ vectors → begun.build norm vectors' = .ok index := by
  obtain ⟨builder, hpush, hfinish⟩ := bind_eq_ok.mp h
  cases pure_eq_ok.mp (unit_bind_eq_ok.mp hfinish).2
  have hempty : Distinct begun.index.members := by rw [hbegun]; exact .nil
  obtain ⟨hmembers, hdistinct⟩ := foldlM_push_eq_ok hpush hempty
  rw [hbegun, map_nil, nil_append] at hmembers
  have hperm : ∀ vectors : List (IndexVector F), byOrdinal vectors ~ vectors := perm_insertionSort _
  refine ⟨hmembers ▸ hperm vectors, hdistinct, fun vectors' hsame => ?_⟩
  have hless : (builder.index.members.map pushed).Pairwise
      (·.projectionOrdinal < ·.projectionOrdinal) := pairwise_map.mpr builder.index.ordered
  rw [hmembers] at hless
  -- no two ordinals are equal, so there is one order to hand the vectors over in
  have hsame := (hperm vectors).trans (hsame.symm.trans (hperm vectors').symm)
  have hless' : (byOrdinal vectors').Pairwise (·.projectionOrdinal < ·.projectionOrdinal) :=
    ((pairwise_insertionSort _ vectors').and
      (hsame.pairwise (hless.imp Nat.ne_of_lt) Ne.symm)).imp fun h => h.1.lt_of_ne h.2
  have hsorted := hsame.eq_of_pairwise (fun _ _ _ _ h h' => absurd h' h.not_gt) hless hless'
  rw [build, ← hsorted]
  exact h

theorem pair_build_exact : ∃ index : FlatEmbeddingIndex ℕ Unit,
    index.members.map pushed ~ [⟨2, 2, 2, [5]⟩, ⟨1, 1, 1, [3]⟩] :=
  have ⟨index, h⟩ : ∃ index, build (N := Unit) ⟨⟨1, 2, [], .nil⟩, 2⟩ (fun _ => .ok ()) _ =
    .ok index := ⟨_, rfl⟩
  ⟨index, (build_exact rfl h).1⟩

end FlatEmbeddingIndexBuilder

namespace FlatEmbeddingIndex

variable (index : FlatEmbeddingIndex F N) (norm : List F → AppResult N)
  (distance : List F → N → List F → N → D) (reserve : ℕ → Bool)

def hit (query : List F) (queryNorm : N) (member : Member F N) : IndexHit D :=
  ⟨member.projectionId, member.projectionOrdinal, member.materialId,
    distance member.vector member.norm query queryNorm⟩

/-- The hits that are held when these members have been scanned. -/
def scan (capacity : ℕ) (query : List F) (queryNorm : N) (members : List (Member F N)) :
    List (IndexHit D) :=
  members.foldl (fun hits member =>
    keep IndexHit.key capacity hits (hit distance query queryNorm member)) []

/-- `reserve` is whether there is memory for so many hits. -/
def search (query : List F) (limit : ℕ) : AppResult (List (IndexHit D)) := do
  refuse (query.length ≠ index.dimensions) invalid
  let queryNorm ← norm query
  if limit = 0 then return []
  let capacity := min limit index.members.length
  refuse (reserve capacity = false) limitError
  return scan distance capacity query queryNorm index.members

variable {distance}

theorem scan_eq (capacity : ℕ) (query : List F) (queryNorm : N) {members : List (Member F N)}
    (h : members.Pairwise (·.projectionOrdinal < ·.projectionOrdinal)) :
    scan distance capacity query queryNorm members = ((members.map (hit distance query queryNorm)
      ).insertionSort (·.key ≤ ·.key)).take capacity := by
  rw [scan, ← foldl_map (g := keep IndexHit.key capacity), foldl_keep]
  refine pairwise_map.mpr (h.imp fun hlt heq => hlt.ne ?_)
  exact congrArg (fun k : D ×ₗ ℕ => (ofLex k).2) heq

variable (distance)

/-- A search returns the first hits of the sorted list, and holds no more than that. -/
theorem search_exact (query : List F) (limit : ℕ) (hits : List (IndexHit D)) :
    (index.search norm distance reserve query limit = .ok hits ↔
      query.length = index.dimensions ∧ ∃ queryNorm, norm query = .ok queryNorm ∧
        (limit = 0 ∨ reserve (min limit index.members.length) = true) ∧
        hits = ((index.members.map (hit distance query queryNorm)).insertionSort
          (·.key ≤ ·.key)).take (min limit index.members.length)) ∧
    ∀ queryNorm scanned, scanned <+: index.members →
      (scan distance (min limit index.members.length) query queryNorm scanned).length ≤
        min limit index.members.length := by
  refine ⟨?_, fun queryNorm scanned hscanned => ?_⟩
  · rw [search, unit_bind_eq_ok, refuse_eq_ok, not_not, bind_eq_ok]
    refine and_congr_right fun _ => exists_congr fun queryNorm => and_congr_right fun _ => ?_
    by_cases hlimit : limit = 0
    · simp only [hlimit, if_true, pure_eq_ok, true_or, true_and, Nat.zero_min, take_zero]
      exact eq_comm
    · simp only [hlimit, if_false, false_or]
      rw [unit_bind_eq_ok, refuse_eq_ok, Bool.not_eq_false, pure_eq_ok, scan_eq _ _ _ index.ordered]
      exact and_congr_right fun _ => eq_comm
  · rw [scan_eq _ _ _ (index.ordered.sublist hscanned.sublist)]
    exact length_take_le _ _

end FlatEmbeddingIndex

end Vestrace.Index
