import Vestrace.Lib.Str
import Vestrace.Lib.Guard
import Vestrace.Base

/-!
# Which classifications may be disclosed

A `ClassificationPolicy` names the labels it admits and says whether unclassified content is
admitted. The permissive policy names none and admits everything, so a policy made from no labels
is not the strictest one but that one, if it lets unclassified content through
(`policy_exact_iff`). A `BTreeSet` is the list of its members.
-/

namespace Vestrace.Retrieval

open Lib Str List

structure ClassificationPolicy where
  admissible : List String
  allowUnclassified : Bool

namespace ClassificationPolicy

def new (labels : List String) (allowUnclassified : Bool) :
    Except DomainError ClassificationPolicy := do
  refuse (labels.any isBlank) (.invalidArgument "a classification label must not be blank")
  return ⟨labels.map trim, allowUnclassified⟩

def isPermissive (policy : ClassificationPolicy) : Bool :=
  policy.admissible.isEmpty && policy.allowUnclassified

def admits (policy : ClassificationPolicy) : Option String → Bool
  | none => policy.allowUnclassified
  | some label =>
    if isBlank label then policy.allowUnclassified
    else policy.isPermissive || policy.admissible.contains (trim label)

structure Exact (labels : List String) (u : Bool) (policy : ClassificationPolicy) : Prop where
  label : ∀ label, isBlank label = false →
    (policy.admits (some label) = true ↔ trim label ∈ labels.map trim)
  absent : ∀ classification, classification.all isBlank = true → policy.admits classification = u
  mono : ∀ label more, new (label :: labels) u = .ok more → ∀ classification,
    policy.admits classification = true → more.admits classification = true

variable {labels : List String} {u : Bool} {policy : ClassificationPolicy}

theorem new_eq_ok (h : new labels u = .ok policy) : policy = ⟨labels.map trim, u⟩ := by
  obtain ⟨-, h⟩ := unit_bind_eq_ok.mp h
  exact (pure_eq_ok.mp h).symm

theorem admits_label (hset : labels = [] → u = false) {label : String}
    (hlabel : isBlank label = false) :
    admits ⟨labels.map trim, u⟩ (some label) = true ↔ trim label ∈ labels.map trim := by
  have hstrict : isPermissive ⟨labels.map trim, u⟩ = false := by
    simpa [isPermissive] using hset
  simp [admits, hlabel, hstrict]

theorem admits_absent {classification : Option String} (h : classification.all isBlank = true) :
    policy.admits classification = policy.allowUnclassified := by
  cases classification with
  | none => rfl
  | some label => exact if_pos h

/-- A policy is exact unless it names no label and admits what has none. -/
theorem policy_exact_iff (labels : List String) (u : Bool) :
    (∀ policy, new labels u = .ok policy → Exact labels u policy) ↔ (labels = [] → u = false) := by
  constructor
  · rintro hexact rfl
    have h := (hexact ⟨[], u⟩ rfl).label "a" (by decide)
    revert h
    cases u <;> decide
  · intro hset policy h
    cases new_eq_ok h
    refine ⟨fun label => admits_label hset, fun _ => admits_absent, ?_⟩
    intro label more hmore classification hadmits
    cases new_eq_ok hmore
    by_cases habsent : classification.all isBlank = true
    · rw [admits_absent habsent] at hadmits ⊢
      exact hadmits
    · cases classification with
      | none => exact absurd rfl habsent
      | some other =>
        replace habsent : isBlank other = false := by simpa using habsent
        rw [admits_label (absurd · (cons_ne_nil label labels)) habsent]
        exact mem_cons_of_mem _ ((admits_label hset habsent).mp hadmits)

/-- Made of no labels, it admits one. -/
theorem policy_of_no_labels :
    ∃ policy, new [] true = .ok policy ∧ policy.admits (some "restricted") = true ∧
      ∃ more, new ["public"] true = .ok more ∧ more.admits (some "restricted") = false :=
  ⟨_, rfl, rfl, _, rfl, by decide⟩

end ClassificationPolicy

/-! ## Hydration -/

inductive MemoryStatus where
  | candidate | active | superseded | rejected | expired | deleted

structure RevisionRef where
  memoryId : MemoryId
  revisionId : MemoryRevisionId

structure HydratedRevision extends RevisionRef where
  revisionNumber : UInt32
  memoryStatus : MemoryStatus
  content : String
  classification : Option String
  (validFrom validUntil : Option Timestamp)
  createdAt : Timestamp

inductive WithholdingReason where
  | revisionNotFound
  | classificationNotAdmissible (classification : String)

structure WithheldRevision extends RevisionRef where
  reason : WithholdingReason

structure HydrationOutcome where
  revisions : List HydratedRevision
  withheld : List WithheldRevision

namespace HydrationOutcome

def withhold (r : HydratedRevision) : WithheldRevision :=
  ⟨r.toRevisionRef, .classificationNotAdmissible (r.classification.getD "unclassified")⟩

def noteMissing (revisions : List HydratedRevision) :
    List WithheldRevision → List RevisionRef → List WithheldRevision
  | withheld, [] => withheld
  | withheld, asked :: requested =>
    if asked.revisionId ∈ revisions.map (·.revisionId) ∨
        asked.revisionId ∈ withheld.map (·.revisionId) then
      noteMissing revisions withheld requested
    else noteMissing revisions (withheld ++ [⟨asked, .revisionNotFound⟩]) requested

variable (policy : ClassificationPolicy) (resolved revisions : List HydratedRevision)
  (withheld : List WithheldRevision) (requested : List RevisionRef)

def applyPolicy : HydrationOutcome :=
  let (revisions, refused) := resolved.partition fun r => policy.admits r.classification
  ⟨revisions, noteMissing revisions (refused.map withhold) requested⟩

/-- The loop notes each id once that was asked for and has no answer yet. -/
theorem noteMissing_eq : ∃ missing, missing <+ requested ∧ (missing.map (·.revisionId)).Nodup ∧
    noteMissing revisions withheld requested = withheld ++ missing.map (⟨·, .revisionNotFound⟩) ∧
    ∀ id, id ∈ missing.map (·.revisionId) ↔ id ∈ requested.map (·.revisionId) ∧
      ¬ (id ∈ revisions.map (·.revisionId) ∨ id ∈ withheld.map (·.revisionId)) := by
  induction requested generalizing withheld with
  | nil => exact ⟨[], by simp [noteMissing]⟩
  | cons asked requested ih =>
    rw [noteMissing]
    split_ifs with h
    · obtain ⟨missing, hsub, hnodup, heq, hids⟩ := ih withheld
      refine ⟨missing, hsub.cons _, hnodup, heq, fun id => (hids id).trans ?_⟩
      refine and_congr_left fun hnot => ?_
      rw [map_cons, mem_cons, or_iff_right]
      rintro rfl
      exact hnot h
    · obtain ⟨missing, hsub, hnodup, heq, hids⟩ := ih (withheld ++ [⟨asked, .revisionNotFound⟩])
      refine ⟨asked :: missing, hsub.cons_cons _, ?_, by simp [heq], fun id => ?_⟩
      · exact nodup_cons.mpr ⟨by simp [hids], hnodup⟩
      · rw [map_cons, mem_cons, hids, map_cons, mem_cons, map_append, mem_append]
        grind

def obscured (content : HydratedRevision → String) (r : HydratedRevision) : HydratedRevision :=
  if policy.admits r.classification then r else { r with content := content r }

/-- **What is asked for is accounted for, and what is withheld is not disclosed.** An id that was
not resolved is reported once, and the contents of what is withheld make no difference. -/
theorem applyPolicy_exact :
    (∃ missing, missing <+ requested ∧ (missing.map (·.revisionId)).Nodup ∧
      (∀ id, id ∈ missing.map (·.revisionId) ↔
        id ∈ requested.map (·.revisionId) ∧ id ∉ resolved.map (·.revisionId)) ∧
      applyPolicy policy resolved requested =
        ⟨resolved.filter fun r => policy.admits r.classification,
          (resolved.filter fun r => !policy.admits r.classification).map withhold ++
            missing.map (⟨·, .revisionNotFound⟩)⟩) ∧
    ∀ content, applyPolicy policy (resolved.map (obscured policy content)) requested =
      applyPolicy policy resolved requested := by
  simp only [applyPolicy, partition_eq_filter_filter]
  constructor
  · obtain ⟨missing, hsub, hnodup, heq, hids⟩ := noteMissing_eq
      (resolved.filter fun r => policy.admits r.classification)
      ((resolved.filter fun r => !policy.admits r.classification).map withhold) requested
    refine ⟨missing, hsub, hnodup, fun id => (hids id).trans (and_congr_right' (not_congr ?_)), ?_⟩
    · simp only [mem_map, mem_filter, withhold]
      grind
    · simp [heq, Function.comp_def]
  · intro content
    have hadmits r : policy.admits (obscured policy content r).classification =
        policy.admits r.classification := by
      unfold obscured
      split_ifs <;> rfl
    have hwithhold r : withhold (obscured policy content r) = withhold r := by
      unfold obscured
      split_ifs <;> rfl
    simp only [filter_map, Function.comp_def, hadmits, map_map, hwithhold]
    rw [map_congr_left (f := obscured policy content) (g := id) fun r hr =>
      if_pos (mem_filter.mp hr).2, map_id]

end HydrationOutcome

end Vestrace.Retrieval
