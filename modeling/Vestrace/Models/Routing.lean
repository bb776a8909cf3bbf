import Vestrace.Base
import Mathlib.Data.List.Sort

/-!
# Model routing

`ModelRouter::route` refuses the candidates that break a hard constraint of the task, sorts the
rest and selects the first; `next_fallback` goes on to the next. The strategy is not a hard
constraint: `LocalOnly` only puts remote models last (`constraints_kept_iff`).

The `f32`s are any type with a comparison, a sum and a rendering, and the order is any relation:
nothing depends on more.
-/

namespace Vestrace.Models

open List

inductive RoutingStrategy where
  | fixed
  | bestQuality
  | lowestCost
  | lowestLatency
  | balanced
  | localOnly
  | withinBudget
  | qualityAboveThreshold
  | customWeighted
  deriving DecidableEq

inductive ProviderLocality where
  | onSite
  | remote
  deriving DecidableEq

inductive Sensitivity where
  | open_
  | internal
  | confidential
  | restricted
  deriving DecidableEq

/-- What the code does with an `f32`. -/
class Quantity (F : Type) where
  lt : F → F → Bool
  add : F → F → F
  /-- With so many digits after the point. -/
  fixed : ℕ → F → String

structure TaskRequirements (F : Type) where
  taskType : String
  minQuality : F
  maxCostPerMtoken : Option F
  contextTokens : UInt32
  privacyLocalOnly : Bool
  dataSensitivity : Sensitivity
  remoteTransferApproved : Bool

structure RoutingCandidate (F : Type) where
  modelId : Uuid
  modelName : String
  locality : ProviderLocality
  contextWindow : UInt32
  inputCostPerMtoken : F
  outputCostPerMtoken : F
  expectedQuality : F
  deriving DecidableEq

structure RejectedCandidate where
  modelId : Uuid
  modelName : String
  reasonCode : String
  reasonDetail : String
  deriving DecidableEq

structure RoutingDecision (F : Type) where
  strategy : RoutingStrategy
  selected : Option (RoutingCandidate F)
  fallbacks : List (RoutingCandidate F)
  rejected : List RejectedCandidate
  fallbackUsed : Bool

variable {F : Type} [Quantity F]

def hardFilter (candidate : RoutingCandidate F) (task : TaskRequirements F) :
    Option (String × String) :=
  let cost := Quantity.add candidate.inputCostPerMtoken candidate.outputCostPerMtoken
  if candidate.contextWindow < task.contextTokens then
    some ("context_limit_exceeded",
      s!"model context {candidate.contextWindow} < required {task.contextTokens}")
  else if task.privacyLocalOnly && candidate.locality == .remote then
    some ("privacy_violation", "remote model rejected by local-only privacy constraint")
  else if candidate.locality == .remote && task.dataSensitivity == .restricted &&
      !task.remoteTransferApproved then
    some ("restricted_data_no_transfer_approval", "remote model rejected: data sensitivity is " ++
      "Restricted and no transfer approval granted")
  else if Quantity.lt candidate.expectedQuality task.minQuality then
    some ("quality_below_threshold", "quality " ++ Quantity.fixed 2 candidate.expectedQuality ++
      " < minimum " ++ Quantity.fixed 2 task.minQuality)
  else match task.maxCostPerMtoken with
    | some maxCost => if Quantity.lt maxCost cost then
        some ("budget_exceeded", "cost " ++ Quantity.fixed 4 cost ++ " > max " ++
          Quantity.fixed 4 maxCost)
      else none
    | none => none

def rejection (task : TaskRequirements F) (candidate : RoutingCandidate F) :
    Option RejectedCandidate :=
  (hardFilter candidate task).map fun (code, detail) =>
    ⟨candidate.modelId, candidate.modelName, code, detail⟩

/-- `ModelRouter::route`; `order` says who of two goes first under a strategy. -/
def route (order : RoutingStrategy → RoutingCandidate F → RoutingCandidate F → Bool)
    (strategy : RoutingStrategy) (task : TaskRequirements F)
    (candidates : List (RoutingCandidate F)) : RoutingDecision F :=
  let eligible := (candidates.filter fun c => (rejection task c).isNone).insertionSort
    fun a b => order strategy a b = true
  ⟨strategy, eligible.head?, eligible.tail, candidates.filterMap (rejection task), false⟩

def nextFallback (d : RoutingDecision F) : Option (RoutingCandidate F) × RoutingDecision F :=
  match d.fallbacks with
  | [] => (none, { d with fallbackUsed := true, selected := none })
  | next :: rest =>
    (some next, { d with fallbacks := rest, fallbackUsed := true, selected := next })

def after (d : RoutingDecision F) (n : ℕ) : RoutingDecision F :=
  (fun d => (nextFallback d).2)^[n] d

/-- The hard constraints, the strategy's name among them. -/
structure Meets (strategy : RoutingStrategy) (task : TaskRequirements F)
    (model : RoutingCandidate F) : Prop where
  context : task.contextTokens ≤ model.contextWindow
  privacy : task.privacyLocalOnly = true ∨ strategy = .localOnly → model.locality = .onSite
  restricted : task.dataSensitivity = .restricted → task.remoteTransferApproved = false →
    model.locality = .onSite

section

variable {order : RoutingStrategy → RoutingCandidate F → RoutingCandidate F → Bool}
  {strategy : RoutingStrategy} {task : TaskRequirements F}
  {candidates : List (RoutingCandidate F)} {candidate : RoutingCandidate F} {d : RoutingDecision F}

theorem ProviderLocality.eq_onSite {l : ProviderLocality} : l = .onSite ↔ l ≠ .remote := by
  cases l <;> simp

theorem meets_iff (h : rejection task candidate = none) : Meets strategy task candidate ↔
    (strategy = .localOnly → candidate.locality = .onSite) := by
  refine ⟨fun hmeets hlocal => hmeets.privacy (Or.inr hlocal), fun hlocal => ?_⟩
  rw [rejection, Option.map_eq_none_iff, hardFilter] at h
  split at h
  · cases h
  next hcontext =>
  split at h
  · cases h
  next hprivacy =>
  split at h
  · cases h
  next hrestricted =>
  refine ⟨UInt32.not_lt.mp hcontext, fun hpriv => ?_, fun hdata hnot => ?_⟩
  · rcases hpriv with hpriv | hstrategy
    · exact ProviderLocality.eq_onSite.mpr fun hremote => hprivacy (by simp [hpriv, hremote])
    · exact hlocal hstrategy
  · exact ProviderLocality.eq_onSite.mpr fun hremote =>
      hrestricted (by simp [hdata, hnot, hremote])

def RoutingDecision.ranked (d : RoutingDecision F) : List (RoutingCandidate F) :=
  d.selected.toList ++ d.fallbacks

theorem ranked_route : (route order strategy task candidates).ranked =
    (candidates.filter fun c => (rejection task c).isNone).insertionSort
      fun a b => order strategy a b = true := by
  have hranked : ∀ l : List (RoutingCandidate F), l.head?.toList ++ l.tail = l := by
    intro l
    cases l <;> rfl
  exact hranked _

theorem mem_ranked_route : candidate ∈ (route order strategy task candidates).ranked ↔
    candidate ∈ candidates ∧ rejection task candidate = none := by
  rw [ranked_route, mem_insertionSort, mem_filter, Option.isNone_iff_eq_none]

theorem map_some_filterMap : (candidates.filterMap (rejection task)).map some =
    (candidates.filter fun c => !(rejection task c).isNone).map (rejection task) := by
  induction candidates with
  | nil => rfl
  | cons candidate candidates ih => cases h : rejection task candidate <;> simp [h, ih]

omit [Quantity F] in
theorem after_spec (hselected : d.selected = none → d.fallbacks = []) (n : ℕ) :
    (after d n).selected = d.ranked[n]? ∧ (nextFallback (after d n)).1 = d.fallbacks[n]? := by
  induction n generalizing d with
  | zero =>
    obtain ⟨strategy, selected, fallbacks, rejected, used⟩ := d
    refine ⟨?_, ?_⟩
    · cases selected with
      | none =>
        rw [show fallbacks = [] from hselected rfl]
        rfl
      | some model => rfl
    · cases fallbacks <;> rfl
  | succ n ih =>
    obtain ⟨strategy, selected, fallbacks, rejected, used⟩ := d
    have hstep : ∀ next rest, fallbacks = next :: rest → after
        ⟨strategy, selected, next :: rest, rejected, used⟩ (n + 1) =
          after ⟨strategy, some next, rest, rejected, true⟩ n := fun _ _ _ => rfl
    cases fallbacks with
    | nil =>
      obtain ⟨hafter, hnext⟩ := ih (d := ⟨strategy, none, [], rejected, true⟩) fun _ => rfl
      refine ⟨hafter.trans ?_, hnext⟩
      cases selected <;> rfl
    | cons next rest =>
      rw [hstep next rest rfl]
      obtain ⟨hafter, hnext⟩ := ih (d := ⟨strategy, some next, rest, rejected, true⟩) nofun
      refine ⟨hafter.trans ?_, hnext⟩
      cases selected with
      | none => exact absurd (hselected rfl) (cons_ne_nil _ _)
      | some model => rfl

end

/-- **Every model that is ever selected meets the constraints**, exactly if under `LocalOnly` the
other ones refuse all remote candidates. The candidates are selected one after the other, each
once, or are rejected. -/
theorem constraints_kept_iff
    (order : RoutingStrategy → RoutingCandidate F → RoutingCandidate F → Bool)
    (strategy : RoutingStrategy) (task : TaskRequirements F)
    (candidates : List (RoutingCandidate F)) :
    let d := route order strategy task candidates
    (∃ refused, (d.selected.toList ++ d.fallbacks ++ refused).Perm candidates ∧
      d.rejected.map some = refused.map (rejection task)) ∧
    (∀ n, (after d n).selected = (d.selected.toList ++ d.fallbacks)[n]? ∧
      (nextFallback (after d n)).1 = d.fallbacks[n]?) ∧
    ((∀ n model, (after d n).selected = some model → Meets strategy task model) ↔
      (strategy = .localOnly → ∀ candidate ∈ candidates, candidate.locality = .remote →
        hardFilter candidate task ≠ none)) := by
  intro d
  have hafter := after_spec (d := d) fun hnone =>
    congrArg tail (head?_eq_none_iff.mp hnone)
  refine ⟨⟨candidates.filter fun c => !(rejection task c).isNone, ?_, ?_⟩, hafter, ?_⟩
  · refine List.Perm.trans ?_ (filter_append_perm (fun c => (rejection task c).isNone) _)
    have hranked : d.ranked = _ := ranked_route
    exact (hranked ▸ perm_insertionSort _ _ : d.ranked.Perm _).append_right _
  · exact map_some_filterMap
  · constructor
    · intro hmeets hlocal candidate hmem hremote hnone
      have hranked : candidate ∈ d.ranked :=
        mem_ranked_route.mpr ⟨hmem, Option.map_eq_none_iff.mpr hnone⟩
      obtain ⟨n, hn⟩ := mem_iff_getElem?.mp hranked
      have honSite := (hmeets n candidate ((hafter n).1.trans hn)).privacy (Or.inr hlocal)
      rw [hremote] at honSite
      cases honSite
    · intro hlocal n model hmodel
      obtain ⟨hmem, hnone⟩ := mem_ranked_route.mp
        (mem_of_getElem? ((hafter n).1.symm.trans hmodel))
      refine (meets_iff hnone).mpr fun hstrategy => ?_
      exact ProviderLocality.eq_onSite.mpr fun hremote =>
        hlocal hstrategy model hmem hremote (Option.map_eq_none_iff.mp hnone)

instance : Quantity ℕ := ⟨fun a b => decide (a < b), (· + ·), fun _ n => n.repr⟩

/-- **A remote model under `LocalOnly`**: it is the only one that passes the filter. -/
theorem remote_selected_under_localOnly : ∃ model, (route (fun _ _ _ => true) .localOnly
        (⟨"summary", 0, none, 100, false, .internal, false⟩ : TaskRequirements ℕ)
        [⟨1, "hosted", .remote, 4096, 1, 1, 9⟩]).selected = some model ∧
      model.locality = .remote := by
  decide

end Vestrace.Models
