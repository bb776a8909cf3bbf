import Vestrace.Lib.Search
import Vestrace.Base
import Mathlib.Data.List.Chain

/-!
# Validation of a workflow

`validate` reports what is wrong with the graph of a revision: its start, ids and references, the
required nodes that are not reached, the parallel nodes without a join, and a cycle that no policy
bounds. What it says of paths is exact (`validate_exact`), and it
passes exactly the revisions that are sound (`validate_passes_iff`).
-/

namespace Vestrace.Workflow

open Lib List Relation

inductive WorkflowNodeKind where
  | agent | skill | tool | decision | parallel | join | humanApproval | subWorkflow | end_
  deriving DecidableEq

structure WorkflowNode where
  id : Uuid
  kind : WorkflowNodeKind
  label : String
  subWorkflowRef : Option (Uuid × UInt32)
  isStart : Bool
  isRequired : Bool

structure WorkflowTransition where
  id : Uuid
  fromNode : Uuid
  toNode : Uuid

structure LoopPolicy where
  maxIterations : UInt32

structure WorkflowRevision where
  workflowId : Uuid
  nodes : List WorkflowNode
  transitions : List WorkflowTransition
  loopPolicy : Option LoopPolicy

structure WorkflowValidationError where
  code : String
  nodeId : Option Uuid
  transitionId : Option Uuid
  message : String

namespace WorkflowNode

variable (node : WorkflowNode)

def error (code message : String) : WorkflowValidationError := ⟨code, some node.id, none, message⟩

/-- A node in a message. -/
def display : String := "'" ++ node.label ++ "' (" ++ node.id.display ++ ")"

end WorkflowNode

namespace WorkflowRevision

variable (r : WorkflowRevision)

def nodeIds : List Uuid := r.nodes.map (·.id)

def edges : List (Uuid × Uuid) := r.transitions.map fun t => (t.fromNode, t.toNode)

def isReachableFromStart (target : Uuid) : Bool :=
  match r.nodes.find? (·.isStart) with
  | none => false
  | some start => start.id == target || reaches r.edges target [] [start.id]

def startErrors : List WorkflowValidationError :=
  match r.nodes.countP (·.isStart) with
  | 0 => [⟨"missing_start_node", none, none, "workflow has no start node"⟩]
  | 1 => []
  | count => [⟨"duplicate_start_node", none, none,
      "workflow has " ++ toString count ++ " start nodes, expected 1"⟩]

def duplicateErrors (seen : List Uuid) : List WorkflowNode → List WorkflowValidationError
  | [] => []
  | node :: nodes =>
    (if seen.contains node.id then
      [node.error "duplicate_node_id" ("duplicate node id " ++ node.id.display)]
    else []) ++ duplicateErrors (node.id :: seen) nodes

/-- The error for one end of a transition. -/
def missing (end_ : String) (node : Uuid) (t : WorkflowTransition) : List WorkflowValidationError :=
  if r.nodeIds.contains node then []
  else [⟨"transition_" ++ end_ ++ "_missing_node", none, some t.id, "transition " ++ t.id.display ++
    " references missing " ++ end_ ++ "_node " ++ node.display⟩]

def transitionErrors : List WorkflowValidationError :=
  r.transitions.flatMap fun t => r.missing "from" t.fromNode t ++ r.missing "to" t.toNode t

def hasJoin (node : WorkflowNode) : Bool :=
  r.transitions.any fun t =>
    t.fromNode == node.id && r.nodes.any fun n => n.id == t.toNode && n.kind == .join

/-- The errors a node has by itself. -/
def nodeErrors (bad : WorkflowNode → Bool) (code before after : String) :
    List WorkflowValidationError :=
  (r.nodes.filter bad).map fun node => node.error code (before ++ node.display ++ after)

def policyErrors (cyclic : Bool) : List WorkflowValidationError :=
  match r.loopPolicy with
  | none =>
    if cyclic then [⟨"cycle_without_loop_policy", none, none,
      "workflow contains a cycle but no loop policy is defined"⟩] else []
  | some policy =>
    if policy.maxIterations = 0 then [⟨"loop_policy_zero_iterations", none, none,
      "loop policy max_iterations must be > 0"⟩] else []

/-- Whether there is a cycle, if the search comes to an end. -/
def hasCycle : Option Bool :=
  match Lib.hasCycle r.edges r.nodeIds with
  | .ok _ => some false
  | .error .cycle => some true
  | .error .fuel => none

def validate : Option (List WorkflowValidationError) := do
  let cyclic ← r.hasCycle
  return r.startErrors ++ duplicateErrors [] r.nodes ++ r.transitionErrors ++
    r.nodeErrors (fun node => node.isRequired && !r.isReachableFromStart node.id)
      "unreachable_required_node" "required node " " is unreachable from start" ++
    r.nodeErrors (fun node => node.kind == .parallel && !r.hasJoin node)
      "parallel_without_join" "parallel node " " has no join successor" ++
    r.nodeErrors (fun node => node.kind == .subWorkflow &&
        node.subWorkflowRef.any (·.1 != r.workflowId))
      "subworkflow_cross_workspace" "sub-workflow reference in node "
      " is external to this workflow" ++
    r.policyErrors cyclic

/-- One start, no id twice, and transitions between nodes that are there. -/
structure Plain : Prop where
  start : r.nodes.countP (·.isStart) = 1
  unique : r.nodeIds.Nodup
  closed : ∀ t ∈ r.transitions, t.fromNode ∈ r.nodeIds ∧ t.toNode ∈ r.nodeIds

def Reached (id : Uuid) : Prop :=
  ∃ start ∈ r.nodes, start.isStart = true ∧ ReflTransGen (Edge r.edges) start.id id

structure Sound : Prop extends Plain r where
  reached : ∀ node ∈ r.nodes, node.isRequired = true → r.Reached node.id
  joined : ∀ node ∈ r.nodes, node.kind = .parallel → ∃ t ∈ r.transitions, t.fromNode = node.id ∧
    ∃ n ∈ r.nodes, n.id = t.toNode ∧ n.kind = .join
  walks : r.loopPolicy = none → ∀ walk : List Uuid, walk.IsChain (Edge r.edges) → walk.Nodup

variable {r}

theorem startErrors_eq_nil : r.startErrors = [] ↔ r.nodes.countP (·.isStart) = 1 := by
  unfold startErrors
  split
  · next h => simp [h]
  · next h => simp [h]
  · next hone => simpa using hone

theorem duplicateErrors_eq_nil {seen : List Uuid} {nodes : List WorkflowNode} :
    duplicateErrors seen nodes = [] ↔
      (nodes.map (·.id)).Nodup ∧ ∀ node ∈ nodes, node.id ∉ seen := by
  induction nodes generalizing seen with
  | nil => simp [duplicateErrors]
  | cons node nodes ih =>
    rw [duplicateErrors, append_eq_nil_iff, ih, map_cons, nodup_cons, forall_mem_cons]
    by_cases h : node.id ∈ seen
    · simp [h]
    · simp only [contains_eq_mem, h, decide_false, mem_cons, not_or, mem_map]
      grind

theorem missing_eq_nil {end_ : String} {node : Uuid} {t : WorkflowTransition} :
    r.missing end_ node t = [] ↔ node ∈ r.nodeIds := by
  unfold missing
  split <;> simp_all

theorem plain_iff : r.Plain ↔
    r.startErrors = [] ∧ duplicateErrors [] r.nodes = [] ∧ r.transitionErrors = [] := by
  rw [startErrors_eq_nil, duplicateErrors_eq_nil, transitionErrors, flatMap_eq_nil_iff]
  simp only [append_eq_nil_iff, missing_eq_nil]
  constructor
  · exact fun h => ⟨h.start, ⟨h.unique, fun _ _ => not_mem_nil⟩, h.closed⟩
  · exact fun h => ⟨h.1, h.2.1.1, h.2.2⟩

theorem nodeErrors_eq_nil {bad : WorkflowNode → Bool} {code before after : String} :
    r.nodeErrors bad code before after = [] ↔ ∀ node ∈ r.nodes, bad node = false := by
  simp [nodeErrors]

theorem isReachableFromStart_iff (h : r.nodes.countP (·.isStart) = 1) {id : Uuid} :
    r.isReachableFromStart id = true ↔ r.Reached id := by
  rw [countP_eq_length_filter, length_eq_one_iff] at h
  obtain ⟨start, hstart⟩ := h
  have hone : ∀ node, node ∈ r.nodes ∧ node.isStart = true ↔ node = start := by
    intro node
    have hmem : node ∈ r.nodes.filter (·.isStart) ↔ node = start := by rw [hstart, mem_singleton]
    rwa [mem_filter] at hmem
  have hreaches : reaches r.edges id [] [start.id] = true ↔
      TransGen (Edge r.edges) start.id id := by
    constructor
    · intro hfound
      obtain ⟨_, hmem, hpath⟩ := reaches_sound hfound
      exact mem_singleton.mp hmem ▸ hpath
    · intro hpath
      by_contra hno
      exact reaches_complete (Bool.not_eq_true _ ▸ hno) (fun _ h => absurd h not_mem_nil)
        (.inr mem_cons_self) hpath
  rw [isReachableFromStart, ← head?_filter, hstart]
  simp only [head?_cons, Bool.or_eq_true, beq_iff_eq, hreaches]
  simp only [Reached, ← and_assoc, hone, exists_eq_left, reflTransGen_iff_eq_or_transGen]
  exact or_congr_left eq_comm

theorem hasJoin_iff {node : WorkflowNode} : r.hasJoin node = true ↔
    ∃ t ∈ r.transitions, t.fromNode = node.id ∧
      ∃ n ∈ r.nodes, n.id = t.toNode ∧ n.kind = .join := by
  simp [hasJoin]

theorem edge_iff {a b : Uuid} :
    Edge r.edges a b ↔ ∃ t ∈ r.transitions, t.fromNode = a ∧ t.toNode = b := by
  simp [Edge, edges]

/-- The search for a cycle comes to an end, and on closed transitions it is exact. -/
theorem exists_hasCycle : ∃ cyclic, r.hasCycle = some cyclic ∧
    ((∀ t ∈ r.transitions, t.fromNode ∈ r.nodeIds) → (cyclic = true ↔ Cyclic r.edges)) := by
  have hfinds : Finds r.edges _ (Lib.hasCycle r.edges r.nodeIds) := hasCycle_finds r.nodeIds
  unfold hasCycle
  split
  · next visited heq =>
    rw [heq] at hfinds
    refine ⟨false, rfl, fun hclosed => iff_of_false nofun ?_⟩
    rintro ⟨a, hcycle⟩
    obtain ⟨b, hedge, -⟩ := TransGen.head'_iff.mp hcycle
    obtain ⟨t, ht, rfl, -⟩ := edge_iff.mp hedge
    exact (hfinds _ (hclosed t ht)).not_cycle hcycle
  · next heq =>
    rw [heq] at hfinds
    exact ⟨true, rfl, fun _ => iff_of_true rfl hfinds⟩
  · next heq =>
    rw [heq] at hfinds
    exact hfinds.elim

theorem nodup_of_not_cyclic {edges : List (Uuid × Uuid)} (h : ¬ Cyclic edges) {walk : List Uuid}
    (hwalk : walk.IsChain (Edge edges)) : walk.Nodup := by
  have hpaths := isChain_iff_pairwise.mp (hwalk.imp fun _ _ => TransGen.single)
  refine hpaths.imp ?_
  rintro a _ hpath rfl
  exact h ⟨a, hpath⟩

theorem exists_mem_nodeErrors {bad : WorkflowNode → Bool} {code before after : String}
    {P : WorkflowValidationError → Prop} : (∃ e ∈ r.nodeErrors bad code before after, P e) ↔
      ∃ node ∈ r.nodes, bad node = true ∧
        P (node.error code (before ++ node.display ++ after)) := by
  simp [nodeErrors, and_assoc]

theorem nodeId_of_mem_policyErrors {cyclic : Bool} {e : WorkflowValidationError}
    (h : e ∈ r.policyErrors cyclic) : e.nodeId = none := by
  unfold policyErrors at h
  split at h <;> split at h <;> simp_all

theorem cycle_mem_policyErrors {cyclic : Bool} :
    (∃ e ∈ r.policyErrors cyclic, e.code = "cycle_without_loop_policy") ↔
      r.loopPolicy = none ∧ cyclic = true := by
  unfold policyErrors
  split <;> split <;> simp_all

/-- **Validation ends, passes only sound revisions, and what it says of paths is exact.** -/
theorem validate_exact (r : WorkflowRevision) : ∃ errors, r.validate = some errors ∧
    (errors = [] → r.Sound) ∧
    (r.Plain →
      (∀ id, (∃ e ∈ errors, e.code = "unreachable_required_node" ∧ e.nodeId = some id) ↔
        ∃ node ∈ r.nodes, node.id = id ∧ node.isRequired = true ∧ ¬ r.Reached id) ∧
      ((∃ e ∈ errors, e.code = "cycle_without_loop_policy") ↔
        r.loopPolicy = none ∧ Cyclic r.edges)) := by
  obtain ⟨cyclic, hcycle, hexact⟩ := r.exists_hasCycle
  refine ⟨_, by rw [validate, hcycle]; rfl, ?_, ?_⟩
  · intro hnil
    simp only [append_eq_nil_iff, nodeErrors_eq_nil, and_assoc] at hnil
    obtain ⟨hstart, hids, hclosed, hreached, hjoined, -, hpolicy⟩ := hnil
    have hplain := plain_iff.mpr ⟨hstart, hids, hclosed⟩
    refine ⟨hplain, ?_, ?_, ?_⟩
    · intro node hnode hrequired
      rw [← isReachableFromStart_iff hplain.start]
      simpa [hrequired] using hreached node hnode
    · intro node hnode hkind
      rw [← hasJoin_iff]
      simpa [hkind] using hjoined node hnode
    · intro hnone walk
      refine nodup_of_not_cyclic (mt (hexact fun t ht => (hplain.closed t ht).1).mpr ?_)
      simpa [policyErrors, hnone] using hpolicy
  · intro hplain
    obtain ⟨hstart, hids, hclosed⟩ := plain_iff.mp hplain
    have hexact := hexact fun t ht => (hplain.closed t ht).1
    simp only [hstart, hids, hclosed, nil_append]
    simp only [mem_append, or_and_right, exists_or, exists_mem_nodeErrors, cycle_mem_policyErrors]
    refine ⟨fun id => ?_, by simp [WorkflowNode.error, hexact]⟩
    have hnone : ∀ e ∈ r.policyErrors cyclic, ¬ (e.code = "unreachable_required_node" ∧
        e.nodeId = some id) := fun e he h => by simp [nodeId_of_mem_policyErrors he] at h
    simp only [WorkflowNode.error, String.reduceEq, false_and, and_false, exists_false, or_false,
      true_and, not_exists.mpr fun e => not_and.mpr (hnone e), Option.some.injEq,
      ← isReachableFromStart_iff hplain.start, Bool.and_eq_true, Bool.not_eq_true']
    refine exists_congr fun node => and_congr_right fun _ => ?_
    constructor
    · rintro ⟨⟨hrequired, hno⟩, rfl⟩
      exact ⟨rfl, hrequired, by simp [hno]⟩
    · rintro ⟨rfl, hrequired, hno⟩
      exact ⟨⟨hrequired, by simpa using hno⟩, rfl⟩

theorem not_cyclic_of_walks {edges : List (Uuid × Uuid)}
    (h : ∀ walk : List Uuid, walk.IsChain (Edge edges) → walk.Nodup) : ¬ Cyclic edges := by
  rintro ⟨a, hcycle⟩
  obtain ⟨b, hab, hba⟩ := TransGen.head'_iff.mp hcycle
  obtain ⟨walk, hwalk, hlast⟩ := exists_isChain_cons_of_relationReflTransGen hba
  have hnodup := h (a :: b :: walk) (isChain_cons_cons.mpr ⟨hab, hwalk⟩)
  exact (nodup_cons.mp hnodup).1 (hlast ▸ getLast_mem _)

theorem policyErrors_eq_nil {cyclic : Bool} : r.policyErrors cyclic = [] ↔
    (r.loopPolicy = none → cyclic = false) ∧ ∀ policy ∈ r.loopPolicy, policy.maxIterations ≠ 0 := by
  unfold policyErrors
  cases r.loopPolicy <;> simp

/-- **Validation passes exactly the sound revisions** whose sub-workflows are their own and whose
loops may be taken. -/
theorem validate_passes_iff (r : WorkflowRevision) : r.validate = some [] ↔ r.Sound ∧
    (∀ node ∈ r.nodes, node.kind = .subWorkflow →
      ∀ ref ∈ node.subWorkflowRef, ref.1 = r.workflowId) ∧
    ∀ policy ∈ r.loopPolicy, policy.maxIterations ≠ 0 := by
  obtain ⟨cyclic, hcycle, hexact⟩ := r.exists_hasCycle
  have hown : ∀ node : WorkflowNode, node.subWorkflowRef.any (·.1 != r.workflowId) = false ↔
      ∀ ref ∈ node.subWorkflowRef, ref.1 = r.workflowId := by
    intro node
    cases node.subWorkflowRef <;> simp
  simp only [validate, hcycle, Option.pure_def, Option.bind_eq_bind, Option.bind_some,
    Option.some.injEq, append_eq_nil_iff, nodeErrors_eq_nil, Bool.and_eq_false_imp,
    Bool.not_eq_eq_eq_not, Bool.not_false, beq_iff_eq, policyErrors_eq_nil, hown, and_assoc]
  constructor
  · rintro ⟨hstart, hids, hclosed, hreached, hjoined, hown, hcyclic, hpolicy⟩
    have hplain := plain_iff.mpr ⟨hstart, hids, hclosed⟩
    refine ⟨⟨hplain, fun node hnode hrequired => ?_, fun node hnode hkind => ?_, ?_⟩, hown, hpolicy⟩
    · exact (isReachableFromStart_iff hplain.start).mp (hreached node hnode hrequired)
    · exact hasJoin_iff.mp (hjoined node hnode hkind)
    · intro hnone walk
      refine nodup_of_not_cyclic (mt (hexact fun t ht => (hplain.closed t ht).1).mpr ?_)
      simp [hcyclic hnone]
  · rintro ⟨hsound, hown, hpolicy⟩
    obtain ⟨hstart, hids, hclosed⟩ := plain_iff.mp hsound.toPlain
    refine ⟨hstart, hids, hclosed, fun node hnode hrequired => ?_, fun node hnode hkind => ?_, hown,
      ?_, hpolicy⟩
    · exact (isReachableFromStart_iff hsound.start).mpr (hsound.reached node hnode hrequired)
    · exact hasJoin_iff.mpr (hsound.joined node hnode hkind)
    · intro hnone
      have hno := not_cyclic_of_walks (hsound.walks hnone)
      rw [← hexact fun t ht => (hsound.closed t ht).1] at hno
      exact Bool.not_eq_true _ ▸ hno

end WorkflowRevision

end Vestrace.Workflow
