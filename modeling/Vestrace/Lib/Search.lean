import Mathlib.Data.Finset.Card
import Mathlib.Data.List.Count
import Mathlib.Logic.Relation

/-!
# Searching a graph given by its edges

Two searches over a list of edges. `reaches` keeps a work list and stops at the target;
`dfsCycle` goes depth first and stops at an edge back to a node it is still in.
-/

namespace Lib

open List Relation

variable {V : Type} [DecidableEq V] (edges : List (V × V))

def Edge (a b : V) : Prop := (a, b) ∈ edges

/-! ## By a work list -/

/-- The edges out of nodes that are not visited. -/
def openEdges (visited : List V) : ℕ := edges.countP fun e => e.1 ∉ visited

/-- The successors of a node, the last one first. -/
def successors (node : V) (visited : List V) : List V :=
  ((edges.filter fun e => e.1 = node ∧ e.2 ∉ visited).map Prod.snd).reverse

theorem successors_add_openEdges {node : V} {visited : List V} (h : node ∉ visited) :
    (successors edges node (node :: visited)).length + openEdges edges (node :: visited) ≤
      openEdges edges visited := by
  rw [successors, length_reverse, length_map, ← countP_eq_length_filter, openEdges, openEdges]
  induction edges with
  | nil => simp
  | cons e edges ih =>
    have hvisited : e.1 = node → e.1 ∉ visited := fun he => he ▸ h
    simp only [countP_cons, mem_cons] at ih ⊢
    grind

def reaches (target : V) (visited : List V) : List V → Bool
  | [] => false
  | node :: stack =>
    if _h : node ∈ visited then reaches target visited stack
    else if edges.any (· = (node, target)) then true
    else reaches target (node :: visited) (successors edges node (node :: visited) ++ stack)
termination_by stack => stack.length + openEdges edges visited
decreasing_by
  · simp
  · have := successors_add_openEdges edges _h
    simp only [length_append, length_cons]
    omega

variable {edges}

theorem reaches_sound {target : V} {visited stack : List V}
    (h : reaches edges target visited stack = true) :
    ∃ node ∈ stack, TransGen (Edge edges) node target := by
  fun_induction reaches edges target visited stack with
  | case1 => cases h
  | case2 visited node stack _ ih =>
    obtain ⟨found, hfound, hpath⟩ := ih h
    exact ⟨found, mem_cons_of_mem node hfound, hpath⟩
  | case3 visited node stack _ hany =>
    exact ⟨node, mem_cons_self, .single (by simpa [Edge] using hany)⟩
  | case4 visited node stack _ _ ih =>
    obtain ⟨found, hfound, hpath⟩ := ih h
    rcases mem_append.mp hfound with hnext | hrest
    · have hedge : (node, found) ∈ edges := by
        simp only [successors, mem_reverse, mem_map, mem_filter, decide_eq_true_eq] at hnext
        obtain ⟨⟨_, _⟩, ⟨hedge, rfl, -⟩, rfl⟩ := hnext
        exact hedge
      exact ⟨node, mem_cons_self, .head hedge hpath⟩
    · exact ⟨found, mem_cons_of_mem node hrest, hpath⟩

/-- What is visited has no edge to the target, and its successors are visited or waiting. -/
def Pending (edges : List (V × V)) (target : V) (visited stack : List V) : Prop :=
  ∀ a ∈ visited, ∀ b, Edge edges a b → b ≠ target ∧ (b ∈ visited ∨ b ∈ stack)

theorem reaches_complete {target : V} {visited stack : List V}
    (h : reaches edges target visited stack = false) (hpending : Pending edges target visited stack)
    {node : V} (hnode : node ∈ visited ∨ node ∈ stack) : ¬ TransGen (Edge edges) node target := by
  fun_induction reaches edges target visited stack generalizing node with
  | case1 visited =>
    intro hpath
    induction hpath using TransGen.head_induction_on with
    | single hedge =>
      have := hpending _ (by simpa using hnode) _ hedge
      exact this.1 rfl
    | head hedge _ ih =>
      exact ih (hpending _ (by simpa using hnode) _ hedge).2
  | case2 visited current stack hmem ih =>
    have hkept : ∀ b, b ∈ visited ∨ b ∈ current :: stack → b ∈ visited ∨ b ∈ stack := by
      rintro b (hb | hb)
      · exact .inl hb
      · exact (mem_cons.mp hb).imp_left fun heq : b = current => heq ▸ hmem
    exact ih h (fun a ha b hedge => (hpending a ha b hedge).imp_right (hkept b)) (hkept node hnode)
  | case3 => cases h
  | case4 visited current stack hmem hany ih =>
    refine ih h ?_ ?_
    · intro a ha b hedge
      rcases mem_cons.mp ha with rfl | ha
      · refine ⟨?_, ?_⟩
        · rintro rfl
          exact hany (by simpa [Edge] using hedge)
        · by_cases hb : b ∈ a :: visited
          · exact .inl hb
          · refine .inr (mem_append_left stack ?_)
            simp only [successors, mem_reverse, mem_map, mem_filter, decide_eq_true_eq]
            exact ⟨(a, b), ⟨hedge, rfl, hb⟩, rfl⟩
      · have := hpending a ha b hedge
        grind
    · grind

/-! ## Depth first -/

inductive Stop where
  | cycle
  | fuel

/-- A node is on the stack while its call lasts, so the stack is passed down. -/
def dfsCycle (edges : List (V × V)) : ℕ → V → List V → List V → Except Stop (List V)
  | 0, _, _, _ => .error .fuel
  | fuel + 1, node, recStack, visited =>
    edges.foldlM (fun visited e =>
      if e.1 = node then
        if e.2 ∉ visited then dfsCycle edges fuel e.2 (node :: recStack) visited
        else if e.2 ∈ node :: recStack then .error .cycle
        else .ok visited
      else .ok visited) (node :: visited)

def hasCycle (edges : List (V × V)) (nodes : List V) : Except Stop (List V) :=
  nodes.foldlM (fun visited node =>
    if node ∉ visited then dfsCycle edges (edges.length + 1) node [] visited else .ok visited) []

/-- Every walk from a node ends. -/
abbrev Ends (edges : List (V × V)) (a : V) : Prop := Acc (fun b a => Edge edges a b) a

def Cyclic (edges : List (V × V)) : Prop := ∃ a, TransGen (Edge edges) a a

/-- A search stops at a cycle, or goes on as expected. -/
def Finds (edges : List (V × V)) (expected : List V → Prop) : Except Stop (List V) → Prop
  | .ok visited => expected visited
  | .error .cycle => Cyclic edges
  | .error .fuel => False

omit [DecidableEq V] in
theorem Finds.mono {P Q : List V → Prop} {x : Except Stop (List V)} (h : Finds edges P x)
    (hPQ : ∀ visited, P visited → Q visited) : Finds edges Q x := by
  match x, h with
  | .ok visited, h => exact hPQ visited h
  | .error .cycle, h => exact h

omit [DecidableEq V] in
theorem Finds.bind {P Q : List V → Prop} {x : Except Stop (List V)}
    {f : List V → Except Stop (List V)} (h : Finds edges P x)
    (hf : ∀ visited, P visited → Finds edges Q (f visited)) : Finds edges Q (x >>= f) := by
  match x, h with
  | .ok visited, h => exact hf visited h
  | .error .cycle, h => exact h

/-- The ends of edges that are not visited. -/
def fresh (edges : List (V × V)) (visited : List V) : Finset V :=
  (edges.map Prod.snd).toFinset.filter (· ∉ visited)

theorem card_fresh_lt {visited visited' : List V} (h : visited ⊆ visited') {a b : V}
    (hedge : (a, b) ∈ edges) (hb : b ∉ visited') :
    (fresh edges (b :: visited')).card < (fresh edges visited).card := by
  refine Finset.card_lt_card ((Finset.ssubset_iff_of_subset ?_).mpr ⟨b, ?_, ?_⟩)
  · exact Finset.monotone_filter_right _ fun x _ hx hmem => hx (mem_cons_of_mem b (h hmem))
  · simp only [fresh, Finset.mem_filter, mem_toFinset, mem_map]
    exact ⟨⟨(a, b), hedge, rfl⟩, fun hmem => hb (h hmem)⟩
  · simp [fresh]

/-- A search from a node that is not visited is done with the node when it is over. The nodes on
the stack lead to the node, and the walks from the others that are visited end. -/
theorem dfsCycle_finds (fuel : ℕ) {node : V} {recStack visited : List V} (hnode : node ∉ visited)
    (hsub : recStack ⊆ visited) (hpath : ∀ r ∈ recStack, ReflTransGen (Edge edges) r node)
    (hends : ∀ a ∈ visited, a ∉ recStack → Ends edges a)
    (hfuel : (fresh edges (node :: visited)).card < fuel) :
    Finds edges (fun v => node :: visited ⊆ v ∧ ∀ a ∈ v, a ∉ recStack → Ends edges a)
      (dfsCycle edges fuel node recStack visited) := by
  induction fuel generalizing node recStack visited with
  | zero => cases hfuel
  | succ fuel ih =>
    have hpath' : ∀ r ∈ node :: recStack, ReflTransGen (Edge edges) r node :=
      forall_mem_cons.mpr ⟨.refl, hpath⟩
    rw [dfsCycle]
    -- the loop: an edge out of the node is still to come, or the walks from its end are finite
    suffices hloop : ∀ rest ⊆ edges, ∀ v, node :: visited ⊆ v →
        (∀ a ∈ v, a ∉ node :: recStack → Ends edges a) →
        (∀ b, Edge edges node b → (node, b) ∈ rest ∨ Ends edges b) →
        Finds edges (fun v => node :: visited ⊆ v ∧ ∀ a ∈ v, a ∉ recStack → Ends edges a)
          (rest.foldlM _ v) by
      refine hloop edges (Subset.refl _) _ (Subset.refl _) ?_ fun b hb => .inl hb
      intro a ha hout
      obtain ⟨hne, hout⟩ := not_or.mp (mt mem_cons.mpr hout)
      exact hends a ((mem_cons.mp ha).resolve_left hne) hout
    intro rest hrest
    induction rest with
    | nil =>
      intro v hv hdone hleft
      refine ⟨hv, fun a ha hout => ?_⟩
      by_cases heq : a = node
      · exact heq ▸ .intro _ fun b hb => (hleft b hb).resolve_left nofun
      · exact hdone a ha (by simp [heq, hout])
    | cons e rest ihrest =>
      intro v hv hdone hleft
      obtain ⟨a, b⟩ := e
      obtain ⟨hedge, hrest⟩ := cons_subset.mp hrest
      have hstack : node :: recStack ⊆ v := Subset.trans (cons_subset_cons node hsub) hv
      rw [foldlM_cons]
      refine Finds.bind (P := fun v' => v ⊆ v' ∧ (∀ x ∈ v', x ∉ node :: recStack → Ends edges x) ∧
        (a = node → Ends edges b)) ?_ ?_
      · split
        · next hfrom =>
          cases hfrom
          split
          · next hb =>
            refine (ih hb hstack (fun r hr => (hpath' r hr).tail hedge) hdone ?_).mono ?_
            · exact (card_fresh_lt hv hedge hb).trans_le (Nat.le_of_lt_succ hfuel)
            · rintro v' ⟨hsub', hends'⟩
              obtain ⟨hmem, hmore⟩ := cons_subset.mp hsub'
              exact ⟨hmore, hends', fun _ => hends' b hmem fun hin => hb (hstack hin)⟩
          · next hb =>
            split
            · next hback => exact ⟨b, .trans_right (hpath' b hback) (.single hedge)⟩
            · next hback => exact ⟨Subset.refl _, hdone, fun _ => hdone b (not_not.mp hb) hback⟩
        · next hfrom => exact ⟨Subset.refl _, hdone, fun h => absurd h hfrom⟩
      · rintro v' ⟨hmore, hdone', hend⟩
        refine ihrest hrest v' (Subset.trans hv hmore) hdone' fun x hx => ?_
        rcases hleft x hx with hin | hend'
        · rcases mem_cons.mp hin with heq | hin
          · cases heq
            exact .inr (hend rfl)
          · exact .inl hin
        · exact .inr hend'

/-- A search from each of the nodes finds a cycle, or all their walks end. -/
theorem hasCycle_finds (nodes : List V) :
    Finds edges (fun _ => ∀ a ∈ nodes, Ends edges a) (hasCycle edges nodes) := by
  rw [hasCycle]
  suffices hloop : ∀ visited, (∀ a ∈ visited, Ends edges a) →
      Finds edges (fun _ => ∀ a ∈ nodes, Ends edges a) (nodes.foldlM _ visited) from
    hloop [] nofun
  induction nodes with
  | nil => exact fun _ _ => nofun
  | cons node nodes ih =>
    intro visited hends
    rw [foldlM_cons]
    refine Finds.bind (P := fun v => node ∈ v ∧ ∀ a ∈ v, Ends edges a) ?_ ?_
    · split
      · next hnode =>
        refine (dfsCycle_finds _ hnode (nil_subset _) nofun (fun a ha _ => hends a ha) ?_).mono ?_
        · refine Nat.lt_succ_of_le ((Finset.card_filter_le _ _).trans ?_)
          exact (toFinset_card_le _).trans_eq (length_map _)
        · exact fun v h => ⟨h.1 mem_cons_self, fun a ha => h.2 a ha not_mem_nil⟩
      · next hnode => exact ⟨not_not.mp hnode, hends⟩
    · rintro v ⟨hnode, hends⟩
      exact (ih v hends).mono fun _ h => forall_mem_cons.mpr ⟨hends node hnode, h⟩

omit [DecidableEq V] in
theorem Ends.not_cycle {a : V} (h : Ends edges a) : ¬ TransGen (Edge edges) a a := by
  replace h := h.transGen
  induction h with
  | intro a _ ih => exact fun hcycle => ih a (transGen_swap.mpr hcycle) hcycle

end Lib
