import Mathlib.Data.List.Induction
import Mathlib.Data.List.Perm.Subperm
import Mathlib.Data.List.Sigma
import Mathlib.Order.Lattice

/-!
# Sorted maps — a `BTreeMap` as its entries in key order

A `BTreeMap` iterates in key order and is equal to another exactly when the two
hold the same values at the same keys. Both are what a list of entries in
strictly increasing key order gives, so a `SortedMap` is such a list.
-/

namespace Lib

open List

structure SortedMap (κ β : Type) [LinearOrder κ] where
  entries : List (Sigma fun _ : κ => β)
  sorted : entries.Pairwise fun a b => a.1 < b.1

namespace SortedMap

variable {κ β : Type} [LinearOrder κ] {m : SortedMap κ β} {k : κ} {m' : SortedMap κ β} {v : β}

theorem eq_of_entries_eq (h : m.entries = m'.entries) : m = m' := by
  cases m
  cases m'
  cases h
  rfl

instance [DecidableEq β] : DecidableEq (SortedMap κ β) := fun m m' =>
  decidable_of_iff (m.entries = m'.entries) ⟨eq_of_entries_eq, fun h => h ▸ rfl⟩

def empty : SortedMap κ β := ⟨[], List.Pairwise.nil⟩

def get (m : SortedMap κ β) (k : κ) : Option β := m.entries.dlookup k

def len (m : SortedMap κ β) : Nat := m.entries.length

def values (m : SortedMap κ β) : List β := m.entries.map Sigma.snd

/-! ## Reading -/

theorem nodupKeys (m : SortedMap κ β) : m.entries.NodupKeys :=
  nodupKeys_iff_pairwise.mpr (m.sorted.imp ne_of_lt)

theorem mem_entries : ⟨k, v⟩ ∈ m.entries ↔ m.get k = some v :=
  (mem_dlookup_iff m.nodupKeys).symm

theorem mem_values : v ∈ m.values ↔ ∃ k, m.get k = some v := by
  rw [values, mem_map]
  constructor
  · rintro ⟨⟨k, w⟩, he, rfl⟩
    exact ⟨k, mem_entries.mp he⟩
  · rintro ⟨k, hk⟩
    exact ⟨⟨k, v⟩, mem_entries.mpr hk, rfl⟩

@[simp] theorem get_empty (k : κ) : (empty : SortedMap κ β).get k = none := rfl

/-- A map that holds everything another one holds, and no more entries, is that map. -/
theorem eq_of_get_le (h : ∀ k v, m.get k = some v → m'.get k = some v) (hlen : m'.len ≤ m.len) :
    m = m' := by
  have hsub : m.entries ⊆ m'.entries := fun e he => mem_entries.mpr (h e.1 e.2 (mem_entries.mp he))
  have hnodup : m.entries.Nodup := m.nodupKeys.nodup
  have hperm : m.entries.Perm m'.entries := (hnodup.subperm hsub).perm_of_length_le hlen
  have hasymm : ∀ a b, a ∈ m.entries → b ∈ m'.entries → a.1 < b.1 → b.1 < a.1 → a = b :=
    fun a b _ _ hab hba => absurd hab (lt_asymm hba)
  exact eq_of_entries_eq (hperm.eq_of_pairwise hasymm m.sorted m'.sorted)

/-! ## Writing -/

/-- Insertion into entries in key order; an entry with the same key is replaced. -/
def insertEntry (k : κ) (v : β) : List (Sigma fun _ : κ => β) → List (Sigma fun _ : κ => β)
  | [] => [⟨k, v⟩]
  | e :: es =>
    if k < e.1 then ⟨k, v⟩ :: e :: es
    else if k = e.1 then ⟨k, v⟩ :: es
    else e :: insertEntry k v es

theorem mem_of_mem_insertEntry {x : Sigma fun _ : κ => β} :
    ∀ {es : List (Sigma fun _ : κ => β)}, x ∈ insertEntry k v es → x = ⟨k, v⟩ ∨ x ∈ es
  | [], h => Or.inl (mem_singleton.mp h)
  | e :: es, h => by
    rw [insertEntry] at h
    split_ifs at h with hlt heq
    · exact mem_cons.mp h
    · exact (mem_cons.mp h).imp_right (mem_cons_of_mem e)
    · rcases mem_cons.mp h with rfl | h
      · exact Or.inr mem_cons_self
      · exact (mem_of_mem_insertEntry h).imp_right (mem_cons_of_mem e)

theorem sorted_insertEntry (k : κ) (v : β) :
    ∀ {es : List (Sigma fun _ : κ => β)}, es.Pairwise (fun a b => a.1 < b.1) →
      (insertEntry k v es).Pairwise fun a b => a.1 < b.1
  | [], _ => pairwise_singleton _ _
  | e :: es, h => by
    obtain ⟨he, hes⟩ := pairwise_cons.mp h
    rw [insertEntry]
    split_ifs with hlt heq
    · refine pairwise_cons.mpr ⟨fun x hx => ?_, h⟩
      rcases mem_cons.mp hx with rfl | hx
      · exact hlt
      · exact lt_trans hlt (he x hx)
    · exact pairwise_cons.mpr ⟨fun x hx => heq ▸ he x hx, hes⟩
    · refine pairwise_cons.mpr ⟨fun x hx => ?_, sorted_insertEntry k v hes⟩
      rcases mem_of_mem_insertEntry hx with rfl | hx
      · exact lt_of_le_of_ne (not_lt.mp hlt) (Ne.symm heq)
      · exact he x hx

def insert (m : SortedMap κ β) (k : κ) (v : β) : SortedMap κ β :=
  ⟨insertEntry k v m.entries, sorted_insertEntry k v m.sorted⟩

theorem dlookup_insertEntry (k j : κ) (v : β) (es : List (Sigma fun _ : κ => β)) :
    (insertEntry k v es).dlookup j = if j = k then some v else es.dlookup j := by
  induction es with
  | nil =>
    by_cases hj : j = k
    · subst hj
      rw [insertEntry, dlookup_cons_eq, if_pos rfl]
    · rw [insertEntry, dlookup_cons_ne _ _ hj, if_neg hj]
  | cons e es ih =>
    obtain ⟨l, w⟩ := e
    rw [insertEntry]
    by_cases hj : j = k
    · subst hj
      rw [if_pos rfl]
      split_ifs with hlt heq
      · exact dlookup_cons_eq _ _ _
      · exact dlookup_cons_eq _ _ _
      · rw [dlookup_cons_ne _ _ heq, ih, if_pos rfl]
    · rw [if_neg hj]
      split_ifs with hlt heq
      · exact dlookup_cons_ne _ _ hj
      · rw [dlookup_cons_ne _ _ hj, dlookup_cons_ne _ _ (heq ▸ hj)]
      · by_cases hl : j = l
        · subst hl
          rw [dlookup_cons_eq, dlookup_cons_eq]
        · rw [dlookup_cons_ne _ _ hl, dlookup_cons_ne _ _ hl, ih, if_neg hj]

theorem get_insert (m : SortedMap κ β) (k j : κ) (v : β) :
    (m.insert k v).get j = if j = k then some v else m.get j :=
  dlookup_insertEntry k j v m.entries

@[simp] theorem get_insert_self (m : SortedMap κ β) (k : κ) (v : β) :
    (m.insert k v).get k = some v := by
  rw [get_insert, if_pos rfl]

theorem get_insert_ne (m : SortedMap κ β) {k j : κ} (h : j ≠ k) (v : β) :
    (m.insert k v).get j = m.get j := by
  rw [get_insert, if_neg h]

theorem length_insertEntry (k : κ) (v : β) (es : List (Sigma fun _ : κ => β))
    (hes : es.Pairwise fun a b => a.1 < b.1) :
    (insertEntry k v es).length = es.length + if k ∈ es.keys then 0 else 1 := by
  induction es with
  | nil => rfl
  | cons e es ih =>
    obtain ⟨he, hes⟩ := pairwise_cons.mp hes
    rw [insertEntry, keys_cons]
    by_cases hlt : k < e.1
    · -- `k` is below every key of a sorted list, so it is not one of them
      have hnot : k ∉ e.1 :: es.keys := by
        intro hk
        rcases mem_cons.mp hk with hk | hk
        · exact ne_of_lt hlt hk
        · obtain ⟨x, hx⟩ := exists_of_mem_keys hk
          exact lt_asymm hlt (he _ hx)
      rw [if_pos hlt, if_neg hnot, length_cons]
    · by_cases heq : k = e.1
      · rw [if_neg hlt, if_pos heq, if_pos (heq ▸ mem_cons_self)]
        rfl
      · have hiff : k ∈ e.1 :: es.keys ↔ k ∈ es.keys := mem_cons.trans (or_iff_right heq)
        rw [if_neg hlt, if_neg heq, length_cons, length_cons, ih hes, if_congr hiff rfl rfl]
        omega

theorem len_insert_of_get_none (h : m.get k = none) (v : β) : (m.insert k v).len = m.len + 1 := by
  have hk : k ∉ m.entries.keys := dlookup_eq_none.mp h
  rw [len, insert, length_insertEntry k v _ m.sorted, if_neg hk, len]

theorem len_insert_of_get_some {w : β} (h : m.get k = some w) (v : β) :
    (m.insert k v).len = m.len := by
  have hk : k ∈ m.entries.keys := dlookup_isSome.mp (Option.isSome_of_eq_some h)
  rw [len, insert, length_insertEntry k v _ m.sorted, if_pos hk, len, Nat.add_zero]

@[simp] theorem insert_insert_self (m : SortedMap κ β) (k : κ) (v w : β) :
    (m.insert k v).insert k w = m.insert k w := by
  refine Eq.symm (eq_of_get_le (fun j x hj => ?_) ?_)
  · by_cases hjk : j = k
    · subst hjk
      rw [get_insert_self] at hj ⊢
      exact hj
    · rw [get_insert_ne _ hjk] at hj
      rw [get_insert_ne _ hjk, get_insert_ne _ hjk, hj]
  · rw [len_insert_of_get_some (get_insert_self m k v)]
    cases h : m.get k with
    | none => rw [len_insert_of_get_none h, len_insert_of_get_none h]
    | some x => rw [len_insert_of_get_some h, len_insert_of_get_some h]

/-! ## A map from a list -/

section

variable {key : β → κ} {xs : List β}

def ofList (key : β → κ) (xs : List β) : SortedMap κ β :=
  xs.foldl (fun m x => m.insert (key x) x) empty

theorem ofList_concat (key : β → κ) (xs : List β) (x : β) :
    ofList key (xs ++ [x]) = (ofList key xs).insert (key x) x := foldl_concat ..

theorem get_ofList (h : (xs.map key).Nodup) :
    (ofList key xs).get k = some v ↔ v ∈ xs ∧ key v = k := by
  induction xs using reverseRecOn with
  | nil => simp [ofList]
  | append_singleton xs x ih =>
    rw [map_append, map_singleton, ← concat_eq_append, nodup_concat] at h
    obtain ⟨hnew, hxs⟩ := h
    rw [ofList_concat, get_insert]
    split_ifs with hk
    · subst hk
      simp only [Option.some.injEq, mem_append, mem_singleton]
      constructor
      · intro hv
        exact hv ▸ ⟨.inr rfl, rfl⟩
      · intro hv
        rcases hv with ⟨hmem | rfl, hkey⟩
        · exact absurd (hkey ▸ mem_map_of_mem hmem) hnew
        · rfl
    · rw [ih hxs, mem_append, mem_singleton]
      constructor
      · intro hv
        exact ⟨.inl hv.1, hv.2⟩
      · intro hv
        rcases hv with ⟨hmem | rfl, hkey⟩
        · exact ⟨hmem, hkey⟩
        · exact absurd hkey.symm hk

theorem get_ofList_eq_none (h : (xs.map key).Nodup) :
    (ofList key xs).get k = none ↔ k ∉ xs.map key := by
  rw [Option.eq_none_iff_forall_ne_some, mem_map]
  constructor
  · intro hnone hk
    obtain ⟨v, hv, hkey⟩ := hk
    exact hnone v ((get_ofList h).mpr ⟨hv, hkey⟩)
  · intro hno v hv
    exact hno ⟨v, (get_ofList h).mp hv⟩

theorem len_ofList (h : (xs.map key).Nodup) : (ofList key xs).len = xs.length := by
  induction xs using reverseRecOn with
  | nil => rfl
  | append_singleton xs x ih =>
    rw [map_append, map_singleton, ← concat_eq_append, nodup_concat] at h
    rw [ofList_concat, len_insert_of_get_none ((get_ofList_eq_none h.2).mpr h.1), ih h.2,
      length_append, length_singleton]

theorem insertEntry_of_lt {es : List (Sigma fun _ : κ => β)} (h : ∀ e ∈ es, e.1 < k) :
    insertEntry k v es = es ++ [⟨k, v⟩] := by
  induction es with
  | nil => rfl
  | cons e es ih =>
    obtain ⟨he, hes⟩ := forall_mem_cons.mp h
    rw [insertEntry, if_neg (lt_asymm he), if_neg (ne_of_gt he), ih hes, cons_append]

theorem values_ofList (h : xs.Pairwise fun a b => key a < key b) : (ofList key xs).values = xs := by
  have hentries : (ofList key xs).entries = xs.map fun x => ⟨key x, x⟩ := by
    induction xs using reverseRecOn with
    | nil => rfl
    | append_singleton xs x ih =>
      obtain ⟨hxs, -, hlast⟩ := pairwise_append.mp h
      rw [ofList_concat, map_append, map_singleton, ← ih hxs]
      refine insertEntry_of_lt fun e he => ?_
      rw [ih hxs] at he
      obtain ⟨y, hy, rfl⟩ := mem_map.mp he
      exact hlast y hy x mem_cons_self
  rw [values, hentries, map_map]
  exact map_id' xs

theorem values_sorted (h : ∀ k v, m.get k = some v → key v = k) :
    m.values.Pairwise fun a b => key a < key b := by
  refine pairwise_map.mpr (m.sorted.imp_of_mem fun {a b} ha hb hlt => ?_)
  rw [h a.1 a.2 (mem_entries.mp ha), h b.1 b.2 (mem_entries.mp hb)]
  exact hlt

theorem ofList_values (h : ∀ k v, m.get k = some v → key v = k) : ofList key m.values = m := by
  have hsorted := values_sorted h
  have hnodup : (m.values.map key).Nodup :=
    pairwise_map.mpr (hsorted.imp ne_of_lt)
  refine eq_of_get_le (fun k v hget => ?_) (le_of_eq ?_)
  · obtain ⟨hmem, rfl⟩ := (get_ofList hnodup).mp hget
    obtain ⟨k, hk⟩ := mem_values.mp hmem
    rw [h k v hk]
    exact hk
  · rw [len_ofList hnodup, values, length_map, len]

end

/-! ## Comparing a map with an earlier one -/

section

variable {α : Type}

/-- One round of the loop: an element that is as it was goes by; one that is not must
be allowed, and the first of its kind. The flag says whether there has been one. -/
def oneStep (same allowed : α → Bool) (found : Bool) (a : α) : Option Bool :=
  if same a then some found
  else if found || !allowed a then none
  else some true

def exactlyOne (same allowed : α → Bool) (as : List α) : Bool :=
  as.foldlM (oneStep same allowed) false == some true

variable {same allowed : α → Bool} {as : List α}

theorem foldlM_oneStep_true :
    as.foldlM (oneStep same allowed) true = some true ↔ ∀ a ∈ as, same a = true := by
  induction as with
  | nil => simp
  | cons a as ih =>
    rw [foldlM_cons, forall_mem_cons, ← ih]
    by_cases h : same a = true
    · simp [oneStep, h]
    · simp [oneStep, h]

theorem exactlyOne_iff : exactlyOne same allowed as = true ↔
      ∃ before a after, as = before ++ a :: after ∧ same a = false ∧ allowed a = true ∧
        ∀ x ∈ before ++ after, same x = true := by
  rw [exactlyOne, beq_iff_eq]
  induction as with
  | nil => simp
  | cons a as ih =>
    rw [foldlM_cons]
    constructor
    · intro h
      by_cases hs : same a = true
      · rw [oneStep, if_pos hs] at h
        obtain ⟨before, b, after, rfl, hb, hok, hall⟩ := ih.mp h
        exact ⟨a :: before, b, after, rfl, hb, hok, forall_mem_cons.mpr ⟨hs, hall⟩⟩
      · by_cases hok : allowed a = true
        · rw [oneStep, if_neg hs, if_neg (by simp [hok])] at h
          exact ⟨[], a, as, rfl, Bool.eq_false_iff.mpr hs, hok, foldlM_oneStep_true.mp h⟩
        · rw [oneStep, if_neg hs, if_pos (by simp [hok])] at h
          cases h
    · rintro ⟨before, b, after, has, hb, hok, hall⟩
      cases before with
      | nil =>
        obtain ⟨rfl, rfl⟩ := cons.inj has
        rw [oneStep, if_neg (by simp [hb]), if_neg (by simp [hok])]
        exact foldlM_oneStep_true.mpr hall
      | cons c before =>
        obtain ⟨rfl, rfl⟩ := cons.inj has
        obtain ⟨hs, hrest⟩ := forall_mem_cons.mp hall
        rw [oneStep, if_pos hs]
        exact ih.mpr ⟨before, b, after, rfl, hb, hok, hrest⟩

/-- Around an entry of a map, the other entries are those with another key. -/
theorem mem_around_iff {before after : List (Sigma fun _ : κ => β)}
    (h : m.entries = before ++ ⟨k, v⟩ :: after) (x : Sigma fun _ : κ => β) :
    x ∈ before ++ after ↔ m.get x.1 = some x.2 ∧ x.1 ≠ k := by
  have hsorted := m.sorted
  rw [h, pairwise_append] at hsorted
  obtain ⟨-, hafter, hbefore⟩ := hsorted
  rw [← mem_entries, h, mem_append, mem_append, mem_cons]
  constructor
  · rintro (hx | hx)
    · exact ⟨.inl hx, ne_of_lt (hbefore x hx _ mem_cons_self)⟩
    · exact ⟨.inr (.inr hx), ne_of_gt ((pairwise_cons.mp hafter).1 x hx)⟩
  · rintro ⟨hx | hx | hx, hne⟩
    · exact .inl hx
    · exact absurd (congrArg Sigma.fst hx) hne
    · exact .inr hx

variable [DecidableEq β]

def isOneChange (ok : κ → β → β → Bool) (next prev : SortedMap κ β) : Bool :=
  next.len == prev.len &&
    exactlyOne (fun e => next.get e.1 == some e.2) (fun e => (next.get e.1).any (ok e.1 e.2))
      prev.entries

/-- Every entry of `next` was in `prev`, except exactly one, which `ok` allows, and
`next` has one entry more. -/
def isOneAddition (ok : κ → β → Bool) (next prev : SortedMap κ β) : Bool :=
  next.len == prev.len + 1 && exactlyOne (fun e => prev.get e.1 == some e.2)
      (fun e => (prev.get e.1).isNone && ok e.1 e.2) next.entries

variable {next prev : SortedMap κ β}

theorem isOneChange_iff {ok : κ → β → β → Bool} : isOneChange ok next prev = true ↔
      ∃ k before after, prev.get k = some before ∧ after ≠ before ∧ ok k before after = true ∧
        next = prev.insert k after := by
  rw [isOneChange, Bool.and_eq_true, beq_iff_eq, exactlyOne_iff]
  constructor
  · rintro ⟨hlen, l, ⟨k, before⟩, r, hsplit, hdiff, hok, hall⟩
    have hbefore : prev.get k = some before := mem_entries.mp (by rw [hsplit]; simp)
    obtain ⟨after, hafter, hok⟩ := (Option.any_eq_true _ _).mp hok
    have hne : after ≠ before := by
      rintro rfl
      rw [hafter, beq_self_eq_true] at hdiff
      cases hdiff
    refine ⟨k, before, after, hbefore, hne, hok, Eq.symm (eq_of_get_le ?_ ?_)⟩
    · intro j v hj
      by_cases hjk : j = k
      · subst hjk
        rw [get_insert_self] at hj
        exact hafter.trans hj
      · rw [get_insert_ne prev hjk] at hj
        exact beq_iff_eq.mp (hall ⟨j, v⟩ ((mem_around_iff hsplit _).mpr ⟨hj, hjk⟩))
    · rw [len_insert_of_get_some hbefore, hlen]
  · rintro ⟨k, before, after, hbefore, hne, hok, rfl⟩
    obtain ⟨l, r, hsplit⟩ := append_of_mem (mem_entries.mpr hbefore)
    refine ⟨len_insert_of_get_some hbefore after, l, ⟨k, before⟩, r, hsplit, ?_, ?_, ?_⟩
    · rw [get_insert_self]
      exact beq_eq_false_iff_ne.mpr fun h => hne (Option.some.inj h)
    · rw [get_insert_self]
      exact hok
    · intro x hx
      obtain ⟨hget, hxk⟩ := (mem_around_iff hsplit x).mp hx
      rw [get_insert_ne prev hxk, hget, beq_self_eq_true]

theorem isOneAddition_iff {ok : κ → β → Bool} : isOneAddition ok next prev = true ↔
      ∃ k v, prev.get k = none ∧ ok k v = true ∧ next = prev.insert k v := by
  rw [isOneAddition, Bool.and_eq_true, beq_iff_eq, exactlyOne_iff]
  constructor
  · rintro ⟨hlen, l, ⟨k, v⟩, r, hsplit, -, hok, hall⟩
    have hv : next.get k = some v := mem_entries.mp (by rw [hsplit]; simp)
    obtain ⟨hnone, hok⟩ := Bool.and_eq_true_iff.mp hok
    have hnone : prev.get k = none := Option.isNone_iff_eq_none.mp hnone
    refine ⟨k, v, hnone, hok, eq_of_get_le ?_ ?_⟩
    · intro j w hj
      by_cases hjk : j = k
      · subst hjk
        rw [get_insert_self, ← hv, hj]
      · rw [get_insert_ne prev hjk]
        exact beq_iff_eq.mp (hall ⟨j, w⟩ ((mem_around_iff hsplit _).mpr ⟨hj, hjk⟩))
    · rw [len_insert_of_get_none hnone, hlen]
  · rintro ⟨k, v, hnone, hok, rfl⟩
    obtain ⟨l, r, hsplit⟩ := append_of_mem (mem_entries.mpr (get_insert_self prev k v))
    refine ⟨len_insert_of_get_none hnone v, l, ⟨k, v⟩, r, hsplit, ?_, ?_, ?_⟩
    · rw [hnone]
      rfl
    · rw [hnone, hok]
      rfl
    · intro x hx
      obtain ⟨hget, hxk⟩ := (mem_around_iff hsplit x).mp hx
      rw [get_insert_ne prev hxk] at hget
      rw [hget, beq_self_eq_true]

end

end SortedMap

end Lib
