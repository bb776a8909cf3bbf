import Mathlib.Data.List.DropRight
import Mathlib.Data.List.Infix
import Mathlib.Data.String.Basic

/-!
# String operations — the `str` methods, over character lists

The handful of Rust `str` methods the development's sources call, each written over
`String.toList` so that it reduces on literals and its lemmas are list lemmas.
-/

namespace Lib.Str

open List String

def isWhitespace (c : Char) : Bool :=
  let n := c.toNat
  (9 ≤ n && n ≤ 13) || n == 0x20 || n == 0x85 || n == 0xA0 || n == 0x1680 ||
    (0x2000 ≤ n && n ≤ 0x200A) || n == 0x2028 || n == 0x2029 || n == 0x202F ||
    n == 0x205F || n == 0x3000

def trim (s : String) : String :=
  ofList ((s.toList.dropWhile isWhitespace).rdropWhile isWhitespace)

def isBlank (s : String) : Bool := (trim s).toList.isEmpty

def contains (s : String) (c : Char) : Bool := s.toList.contains c

def startsWith (s p : String) : Bool := p.toList.isPrefixOf s.toList

def endsWith (s : String) (c : Char) : Bool := s.toList.getLast? == some c

def stripPrefix (s p : String) : Option String :=
  if startsWith s p then some (ofList (s.toList.drop p.toList.length)) else none

/-- `str::split_once`, on characters: the text before and after the first
occurrence of `sep`. -/
def splitOnceChars (sep : List Char) : List Char → Option (List Char × List Char)
  | [] => if sep.isEmpty then some ([], []) else none
  | c :: cs =>
    if sep.isPrefixOf (c :: cs) then some ([], (c :: cs).drop sep.length)
    else (splitOnceChars sep cs).map fun r => (c :: r.1, r.2)

def splitOnce (s sep : String) : Option (String × String) :=
  (splitOnceChars sep.toList s.toList).map fun r => (ofList r.1, ofList r.2)

theorem startsWith_iff {s p : String} : startsWith s p = true ↔ p.toList <+: s.toList := by
  simp [startsWith, isPrefixOf_iff_prefix]

theorem stripPrefix_eq_some {s p r : String} :
    stripPrefix s p = some r ↔ s.toList = p.toList ++ r.toList := by
  unfold stripPrefix
  split
  next h =>
    obtain ⟨t, ht⟩ := startsWith_iff.mp h
    rw [← ht, drop_left, Option.some_inj, ← toList_inj, toList_ofList]
    exact (append_right_inj p.toList).symm
  next h =>
    refine ⟨nofun, fun hs => ?_⟩
    exact absurd (startsWith_iff.mpr ⟨r.toList, hs.symm⟩) h

variable {s : String} {c : Char}

theorem endsWith_iff : endsWith s c = true ↔ s.toList.getLast? = some c := by
  simp [endsWith]

theorem contains_iff : contains s c = true ↔ c ∈ s.toList := by
  simp [contains]

/-- What is as long as the trimmed text was not trimmed. -/
theorem eq_of_trim_size (h : (trim s).utf8ByteSize = s.utf8ByteSize) : trim s = s := by
  have htrim : (trim s).toList <:+: s.toList := by
    rw [trim, toList_ofList]
    exact ( rdropWhile_prefix _ _).isInfix.trans (dropWhile_suffix _).isInfix
  obtain ⟨before, after, hs⟩ := htrim
  have hlen : ∀ t : String, t.utf8ByteSize = utf8Len t.toList := by
    intro t
    rw [← utf8ByteSize_ofList, ofList_toList]
  rw [hlen, hlen, ← hs, utf8Len_append, utf8Len_append] at h
  have hbefore : before = [] := utf8Len_eq_zero.mp (by omega)
  have hafter : after = [] := utf8Len_eq_zero.mp (by omega)
  rw [← toList_inj, ← hs, hbefore, hafter, nil_append, append_nil]

theorem splitOnceChars_eq_some {sep cs : List Char} {r : List Char × List Char}
    (h : splitOnceChars sep cs = some r) : cs = r.1 ++ sep ++ r.2 := by
  induction cs generalizing r with
  | nil =>
    rw [splitOnceChars] at h
    split at h
    · next hsep =>
      cases h
      rw [isEmpty_iff.mp hsep]
      rfl
    · cases h
  | cons c cs ih =>
    rw [splitOnceChars] at h
    split at h
    · next hsep =>
      cases h
      obtain ⟨rest, hrest⟩ := isPrefixOf_iff_prefix.mp hsep
      rw [← hrest, drop_left]
      rfl
    · obtain ⟨r', hr', rfl⟩ := Option.map_eq_some_iff.mp h
      rw [ih hr']
      rfl

/-! ## Boundary containment -/

/-- `s` continues past `p`, and where it does so is a boundary: either `p` itself
ends in the separator, or the continuation starts with it. -/
def Continues (sep : Char) (s p : List Char) : Prop :=
  ∃ r, s = p ++ r ∧ r ≠ [] ∧ (p.getLast? = some sep ∨ r.head? = some sep)

/-- Continuations compose: what lies beyond `q`, itself beyond `p`, lies beyond `p`
at `p`'s own boundary. -/
theorem Continues.trans {sep : Char} {s q p : List Char} (hsq : Continues sep s q)
    (hqp : Continues sep q p) : Continues sep s p := by
  obtain ⟨r₁, rfl, -, -⟩ := hsq
  obtain ⟨r₂, rfl, hne, hb⟩ := hqp
  refine ⟨r₂ ++ r₁, append_assoc .., by simp [hne], ?_⟩
  rcases hb with hp | hr
  · exact Or.inl hp
  · -- the boundary character is the first of the nearer continuation
    exact Or.inr (by cases r₂ with
      | nil => exact absurd rfl hne
      | cons c cs => simpa using hr)

end Lib.Str
