import Vestrace.Base
import Mathlib.Algebra.Order.BigOperators.Group.List
import Mathlib.Algebra.Order.Ring.Nat
import Mathlib.Logic.Equiv.List

/-!
# The audit chain

`AuditIntegrityChain` links its entries by digests. The digest is taken over the fields of an entry,
each with a NUL byte after it, and the fields include free text. A text with a NUL in it can be cut
at another place: the chain has a twin that verifies as well and ends in the same digest.

SHA-256 and the renderings of ids and instants are parameters. A text stands for its UTF-8 bytes,
and the sequence is a natural number.
-/

namespace Vestrace.Trust

open List

def nul : Char := Char.ofNat 0

structure Rendering (α : Type) where
  show_ : α → String
  inj : Function.Injective show_
  nul_notMem : ∀ a, nul ∉ (show_ a).toList

/-- `sha256_digest` of a text, `to_string` of an id and `to_rfc3339` of an instant. -/
class AuditText where
  sha256 : Rendering String
  uuid : Rendering Uuid
  rfc3339 : Rendering Timestamp

def joined (parts : List String) : List Char := parts.flatMap fun part => part.toList ++ [nul]

structure AuditIntegrityEntry where
  sequence : ℕ
  workspaceId : WorkspaceId
  principalId : PrincipalId
  action : String
  resourceRef : String
  contentDigest : String
  previousDigest : String
  entryDigest : String
  recordedAt : Timestamp
  deriving DecidableEq

/-- What the callers of `append` write themselves. -/
def AuditIntegrityEntry.texts (entry : AuditIntegrityEntry) : List String :=
  [entry.action, entry.resourceRef, entry.contentDigest]

section

variable [AuditText]

def sha256Digest (parts : List String) : String := AuditText.sha256.show_ (.ofList (joined parts))

def AuditIntegrityEntry.parts (entry : AuditIntegrityEntry) : List String :=
  [entry.sequence.repr, AuditText.uuid.show_ entry.workspaceId.asUuid,
    AuditText.uuid.show_ entry.principalId.asUuid, entry.action, entry.resourceRef,
    entry.contentDigest, entry.previousDigest, AuditText.rfc3339.show_ entry.recordedAt]

def append (entries : List AuditIntegrityEntry) (workspaceId : WorkspaceId)
    (principalId : PrincipalId) (action resourceRef contentDigest : String)
    (recordedAt : Timestamp) : List AuditIntegrityEntry :=
  let sequence := entries.length + 1
  let previousDigest := (entries.getLast?.map (·.entryDigest)).getD "genesis"
  let entry : AuditIntegrityEntry := ⟨sequence, workspaceId, principalId, action, resourceRef,
    contentDigest, previousDigest, "", recordedAt⟩
  entries ++ [{ entry with entryDigest := sha256Digest entry.parts }]

def verifyFrom (index : ℕ) (previous : String) :
    List AuditIntegrityEntry → Except DomainError Unit
  | [] => .ok ()
  | entry :: rest =>
    if entry.sequence ≠ index + 1 ∨ entry.previousDigest ≠ previous then
      .error (.policyViolation "audit integrity chain continuity failed")
    else if entry.entryDigest ≠ sha256Digest entry.parts then
      .error (.policyViolation "audit integrity chain digest failed")
    else verifyFrom (index + 1) entry.entryDigest rest

def verify (entries : List AuditIntegrityEntry) : Except DomainError Unit :=
  verifyFrom 0 "genesis" entries

end

open AuditIntegrityEntry

open AuditText

/-! ## Reading the fields back -/

theorem repr_nul (n : ℕ) : nul ∉ n.repr.toList := by
  intro h
  rw [Nat.repr_eq_ofList_toDigits, String.toList_ofList] at h
  exact absurd (Nat.isDigit_of_mem_toDigits (by decide) (by decide) h) (by decide)

theorem count_joined (parts : List String) : (joined parts).count nul =
    parts.length + (parts.map fun part => part.toList.count nul).sum := by
  induction parts with
  | nil => rfl
  | cons part parts ih =>
    rw [joined, flatMap_cons, count_append, ← joined, ih, count_append,
      count_singleton_self, map_cons, sum_cons, length_cons]
    omega

theorem joined_inj_of_free {parts others : List String} (hlength : others.length = parts.length)
    (hfree : ∀ part ∈ parts, nul ∉ part.toList) (hothers : ∀ part ∈ others, nul ∉ part.toList)
    (h : joined others = joined parts) : others = parts := by
  induction parts generalizing others with
  | nil => exact eq_nil_of_length_eq_zero hlength
  | cons part parts ih =>
    obtain ⟨other, others, rfl⟩ := exists_cons_of_length_eq_add_one hlength
    rw [forall_mem_cons] at hfree hothers
    -- a part ends at the first NUL
    have hfirst : ∀ (text : String) (rest : List Char), nul ∉ text.toList →
        (text.toList ++ nul :: rest).takeWhile (· ≠ nul) = text.toList := by
      intro text rest hfree
      have hall : ∀ c ∈ text.toList, decide (c ≠ nul) = true := fun c hc =>
        decide_eq_true fun heq => hfree (heq ▸ hc)
      rw [takeWhile_append_of_pos hall]
      simp
    simp only [joined, flatMap_cons, append_assoc, singleton_append] at h
    have hpart := congrArg (·.takeWhile (· ≠ nul)) h
    simp only [hfirst _ _ hfree.1, hfirst _ _ hothers.1] at hpart
    obtain rfl := String.toList_inj.mp hpart
    rw [ih (Nat.succ.inj hlength) hfree.2 hothers.2 (List.cons.inj (append_cancel_left h)).2]

/-- **Parts without a NUL can be read off**, whatever the others are: there are no more NULs than
parts. -/
theorem joined_inj {parts others : List String} (hlength : others.length = parts.length)
    (hfree : ∀ part ∈ parts, nul ∉ part.toList) (h : joined others = joined parts) :
    others = parts := by
  refine joined_inj_of_free hlength hfree (fun part hpart => ?_) h
  have hcount := congrArg (·.count nul) h
  have hnone : (parts.map fun part => part.toList.count nul).sum = 0 := by
    refine sum_eq_zero fun n hn => ?_
    obtain ⟨part, hpart, rfl⟩ := mem_map.mp hn
    exact count_eq_zero.mpr (hfree part hpart)
  simp only [count_joined, hlength, hnone] at hcount
  have hzero : (others.map fun part => part.toList.count nul).sum = 0 := by omega
  exact count_eq_zero.mp (sum_eq_zero_iff.mp hzero _ (mem_map.mpr ⟨part, hpart, rfl⟩))

/-! ## Twins -/

section

variable [AuditText] {entry other : AuditIntegrityEntry} {entries others : List AuditIntegrityEntry}
  {index : ℕ} {previous : String}

theorem verifyFrom_cons : verifyFrom index previous (entry :: entries) = .ok () ↔
    entry.sequence = index + 1 ∧ entry.previousDigest = previous ∧
      entry.entryDigest = sha256Digest entry.parts ∧
      verifyFrom (index + 1) entry.entryDigest entries = .ok () := by
  rw [verifyFrom]
  split
  · next h => exact ⟨nofun, fun hall => absurd h (by simp [hall])⟩
  · next h =>
    rw [not_or, not_not, not_not] at h
    split
    · next hdigest => exact ⟨nofun, fun hall => absurd hall.2.2.1 hdigest⟩
    · next hdigest =>
      exact ⟨fun hrest => ⟨h.1, h.2, not_not.mp hdigest, hrest⟩, fun hall => hall.2.2.2⟩

theorem parts_nul (htexts : ∀ text ∈ entry.texts, nul ∉ text.toList)
    (hprevious : nul ∉ entry.previousDigest.toList) : ∀ part ∈ entry.parts, nul ∉ part.toList := by
  simp only [texts, parts, forall_mem_cons] at htexts ⊢
  exact ⟨repr_nul _, uuid.nul_notMem _, uuid.nul_notMem _, htexts.1, htexts.2.1,
    htexts.2.2.1, hprevious, rfc3339.nul_notMem _, forall_mem_nil _⟩

theorem eq_of_parts (hsequence : other.sequence = entry.sequence)
    (hparts : other.parts = entry.parts) (hdigest : other.entryDigest = entry.entryDigest) :
    other = entry := by
  simp only [parts, List.cons.injEq] at hparts
  obtain ⟨-, hworkspace, hprincipal, haction, hresource, hcontent, hprevious, hat, -⟩ := hparts
  have hids : ∀ {e : Entity} {a b : Id e}, a.asUuid = b.asUuid → a = b := congrArg Id.fromUuid
  cases entry
  cases other
  simp only [mk.injEq]
  exact ⟨hsequence, hids (uuid.inj hworkspace), hids (uuid.inj hprincipal),
    haction, hresource, hcontent, hprevious, hdigest, rfc3339.inj hat⟩

theorem verifyFrom_unique {previous' : String} (hlength : others.length = entries.length)
    (h : verifyFrom index previous entries = .ok ())
    (h' : verifyFrom index previous' others = .ok ())
    (hprevious : nul ∉ previous.toList)
    (htexts : ∀ entry ∈ entries, ∀ text ∈ entry.texts, nul ∉ text.toList)
    (hlast : (previous' :: others.map (·.entryDigest)).getLast? =
      (previous :: entries.map (·.entryDigest)).getLast?) :
    previous' = previous ∧ others = entries := by
  induction entries generalizing index previous previous' others with
  | nil =>
    obtain rfl := eq_nil_of_length_eq_zero hlength
    exact ⟨Option.some.inj hlast, rfl⟩
  | cons entry entries ih =>
    obtain ⟨other, others, rfl⟩ := exists_cons_of_length_eq_add_one hlength
    rw [verifyFrom_cons] at h h'
    obtain ⟨hsequence, rfl, hdigest, hrest⟩ := h
    obtain ⟨hsequence', rfl, hdigest', hrest'⟩ := h'
    rw [forall_mem_cons] at htexts
    have hfree : nul ∉ entry.entryDigest.toList := hdigest ▸ sha256.nul_notMem _
    simp only [map_cons, List.getLast?_cons_cons] at hlast
    obtain ⟨hsame, rfl⟩ := ih (Nat.succ.inj hlength) hrest hrest' hfree htexts.2 hlast
    have hjoined : joined other.parts = joined entry.parts := by
      rw [hdigest, hdigest'] at hsame
      exact String.ofList_inj.mp (sha256.inj hsame)
    have hparts : other.parts = entry.parts :=
      joined_inj rfl (parts_nul htexts.1 hprevious) hjoined
    rw [eq_of_parts (hsequence'.trans hsequence.symm) hparts hsame]
    exact ⟨rfl, rfl⟩

structure Twin (other entry : AuditIntegrityEntry) : Prop where
  action : other.action ≠ entry.action
  sequence : other.sequence = entry.sequence
  previous : other.previousDigest = entry.previousDigest
  digest : other.entryDigest = entry.entryDigest
  joined : joined other.parts = joined entry.parts

theorem exists_twin {text : String} (htext : text ∈ entry.texts) (hnul : nul ∈ text.toList) :
    ∃ other, Twin other entry := by
  obtain ⟨before, after, hsplit⟩ := append_of_mem hnul
  have hlength : ∀ {s s' : String}, s.toList.length ≠ s'.toList.length → s ≠ s' :=
    fun hne heq => hne (congrArg (·.toList.length) heq)
  simp only [texts, mem_cons, not_mem_nil, or_false] at htext
  rcases htext with rfl | rfl | rfl
  · refine ⟨{ entry with
      action := .ofList before
      resourceRef := .ofList (after ++ nul :: entry.resourceRef.toList) }, ?_, rfl, rfl, rfl, ?_⟩
    · exact hlength (by simp [hsplit])
    · simp [parts, Trust.joined, hsplit]
  · refine ⟨{ entry with
      action := .ofList (entry.action.toList ++ nul :: before)
      resourceRef := .ofList after }, ?_, rfl, rfl, rfl, ?_⟩
    · exact hlength (by simp)
    · simp [parts, Trust.joined, hsplit]
  · refine ⟨{ entry with
      action := .ofList (entry.action.toList ++ nul :: entry.resourceRef.toList)
      resourceRef := .ofList before
      contentDigest := .ofList after }, ?_, rfl, rfl, rfl, ?_⟩
    · exact hlength (by simp)
    · simp [parts, Trust.joined, hsplit]

theorem Twin.verifyFrom (h : Twin other entry) (before : List AuditIntegrityEntry) :
    verifyFrom index previous (before ++ other :: entries) = .ok () ↔
      verifyFrom index previous (before ++ entry :: entries) = .ok () := by
  induction before generalizing index previous with
  | nil =>
    rw [nil_append, nil_append, verifyFrom_cons, verifyFrom_cons, h.sequence, h.previous,
      h.digest, sha256Digest, sha256Digest, h.joined]
  | cons first before ih =>
    rw [cons_append, cons_append, verifyFrom_cons, verifyFrom_cons, ih]

inductive Grown : List AuditIntegrityEntry → Prop where
  | new : Grown []
  | append {entries : List AuditIntegrityEntry} (h : Grown entries) (workspaceId : WorkspaceId)
      (principalId : PrincipalId) (action resourceRef contentDigest : String)
      (recordedAt : Timestamp) :
      Grown (append entries workspaceId principalId action resourceRef contentDigest recordedAt)

theorem verifyFrom_concat (h : verifyFrom index previous entries = .ok ())
    (hsequence : entry.sequence = index + entries.length + 1)
    (hprevious : entry.previousDigest = ((entries.getLast?.map (·.entryDigest)).getD previous))
    (hdigest : entry.entryDigest = sha256Digest entry.parts) :
    verifyFrom index previous (entries ++ [entry]) = .ok () := by
  induction entries generalizing index previous with
  | nil => exact verifyFrom_cons.mpr ⟨hsequence, hprevious, hdigest, rfl⟩
  | cons first entries ih =>
    obtain ⟨hfirst, hlink, hown, hrest⟩ := verifyFrom_cons.mp h
    refine verifyFrom_cons.mpr ⟨hfirst, hlink, hown, ih hrest ?_ ?_⟩
    · rw [hsequence, length_cons]
      omega
    · rw [hprevious]
      cases entries <;> rfl

theorem Grown.verifies (h : Grown entries) : verify entries = .ok () := by
  induction h with
  | new => rfl
  | append _ _ _ _ _ _ _ ih =>
    exact verifyFrom_concat ih (congrArg (· + 1) (Nat.zero_add _).symm) rfl rfl

/-- **The last digest stands for the chain exactly if no text of it has a NUL**: else another
chain of that length verifies and ends in the same digest. What is appended always verifies. -/
theorem untwinned_iff (entries : List AuditIntegrityEntry) :
    (Grown entries → verify entries = .ok ()) ∧
    (verify entries = .ok () → ((∀ others, verify others = .ok () → others.length = entries.length →
        (others.map (·.entryDigest)).getLast? = (entries.map (·.entryDigest)).getLast? →
          others = entries) ↔
      ∀ entry ∈ entries, ∀ text ∈ entry.texts, nul ∉ text.toList)) := by
  refine ⟨Grown.verifies, fun hverified => ⟨fun hunique entry hentry text htext hnul => ?_, ?_⟩⟩
  · obtain ⟨before, after, rfl⟩ := append_of_mem hentry
    obtain ⟨twin, htwin⟩ := exists_twin htext hnul
    have hsame := hunique (before ++ twin :: after) ((htwin.verifyFrom before).mpr hverified)
      (by simp) (by simp [htwin.digest])
    exact htwin.action (congrArg _ (List.cons.inj (append_cancel_left hsame)).1)
  · intro htexts others hothers hlength hlast
    refine (verifyFrom_unique hlength hverified hothers (by decide) htexts ?_).2
    rw [List.getLast?_cons, List.getLast?_cons, hlast]

end

/-- As many ones as the number of a thing says. -/
def unary {α : Type} (number : α → ℕ) (h : Function.Injective number) : Rendering α where
  show_ a := .ofList (List.replicate (number a) '1')
  inj a b heq := h (by simpa using congrArg List.length (String.ofList_inj.mp heq))
  nul_notMem a hmem := by
    rw [String.toList_ofList] at hmem
    exact absurd (eq_of_mem_replicate hmem) (by decide)

@[reducible] def plainText : AuditText where
  sha256 := unary (fun text => Encodable.encode (text.toList.map Char.toNat)) fun _ _ h =>
    String.toList_inj.mp
      (map_injective_iff.mpr (fun _ _ => Char.toNat_inj.mp) (Encodable.encode_injective h))
  uuid := unary BitVec.toNat fun _ _ => BitVec.eq_of_toNat_eq
  rfc3339 := unary _ Encodable.encode_injective

/-- **A forged entry**: who may read the report, and what was read, is told apart in no way. -/
theorem forged_entry_verifies : ∃ (_ : AuditText) (entries others : List AuditIntegrityEntry),
    Grown entries ∧ verify entries = .ok () ∧ verify others = .ok () ∧
      others.length = entries.length ∧
      (others.map (·.entryDigest)).getLast? = (entries.map (·.entryDigest)).getLast? ∧
      others ≠ entries := by
  let _ : AuditText := plainText
  have hgrown : Grown (append [] ⟨2⟩ ⟨3⟩ "read\x00all" "report" "digest" 0) := .append .new ..
  obtain ⟨entry, hentries, haction⟩ : ∃ entry,
      append [] ⟨2⟩ ⟨3⟩ "read\x00all" "report" "digest" 0 = [entry] ∧
        entry.action = "read\x00all" := ⟨_, rfl, rfl⟩
  rw [hentries] at hgrown
  have hnul : nul ∈ entry.action.toList := by
    rw [haction]
    decide
  obtain ⟨twin, htwin⟩ :=
    exists_twin (show entry.action ∈ entry.texts from mem_cons_self) hnul
  refine ⟨_, _, [twin], hgrown, hgrown.verifies, ?_, rfl, ?_, ?_⟩
  · exact (htwin.verifyFrom []).mpr hgrown.verifies
  · exact congrArg some htwin.digest
  · exact fun heq => htwin.action (congrArg _ (List.cons.inj heq).1)

/-- Who read the report, and who wrote it afterwards. -/
def readThenWrite [AuditText] : List AuditIntegrityEntry :=
  append (append [] ⟨2⟩ ⟨3⟩ "read" "report" "digest" 0) ⟨2⟩ ⟨4⟩ "write" "report" "digest" 1

theorem untwinned_sample : ∃ (_ : AuditText) (entries : List AuditIntegrityEntry),
    verify entries = .ok () ∧ entries.length = 2 ∧ ∀ others, verify others = .ok () →
      others.length = entries.length →
      (others.map (·.entryDigest)).getLast? = (entries.map (·.entryDigest)).getLast? →
        others = entries := by
  let _ : AuditText := plainText
  have hgrown : Grown readThenWrite := .append (.append .new ..) ..
  obtain ⟨hverifies, huntwinned⟩ := untwinned_iff readThenWrite
  have htexts : readThenWrite.map (·.texts) =
      [["read", "report", "digest"], ["write", "report", "digest"]] := rfl
  have hplain : ∀ texts ∈ readThenWrite.map (·.texts), ∀ text ∈ texts, nul ∉ text.toList := by
    rw [htexts]
    decide
  refine ⟨_, _, hverifies hgrown, rfl, (huntwinned hgrown.verifies).mpr ?_⟩
  exact fun entry hentry => hplain _ (mem_map_of_mem hentry)

end Vestrace.Trust
