import Vestrace.Lib.Str
import Vestrace.Lib.Guard
import Vestrace.Base

/-!
# Scopes — what a selector and a resource scope cover

`selector_is_within` orders operations by their dotted names and `scope_is_within`
orders resources by their slash-separated ones. A chain of delegations is sound only if both are
transitive.
-/

namespace Vestrace.Security

open Lib Str

variable {parent child : String}

/-! ## The two relations -/

def selectorIsWithin (child parent : String) : Bool :=
  if Str.contains child '*' || Str.contains parent '*' then false
  else child == parent || Str.startsWith child (parent ++ ".")

def scopeIsWithin (child parent : String) : Bool :=
  if Str.contains child '*' || Str.contains parent '*' then false
  else if parent.toList.isEmpty then child.toList.isEmpty
  else if child == parent then true
  else match Str.stripPrefix child parent with
    | none => false
    | some rest =>
      if Str.endsWith parent '/' then !rest.toList.isEmpty
      else Str.startsWith rest "/"

theorem wildcard_iff {inside : Bool} :
    (if contains child '*' || contains parent '*' then false else inside) = true ↔
      '*' ∉ child.toList ∧ '*' ∉ parent.toList ∧ inside = true := by
  rw [← contains_iff, ← contains_iff, Bool.not_eq_true, Bool.not_eq_true, ← and_assoc,
    ← Bool.or_eq_false_iff]
  split
  next h => simp [h]
  next h => simp [h]

theorem selectorIsWithin_iff : selectorIsWithin child parent = true ↔
      '*' ∉ child.toList ∧ '*' ∉ parent.toList ∧
        (child = parent ∨ parent.toList ++ ['.'] <+: child.toList) := by
  rw [selectorIsWithin, wildcard_iff, Bool.or_eq_true, beq_iff_eq, startsWith_iff,
    String.toList_append]
  rfl

/-- The two arms after `strip_prefix` are the two ways of meeting a boundary. -/
private theorem rest_iff_continues {child parent : String} :
    (match stripPrefix child parent with
      | none => false
      | some rest =>
        if endsWith parent '/' then !rest.toList.isEmpty
        else Str.startsWith rest "/") = true ↔
      Str.Continues '/' child.toList parent.toList := by
  cases hs : stripPrefix child parent with
  | none =>
    refine ⟨nofun, fun ⟨r, hr, _⟩ => ?_⟩
    have hsome : stripPrefix child parent = some (String.ofList r) :=
      stripPrefix_eq_some.mpr (by simpa using hr)
    rw [hs] at hsome
    cases hsome
  | some rest =>
    have hrest := stripPrefix_eq_some.mp hs
    have hcont : Str.Continues '/' child.toList parent.toList ↔ rest.toList ≠ [] ∧
          (parent.toList.getLast? = some '/' ∨ rest.toList.head? = some '/') := by
      constructor
      · rintro ⟨r, hr, hne, hb⟩
        rw [hrest, List.append_right_inj] at hr
        rw [hr]
        exact ⟨hne, hb⟩
      · exact fun ⟨hne, hb⟩ => ⟨_, hrest, hne, hb⟩
    rw [hcont]
    simp only
    split
    next he => simp [endsWith_iff.mp he]
    next he =>
      rw [endsWith_iff] at he
      rw [startsWith_iff]
      cases rest.toList with
      | nil => simp
      | cons c cs => simp [he, eq_comm]

theorem scopeIsWithin_iff : scopeIsWithin child parent = true ↔
      '*' ∉ child.toList ∧ '*' ∉ parent.toList ∧
        (child = parent ∨ (parent.toList ≠ [] ∧ Str.Continues '/' child.toList parent.toList)) := by
  rw [scopeIsWithin, wildcard_iff]
  refine and_congr_right fun _ => and_congr_right fun _ => ?_
  split
  next hp =>
    -- an empty parent contains only the empty scope
    rw [List.isEmpty_iff] at hp
    simp only [List.isEmpty_iff, hp, ne_eq, not_true_eq_false, false_and, or_false]
    rw [← String.toList_inj, hp]
  next hp =>
    rw [List.isEmpty_iff] at hp
    split
    next heq => simp [beq_iff_eq.mp heq]
    next hne =>
      have hne' : child ≠ parent := fun he => hne (by simp [he])
      simp only [hne', false_or, ne_eq, hp, not_false_eq_true, true_and]
      exact rest_iff_continues

/-- **Operations nest.** -/
theorem selectorIsWithin_trans {a b c : String} (hab : selectorIsWithin a b = true)
    (hbc : selectorIsWithin b c = true) : selectorIsWithin a c = true := by
  obtain ⟨ha, -, hab⟩ := selectorIsWithin_iff.mp hab
  obtain ⟨-, hc, hbc⟩ := selectorIsWithin_iff.mp hbc
  refine selectorIsWithin_iff.mpr ⟨ha, hc, ?_⟩
  rcases hab with rfl | hab
  · exact hbc
  · rcases hbc with rfl | hbc
    · exact .inr hab
    · exact .inr ((hbc.trans (List.prefix_append _ _)).trans hab)

/-- **Scopes nest.** -/
theorem scopeIsWithin_trans {a b c : String} (hab : scopeIsWithin a b = true)
    (hbc : scopeIsWithin b c = true) : scopeIsWithin a c = true := by
  obtain ⟨ha, -, hab⟩ := scopeIsWithin_iff.mp hab
  obtain ⟨-, hc, hbc⟩ := scopeIsWithin_iff.mp hbc
  refine scopeIsWithin_iff.mpr ⟨ha, hc, ?_⟩
  rcases hab with rfl | hab
  · exact hbc
  · rcases hbc with rfl | ⟨hne, hbc⟩
    · exact .inr hab
    · exact .inr ⟨hne, hab.2.trans hbc⟩

/-! ## The vocabulary -/

inductive ResourceKind where
  | memory
  | event
  | context
  | agent
  | skill
  | workflow
  | execution
  | run
  | model
  | provider
  | evaluation
  | learning
  | audit
  | export_
  | finding
  | capability
  | workspace
  deriving DecidableEq, Repr

def ResourceKind.all : List ResourceKind :=
  [.memory, .event, .context, .agent, .skill, .workflow, .execution, .run, .model, .provider,
    .evaluation, .learning, .audit, .export_, .finding, .capability, .workspace]

def ResourceKind.scheme : ResourceKind → String
  | .memory => "memory"
  | .event => "event"
  | .context => "context"
  | .agent => "agent"
  | .skill => "skill"
  | .workflow => "workflow"
  | .execution => "execution"
  | .run => "run"
  | .model => "model"
  | .provider => "provider"
  | .evaluation => "evaluation"
  | .learning => "learning"
  | .audit => "audit"
  | .export_ => "export"
  | .finding => "finding"
  | .capability => "capability"
  | .workspace => "workspace"

/-- `ResourceKind::from_str`; the caller discards the error, so its text is not
kept. -/
def ResourceKind.fromStr (value : String) : Option ResourceKind :=
  ResourceKind.all.find? fun kind => kind.scheme == value

inductive ResourceScope where
  | everyOfKind (kind : ResourceKind)
  | one (kind : ResourceKind) (id : String)
  | surface (path : String)
  | external (scheme target : String)
  deriving DecidableEq, Repr

def ResourceScope.parse (value : String) : Except DomainError ResourceScope := do
  let trimmed := Str.trim value
  refuse (trimmed.toList.isEmpty)
    (.invalidArgument "capability grant resource scope must not be empty")
  refuse (trimmed.utf8ByteSize ≠ value.utf8ByteSize)
    (.invalidArgument (s!"resource scope `{value}` is surrounded by whitespace, and would not " ++
      "match the trimmed form anything asks about"))
  refuse (trimmed.toList.any Str.isWhitespace)
    (.invalidArgument s!"resource scope `{value}` contains whitespace")
  refuse (Str.contains trimmed '*')
    (.invalidArgument (s!"resource scope `{value}` contains `*`, which is refused everywhere it " ++
      "is compared rather than treated as a wildcard; name the container instead, as in " ++
      "`memory://`"))
  match Str.stripPrefix trimmed "/" with
  | some path => do
    refuse (path.toList.isEmpty)
      (.invalidArgument ("resource scope `/` is the whole HTTP surface, which is not a scope " ++
        "anybody writes deliberately"))
    return .surface trimmed
  | none => do
    let (scheme, rest) ← okOr (Str.splitOnce trimmed "://")
      (.invalidArgument (s!"resource scope `{value}` is in no vocabulary this system checks; a " ++
        "scope is `<kind>://` for every resource of a kind, `<kind>://<id>` for one, `/<path>` " ++
        "for an HTTP surface, or `<scheme>://<target>` for something at a provider"))
    refuse (scheme.toList.isEmpty)
      (.invalidArgument s!"resource scope `{value}` names no kind before `://`")
    match ResourceKind.fromStr scheme with
    | some kind => return if rest.toList.isEmpty then .everyOfKind kind else .one kind rest
    | none => do
      refuse (rest.toList.isEmpty)
        (.invalidArgument (s!"resource scope `{value}` names no target after `{scheme}://`, so " ++
          "it would contain everything that scheme can reach"))
      return .external scheme rest

variable {a b c : String} {scope other third : ResourceScope}

def ResourceScope.display : ResourceScope → String
  | .everyOfKind kind => kind.scheme ++ "://"
  | .one kind id => kind.scheme ++ "://" ++ id
  | .surface path => path
  | .external scheme target => scheme ++ "://" ++ target

def ResourceScope.covers (scope requested : ResourceScope) : Bool :=
  scopeIsWithin requested.display scope.display

theorem parse_eq_ok (h : ResourceScope.parse a = .ok scope) :
    scope.display = a ∧ '*' ∉ a.toList := by
  simp only [ResourceScope.parse, bind_eq_ok, refuse_eq_ok, exists_const, not_not] at h
  obtain ⟨-, hsize, -, hstar, h⟩ := h
  rw [eq_of_trim_size hsize] at h hstar
  refine ⟨?_, fun hmem => hstar (contains_iff.mpr hmem)⟩
  split at h
  · cases pure_eq_ok.mp (unit_bind_eq_ok.mp h).2
    rfl
  · obtain ⟨⟨scheme, rest⟩, hsplit, h⟩ := bind_eq_ok.mp h
    obtain ⟨r, hr, hpair⟩ := Option.map_eq_some_iff.mp (okOr_eq_ok.mp hsplit)
    have ha : a = scheme ++ "://" ++ rest := by
      cases hpair
      rw [← String.toList_inj]
      simpa using splitOnceChars_eq_some hr
    replace h := of_unit_bind h
    split at h
    · next kind hkind =>
      have hscheme : kind.scheme = scheme := by simpa using List.find?_some hkind
      rw [ha, ← hscheme]
      cases pure_eq_ok.mp h
      split
      · next hempty =>
        rw [List.isEmpty_iff] at hempty
        rw [show rest = "" from String.toList_inj.mp hempty]
        simp [ResourceScope.display]
      · rfl
    · rw [ha]
      cases pure_eq_ok.mp (unit_bind_eq_ok.mp h).2
      rfl

theorem scopeIsWithin_antisymm (hab : scopeIsWithin a b = true) (hba : scopeIsWithin b a = true) :
    a = b := by
  have hstarts : ∀ {a b}, scopeIsWithin a b = true → b.toList <+: a.toList := by
    intro a b h
    obtain ⟨-, -, rfl | ⟨-, r, hr, -⟩⟩ := scopeIsWithin_iff.mp h
    · exact List.prefix_rfl
    · exact ⟨r, hr.symm⟩
  exact String.toList_inj.mp ((hstarts hba).eq_of_length_le (hstarts hab).length_le)

/-- **Scopes are texts, ordered.** A scope that was accepted is displayed as the text it was parsed
from, so no two texts are one scope, and among the accepted scopes `covers` is a partial order. -/
theorem covers_partialOrder (ha : ResourceScope.parse a = .ok scope)
    (hb : ResourceScope.parse b = .ok other) (hc : ResourceScope.parse c = .ok third) :
    scope.display = a ∧ scope.covers scope = true ∧
      (scope.covers other = true → other.covers scope = true → scope = other) ∧
      (scope.covers other = true → other.covers third = true → scope.covers third = true) := by
  obtain ⟨hdisplay, hstar⟩ := parse_eq_ok ha
  simp only [ResourceScope.covers, hdisplay, (parse_eq_ok hb).1, (parse_eq_ok hc).1]
  refine ⟨trivial, scopeIsWithin_iff.mpr ⟨hstar, hstar, .inl rfl⟩, fun hba hab => ?_,
    fun hba hcb => ?_⟩
  · cases scopeIsWithin_antisymm hab hba
    exact Except.ok.inj (ha.symm.trans hb)
  · exact scopeIsWithin_trans hcb hba

theorem memory_scopes_ordered :
    ResourceScope.covers (.one .memory "a") (.one .memory "a/b") = true ∧
      ResourceScope.covers (.everyOfKind .memory) (.one .memory "a/b") = true := by
  have ha : ResourceScope.parse "memory://" = .ok (.everyOfKind .memory) := by decide
  have hb : ResourceScope.parse "memory://a" = .ok (.one .memory "a") := by decide
  have hc : ResourceScope.parse "memory://a/b" = .ok (.one .memory "a/b") := by decide
  exact ⟨by decide, (covers_partialOrder ha hb hc).2.2.2 (by decide) (by decide)⟩

end Vestrace.Security
