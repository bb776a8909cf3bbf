import Vestrace.Models.Routing

/-!
# What redaction leaves behind

A `RedactionService` rewrites a text rule by rule, and a JSON value by rewriting its strings. Given
that a rule leaves none of its own matches and makes none of another's, no string of the result
holds a match; but keys are copied, and a match in one stays (`redacted_iff`).

A pattern is any choice of the matches of a text, from left to right and without overlap. A map is
the list of its entries.
-/

namespace Vestrace.Security

open List Models

/-- A match, and what a replacement becomes with its groups. -/
structure Captures where
  start : ℕ
  stop : ℕ
  expand : String → String

structure Regex where
  capturesIter : String → List Captures

namespace Regex

def isMatch (pattern : Regex) (text : String) : Bool := !(pattern.capturesIter text).isEmpty

/-- The text from `last` on, each match replaced. -/
def splice (text : List Char) (replacement : String) (last : ℕ) : List Captures → List Char
  | [] => text.drop last
  | c :: rest =>
    (text.drop last).take (c.start - last) ++ (c.expand replacement).toList ++
      splice text replacement c.stop rest

def replaceAll (pattern : Regex) (text replacement : String) : String :=
  match pattern.capturesIter text with
  | [] => text
  | found => .ofList (splice text.toList replacement 0 found)

theorem replaceAll_of_not_isMatch {pattern : Regex} {text replacement : String}
    (h : pattern.isMatch text = false) : pattern.replaceAll text replacement = text := by
  have hnone : pattern.capturesIter text = [] := by simpa [isMatch] using h
  rw [replaceAll, hnone]

end Regex

/-- A `serde_json::Value`, its numbers left open. -/
inductive Json (N : Type) where
  | null
  | bool (b : Bool)
  | number (n : N)
  | string (s : String)
  | array (items : List (Json N))
  | object (fields : List (String × Json N))

namespace Json

variable {N : Type} (f g : String → String)

mutual

/-- The recursion of `redact_json`, with `f` for what it does to a string. -/
def mapStrings : Json N → Json N
  | .string s => .string (f s)
  | .object fields => .object (mapFields fields)
  | .array items => .array (mapItems items)
  | other => other

def mapItems : List (Json N) → List (Json N)
  | [] => []
  | v :: items => mapStrings v :: mapItems items

def mapFields : List (String × Json N) → List (String × Json N)
  | [] => []
  | (k, v) :: fields => (k, mapStrings v) :: mapFields fields

end

/-- The values differ in their strings only. -/
def SameShape (v w : Json N) : Prop := v.mapStrings (fun _ => "") = w.mapStrings fun _ => ""

mutual

/-- Every string in a value, and whether it is a key. -/
def strings : Json N → List (Bool × String)
  | .string s => [(false, s)]
  | .object fields => fieldStrings fields
  | .array items => itemStrings items
  | _ => []

def itemStrings : List (Json N) → List (Bool × String)
  | [] => []
  | v :: items => strings v ++ itemStrings items

def fieldStrings : List (String × Json N) → List (Bool × String)
  | [] => []
  | (k, v) :: fields => (true, k) :: strings v ++ fieldStrings fields

end

mutual

theorem mapStrings_mapStrings : ∀ v : Json N,
    (v.mapStrings f).mapStrings g = v.mapStrings fun s => g (f s)
  | .null | .bool _ | .number _ | .string _ => rfl
  | .array items => congrArg array (mapItems_mapItems items)
  | .object fields => congrArg object (mapFields_mapFields fields)

theorem mapItems_mapItems : ∀ items : List (Json N),
    mapItems g (mapItems f items) = mapItems (fun s => g (f s)) items
  | [] => rfl
  | v :: items => by simp only [mapItems, mapStrings_mapStrings v, mapItems_mapItems items]

theorem mapFields_mapFields : ∀ fields : List (String × Json N),
    mapFields g (mapFields f fields) = mapFields (fun s => g (f s)) fields
  | [] => rfl
  | (_, v) :: fields => by
    simp only [mapFields, mapStrings_mapStrings v, mapFields_mapFields fields]

end

/-- What becomes of a string, or of a key. -/
def mapped (p : Bool × String) : Bool × String := (p.1, if p.1 then p.2 else f p.2)

mutual

theorem strings_mapStrings : ∀ v : Json N, (v.mapStrings f).strings = v.strings.map (mapped f)
  | .null | .bool _ | .number _ | .string _ => rfl
  | .array items => itemStrings_mapItems items
  | .object fields => fieldStrings_mapFields fields

theorem itemStrings_mapItems : ∀ items : List (Json N),
    itemStrings (mapItems f items) = (itemStrings items).map (mapped f)
  | [] => rfl
  | v :: items => by
    simp only [mapItems, itemStrings, strings_mapStrings v, itemStrings_mapItems items, map_append]

theorem fieldStrings_mapFields : ∀ fields : List (String × Json N),
    fieldStrings (mapFields f fields) = (fieldStrings fields).map (mapped f)
  | [] => rfl
  | (_, v) :: fields => by
    simp only [mapFields, fieldStrings, strings_mapStrings v, fieldStrings_mapFields fields,
      map_append, map_cons]
    rfl

end

end Json

inductive DataDestination where
  | localModel | remoteProvider | logOutput | auditStore | exportBundle

structure RedactionRule where
  pattern : Regex
  replacement : String
  sensitivity : Sensitivity

def shouldRedact : Sensitivity → DataDestination → Bool
  | .open_, _ => false
  | .internal, .localModel => false
  | .internal, .auditStore => false
  | .internal, _ => true
  | .confidential, .auditStore => false
  | .confidential, _ => true
  | .restricted, _ => true

structure RedactionService where
  rules : List RedactionRule

namespace RedactionService

variable (service : RedactionService) (destination : DataDestination)

/-- One turn of the loop over the rules. -/
def applied (result : String) (rule : RedactionRule) : String :=
  if shouldRedact rule.sensitivity destination then
    rule.pattern.replaceAll result rule.replacement
  else result

def redact (text : String) : String := service.rules.foldl (applied destination) text

def redactJson {N : Type} (value : Json N) : Json N :=
  value.mapStrings (service.redact destination)

/-- One rule leaves none of its own matches and makes none of another's. -/
structure Separate : Prop where
  own : ∀ r ∈ service.rules, ∀ text,
    r.pattern.isMatch (r.pattern.replaceAll text r.replacement) = false
  other : ∀ r ∈ service.rules, ∀ r' ∈ service.rules, ∀ text, r'.pattern.isMatch text = false →
    r'.pattern.isMatch (r.pattern.replaceAll text r.replacement) = false

/-- No rule for the destination has a match in the text. -/
def Clean (text : String) : Prop :=
  ∀ r ∈ service.rules, shouldRedact r.sensitivity destination = true →
    r.pattern.isMatch text = false

structure LeavesNothing {N : Type} (value : Json N) : Prop where
  shape : value.SameShape (service.redactJson destination value)
  clean : ∀ p ∈ (service.redactJson destination value).strings, service.Clean destination p.2
  again : service.redactJson destination (service.redactJson destination value) =
    service.redactJson destination value

variable {service destination}

/-- A text without a match of a rule has none after other rules. -/
theorem Separate.foldl_applied (h : service.Separate) {r : RedactionRule} (hr : r ∈ service.rules)
    {rules : List RedactionRule} (hrules : rules ⊆ service.rules) {text : String}
    (htext : r.pattern.isMatch text = false) :
    r.pattern.isMatch (rules.foldl (applied destination) text) = false := by
  induction rules generalizing text with
  | nil => exact htext
  | cons rule rules ih =>
    obtain ⟨hrule, hrest⟩ := cons_subset.mp hrules
    refine ih hrest ?_
    rw [applied]
    split
    · exact h.other rule hrule r hr text htext
    · exact htext

theorem Separate.redact_clean (h : service.Separate) (text : String) :
    service.Clean destination (service.redact destination text) := by
  intro r hr happlies
  -- the rule's own turn removes its matches, and the turns after it make none
  obtain ⟨before, after, hsplit⟩ := append_of_mem hr
  have hafter : after ⊆ service.rules := by simp [hsplit]
  rw [redact, hsplit, foldl_append, foldl_cons]
  refine h.foldl_applied hr hafter ?_
  rw [applied, if_pos happlies]
  exact h.own r hr _

theorem redact_of_clean {text : String} (h : service.Clean destination text) :
    service.redact destination text = text := by
  refine foldlRecOn service.rules _ (motive := (· = text)) rfl ?_
  rintro _ rfl r hr
  rw [applied]
  split
  · next happlies => exact Regex.replaceAll_of_not_isMatch (h r hr happlies)
  · rfl

/-- Nothing is left behind exactly when no key holds a match. -/
theorem redacted_iff (h : service.Separate) {N : Type} (value : Json N) :
    LeavesNothing service destination value ↔
      ∀ key, (true, key) ∈ value.strings → service.Clean destination key := by
  constructor
  · intro hleaves key hkey
    refine hleaves.clean (true, key) ?_
    rw [redactJson, Json.strings_mapStrings]
    exact mem_map.mpr ⟨_, hkey, rfl⟩
  · intro hkeys
    refine ⟨?_, ?_, ?_⟩
    · rw [Json.SameShape, redactJson, Json.mapStrings_mapStrings]
    · intro p hp
      rw [redactJson, Json.strings_mapStrings] at hp
      obtain ⟨⟨isKey, s⟩, hs, rfl⟩ := mem_map.mp hp
      cases isKey with
      | true => exact hkeys s hs
      | false => exact h.redact_clean s
    · simp only [redactJson, Json.mapStrings_mapStrings, redact_of_clean (h.redact_clean _)]

/-- **Of two redactions the stricter is enough.** Of any two destinations, one is such that what was
redacted for it is left as it is by the redaction for the other. -/
theorem redactJson_stricter (h : service.Separate) (d d' : DataDestination) :
    (∀ (N : Type) (value : Json N),
      service.redactJson d' (service.redactJson d value) = service.redactJson d value) ∨
    ∀ (N : Type) (value : Json N),
      service.redactJson d (service.redactJson d' value) = service.redactJson d' value := by
  have hcovered : ∀ {d d' : DataDestination},
      (∀ s, shouldRedact s d' = true → shouldRedact s d = true) → ∀ (N : Type) (value : Json N),
      service.redactJson d' (service.redactJson d value) = service.redactJson d value := by
    intro d d' hcovers N value
    simp only [redactJson, Json.mapStrings_mapStrings]
    congr 1
    funext text
    exact redact_of_clean fun r hr happlies => h.redact_clean text r hr (hcovers _ happlies)
  have htotal : (∀ s, shouldRedact s d' = true → shouldRedact s d = true) ∨
      ∀ s, shouldRedact s d = true → shouldRedact s d' = true := by
    cases d <;> cases d' <;> first
      | refine .inl fun s => ?_; cases s <;> decide
      | refine .inr fun s => ?_; cases s <;> decide
  exact htotal.imp hcovered hcovered

/-- A rule for the text `sk-1` alone. -/
def secretRule : RedactionRule where
  pattern := ⟨fun text => if text = "sk-1" then [⟨0, 4, id⟩] else []⟩
  replacement := "[REDACTED]"
  sensitivity := .restricted

theorem separate_secretRule : Separate ⟨[secretRule]⟩ where
  own := by
    intro r hr text
    cases mem_singleton.mp hr
    by_cases htext : text = "sk-1"
    · subst htext
      decide
    · have hno : secretRule.pattern.isMatch text = false := by
        simp [Regex.isMatch, secretRule, htext]
      rwa [Regex.replaceAll_of_not_isMatch hno]
  other := by
    intro r hr r' hr' text hno
    cases mem_singleton.mp hr
    cases mem_singleton.mp hr'
    rwa [Regex.replaceAll_of_not_isMatch hno]

theorem secret_field_redacted : LeavesNothing ⟨[secretRule]⟩ .remoteProvider
    (Json.object (N := ℕ) [("token", .string "sk-1")]) := by
  refine (redacted_iff separate_secretRule _).mpr fun key hkey r hr _ => ?_
  have hkey : key = "token" := by simpa [Json.strings, Json.fieldStrings] using hkey
  rw [hkey, mem_singleton.mp hr]
  decide

theorem secret_stricter :
    (∀ (N : Type) (value : Json N), redactJson ⟨[secretRule]⟩ .auditStore
      (redactJson ⟨[secretRule]⟩ .logOutput value) = redactJson ⟨[secretRule]⟩ .logOutput value) ∨
    ∀ (N : Type) (value : Json N), redactJson ⟨[secretRule]⟩ .logOutput
      (redactJson ⟨[secretRule]⟩ .auditStore value) = redactJson ⟨[secretRule]⟩ .auditStore value :=
  redactJson_stricter separate_secretRule .logOutput .auditStore

/-- A secret that is a key is still there. -/
theorem secret_key_kept :
    (true, "sk-1") ∈ (redactJson ⟨[secretRule]⟩ .remoteProvider
        (Json.object (N := ℕ) [("sk-1", .null)])).strings ∧
      ¬ Clean ⟨[secretRule]⟩ .remoteProvider "sk-1" :=
  ⟨mem_singleton_self _, fun h => by cases h secretRule (mem_singleton_self _) rfl⟩

end RedactionService

end Vestrace.Security
