import Vestrace.Installation.Protocol
import Vestrace.Installation.WitnessRecord

/-!
# The file witness

`FileInstallationSafetyWitness`: the head is kept in memory and, as the latest receipt, in the
record on disk. A failure of the directory sync leaves the record ahead of the head, and the next
`compare_and_advance` writes another receipt of the same sequence over it, which in the meantime
`durable_receipt` may have given out. A root has one instance at a time, and calls follow one
another.
-/

namespace Vestrace.Installation

open Lib StoredWitnessRecord List Option

/-! ## The instance and its calls -/

/-- The calls to the file system that `replace_record` makes, in order. -/
inductive FileStep where
  | create
  | write
  | sync
  | rename
  | syncDirectory
  deriving DecidableEq

structure FileFault where
  step : FileStep
  message : String

section

variable [Crypto] {next : WitnessAdvance}

structure FileInstallationSafetyWitness where
  binding : SafetyBootstrapBinding
  signingKey : Crypto.Ed25519KeyPair
  head : WitnessHead

def readFile {α : Type} (fault : Option String) (content : α) : Except WitnessError α :=
  match fault with
  | some message => .error (.unavailable message)
  | none => .ok content

def StoredWitnessRecord.head (stored : StoredWitnessRecord) : Except WitnessError WitnessHead :=
  match stored.state with
  | .receipt receipt => unavailableFrom (WitnessHead.fromDurableReceipt stored.binding receipt)
  | .genesis generation => .ok (.genesis stored.binding.installationId
      stored.binding.fingerprintKeyId stored.binding.continuityProof generation
      stored.binding.journalPublicKey)

namespace FileInstallationSafetyWitness

def openRecord (key : Except WitnessError Crypto.Ed25519KeyPair)
    (record : Except WitnessError Bytes) : Except WitnessError FileInstallationSafetyWitness := do
  let signingKey ← key
  let bytes ← record
  let stored ← decodeRecord bytes
  refuse (stored.binding.witnessPublicKey ≠ ⟨Crypto.publicKey signingKey⟩)
    (WitnessError.unavailable "witness signing key does not match pinned binding")
  let head ← stored.head
  return ⟨stored.binding, signingKey, head⟩

variable (w : FileInstallationSafetyWitness)

def durableReceipt (record : Except WitnessError Bytes) : Except WitnessError WitnessReceipt := do
  let bytes ← record
  let stored ← decodeRecord bytes
  refuse (stored.binding ≠ w.binding)
    (WitnessError.unavailable "durable witness binding changed on disk")
  match stored.state with
  | .receipt receipt => return receipt
  | .genesis _ => .error (.unavailable "witness has no durable receipt to reconcile")

def replaceRecord (receipt : WitnessReceipt) (fault : Option FileFault) (record : Bytes) :
    Except WitnessError Unit × Bytes :=
  let next := encodeRecord ⟨w.binding, .receipt receipt⟩
  match fault with
  | none => (.ok (), next)
  | some ⟨.syncDirectory, message⟩ => (.error (.unavailable message), next)
  | some ⟨_, message⟩ => (.error (.unavailable message), record)

def nextReceipt (expected : WitnessHead) (next : WitnessAdvance) :
    Except WitnessError (WitnessReceipt × WitnessHead) := do
  refuse (w.head ≠ expected) WitnessError.conflict
  let receipt ← (WitnessReceipt.sign w.signingKey w.head next).mapError .invalid
  let replacement ← (WitnessHead.fromDurableReceipt w.binding receipt).mapError .invalid
  return (receipt, replacement)

def compareAndAdvance (expected : WitnessHead) (next : WitnessAdvance) (fault : Option FileFault)
    (record : Bytes) : Except WitnessError WitnessReceipt × FileInstallationSafetyWitness × Bytes :=
  match w.nextReceipt expected next with
  | .error e => (.error e, w, record)
  | .ok (receipt, replacement) =>
    match w.replaceRecord receipt fault record with
    | (.error e, record) => (.error e, w, record)
    | (.ok (), record) => (.ok receipt, { w with head := replacement }, record)

end FileInstallationSafetyWitness

/-! ## Calls on a root -/

structure IssuedAdvance where
  head : WitnessHead
  entry : SignedJournalEntry
  advance : WitnessAdvance
  accepted : head.acceptSigned entry = .ok advance
  produced : Produced entry.state.backupArchiveState
  fits : entry.state.canonicalBytes.length < 2 ^ 63

inductive WitnessCall where
  | compareAndAdvance (expected : WitnessHead) (next : IssuedAdvance) (fault : Option FileFault)
  | durableReceipt (fault : Option String)
  | reopen (keyFault recordFault : Option String)

inductive WitnessReply where
  | advanced (receipt : WitnessReceipt)
  | durable (receipt : WitnessReceipt)
  | opened (head : WitnessHead)
  | failed (error : WitnessError)
  | closed

structure WitnessRoot where
  key : Crypto.Ed25519KeyPair
  record : Bytes
  handle : Option FileInstallationSafetyWitness

namespace WitnessRoot

def call (root : WitnessRoot) : WitnessCall → WitnessReply × WitnessRoot
  | .compareAndAdvance expected next fault =>
    match root.handle with
    | none => (.closed, root)
    | some w =>
      match w.compareAndAdvance expected next.advance fault root.record with
      | (.error e, w, record) => (.failed e, { root with record, handle := some w })
      | (.ok receipt, w, record) => (.advanced receipt, { root with record, handle := some w })
  | .durableReceipt fault =>
    match root.handle with
    | none => (.closed, root)
    | some w =>
      match w.durableReceipt (readFile fault root.record) with
      | .error e => (.failed e, root)
      | .ok receipt => (.durable receipt, root)
  | .reopen keyFault recordFault =>
    match FileInstallationSafetyWitness.openRecord (readFile keyFault root.key)
        (readFile recordFault root.record) with
    | .error e => (.failed e, { root with handle := none })
    | .ok w => (.opened w.head, { root with handle := some w })

end WitnessRoot

structure WitnessExchange where
  before : WitnessRoot
  call : WitnessCall
  reply : WitnessReply

def exchanges (root : WitnessRoot) : List WitnessCall → List WitnessExchange
  | [] => []
  | call :: calls => ⟨root, call, (root.call call).1⟩ :: exchanges (root.call call).2 calls

/-! ## What a witness must not do -/

def WitnessReply.receipt? : WitnessReply → Option WitnessReceipt
  | advanced receipt => some receipt
  | durable receipt => some receipt
  | _ => none

def WitnessReply.advanced? : WitnessReply → Option WitnessReceipt
  | advanced receipt => some receipt
  | _ => none

def receiptsReturned (exchanges : List WitnessExchange) : List WitnessReceipt :=
  exchanges.filterMap fun exchange => exchange.reply.receipt?

def receiptsAdvanced (exchanges : List WitnessExchange) : List WitnessReceipt :=
  exchanges.filterMap fun exchange => exchange.reply.advanced?

structure NeverForks (exchanges : List WitnessExchange) : Prop where
  unique : ∀ receipt ∈ receiptsReturned exchanges, ∀ other ∈ receiptsReturned exchanges,
    receipt.sequence = other.sequence → receipt = other
  increasing : (receiptsAdvanced exchanges).Pairwise fun a b => a.sequence < b.sequence
  linked : ∀ exchange ∈ exchanges, ∀ expected next fault receipt,
    exchange.call = .compareAndAdvance expected next fault →
    exchange.reply = .advanced receipt → ∀ binding previous,
    decodeRecord exchange.before.record = .ok ⟨binding, .receipt previous⟩ →
    next.advance.signedEntry.previousDigest = previous.journalDigest
  current : ∀ earlier exchange later head, exchanges = earlier ++ exchange :: later →
    exchange.reply = .opened head →
    ∀ receipt ∈ receiptsReturned earlier, receipt.sequence ≤ head.sequence

/-! ## When it does not -/

/-- A failed directory sync leaves the instance behind its record, until it is opened
again. -/
def behindAfter (behind : Bool) : WitnessCall → Bool
  | .compareAndAdvance _ _ (some ⟨.syncDirectory, _⟩) => true
  | .reopen _ _ => false
  | _ => behind

def Careful (behind : Bool) : WitnessCall → Prop
  | .compareAndAdvance expected next _ => behind = false ∧ next.head = expected
  | _ => True

def CarefulFrom : Bool → List WitnessCall → Prop
  | _, [] => True
  | behind, call :: calls => Careful behind call ∧ CarefulFrom (behindAfter behind call) calls

/-! ## What each call leaves -/

def StoredWitnessRecord.sequence (stored : StoredWitnessRecord) : UInt64 :=
  match stored.state with
  | .receipt receipt => receipt.sequence
  | .genesis _ => 0

theorem StoredWitnessRecord.head_eq_ok {stored : StoredWitnessRecord} {head : WitnessHead}
    (h : stored.head = .ok head) :
    head.sequence = stored.sequence ∧
      ∀ receipt, stored.state = .receipt receipt → head.chainDigest = receipt.journalDigest := by
  obtain ⟨binding, state⟩ := stored
  cases state with
  | genesis generation =>
    obtain rfl := Except.ok.inj h
    exact ⟨rfl, fun _ hstate => nomatch hstate⟩
  | receipt receipt =>
    obtain ⟨-, hopen⟩ := unit_bind_eq_ok.mp (mapError_eq_ok.mp h)
    replace hopen := of_unit_bind hopen
    obtain rfl := pure_eq_ok.mp hopen
    refine ⟨rfl, ?_⟩
    intro other hstate
    obtain rfl := StoredState.receipt.inj hstate
    rfl

namespace IssuedAdvance

variable (next : IssuedAdvance)

theorem advance_eq : next.advance = ⟨next.entry.eventKind, next.entry.generationId,
    next.entry.activationEpoch, next.entry, next.entry.state⟩ :=
  (acceptSigned_eq_ok next.accepted).2

theorem previousDigest_eq : next.advance.signedEntry.previousDigest = next.head.chainDigest := by
  obtain ⟨-, h⟩ := unit_bind_eq_ok.mp next.accepted
  obtain ⟨sequence, -, h⟩ := bind_eq_ok.mp h
  obtain ⟨hguard, -⟩ := unit_bind_eq_ok.mp h
  simp only [refuse_eq_ok, not_or, not_not] at hguard
  rw [next.advance_eq]
  exact hguard.2.2.2.2.1

end IssuedAdvance

omit [Crypto] in
theorem WitnessReceipt.length_canonicalBytes_le (receipt : WitnessReceipt) :
    receipt.canonicalBytes.length ≤ receipt.state.canonicalBytes.length + 2 ^ 10 := by
  have hdomain : (ascii "vestrace-installation-witness-receipt-v1").length = 40 := by decide
  simp [canonicalBytes, field, hdomain]
  omega

namespace FileInstallationSafetyWitness

variable {w : FileInstallationSafetyWitness} {expected replacement : WitnessHead}
  {receipt : WitnessReceipt} {record : Bytes} {fault : Option String}

theorem nextReceipt_eq_ok (h : w.nextReceipt expected next = .ok (receipt, replacement)) :
    w.head = expected ∧ receipt.sequence.toNat = w.head.sequence.toNat + 1 ∧
      receipt.state = next.nextState ∧
      StoredWitnessRecord.head ⟨w.binding, .receipt receipt⟩ = .ok replacement := by
  obtain ⟨hhead, h⟩ := unit_bind_eq_ok.mp h
  obtain ⟨signed, hsign, h⟩ := bind_eq_ok.mp h
  obtain ⟨opened, hopen, h⟩ := bind_eq_ok.mp h
  obtain ⟨rfl, rfl⟩ := Prod.mk.inj (pure_eq_ok.mp h)
  refine ⟨not_not.mp (refuse_eq_ok.mp hhead), ?_, ?_, ?_⟩
  · obtain ⟨sequence, hsequence, hsign⟩ := bind_eq_ok.mp (mapError_eq_ok.mp hsign)
    obtain ⟨hsame, hsign⟩ := unit_bind_eq_ok.mp hsign
    obtain rfl := pure_eq_ok.mp hsign
    rw [show next.signedEntry.sequence = sequence from not_not.mp (refuse_eq_ok.mp hsame)]
    exact checkedAdd_one_eq_some (okOr_eq_ok.mp hsequence)
  · exact (WitnessReceipt.sign_eq_ok (mapError_eq_ok.mp hsign)).2.2
  · exact mapError_eq_ok.mpr (mapError_eq_ok.mp hopen)

theorem holdable_of_nextReceipt {next : IssuedAdvance}
    (h : w.nextReceipt expected next.advance = .ok (receipt, replacement)) :
    StoredWitnessRecord.Holdable ⟨w.binding, .receipt receipt⟩ := by
  obtain ⟨-, -, hnext, -⟩ := nextReceipt_eq_ok h
  have hstate : receipt.state = next.entry.state := by rw [hnext, next.advance_eq]
  refine ⟨?_, ?_⟩
  · intro other hother
    obtain rfl := StoredState.receipt.inj hother
    rw [hstate]
    exact next.produced.admissible
  · intro other hother
    obtain rfl := StoredState.receipt.inj hother
    have hlength := receipt.length_canonicalBytes_le
    have hfits := next.fits
    rw [hstate] at hlength
    omega

theorem compareAndAdvance_cases (w : FileInstallationSafetyWitness) (expected : WitnessHead)
    (next : WitnessAdvance) (fault : Option FileFault) (record : Bytes) :
    (∃ e, w.compareAndAdvance expected next fault record = (.error e, w, record)) ∨
    (∃ receipt replacement, w.nextReceipt expected next = .ok (receipt, replacement) ∧
      ((∃ message, fault = some ⟨.syncDirectory, message⟩ ∧
        w.compareAndAdvance expected next fault record = (.error (.unavailable message), w,
          encodeRecord ⟨w.binding, .receipt receipt⟩)) ∨
      (fault = none ∧ w.compareAndAdvance expected next fault record = (.ok receipt,
        { w with head := replacement }, encodeRecord ⟨w.binding, .receipt receipt⟩)))) := by
  cases hnext : w.nextReceipt expected next with
  | error e => exact .inl ⟨e, by rw [compareAndAdvance, hnext]⟩
  | ok made =>
    obtain ⟨receipt, replacement⟩ := made
    match fault with
    | none => exact .inr ⟨receipt, replacement, rfl, .inr ⟨rfl, by
        rw [compareAndAdvance, hnext]
        rfl⟩⟩
    | some ⟨.syncDirectory, message⟩ =>
      exact .inr ⟨receipt, replacement, rfl, .inl ⟨message, rfl, by
        rw [compareAndAdvance, hnext]
        rfl⟩⟩
    | some ⟨.create, message⟩ | some ⟨.write, message⟩ | some ⟨.sync, message⟩
    | some ⟨.rename, message⟩ =>
      exact .inl ⟨.unavailable message, by
        rw [compareAndAdvance, hnext]
        rfl⟩

theorem durableReceipt_eq_ok (h : w.durableReceipt (readFile fault record) = .ok receipt) :
    decodeRecord record = .ok ⟨w.binding, .receipt receipt⟩ := by
  obtain ⟨bytes, hread, h⟩ := bind_eq_ok.mp h
  obtain ⟨⟨binding, state⟩, hstored, h⟩ := bind_eq_ok.mp h
  obtain ⟨hbinding, h⟩ := unit_bind_eq_ok.mp h
  obtain rfl : binding = w.binding := not_not.mp (refuse_eq_ok.mp hbinding)
  cases fault with
  | some message => cases hread
  | none =>
    obtain rfl := Except.ok.inj hread
    cases state with
    | genesis generation => cases h
    | receipt stored =>
      obtain rfl := pure_eq_ok.mp h
      exact hstored

theorem openRecord_eq_ok {key : Except WitnessError Crypto.Ed25519KeyPair}
    (h : openRecord key (readFile fault record) = .ok w) :
    ∃ stored, decodeRecord record = .ok stored ∧ w.binding = stored.binding ∧
      stored.head = .ok w.head := by
  obtain ⟨signingKey, -, h⟩ := bind_eq_ok.mp h
  obtain ⟨bytes, hread, h⟩ := bind_eq_ok.mp h
  obtain ⟨stored, hstored, h⟩ := bind_eq_ok.mp h
  replace h := of_unit_bind h
  obtain ⟨head, hhead, h⟩ := bind_eq_ok.mp h
  obtain rfl := pure_eq_ok.mp h
  cases fault with
  | some message => cases hread
  | none =>
    obtain rfl := Except.ok.inj hread
    exact ⟨stored, hstored, rfl, hhead⟩

end FileInstallationSafetyWitness

/-! ## One call, and a run -/

/-- What is on disk, were it to be read, is `durable`; no receipt was returned that is
ahead of it or beside it; and an instance that is not left behind is at its head. -/
structure Tracked (root : WitnessRoot) (behind : Bool) (receipts : List WitnessReceipt)
    (durable : StoredWitnessRecord) : Prop where
  record : ∀ stored, decodeRecord root.record = .ok stored → stored = durable
  handle : behind = false → ∀ w, root.handle = some w →
    w.binding = durable.binding ∧ durable.head = .ok w.head
  latest : ∀ receipt ∈ receipts, receipt.sequence ≤ durable.sequence ∧
    (receipt.sequence = durable.sequence → durable.state = .receipt receipt)

/-- What one exchange must satisfy, after those receipts, for the run not to fork. -/
structure Continues (receipts : List WitnessReceipt) (exchange : WitnessExchange) : Prop where
  unique : ∀ receipt, exchange.reply.receipt? = some receipt → ∀ other ∈ receipts,
    receipt.sequence = other.sequence → receipt = other
  increasing : ∀ receipt, exchange.reply.advanced? = some receipt → ∀ other ∈ receipts,
    other.sequence < receipt.sequence
  linked : ∀ expected next fault receipt, exchange.call = .compareAndAdvance expected next fault →
    exchange.reply = .advanced receipt → ∀ binding previous,
    decodeRecord exchange.before.record = .ok ⟨binding, .receipt previous⟩ →
    next.advance.signedEntry.previousDigest = previous.journalDigest
  current : ∀ head, exchange.reply = .opened head →
    ∀ receipt ∈ receipts, receipt.sequence ≤ head.sequence

variable {root start : WitnessRoot} {behind : Bool} {receipts : List WitnessReceipt}
  {durable : StoredWitnessRecord} {call : WitnessCall} {receipt : WitnessReceipt}
  {run : List WitnessExchange} {expected : WitnessHead}

theorem Continues.of_silent {reply : WitnessReply}
    (hreply : reply = .closed ∨ ∃ e, reply = .failed e) :
    Continues receipts ⟨root, call, reply⟩ := by
  obtain rfl | ⟨e, rfl⟩ := hreply <;>
    exact ⟨fun _ h => (nomatch h), fun _ h => (nomatch h), fun _ _ _ _ _ h => (nomatch h),
      fun _ h => (nomatch h)⟩

/-- An instance at its record writes the next record. -/
theorem Tracked.sequence_lt {w : FileInstallationSafetyWitness} {replacement : WitnessHead}
    (h : Tracked root false receipts durable) (hw : root.handle = some w)
    (hnext : w.nextReceipt expected next = .ok (receipt, replacement)) :
    durable.sequence < receipt.sequence := by
  obtain ⟨-, hhead⟩ := h.handle rfl w hw
  obtain ⟨-, hsequence, -⟩ := FileInstallationSafetyWitness.nextReceipt_eq_ok hnext
  rw [(head_eq_ok hhead).1] at hsequence
  rw [UInt64.lt_iff_toNat_lt]
  omega

theorem Tracked.replaced {w w' : FileInstallationSafetyWitness} {expected replacement : WitnessHead}
    {next : IssuedAdvance} {receipt : WitnessReceipt} {given : List WitnessReceipt}
    (h : Tracked root false receipts durable) (hw : root.handle = some w)
    (hnext : w.nextReceipt expected next.advance = .ok (receipt, replacement))
    (hhandle : behind = false → w' = { w with head := replacement })
    (hgiven : ∀ r ∈ given, r = receipt) :
    Tracked { root with record := encodeRecord ⟨w.binding, .receipt receipt⟩, handle := some w' }
      behind (receipts ++ given) ⟨w.binding, .receipt receipt⟩ where
  record stored hstored :=
    eq_of_decodeRecord (FileInstallationSafetyWitness.holdable_of_nextReceipt hnext) hstored
  handle hbehind v hv := by
    obtain rfl := some.inj hv
    rw [hhandle hbehind]
    exact ⟨rfl, (FileInstallationSafetyWitness.nextReceipt_eq_ok hnext).2.2.2⟩
  latest r hr := by
    have hlt := h.sequence_lt hw hnext
    rcases mem_append.mp hr with hr | hr
    · have hle := UInt64.lt_of_le_of_lt (h.latest r hr).1 hlt
      exact ⟨UInt64.le_of_lt hle, fun heq => absurd heq (UInt64.ne_of_lt hle)⟩
    · rw [hgiven r hr]
      exact ⟨UInt64.le_refl _, fun _ => rfl⟩

theorem Tracked.silent {handle : Option FileInstallationSafetyWitness}
    (h : Tracked root behind receipts durable) (behind' : Bool)
    (hbehind : behind' = false → handle = none ∨ behind = false ∧ handle = root.handle) :
    Tracked { root with handle } behind' (receipts ++ []) durable where
  record := h.record
  handle hfalse w hw := by
    rcases hbehind hfalse with hnone | ⟨hbehind, hsame⟩
    · rw [hnone] at hw
      cases hw
    · exact h.handle hbehind w (hsame ▸ hw)
  latest := by
    rw [append_nil]
    exact h.latest

def Keeps (root : WitnessRoot) (behind : Bool) (receipts : List WitnessReceipt)
    (call : WitnessCall) : Prop :=
  Continues receipts ⟨root, call, (root.call call).1⟩ ∧
    ∃ durable, Tracked (root.call call).2 (behindAfter behind call)
      (receipts ++ (root.call call).1.receipt?.toList) durable

theorem Tracked.compareAndAdvance {next : IssuedAdvance} (h : Tracked root false receipts durable)
    (hhead : next.head = expected) (fault : Option FileFault) :
    Keeps root false receipts (.compareAndAdvance expected next fault) := by
  unfold Keeps
  cases hw : root.handle with
  | none =>
    have hcall : root.call (.compareAndAdvance expected next fault) = (.closed, root) := by
      rw [WitnessRoot.call, hw]
    rw [hcall]
    exact ⟨.of_silent (.inl rfl), durable, h.silent _ fun _ => .inr ⟨rfl, rfl⟩⟩
  | some w =>
    rcases w.compareAndAdvance_cases expected next.advance fault root.record with
      ⟨e, hcas⟩ | ⟨receipt, replacement, hnext, ⟨message, hfault, hcas⟩ | ⟨hfault, hcas⟩⟩
    · have hcall : root.call (.compareAndAdvance expected next fault) =
          (.failed e, { root with handle := some w }) := by
        rw [WitnessRoot.call, hw]
        simp only [hcas]
      rw [hcall]
      exact ⟨.of_silent (.inr ⟨_, rfl⟩), durable, h.silent _ fun _ => .inr ⟨rfl, hw.symm⟩⟩
    · -- the record is ahead of the instance from here on
      have hcall : root.call (.compareAndAdvance expected next fault) =
          (.failed (.unavailable message), { root with
            record := encodeRecord ⟨w.binding, .receipt receipt⟩, handle := some w }) := by
        rw [WitnessRoot.call, hw]
        simp only [hcas]
      rw [hcall, hfault]
      exact ⟨.of_silent (.inr ⟨_, rfl⟩), _,
        h.replaced hw hnext nofun fun _ hr => absurd hr not_mem_nil⟩
    · have hcall : root.call (.compareAndAdvance expected next fault) =
          (.advanced receipt, { root with
            record := encodeRecord ⟨w.binding, .receipt receipt⟩
            handle := some { w with head := replacement } }) := by
        rw [WitnessRoot.call, hw]
        simp only [hcas]
      rw [hcall, hfault]
      have hlt := h.sequence_lt hw hnext
      have hbelow : ∀ other ∈ receipts, other.sequence < receipt.sequence :=
        fun other hother => UInt64.lt_of_le_of_lt (h.latest other hother).1 hlt
      refine ⟨⟨?_, ?_, ?_, fun _ hreply => (nomatch hreply)⟩, _,
        h.replaced hw hnext (fun _ => rfl) (by simp [WitnessReply.receipt?])⟩
      · intro given hgiven other hother hsame
        obtain rfl := some.inj hgiven
        exact absurd hsame.symm (UInt64.ne_of_lt (hbelow other hother))
      · intro given hgiven other hother
        obtain rfl := some.inj hgiven
        exact hbelow other hother
      · intro expected' next' fault' given hcalled _ binding previous hrecord
        obtain ⟨rfl, rfl, rfl⟩ := WitnessCall.compareAndAdvance.inj hcalled
        obtain rfl := h.record _ hrecord
        obtain ⟨-, hopened⟩ := h.handle rfl w hw
        obtain ⟨hexpected, -⟩ := FileInstallationSafetyWitness.nextReceipt_eq_ok hnext
        rw [next.previousDigest_eq, hhead, ← hexpected]
        exact (head_eq_ok hopened).2 previous rfl

theorem Tracked.durableReceipt (h : Tracked root behind receipts durable)
    (fault : Option String) : Keeps root behind receipts (.durableReceipt fault) := by
  unfold Keeps
  cases hw : root.handle with
  | none =>
    have hcall : root.call (.durableReceipt fault) = (.closed, root) := by
      rw [WitnessRoot.call, hw]
    rw [hcall]
    exact ⟨.of_silent (.inl rfl), durable, h.silent _ fun hbehind => .inr ⟨hbehind, rfl⟩⟩
  | some w =>
    cases hread : w.durableReceipt (readFile fault root.record) with
    | error e =>
      have hcall : root.call (.durableReceipt fault) = (.failed e, root) := by
        rw [WitnessRoot.call, hw]
        simp only [hread]
      rw [hcall]
      exact ⟨.of_silent (.inr ⟨_, rfl⟩), durable, h.silent _ fun hbehind => .inr ⟨hbehind, rfl⟩⟩
    | ok receipt =>
      have hcall : root.call (.durableReceipt fault) = (.durable receipt, root) := by
        rw [WitnessRoot.call, hw]
        simp only [hread]
      obtain rfl := h.record _ (FileInstallationSafetyWitness.durableReceipt_eq_ok hread)
      rw [hcall]
      refine ⟨⟨?_, fun _ hreply => (nomatch hreply), fun _ _ _ _ _ hreply => (nomatch hreply),
        fun _ hreply => (nomatch hreply)⟩, _, h.record, h.handle, ?_⟩
      · intro given hgiven other hother hsame
        obtain rfl := some.inj hgiven
        exact StoredState.receipt.inj ((h.latest other hother).2 hsame.symm)
      · intro other hother
        rcases mem_append.mp hother with hother | hother
        · exact h.latest other hother
        · obtain rfl := mem_singleton.mp hother
          exact ⟨UInt64.le_refl _, fun _ => rfl⟩

theorem Tracked.reopen (h : Tracked root behind receipts durable)
    (keyFault recordFault : Option String) :
    Keeps root behind receipts (.reopen keyFault recordFault) := by
  unfold Keeps
  cases hopen : FileInstallationSafetyWitness.openRecord (readFile keyFault root.key)
      (readFile recordFault root.record) with
  | error e =>
    have hcall : root.call (.reopen keyFault recordFault) =
        (.failed e, { root with handle := none }) := by
      simp only [WitnessRoot.call, hopen]
    rw [hcall]
    exact ⟨.of_silent (.inr ⟨_, rfl⟩), durable, h.silent _ fun _ => .inl rfl⟩
  | ok w =>
    have hcall : root.call (.reopen keyFault recordFault) =
        (.opened w.head, { root with handle := some w }) := by
      simp only [WitnessRoot.call, hopen]
    obtain ⟨stored, hstored, hbinding, hhead⟩ :=
      FileInstallationSafetyWitness.openRecord_eq_ok hopen
    obtain rfl := h.record stored hstored
    rw [hcall]
    refine ⟨⟨fun _ hreply => (nomatch hreply), fun _ hreply => (nomatch hreply),
      fun _ _ _ _ _ hreply => (nomatch hreply), ?_⟩, stored, h.record, ?_, ?_⟩
    · intro head hopened receipt hreceipt
      obtain rfl := WitnessReply.opened.inj hopened
      rw [(head_eq_ok hhead).1]
      exact (h.latest receipt hreceipt).1
    · intro _ v hv
      obtain rfl := some.inj hv
      exact ⟨hbinding, hhead⟩
    · intro receipt hreceipt
      have hgiven : receipt ∈ receipts ++ [] := hreceipt
      rw [append_nil] at hgiven
      exact h.latest receipt hgiven

theorem Tracked.keeps (h : Tracked root behind receipts durable) (hcareful : Careful behind call) :
    Keeps root behind receipts call := by
  cases call with
  | compareAndAdvance expected next fault =>
    obtain ⟨rfl, hhead⟩ := hcareful
    exact h.compareAndAdvance hhead fault
  | durableReceipt fault => exact h.durableReceipt fault
  | reopen keyFault recordFault => exact h.reopen keyFault recordFault

omit [Crypto] in
theorem filterMap_snoc {α β : Type} (f : α → Option β) (as : List α) (a : α) :
    (as ++ [a]).filterMap f = as.filterMap f ++ (f a).toList := by
  rw [filterMap_append]
  cases h : f a <;> simp [h]

theorem mem_receiptsReturned_of_advanced (h : receipt ∈ receiptsAdvanced run) :
    receipt ∈ receiptsReturned run := by
  obtain ⟨exchange, hmem, hreply⟩ := mem_filterMap.mp h
  refine mem_filterMap.mpr ⟨exchange, hmem, ?_⟩
  cases hcase : exchange.reply with
  | advanced other => rwa [hcase] at hreply
  | durable | opened | failed | closed =>
    rw [hcase] at hreply
    cases hreply

theorem NeverForks.snoc {exchange : WitnessExchange}
    (h : NeverForks run) (hnext : Continues (receiptsReturned run) exchange) :
    NeverForks (run ++ [exchange]) where
  unique := by
    simp only [receiptsReturned, filterMap_snoc, mem_append, mem_toList]
    intro receipt hreceipt other hother hsame
    rcases hreceipt with hold | hnew <;> rcases hother with hold' | hnew'
    · exact h.unique receipt hold other hold' hsame
    · exact (hnext.unique other hnew' receipt hold hsame.symm).symm
    · exact hnext.unique receipt hnew other hold' hsame
    · exact mem_unique hnew hnew'
  increasing := by
    rw [receiptsAdvanced, filterMap_snoc, pairwise_append]
    refine ⟨h.increasing, by cases exchange.reply.advanced? <;> simp, ?_⟩
    intro other hother receipt hreceipt
    exact hnext.increasing receipt (mem_toList.mp hreceipt) other
      (mem_receiptsReturned_of_advanced hother)
  linked := by
    intro made hmade
    rcases mem_append.mp hmade with hmade | hmade
    · exact h.linked made hmade
    · obtain rfl := mem_singleton.mp hmade
      exact hnext.linked
  current := by
    intro earlier opening later head hsplit hreply
    rcases eq_nil_or_concat later with rfl | ⟨later, last, rfl⟩
    · obtain ⟨rfl, hlast⟩ := append_inj' hsplit rfl
      obtain rfl := head_eq_of_cons_eq hlast
      exact hnext.current head hreply
    · rw [concat_eq_append, ← cons_append, ← append_assoc] at hsplit
      obtain ⟨hrun, -⟩ := append_inj' hsplit rfl
      exact h.current earlier opening later head hrun hreply

theorem NeverForks.nil : NeverForks ([] : List WitnessExchange) where
  unique _ h := absurd h not_mem_nil
  increasing := List.Pairwise.nil
  linked _ h := absurd h not_mem_nil
  current _ _ _ _ hsplit :=
    absurd hsplit.symm (append_ne_nil_of_right_ne_nil _ (cons_ne_nil _ _))

theorem Tracked.of_closed (hstart : start.handle = none) :
    ∃ durable, Tracked start false [] durable := by
  have hhandle : ∀ w, start.handle ≠ some w := fun w hw => nomatch hstart.symm.trans hw
  cases hrecord : decodeRecord start.record with
  | ok stored =>
    refine ⟨stored, ?_, fun _ w hw => absurd hw (hhandle w),
      fun _ h => absurd h not_mem_nil⟩
    intro other hother
    exact Except.ok.inj (hother.symm.trans hrecord)
  | error e =>
    refine ⟨⟨⟨⟨0⟩, ⟨0⟩, ⟨0⟩, ⟨0⟩, ⟨0⟩⟩, .genesis ⟨0⟩⟩, ?_, fun _ w hw => absurd hw (hhandle w),
      fun _ h => absurd h not_mem_nil⟩
    intro other hother
    rw [hrecord] at hother
    cases hother

theorem NeverForks.append_exchanges (hrun : NeverForks run)
    (htracked : Tracked root behind (receiptsReturned run) durable) {calls : List WitnessCall}
    (hcareful : CarefulFrom behind calls) : NeverForks (run ++ exchanges root calls) := by
  induction calls generalizing run root behind durable with
  | nil =>
    rw [exchanges, append_nil]
    exact hrun
  | cons call calls ih =>
    obtain ⟨hcall, hcalls⟩ := hcareful
    obtain ⟨hnext, durable', htracked'⟩ := htracked.keeps hcall
    rw [exchanges, append_cons]
    rw [receiptsReturned, ← filterMap_snoc _ run ⟨root, call, (root.call call).1⟩] at htracked'
    exact ih (hrun.snoc hnext) htracked' hcalls

/-- **A witness that is opened again after a directory sync failed does not fork.** -/
theorem never_forks (hstart : start.handle = none) {calls : List WitnessCall}
    (hcareful : CarefulFrom false calls) : NeverForks (exchanges start calls) := by
  obtain ⟨durable, htracked⟩ := Tracked.of_closed hstart
  exact NeverForks.nil.append_exchanges htracked hcareful

end

/-! ## A failed directory sync -/

section

local instance witnessFileCrypto : Crypto := plainCrypto

def enrolledRoot : WitnessRoot :=
  ⟨witnessKey, encodeRecord ⟨sampleBinding, .genesis ⟨10⟩⟩, none⟩

def startsSet : IssuedAdvance where
  head := genesisHead
  entry := honestStart
  advance := ⟨.backupSetStarted, ⟨10⟩, 0, honestStart, honestStart.state⟩
  accepted := acceptSigned_of_precedes ⟨rfl, rfl, rfl, rfl, rfl, rfl⟩ (by decide +kernel)
  produced := .inl ⟨_, rfl⟩
  fits := by decide +kernel

def preparesRestore : IssuedAdvance where
  head := genesisHead
  entry := entryAfter genesisHead .restoreAttemptPrepared ⟨10⟩ 0
    (sampleState none (some samplePrepared) none)
  advance := ⟨.restoreAttemptPrepared, ⟨10⟩, 0, entryAfter genesisHead .restoreAttemptPrepared
    ⟨10⟩ 0 (sampleState none (some samplePrepared) none),
    sampleState none (some samplePrepared) none⟩
  accepted := acceptSigned_of_precedes ⟨rfl, rfl, rfl, rfl, rfl, rfl⟩ (by decide +kernel)
  produced := .inl ⟨[], rfl⟩
  fits := by decide +kernel

def unsyncedCalls : List WitnessCall :=
  [.reopen none none,
    .compareAndAdvance genesisHead startsSet (some ⟨.syncDirectory, "input/output error"⟩),
    .durableReceipt none,
    .compareAndAdvance genesisHead preparesRestore none]

/-- The receipt that was on disk when the sync failed is given out, and then another of
the same sequence. -/
theorem unsynced_directory_forks :
    enrolledRoot.handle = none ∧ ¬ NeverForks (exchanges enrolledRoot unsyncedCalls) := by
  refine ⟨rfl, ?_⟩
  intro h
  have hreturned : (receiptsReturned (exchanges enrolledRoot unsyncedCalls)).map
      (fun receipt => (receipt.sequence, receipt.state.restoreAttemptProgress)) =
        [(1, none), (1, some samplePrepared)] := by
    decide +kernel
  obtain ⟨first, rest, hlist, hfirst, hrest⟩ := map_eq_cons_iff.mp hreturned
  obtain ⟨second, last, rfl, hsecond, -⟩ := map_eq_cons_iff.mp hrest
  obtain ⟨hsequence, hnone⟩ := Prod.mk.inj hfirst
  obtain ⟨hsequence', hsome⟩ := Prod.mk.inj hsecond
  have hunique := h.unique
  rw [hlist] at hunique
  have hsame := hunique first mem_cons_self second (mem_cons_of_mem _ mem_cons_self)
    (hsequence.trans hsequence'.symm)
  rw [hsame, hsome] at hnone
  cases hnone

/-- The same failure, with the root opened again before the next entry. -/
def reopenedCalls : List WitnessCall :=
  [.reopen none none,
    .compareAndAdvance genesisHead startsSet (some ⟨.syncDirectory, "input/output error"⟩),
    .durableReceipt none,
    .reopen none none,
    .compareAndAdvance genesisHead preparesRestore none]

theorem never_forks_reopened : NeverForks (exchanges enrolledRoot reopenedCalls) :=
  never_forks rfl ⟨trivial, ⟨rfl, rfl⟩, trivial, trivial, ⟨rfl, rfl⟩, trivial⟩

end

end Vestrace.Installation
