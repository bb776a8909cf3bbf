import Vestrace.Lib.Bytes
import Vestrace.Base

/-!
# The installation's own values

Identities, digests and keys of the safety journal and the backup archive. An array `[u8; n]` is
its `8 * n` bits.
-/

namespace Vestrace.Installation

open Lib

/-- What a newtype over `Uuid` of this part identifies. -/
inductive Subject where
  | installation
  | fingerprintKey
  | databaseGeneration
  | backupSet
  | backupObject
  | restoreHold
  | restoreAttempt
  | restoreTarget

/-- The newtypes over `Uuid` are one type, as in `Base`. They are ordered by their sixteen
bytes, which is the order of the 128-bit numbers. -/
structure SafetyId (s : Subject) where
  fromUuid ::
  asUuid : Uuid

namespace SafetyId

variable {s : Subject}

theorem toNat_injective : Function.Injective fun id : SafetyId s => id.asUuid.toNat := by
  rintro ⟨a⟩ ⟨b⟩ h
  exact congrArg fromUuid (BitVec.toNat_inj.mp h)

instance : LinearOrder (SafetyId s) := LinearOrder.lift' _ toNat_injective

def asBytes (id : SafetyId s) : Bytes := beBytes 16 id.asUuid.toNat

end SafetyId

abbrev InstallationId := SafetyId .installation
abbrev FingerprintKeyId := SafetyId .fingerprintKey
abbrev DatabaseGenerationId := SafetyId .databaseGeneration
abbrev BackupSetId := SafetyId .backupSet
abbrev BackupObjectId := SafetyId .backupObject
abbrev RestoreHoldId := SafetyId .restoreHold
abbrev RestoreAttemptId := SafetyId .restoreAttempt
abbrev RestoreTargetId := SafetyId .restoreTarget

def ascii (text : String) : Bytes := text.toList.map fun c => UInt8.ofNat c.toNat

def checkedAdd (a b : UInt64) : Option UInt64 :=
  if a.toNat + b.toNat < 2 ^ 64 then some (a + b) else none

theorem checkedAdd_one_eq_some {a b : UInt64} (h : checkedAdd a 1 = some b) :
    b.toNat = a.toNat + 1 := by
  have hone : (1 : UInt64).toNat = 1 := rfl
  rw [checkedAdd, hone] at h
  split_ifs at h with hlt
  obtain rfl := Option.some.inj h
  rw [UInt64.toNat_add, hone, Nat.mod_eq_of_lt hlt]

/-! ## Digests, keys and signatures -/

/-- What the sources take from `sha2` and `ring`. -/
class Crypto where
  sha256 : Bytes → BitVec 256
  Ed25519KeyPair : Type
  publicKey : Ed25519KeyPair → BitVec 256
  sign : Ed25519KeyPair → Bytes → BitVec 512
  verify : BitVec 256 → Bytes → BitVec 512 → Bool
  verify_sign : ∀ key message, verify (publicKey key) message (sign key message) = true

structure SafetyJournalDigest where
  fromBytes ::
  bits : BitVec 256
  deriving DecidableEq, Repr

def SafetyJournalDigest.of [Crypto] (bytes : Bytes) : SafetyJournalDigest :=
  ⟨Crypto.sha256 bytes⟩

def SafetyJournalDigest.asBytes (digest : SafetyJournalDigest) : Bytes :=
  beBytes 32 digest.bits.toNat

theorem verify_setWidth (key : BitVec 256) (_ : Bytes) :
    (key.setWidth 512 == key.setWidth 512) = true := beq_self_eq_true _

/-- A scheme to run examples with: the digest is the last 32 bytes, and a signature is
the signer's key, whatever was signed. -/
@[reducible] def plainCrypto : Crypto where
  sha256 bytes := BitVec.ofNat 256 (ofBeBytes bytes)
  Ed25519KeyPair := BitVec 256
  publicKey key := key
  sign key _ := key.setWidth 512
  verify key _ signature := signature == key.setWidth 512
  verify_sign := verify_setWidth

end Vestrace.Installation
