/-
Wire types of the kernel (`fabric_types`): identifiers, permissions, capability
tokens and message headers, with the byte strings that are signed.

Identifiers keep the width of the source (`u64`, `u32`, `u16`).  The reserved
24 bytes of the two 64-byte records take no part in any operation and are left
out; the 40 active bytes are serialised field by field, little endian.

The keyed HMAC and the SHA3-256 hash come from crates outside the kernel.  They
enter as the two functions of `Crypto`; nothing is assumed of them here.
-/
import Mathlib.Algebra.Order.Ring.Nat

open Nat

namespace Fabric

abbrev CapabilityId := UInt64
abbrev ResourceId := UInt64
abbrev ProcessId := UInt32
abbrev TypeId := UInt16

/-- `[u8; 32]`. -/
abbrev Digest := Vector UInt8 32

/-- The digests the kernel computes: HMAC-SHA3-256 under the boot key, and
SHA3-256. -/
structure Crypto where
  hmac : List UInt8 → Digest
  sha3 : List UInt8 → Digest

def Crypto.zero : Crypto := ⟨fun _ => Vector.replicate 32 0, fun _ => Vector.replicate 32 0⟩

/-- The low `w` bytes of `n`, least significant first. -/
def toLeBytes (w n : ℕ) : List UInt8 := (List.range w).map fun i => UInt8.ofNat (n >>> (8 * i))

@[simp] lemma length_toLeBytes (w n : ℕ) : (toLeBytes w n).length = w := by simp [toLeBytes]

lemma toLeBytes_inj {w n m : ℕ} (hn : n < 2 ^ (8 * w)) (hm : m < 2 ^ (8 * w))
    (h : toLeBytes w n = toLeBytes w m) : n = m := by
  have hbyte : ∀ i < w, (n >>> (8 * i)) % 2 ^ 8 = (m >>> (8 * i)) % 2 ^ 8 := by
    intro i hi
    have hi' : (toLeBytes w n)[i]? = (toLeBytes w m)[i]? := by rw [h]
    simp only [toLeBytes, List.getElem?_map, List.getElem?_range hi, Option.map_some,
      Option.some.injEq] at hi'
    simpa using congrArg UInt8.toNat hi'
  apply eq_of_testBit_eq
  intro k
  by_cases hk : k < 8 * w
  · -- bit `k` is bit `k % 8` of byte `k / 8`
    have hbit := congrArg (·.testBit (k % 8)) (hbyte (k / 8) (by omega))
    simp only [testBit_mod_two_pow, mod_lt k (show 8 > 0 by omega), decide_true,
      Bool.true_and, testBit_shiftRight, div_add_mod] at hbit
    exact hbit
  · have hpow : 2 ^ (8 * w) ≤ 2 ^ k := Nat.pow_le_pow_right (by omega) (by omega)
    rw [testBit_lt_two_pow (by omega), testBit_lt_two_pow (by omega)]

def ResourceId.kind (r : ResourceId) : UInt16 := (r >>> 48).toUInt16

/-! ### Permissions -/

structure Perm where
  bits : UInt16
  deriving DecidableEq

namespace Perm

def write : Perm := ⟨(1 : UInt16) <<< 1⟩
def grant : Perm := ⟨(1 : UInt16) <<< 3⟩

def contains (p other : Perm) : Bool := p.bits &&& other.bits == other.bits

def isSubsetOf (p parent : Perm) : Bool := p.bits &&& ~~~parent.bits == 0

/-- Permission bit `i` is set. -/
def has (p : Perm) (i : ℕ) : Bool := p.bits.toBitVec.getLsbD i

lemma isSubsetOf_iff {p q : Perm} :
    p.isSubsetOf q = true ↔ ∀ i, p.has i = true → q.has i = true := by
  have hword : p.isSubsetOf q = true ↔ p.bits.toBitVec &&& ~~~q.bits.toBitVec = 0#16 := by
    rw [isSubsetOf, beq_iff_eq, ← UInt16.toBitVec_inj]
    simp
  rw [hword]
  constructor
  · intro h i hp
    by_cases hi : i < 16
    · have hbit := congrArg (·.getLsbD i) h
      simp only [BitVec.getLsbD_and, BitVec.getLsbD_not, BitVec.getLsbD_zero, hi] at hbit
      simp only [has] at hp ⊢
      simpa [hp] using hbit
    · exact absurd hp (by simp [has, BitVec.getLsbD_of_ge p.bits.toBitVec i (by omega)])
  · intro h
    apply BitVec.eq_of_getLsbD_eq
    intro i hi
    have hbit := h i
    simp only [has] at hbit
    simp only [BitVec.getLsbD_and, BitVec.getLsbD_not, BitVec.getLsbD_zero, hi]
    cases hp : p.bits.toBitVec.getLsbD i
    · simp
    · simp [hbit hp]

lemma isSubsetOf_refl (p : Perm) : p.isSubsetOf p = true :=
  isSubsetOf_iff.mpr fun _ h => h

lemma isSubsetOf_trans {p q r : Perm} (hpq : p.isSubsetOf q = true)
    (hqr : q.isSubsetOf r = true) : p.isSubsetOf r = true := by
  rw [isSubsetOf_iff] at *
  exact fun i hp => hqr i (hpq i hp)

end Perm

/-! ### Capability tokens -/

/-- Rate limit: at most `maxUses` uses in any interval of `intervalTicks`. -/
structure Budget where
  maxUses : ℕ
  intervalTicks : ℕ
  deriving DecidableEq

/-- The active fields of a capability token. -/
structure CapabilityToken where
  version : UInt16
  permissions : Perm
  owner : ProcessId
  id : CapabilityId
  resource : ResourceId
  delegatedFrom : UInt64
  nonce : UInt32
  expires : UInt32
  deriving DecidableEq

namespace CapabilityToken

def version1 : UInt16 := 1

def activeBytes (t : CapabilityToken) : List UInt8 :=
  toLeBytes 2 t.version.toNat ++ toLeBytes 2 t.permissions.bits.toNat ++
    toLeBytes 4 t.owner.toNat ++ toLeBytes 8 t.id.toNat ++ toLeBytes 8 t.resource.toNat ++
    toLeBytes 8 t.delegatedFrom.toNat ++ toLeBytes 4 t.nonce.toNat ++ toLeBytes 4 t.expires.toNat

end CapabilityToken

/-! ### Message headers -/

/-- The active fields of a message header. -/
structure MessageHeader where
  version : UInt16
  msgType : TypeId
  sender : ProcessId
  receiver : ProcessId
  payloadLen : UInt32
  capabilityId : UInt64
  sequence : UInt64
  timestamp : UInt64
  deriving DecidableEq

namespace MessageHeader

def version1 : UInt16 := 1

def activeBytes (h : MessageHeader) : List UInt8 :=
  toLeBytes 2 h.version.toNat ++ toLeBytes 2 h.msgType.toNat ++ toLeBytes 4 h.sender.toNat ++
    toLeBytes 4 h.receiver.toNat ++ toLeBytes 4 h.payloadLen.toNat ++
    toLeBytes 8 h.capabilityId.toNat ++ toLeBytes 8 h.sequence.toNat ++
    toLeBytes 8 h.timestamp.toNat

end MessageHeader

end Fabric
