/-
Addresses and identifiers of the network stack (`network/addr.rs`, `network/socket.rs`), and
numbers on the wire.

Numbers are sent most significant byte first.  A socket id packs the slot of the socket
table with the generation of its occupant.
-/
import FabricOS.Slots

namespace Fabric

/-! ### Numbers on the wire -/

/-- `u16::from_be_bytes`. -/
def be16 (b₀ b₁ : UInt8) : UInt16 := .ofNat (b₀.toNat * 256 + b₁.toNat)

/-- `u32::from_be_bytes`. -/
def be32 (b₀ b₁ b₂ b₃ : UInt8) : UInt32 :=
  .ofNat (((b₀.toNat * 256 + b₁.toNat) * 256 + b₂.toNat) * 256 + b₃.toNat)

/-- Byte `i` of a number, counted from the least significant one. -/
def byteAt (n i : ℕ) : UInt8 := .ofNat (n / 256 ^ i)

/-- `u16::to_be_bytes`. -/
def toBe16 (n : UInt16) : List UInt8 := [byteAt n.toNat 1, byteAt n.toNat 0]

/-- `u32::to_be_bytes`. -/
def toBe32 (n : UInt32) : List UInt8 :=
  [byteAt n.toNat 3, byteAt n.toNat 2, byteAt n.toNat 1, byteAt n.toNat 0]

@[simp] lemma be16_byteAt (n : UInt16) : be16 (byteAt n.toNat 1) (byteAt n.toNat 0) = n := by
  have hn := n.toNat_lt
  apply UInt16.toNat_inj.mp
  simp only [be16, byteAt, UInt8.toNat_ofNat', UInt16.toNat_ofNat', pow_one, pow_zero]
  omega

@[simp] lemma be32_byteAt (n : UInt32) :
    be32 (byteAt n.toNat 3) (byteAt n.toNat 2) (byteAt n.toNat 1) (byteAt n.toNat 0) = n := by
  have hn := n.toNat_lt
  apply UInt32.toNat_inj.mp
  simp only [be32, byteAt, UInt8.toNat_ofNat', UInt32.toNat_ofNat']
  omega

/-! ### Addresses -/

structure Ipv4Addr where
  b₀ : UInt8
  b₁ : UInt8
  b₂ : UInt8
  b₃ : UInt8
  deriving DecidableEq

namespace Ipv4Addr

def unspecified : Ipv4Addr := ⟨0, 0, 0, 0⟩
def loopback : Ipv4Addr := ⟨127, 0, 0, 1⟩

def fromU32 (v : UInt32) : Ipv4Addr :=
  ⟨byteAt v.toNat 3, byteAt v.toNat 2, byteAt v.toNat 1, byteAt v.toNat 0⟩

def isUnspecified (a : Ipv4Addr) : Bool := a.b₀ == 0 && a.b₁ == 0 && a.b₂ == 0 && a.b₃ == 0

def bytes (a : Ipv4Addr) : List UInt8 := [a.b₀, a.b₁, a.b₂, a.b₃]

end Ipv4Addr

structure SocketAddr where
  addr : Ipv4Addr
  port : UInt16
  deriving DecidableEq

namespace SocketAddr

def unspecified : SocketAddr := ⟨.unspecified, 0⟩

def isUnspecified (a : SocketAddr) : Bool := a.addr.isUnspecified && a.port == 0

end SocketAddr

inductive SocketType
  | stream
  | datagram
  deriving DecidableEq

inductive Protocol
  | tcp
  | udp
  deriving DecidableEq

/-! ### Socket ids -/

def maxSockets : ℕ := 256

lemma zero_lt_maxSockets : 0 < maxSockets := by decide

lemma one_lt_maxSockets : 1 < maxSockets := by decide

/-- A slot (bits 0 to 7) and a generation (bits 8 to 23). -/
structure SocketId where
  raw : UInt32
  deriving DecidableEq

namespace SocketId

def invalid : SocketId := ⟨0xFFFFFFFF⟩

def slot (id : SocketId) : Fin maxSockets :=
  ⟨(id.raw &&& 0xFF).toNat, by
    rw [UInt32.toNat_and]
    exact Nat.lt_of_le_of_lt Nat.and_le_right (by decide)⟩

def generation (id : SocketId) : UInt16 := ((id.raw >>> 8) &&& 0xFFFF).toUInt16

def pack (slot : Fin maxSockets) (gen : UInt16) : SocketId :=
  ⟨.ofNat slot.val ||| (gen.toUInt32 <<< 8)⟩

lemma toNat_pack (slot : Fin maxSockets) (gen : UInt16) :
    (pack slot gen).raw.toNat = slot.val ||| gen.toNat <<< 8 := by
  have hslot : slot.val < 256 := slot.isLt
  have hgen := gen.toNat_lt
  have hshift : gen.toNat <<< 8 < 2 ^ 32 := by
    omega
  simp only [pack, UInt32.toNat_or, UInt32.toNat_ofNat', UInt32.toNat_shiftLeft,
    UInt16.toNat_toUInt32, UInt32.reduceToNat, Nat.reduceMod, Nat.mod_eq_of_lt hshift]
  rw [Nat.mod_eq_of_lt (by omega)]

@[simp] lemma slot_pack (slot : Fin maxSockets) (gen : UInt16) : (pack slot gen).slot = slot := by
  apply Fin.ext
  simp only [SocketId.slot, UInt32.toNat_and, toNat_pack]
  exact packed_and slot.isLt gen.toNat

@[simp] lemma generation_pack (slot : Fin maxSockets) (gen : UInt16) :
    (pack slot gen).generation = gen := by
  apply UInt16.toNat_inj.mp
  have hgen := gen.toNat_lt
  have hparts := packed_shiftRight slot.isLt hgen
  simp only [generation, UInt32.toNat_toUInt16, UInt32.toNat_and, UInt32.toNat_shiftRight,
    toNat_pack, UInt32.reduceToNat, Nat.reduceMod]
  omega

end SocketId

end Fabric
