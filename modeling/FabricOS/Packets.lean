/-
Headers and packets (`network/checksum.rs`, `ip.rs`, `tcp.rs`, `udp.rs`, `ethernet.rs`).

Packets are lists of bytes.  The builders write headers without options: 20 bytes for IPv4 and
for TCP, 8 for UDP.  A builder that is given too small a buffer builds nothing, which is the
empty list here.
-/
import FabricOS.Exec
import FabricOS.NetTypes

namespace Fabric

/-! ### Checksums -/

/-- The 16-bit words of a byte string, an odd byte being followed by a zero. -/
def sumWords : List UInt8 → UInt32
  | [] => 0
  | [b] => b.toUInt32 <<< 8
  | b₀ :: b₁ :: rest => (b₀.toUInt32 <<< 8 ||| b₁.toUInt32) + sumWords rest

/-- Add the carries to the low word; twice is enough, for the first sum is below `2 ^ 17`. -/
def foldCarries : ℕ → UInt32 → UInt32
  | 0, sum => sum
  | n + 1, sum =>
    if sum >>> 16 ≠ 0 then foldCarries n ((sum &&& (0xFFFF : UInt32)) + (sum >>> 16)) else sum

def onesComplement (sum : UInt32) : UInt16 := ~~~(foldCarries 2 sum).toUInt16

def internetChecksum (data : List UInt8) : UInt16 := onesComplement (sumWords data)

/-- The checksum of a segment, which covers the addresses, the protocol and the length too. -/
def pseudoHeaderChecksum (src dst : Ipv4Addr) (protocol : UInt8) (length : UInt16)
    (payload : List UInt8) : UInt16 :=
  onesComplement (sumWords src.bytes + sumWords dst.bytes + protocol.toUInt32 + length.toUInt32 +
    sumWords payload)

/-! ### IPv4 -/

structure Ipv4Header where
  versionIhl : UInt8
  tos : UInt8
  totalLength : UInt16
  identification : UInt16
  flagsFragment : UInt16
  ttl : UInt8
  protocol : UInt8
  checksum : UInt16
  srcAddr : Ipv4Addr
  dstAddr : Ipv4Addr
  deriving DecidableEq

namespace Ipv4Header

def size : ℕ := 20

def toBytes (h : Ipv4Header) : List UInt8 :=
  [h.versionIhl, h.tos] ++ toBe16 h.totalLength ++ toBe16 h.identification ++
    toBe16 h.flagsFragment ++ [h.ttl, h.protocol] ++ toBe16 h.checksum ++ h.srcAddr.bytes ++
    h.dstAddr.bytes

def computeChecksum (h : Ipv4Header) : UInt16 :=
  internetChecksum { h with checksum := 0 }.toBytes

def new (src dst : Ipv4Addr) (protocol : UInt8) (payloadLen : UInt16) : Ipv4Header :=
  let hdr : Ipv4Header :=
    { versionIhl := 0x45, tos := 0, totalLength := .ofNat size + payloadLen, identification := 0
      flagsFragment := 0x4000, ttl := 64, protocol, checksum := 0, srcAddr := src, dstAddr := dst }
  { hdr with checksum := hdr.computeChecksum }

def fromBytes (data : List UInt8) : Option Ipv4Header :=
  let b := fun i => data.getD i 0
  if data.length < size then none
  else some
    { versionIhl := b 0, tos := b 1, totalLength := be16 (b 2) (b 3)
      identification := be16 (b 4) (b 5), flagsFragment := be16 (b 6) (b 7), ttl := b 8
      protocol := b 9, checksum := be16 (b 10) (b 11), srcAddr := ⟨b 12, b 13, b 14, b 15⟩
      dstAddr := ⟨b 16, b 17, b 18, b 19⟩ }

@[simp] lemma length_toBytes (h : Ipv4Header) : h.toBytes.length = size := rfl

lemma fromBytes_append (h : Ipv4Header) (rest : List UInt8) :
    fromBytes (h.toBytes ++ rest) = some h := by
  have hlen : ¬ (h.toBytes ++ rest).length < size := by simp
  simp only [fromBytes, hlen, if_false]
  simp [toBytes, toBe16, Ipv4Addr.bytes]

end Ipv4Header

/-- Maximum transmission unit, which is also the size of the buffers packets are built in. -/
def loopbackMtu : ℕ := 1500

/-! ### TCP -/

namespace Tcp

def fin : UInt8 := 0x01
def syn : UInt8 := 0x02
def ack : UInt8 := 0x10

end Tcp

structure TcpHeader where
  srcPort : UInt16
  dstPort : UInt16
  seqNum : UInt32
  ackNum : UInt32
  /-- Data offset (4 bits), reserved (3) and flags (9). -/
  dataOffsetFlags : UInt16
  window : UInt16
  checksum : UInt16
  urgentPtr : UInt16
  deriving DecidableEq

namespace TcpHeader

def size : ℕ := 20

def new (srcPort dstPort : UInt16) (seq ack : UInt32) (flags : UInt8) (window : UInt16) :
    TcpHeader :=
  { srcPort, dstPort, seqNum := seq, ackNum := ack
    dataOffsetFlags := ((5 : UInt16) <<< 12) ||| flags.toUInt16, window, checksum := 0
    urgentPtr := 0 }

def flags (h : TcpHeader) : UInt8 := (h.dataOffsetFlags &&& (0x3F : UInt16)).toUInt8

def hasFlag (h : TcpHeader) (flag : UInt8) : Bool := h.flags &&& flag != 0

def toBytes (h : TcpHeader) : List UInt8 :=
  toBe16 h.srcPort ++ toBe16 h.dstPort ++ toBe32 h.seqNum ++ toBe32 h.ackNum ++
    toBe16 h.dataOffsetFlags ++ toBe16 h.window ++ toBe16 h.checksum ++ toBe16 h.urgentPtr

def fromBytes (data : List UInt8) : Option TcpHeader :=
  let b := fun i => data.getD i 0
  if data.length < size then none
  else some
    { srcPort := be16 (b 0) (b 1), dstPort := be16 (b 2) (b 3)
      seqNum := be32 (b 4) (b 5) (b 6) (b 7), ackNum := be32 (b 8) (b 9) (b 10) (b 11)
      dataOffsetFlags := be16 (b 12) (b 13), window := be16 (b 14) (b 15)
      checksum := be16 (b 16) (b 17), urgentPtr := be16 (b 18) (b 19) }

@[simp] lemma length_toBytes (h : TcpHeader) : h.toBytes.length = size := rfl

lemma fromBytes_append (h : TcpHeader) (rest : List UInt8) :
    fromBytes (h.toBytes ++ rest) = some h := by
  have hlen : ¬ (h.toBytes ++ rest).length < size := by simp
  simp only [fromBytes, hlen, if_false]
  simp [toBytes, toBe16, toBe32]

end TcpHeader

/-- What is sent from one end of a connection to the other. -/
structure Segment where
  src : SocketAddr
  dst : SocketAddr
  seq : UInt32
  ack : UInt32
  flags : UInt8
  window : UInt16
  data : List UInt8
  deriving DecidableEq

/-- Build a segment with its headers in a buffer of `bufLen` bytes. -/
def buildTcpPacket (src dst : SocketAddr) (seq ack : UInt32) (flags : UInt8) (window : UInt16)
    (data : List UInt8) (bufLen : ℕ) : List UInt8 :=
  let tcpLen := TcpHeader.size + data.length
  let total := Ipv4Header.size + tcpLen
  if bufLen < total then []
  else
    let ip := Ipv4Header.new src.addr dst.addr 6 (.ofNat tcpLen)
    let tcp := TcpHeader.new src.port dst.port seq ack flags window
    let chk := pseudoHeaderChecksum src.addr dst.addr 6 (.ofNat tcpLen) (tcp.toBytes ++ data)
    let tcp := { tcp with checksum := chk }
    ip.toBytes ++ tcp.toBytes ++ data

def Segment.packet (s : Segment) : List UInt8 :=
  buildTcpPacket s.src s.dst s.seq s.ack s.flags s.window s.data loopbackMtu

/-! ### UDP -/

structure UdpHeader where
  srcPort : UInt16
  dstPort : UInt16
  length : UInt16
  checksum : UInt16
  deriving DecidableEq

namespace UdpHeader

def size : ℕ := 8

def new (srcPort dstPort dataLen : UInt16) : UdpHeader :=
  { srcPort, dstPort, length := .ofNat size + dataLen, checksum := 0 }

def toBytes (h : UdpHeader) : List UInt8 :=
  toBe16 h.srcPort ++ toBe16 h.dstPort ++ toBe16 h.length ++ toBe16 h.checksum

def fromBytes (data : List UInt8) : Option UdpHeader :=
  let b := fun i => data.getD i 0
  if data.length < size then none
  else some
    { srcPort := be16 (b 0) (b 1), dstPort := be16 (b 2) (b 3), length := be16 (b 4) (b 5)
      checksum := be16 (b 6) (b 7) }

end UdpHeader

/-- Build a datagram with its headers in a buffer of `bufLen` bytes.  The lengths are 16-bit
numbers; where one of them has wrapped around, the data does not match the place reserved for
it and the copy aborts. -/
def buildUdpPacket (src dst : SocketAddr) (data : List UInt8) (bufLen : ℕ) : Exec (List UInt8) :=
  let dataLen : UInt16 := .ofNat data.length
  let udpLen : UInt16 := .ofNat UdpHeader.size + dataLen
  let total := Ipv4Header.size + udpLen.toNat
  if bufLen < total then .ok []
  else
    let ip := Ipv4Header.new src.addr dst.addr 17 udpLen
    let udp := UdpHeader.new src.port dst.port dataLen
    if total < Ipv4Header.size + UdpHeader.size ∨
        data.length ≠ total - (Ipv4Header.size + UdpHeader.size) then .panic
    else
      let chk := pseudoHeaderChecksum src.addr dst.addr 17 udpLen (udp.toBytes ++ data)
      let udp := { udp with checksum := chk }
      .ok (ip.toBytes ++ udp.toBytes ++ data)

/-! ### Ethernet -/

/-- `[u8; 6]`. -/
abbrev MacAddr := Vector UInt8 6

def etherTypeIpv4 : UInt16 := 0x0800
def etherTypeArp : UInt16 := 0x0806

def broadcastMac : MacAddr := Vector.replicate 6 0xFF

structure EthernetFrame where
  dstMac : List UInt8
  srcMac : List UInt8
  etherType : UInt16
  payload : List UInt8

namespace EthernetFrame

def headerSize : ℕ := 14

def build (dstMac srcMac : MacAddr) (etherType : UInt16) (payload : List UInt8) : List UInt8 :=
  dstMac.toList ++ srcMac.toList ++ [(etherType >>> 8).toUInt8, etherType.toUInt8] ++ payload

def parse (data : List UInt8) : Option EthernetFrame :=
  if data.length < headerSize then none
  else some
    { dstMac := data.take 6, srcMac := (data.drop 6).take 6
      etherType := (data.getD 12 0).toUInt16 <<< 8 ||| (data.getD 13 0).toUInt16
      payload := data.drop headerSize }

end EthernetFrame

end Fabric
