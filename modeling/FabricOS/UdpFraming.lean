/-
Datagrams in the receive buffer (`udp_receive_packet`, `socket_recv`).

A datagram is stored as a record: the sender in six bytes, the length in two, the data.  The
record is written piece by piece, and each piece is cut where the buffer is full.
-/
import FabricOS.SocketOps

namespace Fabric

open SocketBuffer

/-- What happens to a UDP socket. -/
inductive UdpEvent
  | deliver (ip : Ipv4Header) (hdr : UdpHeader) (payload : List UInt8)
  | recv (n : ℕ)

namespace Socket

def udpStep (sock : Socket) : UdpEvent → Socket × Option NetReply
  | .deliver ip hdr payload => (sock.onDatagram ip hdr payload, none)
  | .recv n => ((sock.recv n).1, some (sock.recv n).2)

/-- The answers to a sequence of events. -/
def replies : Socket → List UdpEvent → List (Option NetReply)
  | _, [] => []
  | sock, e :: es => (sock.udpStep e).2 :: replies (sock.udpStep e).1 es

/-- Each datagram finds room for its whole record, or no room at all. -/
def Whole : Socket → List UdpEvent → Prop
  | _, [] => True
  | sock, e :: es =>
    (∀ ip hdr payload, e = .deliver ip hdr payload →
      8 + payload.length ≤ sock.rx.available ∨ sock.rx.available = 0) ∧
    Whole (sock.udpStep e).1 es

end Socket

/-- What is expected of a socket on which the datagrams `pending` wait: a new one waits behind
them or is dropped as a whole, and each `recv` takes one of them. -/
inductive Serves : List (List UInt8) → List UdpEvent → List (Option NetReply) → Prop
  | nil (pending) : Serves pending [] []
  | queued {pending ip hdr payload es rs} (h : Serves (pending ++ [payload]) es rs) :
      Serves pending (.deliver ip hdr payload :: es) (none :: rs)
  | dropped {pending ip hdr payload es rs} (h : Serves pending es rs) :
      Serves pending (.deliver ip hdr payload :: es) (none :: rs)
  | empty {n es rs} (h : Serves [] es rs) :
      Serves [] (.recv n :: es) (some (.failed .wouldBlock) :: rs)
  | taken {payload pending n es rs} (h : Serves pending es rs) :
      Serves (payload :: pending) (.recv n :: es) (some (.bytes (payload.take n)) :: rs)

/-! ### Records -/

def udpRecord (ip : Ipv4Header) (hdr : UdpHeader) (payload : List UInt8) : List UInt8 :=
  toBe16 hdr.srcPort ++ ip.srcAddr.bytes ++ toBe16 (.ofNat payload.length) ++ payload

/-- The bytes are the records of some datagrams. -/
inductive Framed : List (List UInt8) → List UInt8 → Prop
  | nil : Framed [] []
  | cons {payload payloads bytes} (ip hdr) (hlen : payload.length < 65536)
      (h : Framed payloads bytes) : Framed (payload :: payloads) (udpRecord ip hdr payload ++ bytes)

lemma Framed.concat {payloads : List (List UInt8)} {bytes : List UInt8}
    (h : Framed payloads bytes) (ip : Ipv4Header) (hdr : UdpHeader) {payload : List UInt8}
    (hlen : payload.length < 65536) :
    Framed (payloads ++ [payload]) (bytes ++ udpRecord ip hdr payload) := by
  induction h with
  | nil => simpa using Framed.cons ip hdr hlen .nil
  | cons ip' hdr' hlen' _ ih =>
    rw [List.append_assoc]
    exact .cons ip' hdr' hlen' ih

namespace Socket

variable (sock : Socket) (ip : Ipv4Header) (hdr : UdpHeader) (payload : List UInt8)

/-- As much of a record is stored as fits. -/
lemma contents_onDatagram : (sock.onDatagram ip hdr payload).rx.contents =
    (sock.rx.contents ++ udpRecord ip hdr payload).take ringBufSize := by
  have hwrite : ∀ (b : SocketBuffer) xs, (b.write xs).1.contents =
      (b.contents ++ xs).take ringBufSize := fun b xs => by
    have hmax : b.contents.length ≤ ringBufSize := b.length_contents ▸ b.len_le
    rw [b.contents_write, List.take_append, List.take_of_length_le hmax, b.length_contents,
      available]
  have hcut : ∀ xs ys : List UInt8, (xs.take ringBufSize ++ ys).take ringBufSize =
      (xs ++ ys).take ringBufSize := fun xs ys => by
    rw [List.take_append, List.take_append, List.take_take, min_self, List.length_take]
    congr 2
    omega
  simp only [onDatagram, hwrite, hcut, udpRecord, List.append_assoc]

variable {sock ip hdr payload}

/-- `recv` takes the length from the record in front, whatever follows it. -/
lemma recv_record (hudp : sock.protocol = .udp) (hlen : payload.length < 65536)
    {rest : List UInt8} (h : sock.rx.contents = (udpRecord ip hdr payload).take 8 ++ rest) (n : ℕ) :
    (sock.recv n).2 = .bytes (rest.take (min payload.length n)) ∧
      (sock.recv n).1.rx.contents = rest.drop payload.length := by
  have hhead : (sock.rx.read 8).2 = (udpRecord ip hdr payload).take 8 := by
    rw [read_snd, h]
    exact List.take_left' rfl
  have htail : (sock.rx.read 8).1.contents = rest := by
    rw [contents_read, h]
    exact List.drop_left' rfl
  have hnonempty : sock.rx.isEmpty = false := by
    have hpos : sock.rx.len = 8 + rest.length := by
      rw [← sock.rx.length_contents, h, List.length_append]
      rfl
    simp [isEmpty, hpos]
  have hfield : (be16 (((udpRecord ip hdr payload).take 8).getD 6 0)
      (((udpRecord ip hdr payload).take 8).getD 7 0)).toNat = payload.length := by
    change (be16 (byteAt (UInt16.ofNat payload.length).toNat 1)
      (byteAt (UInt16.ofNat payload.length).toNat 0)).toNat = _
    rw [be16_byteAt, UInt16.toNat_ofNat', Nat.mod_eq_of_lt hlen]
  have hsize : ((udpRecord ip hdr payload).take 8).length = 8 := rfl
  simp only [recv, hudp, hnonempty, Bool.false_eq_true, if_false, hhead, hsize, lt_irrefl, hfield]
  refine ⟨by rw [read_snd, htail], ?_⟩
  split
  · rw [contents_discard, contents_read, htail, List.drop_drop]
    congr 1
    omega
  · rw [contents_read, htail]
    congr 1
    omega

def udpSocket : Socket := fresh 1 .datagram .udp 7

def anyIp : Ipv4Header := .new .loopback .loopback 17 0

def anyUdp : UdpHeader := .new 53 5000 0

/-- A datagram that leaves eight bytes, a second one, and a `recv` for each of them. -/
def crowded : List UdpEvent :=
  [.deliver anyIp anyUdp (List.replicate 4080 0), .deliver anyIp anyUdp [7], .recv 4080, .recv 10]

/-- Of the second datagram the header is stored, and not its byte: `recv` yields no data. -/
lemma replies_crowded : ∃ data, udpSocket.replies crowded =
    [none, none, some (.bytes data), some (.bytes [])] := by
  rw [crowded]
  simp only [replies, udpStep]
  generalize hone : udpSocket.onDatagram anyIp anyUdp (List.replicate 4080 0) = first
  generalize htwo : first.onDatagram anyIp anyUdp [7] = second
  have hrecord : (udpRecord anyIp anyUdp (List.replicate 4080 0)).length = 4088 := by
    rw [udpRecord, List.length_append, List.length_replicate]
    rfl
  have hfirst : first.rx.contents = udpRecord anyIp anyUdp (List.replicate 4080 0) := by
    rw [← hone, contents_onDatagram]
    exact List.take_of_length_le (hrecord.trans_le (by decide))
  have hsecond : second.rx.contents = (udpRecord anyIp anyUdp (List.replicate 4080 0)).take 8 ++
      (List.replicate 4080 0 ++ (udpRecord anyIp anyUdp [7]).take 8) := by
    rw [← htwo, contents_onDatagram, hfirst, List.take_append, List.take_of_length_le
      (hrecord.trans_le (by decide)), hrecord]
    rfl
  have hudp : second.protocol = .udp := by rw [← htwo, ← hone]; rfl
  have hlen : (List.replicate 4080 (0 : UInt8)).length = 4080 := List.length_replicate
  obtain ⟨hreply, hleft⟩ := recv_record hudp (hlen.trans_lt (by decide)) hsecond 4080
  rw [List.drop_left, ← List.append_nil (List.take 8 _)] at hleft
  obtain ⟨rx, hrx⟩ := second.recv_fst 4080
  obtain ⟨hlast, -⟩ := recv_record (by rw [hrx, hudp]) (by decide) hleft 10
  rw [List.take_nil] at hlast
  exact ⟨_, by rw [hreply, hlast]⟩

end Socket

end Fabric
