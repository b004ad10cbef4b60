/-
What a send puts on the wire (`build_udp_packet`, `socket_send`).

The builder of datagrams computes its lengths with 16 bits.  `socket_send` answers with the
length of the data, whether a packet was built from it or not.
-/
import FabricOS.NetworkStack

open List

namespace Fabric

open NetCore

open Ipv4Header

/-! ### Datagrams -/

/-- A packet is the datagram of some data: both length fields are the real lengths. -/
structure IsDatagram (data packet : List UInt8) : Prop where
  length : packet.length = 28 + data.length
  ip : ∃ ip, Ipv4Header.fromBytes packet = some ip ∧ ip.totalLength.toNat = packet.length
  udp : ∃ udp, UdpHeader.fromBytes (packet.drop 20) = some udp ∧
    udp.length.toNat = 8 + data.length
  payload : packet.drop 28 = data

/-- The result of the builder is nothing to send, or the datagram of the data. -/
def BuildsDatagram (data : List UInt8) (result : Exec (List UInt8)) : Prop :=
  result = .ok [] ∨ ∃ packet, result = .ok packet ∧ IsDatagram data packet

lemma UdpHeader.fromBytes_append (h : UdpHeader) (rest : List UInt8) :
    fromBytes (h.toBytes ++ rest) = some h := by
  simp [fromBytes, toBytes, toBe16, size]

section

variable (src dst : SocketAddr) (data : List UInt8) (bufLen : ℕ)

lemma buildUdpPacket_of_lt (h : bufLen < 20 + (8 + data.length) % 65536) :
    buildUdpPacket src dst data bufLen = .ok [] := by
  rw [buildUdpPacket, if_pos]
  simpa [size, UdpHeader.size] using h

/-- With 65528 bytes or more the lengths wrap around, and the copy aborts. -/
lemma buildUdpPacket_panic (hbuf : 20 + (8 + data.length) % 65536 ≤ bufLen)
    (h : 65528 ≤ data.length) : buildUdpPacket src dst data bufLen = .panic := by
  rw [buildUdpPacket, if_neg (by simpa [size, UdpHeader.size] using hbuf)]
  simp [size, UdpHeader.size]
  omega

lemma buildUdpPacket_built (hbuf : 28 + data.length ≤ bufLen) (h : data.length < 65528) :
    ∃ ip udp, buildUdpPacket src dst data bufLen =
        .ok (Ipv4Header.toBytes ip ++ UdpHeader.toBytes udp ++ data) ∧
      ip.totalLength.toNat = (28 + data.length) % 65536 ∧ udp.length.toNat = 8 + data.length := by
  have hlen : (UInt16.ofNat UdpHeader.size + UInt16.ofNat data.length).toNat = 8 + data.length := by
    simp [UdpHeader.size]; omega
  rw [buildUdpPacket, if_neg (by rw [hlen, size]; omega),
    if_neg (by rw [hlen, size, UdpHeader.size]; omega)]
  refine ⟨_, _, rfl, ?_, hlen⟩
  simp only [new, UInt16.toNat_add, hlen, size, UInt16.toNat_ofNat']
  omega

/-- The builder keeps its promise exactly for up to 65507 bytes, or when the buffer is too small
for the length it has computed.  It aborts exactly when that length has wrapped around. -/
theorem buildUdpPacket_builds_iff : (BuildsDatagram data (buildUdpPacket src dst data bufLen) ↔
      data.length ≤ 65507 ∨ bufLen < 20 + (8 + data.length) % 65536) ∧
    (buildUdpPacket src dst data bufLen = .panic ↔
      65528 ≤ data.length ∧ 20 + (8 + data.length) % 65536 ≤ bufLen) := by
  by_cases hbuf : bufLen < 20 + (8 + data.length) % 65536
  · rw [buildUdpPacket_of_lt src dst data bufLen hbuf]
    exact ⟨iff_of_true (.inl rfl) (.inr hbuf), iff_of_false (fun h => by cases h) (by omega)⟩
  by_cases hlong : 65528 ≤ data.length
  · rw [buildUdpPacket_panic src dst data bufLen (by omega) hlong]
    exact ⟨iff_of_false (by rintro (h | ⟨_, h, _⟩) <;> cases h) (by omega),
      iff_of_true rfl ⟨hlong, by omega⟩⟩
  obtain ⟨ip, udp, hbuilt, hip, hudp⟩ :=
    buildUdpPacket_built src dst data bufLen (by omega) (by omega)
  have hparse : fromBytes (ip.toBytes ++ udp.toBytes ++ data) = some ip := by
    rw [append_assoc, fromBytes_append]
  have hsize : (ip.toBytes ++ udp.toBytes ++ data).length = 28 + data.length := by
    simp only [length_append, length_toBytes, size]
    rfl
  rw [hbuilt]
  refine ⟨⟨?_, fun h => ?_⟩, iff_of_false (fun h => by cases h) (by omega)⟩
  · rintro (hnil | ⟨packet, hpacket, hd⟩)
    · rw [Exec.ok.inj hnil, length_nil] at hsize
      omega
    cases hpacket
    -- the length field of the IP header holds the total length only if that is below 65536
    obtain ⟨ip', hip', htotal⟩ := hd.ip
    cases hparse.symm.trans hip'
    omega
  · refine .inr ⟨_, rfl, hsize, ⟨ip, hparse, by rw [hip, hsize]; omega⟩, ⟨udp, ?_, hudp⟩, rfl⟩
    exact UdpHeader.fromBytes_append udp data

/-- 65528 bytes in a buffer for 1500: the length in the header is 0, and the copy aborts. -/
theorem buildUdpPacket_wraps : ¬ BuildsDatagram (List.replicate 65528 0)
    (buildUdpPacket ⟨⟨10, 0, 2, 15⟩, 5000⟩ ⟨⟨10, 0, 2, 2⟩, 53⟩ (List.replicate 65528 0) 1500) := by
  rw [buildUdpPacket_panic _ _ _ _ (by rw [length_replicate]; decide)
    (by rw [length_replicate])]
  rintro (h | ⟨_, h, _⟩) <;> cases h

end

/-! ### Sends -/

/-- The packets that a locked section passes to `transmit_ip`. -/
def NetOutput.passed (out : NetOutput) : List (List UInt8) :=
  (out.sent.map (·.segment.packet) ++ out.packets).filter (!·.isEmpty)

/-- The headers in front of the data. -/
def Protocol.headerLen : Protocol → ℕ
  | .tcp => 40
  | .udp => 28

def Socket.Connected (sock : Socket) : Prop :=
  match sock.protocol with
  | .tcp => sock.state = .established
  | .udp => sock.remoteAddr.isUnspecified = false

namespace NetStack

/-- A count in the answer is the number of bytes that were passed on, from the front of the data,
and a TCP socket has moved on by as many. -/
def TellsTruth (sock : Socket) (id : SocketId) (data : List UInt8) (s' : NetStack)
    (out : NetOutput) : Prop :=
  ∀ n, out.reply = .count n → n ≤ data.length ∧
    out.passed.flatMap (·.drop sock.protocol.headerLen) = data.take n ∧
    (sock.protocol = .tcp → ∃ sock', s'.core.sockets.get id = some sock' ∧
      sock'.sendSeq = sock.sendSeq + .ofNat n)

variable {s : NetStack} {id : SocketId} {sock : Socket} {data : List UInt8}

lemma perform_send_tcp (hget : s.core.sockets.get id = some sock) (hconn : sock.Connected)
    (hprotocol : sock.protocol = .tcp) (data : List UInt8) :
    ∃ s' out, s.perform (.send id data) = .ok (s', out) ∧ out.reply = .count data.length ∧
      out.passed = [(sock.segment Tcp.ack data).packet].filter (!·.isEmpty) ∧
      ∃ sock', s'.core.sockets.get id = some sock' ∧
        sock'.sendSeq = sock.sendSeq + .ofNat data.length := by
  have hstate : sock.state = .established := by simpa [Socket.Connected, hprotocol] using hconn
  refine ⟨_, _, by
    simp only [perform, step, sendStart, withSocket, hget, hprotocol,
      hstate, ne_eq, not_true_eq_false, if_false]
    rfl, rfl, by simp [NetOutput.passed],
    { sock with protocol := .tcp, state := .established, sendSeq := _ }, ?_, rfl⟩
  obtain ⟨hactive, hgen, rfl⟩ := SocketTable.get_eq_some.mp hget
  rw [transmitOutput_core, SocketTable.get_eq_some, put, SocketTable.set_self]
  exact ⟨hactive, hgen, rfl⟩

lemma perform_send_udp (hget : s.core.sockets.get id = some sock) (hconn : sock.Connected)
    (hprotocol : sock.protocol = .udp) : s.perform (.send id data) =
      buildUdpPacket sock.localAddr sock.remoteAddr data 1500 >>= fun packet =>
        .ok (s.transmitOutput ⟨.count data.length, [], [packet]⟩,
          ⟨.count data.length, [], [packet]⟩) := by
  have haddr : sock.remoteAddr.isUnspecified = false := by
    simpa [Socket.Connected, hprotocol] using hconn
  simp only [perform, step, sendStart, withSocket, hget, hprotocol, haddr,
    Bool.false_eq_true, if_false, loopbackMtu]
  cases buildUdpPacket sock.localAddr sock.remoteAddr data 1500 <;> rfl

/-- Data that fits behind the headers is passed on in one packet. -/
lemma perform_send_of_fits (hget : s.core.sockets.get id = some sock) (hconn : sock.Connected)
    (hfits : sock.protocol.headerLen + data.length ≤ loopbackMtu) :
    ∃ s' out packet, s.perform (.send id data) = .ok (s', out) ∧ out.reply = .count data.length ∧
      out.passed = [packet] ∧ packet.drop sock.protocol.headerLen = data ∧
      (sock.protocol = .tcp → ∃ sock', s'.core.sockets.get id = some sock' ∧
        sock'.sendSeq = sock.sendSeq + .ofNat data.length) := by
  rw [loopbackMtu] at hfits
  cases hprotocol : sock.protocol with
  | tcp =>
    simp only [hprotocol, Protocol.headerLen] at hfits
    obtain ⟨s', out, hsend, hreply, hpassed, hget'⟩ := perform_send_tcp hget hconn hprotocol data
    rw [Segment.packet_of_fits (decide_eq_true (show data.length ≤ 1460 by omega))] at hpassed
    exact ⟨s', out, _, hsend, hreply, hpassed, rfl, fun _ => hget'⟩
  | udp =>
    simp only [hprotocol, Protocol.headerLen] at hfits
    obtain ⟨ip, udp, hbuilt, -⟩ :=
      buildUdpPacket_built sock.localAddr sock.remoteAddr data 1500 hfits (by omega)
    rw [perform_send_udp hget hconn hprotocol, hbuilt]
    exact ⟨_, _, _, rfl, rfl, rfl, rfl, fun h => by cases h⟩

/-- Data that does not fit is not passed on at all, and is counted all the same. -/
lemma passed_of_not_fits {s' : NetStack} {out : NetOutput}
    (hget : s.core.sockets.get id = some sock) (hconn : sock.Connected)
    (hfits : ¬ sock.protocol.headerLen + data.length ≤ loopbackMtu)
    (h : s.perform (.send id data) = .ok (s', out)) :
    out.reply = .count data.length ∧ out.passed = [] := by
  rw [loopbackMtu] at hfits
  cases hprotocol : sock.protocol with
  | tcp =>
    simp only [hprotocol, Protocol.headerLen] at hfits
    obtain ⟨_, _, hsend, hreply, hpassed, -⟩ := perform_send_tcp hget hconn hprotocol data
    cases hsend.symm.trans h
    have hlong : ¬ data.length ≤ 1460 := by omega
    rw [Segment.packet_of_not_fits (decide_eq_false hlong)] at hpassed
    exact ⟨hreply, hpassed⟩
  | udp =>
    simp only [hprotocol, Protocol.headerLen] at hfits
    rw [perform_send_udp hget hconn hprotocol] at h
    by_cases hlen : 1500 < 20 + (8 + data.length) % 65536
    · rw [buildUdpPacket_of_lt _ _ _ _ hlen] at h
      cases h
      exact ⟨rfl, rfl⟩
    · rw [buildUdpPacket_panic _ _ _ _ (by omega) (by omega)] at h
      cases h

/-- `socket_send` answers, and truthfully, exactly when the data fits behind the headers. -/
theorem send_tellsTruth_iff (hget : s.core.sockets.get id = some sock) (hconn : sock.Connected)
    (env : ℕ → Poll) :
    (∃ s' out s'', s.perform (.send id data) = .ok (s', out) ∧
      s.op env (.send id data) = .ok (s'', out.reply) ∧ TellsTruth sock id data s' out) ↔
    sock.protocol.headerLen + data.length ≤ loopbackMtu := by
  constructor
  · rintro ⟨s', out, -, hsend, -, htruth⟩
    by_contra hfits
    obtain ⟨hreply, hpassed⟩ := passed_of_not_fits hget hconn hfits hsend
    have hdata := (htruth _ hreply).2.1
    rw [hpassed, take_length, flatMap_nil] at hdata
    -- no data at all fits
    refine hfits ?_
    rw [← hdata]
    cases sock.protocol <;> decide
  · intro hfits
    obtain ⟨s', out, packet, hsend, hreply, hpassed, hpacket, htcp⟩ :=
      perform_send_of_fits hget hconn hfits
    refine ⟨s', out, _, hsend, by rw [op, socketTransmit, hsend]; rfl, fun n hn => ?_⟩
    cases hreply.symm.trans hn
    exact ⟨le_rfl, by simp [hpassed, hpacket], htcp⟩

/-- A connected client in the first slot. -/
def client : Socket :=
  { Socket.fresh 1 .stream .tcp 7 with state := .established, remoteAddr := ⟨.loopback, 80⟩ }

def clientId : SocketId := .pack ⟨0, Nat.succ_pos _⟩ 1

def clientStack : NetStack :=
  { init none with core := { NetCore.init with sockets := .set .new clientId.slot client } }

lemma clientStack_get : clientStack.core.sockets.get clientId = some client := rfl

/-- One byte too many for a segment: all 1461 are counted, and no packet is sent. -/
theorem send_long_lies : client.Connected ∧
    ∃ s' out, clientStack.perform (.send clientId (List.replicate 1461 0)) = .ok (s', out) ∧
      out.reply = .count 1461 ∧ out.passed = [] ∧
      ¬ TellsTruth client clientId (List.replicate 1461 0) s' out := by
  obtain ⟨s', out, hsend, hreply, -⟩ :=
    perform_send_tcp clientStack_get rfl rfl (List.replicate 1461 0)
  rw [length_replicate] at hreply
  have hnone := (passed_of_not_fits clientStack_get rfl (by
    rw [length_replicate]
    decide) hsend).2
  refine ⟨rfl, s', out, hsend, hreply, hnone, fun htruth => ?_⟩
  have hdata := (htruth 1461 hreply).2.1
  rw [hnone, take_of_length_le (length_replicate).le] at hdata
  cases hdata

theorem send_tellsTruth_client : ∃ s' out s'',
    clientStack.perform (.send clientId [1, 2]) = .ok (s', out) ∧
    clientStack.op (fun _ => ⟨none, 0⟩) (.send clientId [1, 2]) = .ok (s'', out.reply) ∧
    TellsTruth client clientId [1, 2] s' out :=
  (send_tellsTruth_iff clientStack_get rfl _).mpr (by decide)

end NetStack

end Fabric
