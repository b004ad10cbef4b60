/-
Receiving segments and datagrams (`network/tcp.rs`, `network/udp.rs`).

The handlers run with the socket table locked.  What they transmit leaves through
`transmit_ip`, which touches none of the state they work on; so a handler returns the segments
it sends, each with the socket that sends it, beside the new state.
-/
import FabricOS.Packets
import FabricOS.SocketTable

namespace Fabric

open TcpHeader

/-- What the locked sections of the network code share. -/
structure NetCore where
  sockets : SocketTable
  /-- `ISN_COUNTER`. -/
  isnCounter : UInt32
  /-- `PORT_COUNTER`. -/
  portCounter : UInt16

/-- A segment and the slot of the socket that sends it. -/
structure Sent where
  sender : Fin maxSockets
  segment : Segment
  deriving DecidableEq

namespace Socket

/-- A segment of the connection, with the current sequence numbers. -/
def segment (sock : Socket) (flags : UInt8) (data : List UInt8) : Segment :=
  { src := sock.localAddr, dst := sock.remoteAddr, seq := sock.sendSeq, ack := sock.recvSeq
    flags, window := 4096, data }

def ackReceived (sock : Socket) (ackNum : UInt32) (now : UInt64) : Socket :=
  { sock with retransmit := sock.retransmit.map (·.ackReceived ackNum now) }

def deactivate (sock : Socket) : Socket :=
  { sock with state := .closed, active := false, retransmit := sock.retransmit.map (·.clear) }

/-- `tcp_state_machine` on the socket it looked up: the new socket and the segments sent. -/
def onSegment (sock : Socket) (hdr : TcpHeader) (payload : List UInt8) (now : UInt64) :
    Socket × List Segment :=
  let syn := hdr.hasFlag Tcp.syn
  let ack := hdr.hasFlag Tcp.ack
  let fin := hdr.hasFlag Tcp.fin
  match sock.state with
  | .synSent =>
    if syn && ack then
      let sock := { sock with
        recvSeq := hdr.seqNum + 1, sendAck := hdr.seqNum + 1, sendWindow := hdr.window
        state := .established }
      let sock := sock.ackReceived hdr.ackNum now
      (sock, [sock.segment Tcp.ack []])
    else (sock, [])
  | .synReceived =>
    if ack then
      let sock := { sock with sendSeq := sock.sendSeq + 1, state := .established }
      (sock.ackReceived hdr.ackNum now, [])
    else (sock, [])
  | .established =>
    if fin then
      let sock := { sock with recvSeq := hdr.seqNum + 1, state := .closeWait }
      (sock, [sock.segment Tcp.ack []])
    else if ack && !payload.isEmpty then
      let sock := { sock with
        rx := (sock.rx.write payload).1, recvSeq := hdr.seqNum + .ofNat payload.length }
      (sock, [sock.segment Tcp.ack []])
    else if ack then
      ({ sock with sendAck := hdr.ackNum }.ackReceived hdr.ackNum now, [])
    else (sock, [])
  | .finWait1 =>
    if ack && fin then
      let sock := { sock with recvSeq := hdr.seqNum + 1, state := .timeWait }
      let sock := sock.ackReceived hdr.ackNum now
      (sock, [sock.segment Tcp.ack []])
    else if ack then
      ({ sock with state := .finWait2 }.ackReceived hdr.ackNum now, [])
    else if fin then
      let sock := { sock with recvSeq := hdr.seqNum + 1, state := .closing }
      (sock, [sock.segment Tcp.ack []])
    else (sock, [])
  | .finWait2 =>
    if fin then
      let sock := { sock with recvSeq := hdr.seqNum + 1, state := .timeWait }
      (sock, [sock.segment Tcp.ack []])
    else (sock, [])
  | .closeWait => (sock, [])
  | .lastAck =>
    if ack then ((sock.ackReceived hdr.ackNum now).deactivate, []) else (sock, [])
  | .closing =>
    if ack then ({ sock with state := .timeWait }.ackReceived hdr.ackNum now, [])
    else (sock, [])
  | .timeWait => (sock.deactivate, [])
  | .closed | .bound | .listen => (sock, [])

end Socket

lemma Socket.onSegment_sent {sock : Socket} {hdr : TcpHeader} {payload : List UInt8}
    {now : UInt64} {seg : Segment} (h : seg ∈ (sock.onSegment hdr payload now).2) :
    seg.flags = Tcp.ack ∧ seg.data = [] := by
  cases hs : sock.state <;> simp only [onSegment, hs] at h <;> (try split_ifs at h) <;>
    simp_all [segment]

def tcpStateMachine (id : SocketId) (hdr : TcpHeader) (payload : List UInt8) (now : UInt64)
    (core : NetCore) : NetCore × List Sent :=
  match core.sockets.get id with
  | none => (core, [])
  | some sock =>
    let (sock, out) := sock.onSegment hdr payload now
    ({ core with sockets := core.sockets.set id.slot sock }, out.map (⟨id.slot, ·⟩))

def Socket.ofSyn (conn : Socket) (hdr : TcpHeader) (src dst : SocketAddr) (isn : UInt32) : Socket :=
  { conn with
    localAddr := dst, remoteAddr := src, state := .synReceived, recvSeq := hdr.seqNum + 1
    sendSeq := isn, sendAck := hdr.seqNum + 1, sendWindow := hdr.window }

/-- Enter a connection into the backlog, if there is room for it. -/
def Socket.pushBacklog (listener : Socket) (conn : SocketId) : Socket :=
  if listener.backlog.length < maxBacklog then
    { listener with backlog := listener.backlog ++ [conn] }
  else listener

def synAckSegment (hdr : TcpHeader) (src dst : SocketAddr) (isn : UInt32) : Segment :=
  { src := dst, dst := src, seq := isn, ack := hdr.seqNum + 1, flags := Tcp.syn ||| Tcp.ack
    window := 4096, data := [] }

def handleSyn (listenerId : SocketId) (hdr : TcpHeader) (src dst : SocketAddr) (core : NetCore) :
    NetCore × List Sent :=
  match core.sockets.get listenerId with
  | none => (core, [])
  | some listener =>
    match core.sockets.alloc .stream .tcp listener.owner with
    | (_, .error _) => (core, [])
    | (table, .ok connId) =>
      let isn := core.isnCounter
      let table := table.modify connId (·.ofSyn hdr src dst isn)
      let table := table.modify listenerId (·.pushBacklog connId)
      ({ core with sockets := table, isnCounter := isn + 1000 },
        [⟨connId.slot, synAckSegment hdr src dst isn⟩])

/-- The header of a segment and its payload, which is all that follows 20 bytes. -/
def splitSegment (tcpData : List UInt8) : Option (TcpHeader × List UInt8) :=
  (TcpHeader.fromBytes tcpData).map fun hdr => (hdr, tcpData.drop TcpHeader.size)

def tcpReceive (ip : Ipv4Header) (hdr : TcpHeader) (payload : List UInt8) (now : UInt64)
    (core : NetCore) : NetCore × List Sent :=
  let src : SocketAddr := ⟨ip.srcAddr, hdr.srcPort⟩
  let dst : SocketAddr := ⟨ip.dstAddr, hdr.dstPort⟩
  match core.sockets.findTcpConnection dst src with
  | some id => tcpStateMachine id hdr payload now core
  | none =>
    if hdr.hasFlag Tcp.syn && !hdr.hasFlag Tcp.ack then
      match core.sockets.findListener hdr.dstPort with
      | some listenerId => handleSyn listenerId hdr src dst core
      | none => (core, [])
    else (core, [])

def tcpReceivePacket (ip : Ipv4Header) (tcpData : List UInt8) (now : UInt64) (core : NetCore) :
    NetCore × List Sent :=
  match splitSegment tcpData with
  | none => (core, [])
  | some (hdr, payload) => tcpReceive ip hdr payload now core

/-- What `udp_receive_packet` writes: the sender, the length, the data. -/
def Socket.onDatagram (sock : Socket) (ip : Ipv4Header) (hdr : UdpHeader) (payload : List UInt8) :
    Socket :=
  let rx := (sock.rx.write (toBe16 hdr.srcPort)).1
  let rx := (rx.write ip.srcAddr.bytes).1
  let rx := (rx.write (toBe16 (.ofNat payload.length))).1
  { sock with rx := (rx.write payload).1 }

def udpReceivePacket (ip : Ipv4Header) (udpData : List UInt8) (core : NetCore) : NetCore :=
  match UdpHeader.fromBytes udpData with
  | none => core
  | some hdr =>
    match core.sockets.findByLocal ⟨ip.dstAddr, hdr.dstPort⟩ .udp with
    | none => core
    | some id =>
      let payloadLen := hdr.length.toNat - UdpHeader.size
      if UdpHeader.size + payloadLen > udpData.length then core
      else
        let payload := (udpData.drop UdpHeader.size).take payloadLen
        { core with sockets := core.sockets.modify id (·.onDatagram ip hdr payload) }

def dispatchIp (ip : Ipv4Header) (ipPayload : List UInt8) (now : UInt64) (core : NetCore) :
    NetCore × List Sent :=
  if ip.protocol = 17 then (udpReceivePacket ip ipPayload core, [])
  else if ip.protocol = 6 then tcpReceivePacket ip ipPayload now core
  else (core, [])

def receiveIp (packet : List UInt8) (now : UInt64) (core : NetCore) : NetCore × List Sent :=
  match Ipv4Header.fromBytes packet with
  | none => (core, [])
  | some ip => dispatchIp ip (packet.drop Ipv4Header.size) now core

/-! ### Packets that were built -/

namespace Segment

def ipHeader (s : Segment) : Ipv4Header :=
  .new s.src.addr s.dst.addr 6 (.ofNat (TcpHeader.size + s.data.length))

def tcpHeader (s : Segment) : TcpHeader :=
  let tcp := TcpHeader.new s.src.port s.dst.port s.seq s.ack s.flags s.window
  let tcpLen := TcpHeader.size + s.data.length
  let chk := pseudoHeaderChecksum s.src.addr s.dst.addr 6 (.ofNat tcpLen) (tcp.toBytes ++ s.data)
  { tcp with checksum := chk }

def fits (s : Segment) : Bool := s.data.length ≤ 1460

lemma packet_of_fits {s : Segment} (h : s.fits = true) :
    s.packet = s.ipHeader.toBytes ++ (s.tcpHeader.toBytes ++ s.data) := by
  have hlen : ¬ loopbackMtu < Ipv4Header.size + (size + s.data.length) := by
    simp only [fits, decide_eq_true_eq] at h
    simp only [loopbackMtu, Ipv4Header.size, size]
    omega
  simp only [packet, buildTcpPacket, hlen, if_false, List.append_assoc]
  rfl

lemma packet_of_not_fits {s : Segment} (h : s.fits = false) : s.packet = [] := by
  have hlen : loopbackMtu < Ipv4Header.size + (size + s.data.length) := by
    simp only [fits, decide_eq_false_iff_not] at h
    simp only [loopbackMtu, Ipv4Header.size, size]
    omega
  simp only [packet, buildTcpPacket, hlen, if_true]

lemma hasFlag_tcpHeader {s : Segment} (flags : UInt8) (h : s.flags = flags) (hlt : flags < 64)
    (flag : UInt8) : s.tcpHeader.hasFlag flag = (flags &&& flag != 0) := by
  have hall : ∀ n < 64, (((5 : UInt16) <<< 12 ||| (UInt8.ofNat n).toUInt16) &&& 0x3F).toUInt8 =
      UInt8.ofNat n := by decide +kernel
  have hflags : s.tcpHeader.flags = s.flags := by
    have hread := hall s.flags.toNat (h ▸ hlt)
    rwa [UInt8.ofNat_toNat] at hread
  rw [hasFlag, hflags, h]

end Segment

lemma splitSegment_append (hdr : TcpHeader) (data : List UInt8) :
    splitSegment (hdr.toBytes ++ data) = some (hdr, data) := by
  rw [splitSegment, fromBytes_append, Option.map_some,
    List.drop_left' (length_toBytes hdr)]

end Fabric
