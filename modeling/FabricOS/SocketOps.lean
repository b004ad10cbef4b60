/-
Socket operations (`network/ops.rs`, and `check_all_retransmits` of `tcp_timer.rs`).

An operation takes the lock of the socket table once or several times and transmits between.
Here are its locked sections, as the calls of one machine (`NetCore.step`): whatever runs at
the same time, the table only changes by them.  The operations themselves are put together from
them in `NetworkStack`.
-/
import FabricOS.Machine
import FabricOS.Tcp

open Option

namespace Fabric

open SocketTable Ipv4Header

/-- `GUEST_IP`. -/
def guestIp : Ipv4Addr := ⟨10, 0, 2, 15⟩

/-- `127.x.x.x`. -/
def isLoopback (a : Ipv4Addr) : Bool := a.b₀ == 127

inductive NetReply
  | done
  | socket (id : SocketId)
  | bytes (data : List UInt8)
  | count (n : ℕ)
  | failed (e : SocketError)
  deriving DecidableEq

structure NetOutput where
  reply : NetReply
  /-- Segments, before they are built. -/
  sent : List Sent
  /-- Other packets: datagrams and retransmissions. -/
  packets : List (List UInt8)
  deriving DecidableEq

namespace NetOutput

def quiet (reply : NetReply) : NetOutput := ⟨reply, [], []⟩

def sentBy (out : NetOutput) (i : Fin maxSockets) : List Segment :=
  (out.sent.filter (·.sender = i)).map (·.segment)

@[simp] lemma sentBy_quiet (reply : NetReply) (i : Fin maxSockets) :
    (quiet reply).sentBy i = [] := rfl

lemma sentBy_map (reply : NetReply) (segs : List Segment) (packets : List (List UInt8))
    (i j : Fin maxSockets) :
    (⟨reply, segs.map (⟨j, ·⟩), packets⟩ : NetOutput).sentBy i = if i = j then segs else [] := by
  by_cases hij : i = j
  · subst hij
    simp [sentBy, List.filter_map, Function.comp_def]
  · simp [sentBy, List.filter_map, Function.comp_def, hij, Ne.symm hij]

end NetOutput

/-! ### Locked sections -/

namespace Socket

def connectTcp (sock : Socket) (remote : SocketAddr) (ephemeral : UInt16) (isn : UInt32) : Socket :=
  let needsPort := sock.localAddr.port == 0
  let needsAddr := sock.localAddr.addr.isUnspecified
  let bindAddr := if isLoopback remote.addr then .loopback else guestIp
  let loc := if needsPort then ⟨bindAddr, ephemeral⟩ else sock.localAddr
  let loc := if needsAddr then { loc with addr := bindAddr } else loc
  { sock with localAddr := loc, remoteAddr := remote, sendSeq := isn, state := .synSent }

def synSegment (sock : Socket) : Segment :=
  { src := sock.localAddr, dst := sock.remoteAddr, seq := sock.sendSeq, ack := 0
    flags := Tcp.syn, window := 4096, data := [] }

def connectUdp (sock : Socket) (remote : SocketAddr) : Socket :=
  { sock with
    remoteAddr := remote, state := if sock.state = .closed then .bound else sock.state }

/-- Read from the receive buffer, up to `n` bytes. -/
def recv (sock : Socket) (n : ℕ) : Socket × NetReply :=
  match sock.protocol with
  | .udp =>
    if sock.rx.isEmpty then (sock, .failed .wouldBlock)
    else
      let (rx, hdr) := sock.rx.read 8
      if hdr.length < 8 then ({ sock with rx }, .failed .wouldBlock)
      else
        let dataLen := (be16 (hdr.getD 6 0) (hdr.getD 7 0)).toNat
        let toRead := min dataLen n
        let (rx, data) := rx.read toRead
        -- what does not fit is lost
        let rx := if dataLen > toRead then rx.discard (dataLen - toRead) else rx
        ({ sock with rx }, .bytes data)
  | .tcp =>
    if sock.rx.isEmpty then
      if sock.state = .closeWait ∨ sock.state = .closed ∨ sock.state = .timeWait then
        (sock, .bytes [])
      else (sock, .failed .wouldBlock)
    else
      let (rx, data) := sock.rx.read n
      ({ sock with rx }, .bytes data)

def finSent (sock : Socket) : Option Socket :=
  match sock.state with
  | .established => some { sock with sendSeq := sock.sendSeq + 1, state := .finWait1 }
  | .closeWait => some { sock with sendSeq := sock.sendSeq + 1, state := .lastAck }
  | _ => none

lemma recv_fst (sock : Socket) (n : ℕ) : ∃ rx, (sock.recv n).1 = { sock with rx } := by
  simp only [recv]
  split
  · split
    · exact ⟨sock.rx, rfl⟩
    · split <;> exact ⟨_, rfl⟩
  · split
    · split <;> exact ⟨sock.rx, rfl⟩
    · exact ⟨_, rfl⟩

/-- Check the timers of one socket; the packets are to be sent again. -/
def onTimer (sock : Socket) (now : UInt64) : Socket × List (List UInt8) :=
  match sock.retransmit with
  | some rq =>
    if !sock.active || rq.entries.isEmpty then (sock, [])
    else
      let (rq, packets) := rq.checkTimeouts now
      let sock := { sock with retransmit := some rq }
      if rq.hasMaxRetries then (sock.deactivate, packets) else (sock, packets)
  | none => (sock, [])

lemma onTimer_fst (sock : Socket) (now : UInt64) :
    ((sock.onTimer now).1.active = false ∧ (sock.onTimer now).1.state = .closed) ∨
      ∃ retransmit, (sock.onTimer now).1 = { sock with retransmit } := by
  simp only [onTimer]
  split
  · split
    · exact .inr ⟨sock.retransmit, rfl⟩
    · split
      · exact .inl ⟨rfl, rfl⟩
      · exact .inr ⟨_, rfl⟩
  · exact .inr ⟨sock.retransmit, rfl⟩

lemma pushBacklog_eq (sock : Socket) (conn : SocketId) :
    ∃ backlog, sock.pushBacklog conn = { sock with backlog } := by
  rw [pushBacklog]
  split
  · exact ⟨_, rfl⟩
  · exact ⟨sock.backlog, rfl⟩

lemma finSent_eq {sock sock' : Socket} (h : sock.finSent = some sock') :
    ∃ state, (state = .finWait1 ∨ state = .lastAck) ∧
      sock' = { sock with sendSeq := sock.sendSeq + 1, state } := by
  rw [finSent] at h
  split at h
  · exact ⟨_, .inl rfl, (Option.some.inj h).symm⟩
  · exact ⟨_, .inr rfl, (Option.some.inj h).symm⟩
  · cases h

end Socket

namespace NetCore

def init : NetCore where
  sockets := .new
  isnCounter := 1000
  portCounter := 49152

def put (core : NetCore) (id : SocketId) (sock : Socket) : NetCore :=
  { core with sockets := core.sockets.set id.slot sock }

def refuse (core : NetCore) (e : SocketError) : Exec (NetCore × NetOutput) :=
  .ok (core, .quiet (.failed e))

/-- `table.get_mut(id).ok_or(SocketError::NotFound)?`. -/
def withSocket (core : NetCore) (id : SocketId) (f : Socket → Exec (NetCore × NetOutput)) :
    Exec (NetCore × NetOutput) :=
  match core.sockets.get id with
  | none => core.refuse .notFound
  | some sock => f sock

def socketCreate (core : NetCore) (sockType : SocketType) (protocol : Protocol)
    (owner : ProcessId) : Exec (NetCore × NetOutput) :=
  match core.sockets.alloc sockType protocol owner with
  | (sockets, .ok id) => .ok ({ core with sockets }, .quiet (.socket id))
  | (_, .error e) => core.refuse e

def socketBind (core : NetCore) (id : SocketId) (addr : SocketAddr) : Exec (NetCore × NetOutput) :=
  core.withSocket id fun sock =>
    if addr.port != 0 && core.sockets.portInUse addr.port sock.protocol &&
        sock.localAddr.port != addr.port then
      core.refuse .addressInUse
    else if sock.state ≠ .closed then core.refuse .invalidState
    else .ok (core.put id { sock with localAddr := addr, state := .bound }, .quiet .done)

/-- Try ports, from the counter on, until one is not in use: the port and the new counter. -/
def allocateEphemeralPort (t : SocketTable) : ℕ → UInt16 → UInt16 × UInt16
  | 0, counter => (49152, counter)
  | tries + 1, counter =>
    let port := if counter ≥ 65535 then 49152 else counter
    if !t.portInUse port .tcp && !t.portInUse port .udp then (port, counter + 1)
    else allocateEphemeralPort t tries (counter + 1)

/-- The port for a socket that connects, which is not used if the socket has one. -/
def ephemeralFor (core : NetCore) (sock : Socket) : UInt16 × UInt16 :=
  if sock.localAddr.port == 0 then allocateEphemeralPort core.sockets 1000 core.portCounter
  else (0, core.portCounter)

/-- The first phase of `socket_connect`, which sends the SYN. -/
def connectStart (core : NetCore) (id : SocketId) (remote : SocketAddr) :
    Exec (NetCore × NetOutput) :=
  core.withSocket id fun sock =>
    match sock.protocol with
    | .udp => .ok (core.put id (sock.connectUdp remote), .quiet .done)
    | .tcp =>
      if sock.state ≠ .closed ∧ sock.state ≠ .bound then core.refuse .invalidState
      else
        let (ephemeral, portCounter) := core.ephemeralFor sock
        let isn := core.isnCounter
        let sock := sock.connectTcp remote ephemeral isn
        .ok ({ core.put id sock with isnCounter := isn + 1000, portCounter },
          ⟨.done, [⟨id.slot, sock.synSegment⟩], []⟩)

def socketListen (core : NetCore) (id : SocketId) : Exec (NetCore × NetOutput) :=
  core.withSocket id fun sock =>
    if sock.protocol ≠ .tcp then core.refuse .invalidArgument
    else if sock.state ≠ .bound then core.refuse .notBound
    else .ok (core.put id { sock with state := .listen, backlog := [] }, .quiet .done)

def acceptStart (core : NetCore) (id : SocketId) : Exec (NetCore × NetOutput) :=
  core.withSocket id fun sock =>
    if sock.state ≠ .listen then core.refuse .invalidState
    else
      match sock.backlog with
      | [] => core.refuse .wouldBlock
      | connId :: rest => .ok (core.put id { sock with backlog := rest }, .quiet (.socket connId))

/-- The first phase of `socket_send`, which builds the packet. -/
def sendStart (core : NetCore) (id : SocketId) (data : List UInt8) : Exec (NetCore × NetOutput) :=
  core.withSocket id fun sock =>
    match sock.protocol with
    | .udp =>
      if sock.remoteAddr.isUnspecified then core.refuse .notConnected
      else do
        let packet ← buildUdpPacket sock.localAddr sock.remoteAddr data loopbackMtu
        .ok (core, ⟨.count data.length, [], [packet]⟩)
    | .tcp =>
      if sock.state ≠ .established then core.refuse .notConnected
      else
        .ok (core.put id { sock with sendSeq := sock.sendSeq + .ofNat data.length },
          ⟨.count data.length, [⟨id.slot, sock.segment Tcp.ack data⟩], []⟩)

def sendtoStart (core : NetCore) (id : SocketId) (data : List UInt8) (dst : SocketAddr) :
    Exec (NetCore × NetOutput) :=
  core.withSocket id fun sock =>
    if sock.protocol ≠ .udp then core.refuse .invalidArgument
    else do
      let packet ← buildUdpPacket sock.localAddr dst data loopbackMtu
      .ok (core, ⟨.count data.length, [], [packet]⟩)

/-- The locked section of `socket_recv`. -/
def recvLocked (core : NetCore) (id : SocketId) (n : ℕ) : Exec (NetCore × NetOutput) :=
  core.withSocket id fun sock => .ok (core.put id (sock.recv n).1, .quiet (sock.recv n).2)

/-- The first phase of `socket_shutdown`, which sends the FIN. -/
def shutdownStart (core : NetCore) (id : SocketId) : Exec (NetCore × NetOutput) :=
  core.withSocket id fun sock =>
    match sock.protocol with
    | .udp => .ok (core.put id { sock with state := .closed }, .quiet .done)
    | .tcp =>
      match sock.finSent with
      | none => core.refuse .invalidState
      | some sock' =>
        .ok (core.put id sock', ⟨.done, [⟨id.slot, sock.segment (Tcp.fin ||| Tcp.ack) []⟩], []⟩)

/-- The last section of `socket_close`. -/
def releaseSocket (core : NetCore) (id : SocketId) : Exec (NetCore × NetOutput) :=
  match core.sockets.release id with
  | (sockets, .ok ()) => .ok ({ core with sockets }, .quiet .done)
  | (_, .error e) => core.refuse e

def cleanup (core : NetCore) (pid : ProcessId) : Exec (NetCore × NetOutput) :=
  .ok ({ core with sockets := core.sockets.cleanupByOwner pid }, .quiet .done)

def arrive (core : NetCore) (packet : List UInt8) (now : UInt64) : Exec (NetCore × NetOutput) :=
  .ok ((receiveIp packet now core).1, ⟨.done, (receiveIp packet now core).2, []⟩)

def checkAllRetransmits (core : NetCore) (now : UInt64) : Exec (NetCore × NetOutput) :=
  .ok ({ core with sockets := ⟨fun i => ((core.sockets.sockets i).onTimer now).1⟩ },
    ⟨.done, [],
      (List.finRange maxSockets).flatMap fun i => ((core.sockets.sockets i).onTimer now).2⟩)

end NetCore

/-! ### The machine -/

inductive NetCall
  | create (sockType : SocketType) (protocol : Protocol) (owner : ProcessId)
  | bind (id : SocketId) (addr : SocketAddr)
  | connect (id : SocketId) (remote : SocketAddr)
  | listen (id : SocketId)
  | accept (id : SocketId)
  | send (id : SocketId) (data : List UInt8)
  | sendto (id : SocketId) (data : List UInt8) (dst : SocketAddr)
  | recv (id : SocketId) (n : ℕ)
  | shutdown (id : SocketId)
  | release (id : SocketId)
  | cleanup (pid : ProcessId)
  /-- A packet arrives, from the loopback interface or the network. -/
  | arrive (packet : List UInt8) (now : UInt64)
  | checkTimers (now : UInt64)
  deriving DecidableEq

def NetCore.step (core : NetCore) : NetCall → Exec (NetCore × NetOutput)
  | .create sockType protocol owner => core.socketCreate sockType protocol owner
  | .bind id addr => core.socketBind id addr
  | .connect id remote => core.connectStart id remote
  | .listen id => core.socketListen id
  | .accept id => core.acceptStart id
  | .send id data => core.sendStart id data
  | .sendto id data dst => core.sendtoStart id data dst
  | .recv id n => core.recvLocked id n
  | .shutdown id => core.shutdownStart id
  | .release id => core.releaseSocket id
  | .cleanup pid => core.cleanup pid
  | .arrive packet now => core.arrive packet now
  | .checkTimers now => core.checkAllRetransmits now

/-! ### What a section does to one slot -/

/-- The segment in a packet: the addresses of its ends, its header and its payload. -/
def tcpArrival (packet : List UInt8) : Option (Ipv4Header × TcpHeader × List UInt8) :=
  match Ipv4Header.fromBytes packet with
  | none => none
  | some ip =>
    if ip.protocol = 6 then (splitSegment (packet.drop Ipv4Header.size)).map (ip, ·) else none

lemma tcpArrival_packet {s : Segment} (h : s.fits = true) :
    tcpArrival s.packet = some (s.ipHeader, s.tcpHeader, s.data) := by
  have hdrop : (s.ipHeader.toBytes ++ (s.tcpHeader.toBytes ++ s.data)).drop size =
      s.tcpHeader.toBytes ++ s.data := List.drop_left' (length_toBytes _)
  have hprotocol : s.ipHeader.protocol = 6 := rfl
  simp only [tcpArrival, Segment.packet_of_fits h, fromBytes_append, hprotocol, if_true,
    hdrop, splitSegment_append, map_some]

lemma receiveIp_of_arrival {packet : List UInt8} {ip : Ipv4Header} {hdr : TcpHeader}
    {payload : List UInt8} (h : tcpArrival packet = some (ip, hdr, payload)) (now : UInt64)
    (core : NetCore) : receiveIp packet now core = tcpReceive ip hdr payload now core := by
  rw [tcpArrival] at h
  split at h
  case h_1 => exact absurd h (by simp)
  case h_2 ip' hip =>
    split at h
    case isFalse => exact absurd h (by simp)
    case isTrue hproto =>
      obtain ⟨⟨hdr', payload'⟩, hsplit, heq⟩ := map_eq_some_iff.mp h
      obtain ⟨rfl, rfl, rfl⟩ := heq
      simp only [receiveIp, hip, dispatchIp, hproto, tcpReceivePacket, hsplit]
      rfl

def arrivalSrc (ip : Ipv4Header) (hdr : TcpHeader) : SocketAddr := ⟨ip.srcAddr, hdr.srcPort⟩
def arrivalDst (ip : Ipv4Header) (hdr : TcpHeader) : SocketAddr := ⟨ip.dstAddr, hdr.dstPort⟩

/-- `id` is an id of the socket in slot `i`. -/
def NetCore.Names (core : NetCore) (id : SocketId) (i : Fin maxSockets) : Prop :=
  id.slot = i ∧ core.sockets.get id = some (core.sockets.sockets i)

/-- `Change core i call sock' sent`: the section `call` leaves `sock'` in slot `i`, and the
socket there sends `sent`. -/
inductive Change (core : NetCore) (i : Fin maxSockets) : NetCall → Socket → List Segment → Prop
  | same (call : NetCall) : Change core i call (core.sockets.sockets i) []
  | created {sockType : SocketType} {protocol : Protocol} {owner : ProcessId}
      (free : (core.sockets.sockets i).active = false) :
      Change core i (.create sockType protocol owner)
        (.fresh ((core.sockets.sockets i).generation + 1) sockType protocol owner) []
  | bound {id : SocketId} {addr : SocketAddr} (names : core.Names id i)
      (state : (core.sockets.sockets i).state = .closed) :
      Change core i (.bind id addr)
        { core.sockets.sockets i with localAddr := addr, state := .bound } []
  | connectedUdp {id : SocketId} {remote : SocketAddr} (names : core.Names id i)
      (protocol : (core.sockets.sockets i).protocol = .udp) :
      Change core i (.connect id remote) ((core.sockets.sockets i).connectUdp remote) []
  | connecting {id : SocketId} {remote : SocketAddr} (ephemeral : UInt16)
      (names : core.Names id i) (protocol : (core.sockets.sockets i).protocol = .tcp)
      (state : (core.sockets.sockets i).state = .closed ∨ (core.sockets.sockets i).state = .bound) :
      Change core i (.connect id remote)
        ((core.sockets.sockets i).connectTcp remote ephemeral core.isnCounter)
        [((core.sockets.sockets i).connectTcp remote ephemeral core.isnCounter).synSegment]
  | listening {id : SocketId} (names : core.Names id i)
      (protocol : (core.sockets.sockets i).protocol = .tcp)
      (state : (core.sockets.sockets i).state = .bound) :
      Change core i (.listen id)
        { core.sockets.sockets i with state := .listen, backlog := [] } []
  | popped {id : SocketId} (backlog : List SocketId) (names : core.Names id i)
      (state : (core.sockets.sockets i).state = .listen) :
      Change core i (.accept id) { core.sockets.sockets i with backlog } []
  | sentData {id : SocketId} {data : List UInt8} (names : core.Names id i)
      (protocol : (core.sockets.sockets i).protocol = .tcp)
      (state : (core.sockets.sockets i).state = .established) :
      Change core i (.send id data)
        { core.sockets.sockets i with
          sendSeq := (core.sockets.sockets i).sendSeq + .ofNat data.length }
        [(core.sockets.sockets i).segment Tcp.ack data]
  | read {id : SocketId} {n : ℕ} (names : core.Names id i) :
      Change core i (.recv id n) ((core.sockets.sockets i).recv n).1 []
  | closedUdp {id : SocketId} (names : core.Names id i)
      (protocol : (core.sockets.sockets i).protocol = .udp) :
      Change core i (.shutdown id) { core.sockets.sockets i with state := .closed } []
  | sentFin {id : SocketId} {sock' : Socket} (names : core.Names id i)
      (protocol : (core.sockets.sockets i).protocol = .tcp)
      (fin : (core.sockets.sockets i).finSent = some sock') :
      Change core i (.shutdown id) sock'
        [(core.sockets.sockets i).segment (Tcp.fin ||| Tcp.ack) []]
  | released {id : SocketId} (names : core.Names id i) :
      Change core i (.release id) { core.sockets.sockets i with active := false } []
  | cleaned {pid : ProcessId} (owner : (core.sockets.sockets i).owner = pid) :
      Change core i (.cleanup pid) { core.sockets.sockets i with active := false } []
  | gotDatagram {packet : List UInt8} {now : UInt64} (ip : Ipv4Header) (hdr : UdpHeader)
      (payload : List UInt8) (active : (core.sockets.sockets i).active = true)
      (protocol : (core.sockets.sockets i).protocol = .udp) :
      Change core i (.arrive packet now)
        ((core.sockets.sockets i).onDatagram ip hdr payload) []
  | gotSegment {packet : List UInt8} {now : UInt64} {ip : Ipv4Header} {hdr : TcpHeader}
      {payload : List UInt8} (arrival : tcpArrival packet = some (ip, hdr, payload))
      (found : core.sockets.findTcpConnection (arrivalDst ip hdr) (arrivalSrc ip hdr) =
        some (core.sockets.idAt i)) :
      Change core i (.arrive packet now)
        ((core.sockets.sockets i).onSegment hdr payload now).1
        ((core.sockets.sockets i).onSegment hdr payload now).2
  | gotSyn {packet : List UInt8} {now : UInt64} {ip : Ipv4Header} {hdr : TcpHeader}
      {payload : List UInt8} {owner : ProcessId}
      (arrival : tcpArrival packet = some (ip, hdr, payload))
      (syn : hdr.hasFlag Tcp.syn = true) (ack : hdr.hasFlag Tcp.ack = false)
      (free : (core.sockets.sockets i).active = false) :
      Change core i (.arrive packet now)
        ((Socket.fresh ((core.sockets.sockets i).generation + 1) .stream .tcp owner).ofSyn hdr
          (arrivalSrc ip hdr) (arrivalDst ip hdr) core.isnCounter)
        [synAckSegment hdr (arrivalSrc ip hdr) (arrivalDst ip hdr) core.isnCounter]
  | pushed {packet : List UInt8} {now : UInt64} (conn : SocketId)
      (active : (core.sockets.sockets i).active = true)
      (state : (core.sockets.sockets i).state = .listen) :
      Change core i (.arrive packet now) ((core.sockets.sockets i).pushBacklog conn) []
  | timer {now : UInt64} :
      Change core i (.checkTimers now) ((core.sockets.sockets i).onTimer now).1 []

namespace NetCore

variable {core core' : NetCore} {id : SocketId} {sock : Socket} {call : NetCall}
  {out : NetOutput} {i : Fin maxSockets}

lemma names_of_get (h : core.sockets.get id = some sock) : core.Names id id.slot := by
  obtain ⟨-, -, hsock⟩ := get_eq_some.mp h
  exact ⟨rfl, hsock ▸ h⟩

lemma Names.active (h : core.Names id i) : (core.sockets.sockets i).active = true := by
  obtain ⟨rfl, hget⟩ := h
  exact (get_eq_some.mp hget).1

lemma socket_of_get (h : core.sockets.get id = some sock) :
    core.sockets.sockets id.slot = sock := (get_eq_some.mp h).2.2

@[simp] lemma put_self (core : NetCore) (id : SocketId) (sock : Socket) :
    (core.put id sock).sockets.sockets id.slot = sock := set_self ..

def IsnKept (core core' : NetCore) : Prop :=
  core'.isnCounter = core.isnCounter ∨ core'.isnCounter = core.isnCounter + 1000

/-- A section is accounted for: it is a change of each slot, and keeps the counter. -/
structure Section (core : NetCore) (call : NetCall) (core' : NetCore) (out : NetOutput) : Prop where
  change : ∀ i, Change core i call (core'.sockets.sockets i) (out.sentBy i)
  isn : IsnKept core core'

lemma change_of_slot (j : Fin maxSockets) (segs : List Segment)
    (hothers : ∀ i ≠ j, core'.sockets.sockets i = core.sockets.sockets i)
    (hsent : out.sent = segs.map (⟨j, ·⟩)) (h : Change core j call (core'.sockets.sockets j) segs)
    (hisn : IsnKept core core') : Section core call core' out := by
  refine ⟨fun i => ?_, hisn⟩
  obtain ⟨reply, sent, packets⟩ := out
  simp only at hsent
  rw [hsent, NetOutput.sentBy_map]
  by_cases hij : i = j
  · subst hij
    rwa [if_pos rfl]
  · rw [if_neg hij, hothers i hij]
    exact .same call

lemma change_of_put {sock' : Socket} (segs : List Segment)
    (hsockets : core'.sockets = (core.put id sock').sockets)
    (hsent : out.sent = segs.map (⟨id.slot, ·⟩)) (h : Change core id.slot call sock' segs)
    (hisn : IsnKept core core') : Section core call core' out := by
  refine change_of_slot id.slot segs ?_ hsent ?_ hisn
  · intro j hj
    rw [hsockets]
    exact set_of_ne _ _ hj
  · rwa [hsockets, put_self]

lemma change_of_unchanged (hcore : core' = core) (hsent : out.sent = []) :
    Section core call core' out := by
  subst hcore
  refine ⟨fun i => ?_, .inl rfl⟩
  rw [NetOutput.sentBy, hsent]
  exact .same call

lemma change_of_refuse {e : SocketError} (h : core.refuse e = .ok (core', out)) :
    Section core call core' out := by
  cases h
  exact change_of_unchanged rfl rfl

lemma change_of_withSocket {f : Socket → Exec (NetCore × NetOutput)}
    (h : core.withSocket id f = .ok (core', out))
    (hf : core.Names id id.slot → f (core.sockets.sockets id.slot) = .ok (core', out) →
      Section core call core' out) : Section core call core' out := by
  rw [withSocket] at h
  split at h
  case h_1 => exact change_of_refuse h
  case h_2 sock hget =>
    obtain rfl := socket_of_get hget
    exact hf (names_of_get hget) h

/-! ### The sections, one by one -/

lemma change_create (sockType : SocketType) (protocol : Protocol) (owner : ProcessId)
    (h : core.socketCreate sockType protocol owner = .ok (core', out)) :
    Section core (.create sockType protocol owner) core' out := by
  rw [socketCreate] at h
  split at h
  case h_1 sockets id halloc =>
    cases h
    obtain ⟨hfree, hgen, rfl⟩ := alloc_eq_ok halloc
    refine change_of_put [] rfl rfl ?_ (.inl rfl)
    rw [hgen]
    exact .created hfree
  case h_2 => exact change_of_refuse h

lemma change_bind (addr : SocketAddr) (h : core.socketBind id addr = .ok (core', out)) :
    Section core (.bind id addr) core' out := by
  refine change_of_withSocket h fun hnames hf => ?_
  split at hf
  · exact change_of_refuse hf
  split at hf
  · exact change_of_refuse hf
  · rename_i hstate
    cases hf
    exact change_of_put [] rfl rfl (.bound hnames (not_not.mp hstate)) (.inl rfl)

lemma change_connect (remote : SocketAddr) (h : core.connectStart id remote = .ok (core', out)) :
    Section core (.connect id remote) core' out := by
  refine change_of_withSocket h fun hnames hf => ?_
  -- which port is chosen does not matter
  generalize core.ephemeralFor (core.sockets.sockets id.slot) = port at hf
  obtain ⟨ephemeral, counter⟩ := port
  split at hf
  case h_1 hudp =>
    cases hf
    exact change_of_put [] rfl rfl (.connectedUdp hnames hudp) (.inl rfl)
  case h_2 htcp =>
    split at hf
    · exact change_of_refuse hf
    rename_i hstate
    rw [not_and_or, not_not, not_not] at hstate
    cases hf
    refine change_of_put _ ?_ ?_ (.connecting ephemeral hnames htcp hstate) (.inr rfl)
    · rfl
    · rfl

lemma change_listen (h : core.socketListen id = .ok (core', out)) :
    Section core (.listen id) core' out := by
  refine change_of_withSocket h fun hnames hf => ?_
  split at hf
  · exact change_of_refuse hf
  split at hf
  · exact change_of_refuse hf
  rename_i htcp hstate
  cases hf
  exact change_of_put [] rfl rfl (.listening hnames (not_not.mp htcp) (not_not.mp hstate))
    (.inl rfl)

lemma change_accept (h : core.acceptStart id = .ok (core', out)) :
    Section core (.accept id) core' out := by
  refine change_of_withSocket h fun hnames hf => ?_
  split at hf
  · exact change_of_refuse hf
  rename_i hstate
  split at hf
  · exact change_of_refuse hf
  · cases hf
    exact change_of_put [] rfl rfl (.popped _ hnames (not_not.mp hstate)) (.inl rfl)

lemma change_send (data : List UInt8) (h : core.sendStart id data = .ok (core', out)) :
    Section core (.send id data) core' out := by
  refine change_of_withSocket h fun hnames hf => ?_
  split at hf
  case h_1 =>
    split at hf
    · exact change_of_refuse hf
    · obtain ⟨packet, -, hok⟩ := Exec.bind_eq_ok.mp hf
      cases hok
      exact change_of_unchanged rfl rfl
  case h_2 htcp =>
    split at hf
    · exact change_of_refuse hf
    · rename_i hstate
      cases hf
      exact change_of_put [_] rfl rfl (.sentData hnames htcp (not_not.mp hstate)) (.inl rfl)

lemma change_sendto (data : List UInt8) (dst : SocketAddr)
    (h : core.sendtoStart id data dst = .ok (core', out)) :
    Section core (.sendto id data dst) core' out := by
  refine change_of_withSocket h fun hnames hf => ?_
  split at hf
  · exact change_of_refuse hf
  · obtain ⟨packet, -, hok⟩ := Exec.bind_eq_ok.mp hf
    cases hok
    exact change_of_unchanged rfl rfl

lemma change_recv (n : ℕ) (h : core.recvLocked id n = .ok (core', out)) :
    Section core (.recv id n) core' out := by
  refine change_of_withSocket h fun hnames hf => ?_
  cases hf
  exact change_of_put [] rfl rfl (.read hnames) (.inl rfl)

lemma change_shutdown (h : core.shutdownStart id = .ok (core', out)) :
    Section core (.shutdown id) core' out := by
  refine change_of_withSocket h fun hnames hf => ?_
  split at hf
  case h_1 hudp =>
    cases hf
    exact change_of_put [] rfl rfl (.closedUdp hnames hudp) (.inl rfl)
  case h_2 htcp =>
    split at hf
    case h_1 => exact change_of_refuse hf
    case h_2 sock' hfin =>
      cases hf
      exact change_of_put [_] rfl rfl (.sentFin hnames htcp hfin) (.inl rfl)

lemma change_release (h : core.releaseSocket id = .ok (core', out)) :
    Section core (.release id) core' out := by
  simp only [releaseSocket, release] at h
  by_cases hfound : (!(core.sockets.sockets id.slot).active ||
      (core.sockets.sockets id.slot).generation != id.generation) = true
  · rw [if_pos hfound] at h
    exact change_of_refuse h
  rw [if_neg hfound] at h
  cases h
  have hget : core.sockets.get id = some (core.sockets.sockets id.slot) :=
    get_eq_some.mpr (by simpa using hfound)
  exact change_of_put [] rfl rfl (.released (names_of_get hget)) (.inl rfl)

lemma change_cleanup (pid : ProcessId) (h : core.cleanup pid = .ok (core', out))
    : Section core (.cleanup pid) core' out := by
  cases h
  refine ⟨fun i => ?_, .inl rfl⟩
  simp only [cleanupByOwner, NetOutput.sentBy_quiet]
  split
  · rename_i howner
    simp only [Bool.and_eq_true, beq_iff_eq] at howner
    exact .cleaned howner.2
  · exact .same _

/-! ### Arrivals -/

variable {t : SocketTable} {packet : List UInt8} {now : UInt64} {ip : Ipv4Header} {hdr : TcpHeader}

lemma findTcpConnection_eq_some {loc remote : SocketAddr}
    (h : t.findTcpConnection loc remote = some id) :
    ∃ i, id = t.idAt i ∧ (t.sockets i).active = true ∧ (t.sockets i).protocol = .tcp ∧
      SocketTable.localMatch (t.sockets i) loc = true ∧ (t.sockets i).remoteAddr = remote := by
  simp only [findTcpConnection, map_eq_some_iff] at h
  obtain ⟨i, hi, rfl⟩ := h
  have hmatch := (firstSlot_eq_some.mp hi).1
  simp only [Bool.and_eq_true, beq_iff_eq] at hmatch
  exact ⟨i, rfl, hmatch.1.1.1, hmatch.1.1.2, hmatch.1.2, hmatch.2⟩

lemma found_spec {loc remote : SocketAddr} (h : t.findTcpConnection loc remote = some (t.idAt i)) :
    (t.sockets i).active = true ∧ (t.sockets i).protocol = .tcp ∧
      SocketTable.localMatch (t.sockets i) loc = true ∧ (t.sockets i).remoteAddr = remote := by
  obtain ⟨j, hid, hspec⟩ := findTcpConnection_eq_some h
  have hij : i = j := by
    have hslots := congrArg SocketId.slot hid
    rwa [idAt_slot, idAt_slot] at hslots
  exact hij ▸ hspec

lemma findListener_eq_some {port : UInt16} (h : t.findListener port = some id) :
    ∃ i, id = t.idAt i ∧ (t.sockets i).active = true ∧ (t.sockets i).state = .listen := by
  simp only [findListener, map_eq_some_iff] at h
  obtain ⟨i, hi, rfl⟩ := h
  have hmatch := (firstSlot_eq_some.mp hi).1
  simp only [Bool.and_eq_true, beq_iff_eq] at hmatch
  exact ⟨i, rfl, hmatch.1.1.1, hmatch.1.2⟩

lemma findByLocal_eq_some {addr : SocketAddr} {protocol : Protocol}
    (h : t.findByLocal addr protocol = some id) :
    ∃ i, id = t.idAt i ∧ (t.sockets i).active = true ∧ (t.sockets i).protocol = protocol := by
  simp only [findByLocal, map_eq_some_iff] at h
  obtain ⟨i, hi, rfl⟩ := h
  have hmatch := (firstSlot_eq_some.mp hi).1
  simp only [Bool.and_eq_true, beq_iff_eq] at hmatch
  exact ⟨i, rfl, hmatch.1.1, hmatch.1.2⟩

lemma change_datagram (udpData : List UInt8) (hcore : udpReceivePacket ip udpData core = core')
    (hsent : out.sent = []) : Section core (.arrive packet now) core' out := by
  rw [udpReceivePacket] at hcore
  split at hcore
  case h_1 => exact change_of_unchanged hcore.symm hsent
  case h_2 hdr _ =>
    split at hcore
    case h_1 => exact change_of_unchanged hcore.symm hsent
    case h_2 id hfind =>
      simp only at hcore
      split at hcore
      · exact change_of_unchanged hcore.symm hsent
      obtain ⟨i, rfl, hactive, hprotocol⟩ := findByLocal_eq_some hfind
      rw [modify_of_get (get_idAt hactive)] at hcore
      subst hcore
      refine change_of_put [] (show _ = (core.put (core.sockets.idAt i) _).sockets from rfl)
        hsent ?_ (.inl rfl)
      rw [idAt_slot]
      exact .gotDatagram ip hdr _ hactive hprotocol

lemma handleSyn_of_alloc {l : Fin maxSockets} {table : SocketTable} {conn : SocketId}
    (hactive : (core.sockets.sockets l).active = true) (halloc : core.sockets.alloc .stream .tcp
      (core.sockets.sockets l).owner = (table, .ok conn)) (hdr : TcpHeader) (src dst : SocketAddr) :
    conn.slot ≠ l ∧ (core.sockets.sockets conn.slot).active = false ∧
      handleSyn (core.sockets.idAt l) hdr src dst core =
        ({ core with
          sockets := (core.sockets.set conn.slot
            ((Socket.fresh ((core.sockets.sockets conn.slot).generation + 1) .stream .tcp
              (core.sockets.sockets l).owner).ofSyn hdr src dst core.isnCounter)).set l
            ((core.sockets.sockets l).pushBacklog conn)
          isnCounter := core.isnCounter + 1000 },
        [⟨conn.slot, synAckSegment hdr src dst core.isnCounter⟩]) := by
  simp only [handleSyn, get_idAt hactive, halloc]
  obtain ⟨hfree, hgen, rfl⟩ := alloc_eq_ok halloc
  -- the listener is in use, the slot of the connection was free
  have hne : conn.slot ≠ l := by
    rintro rfl
    simp [hactive] at hfree
  refine ⟨hne, hfree, ?_⟩
  have hconn : ∀ sock : Socket, sock.active = true → sock.generation = conn.generation →
      (core.sockets.set conn.slot sock).get conn = some sock := by
    intro sock hact hg
    rw [get_eq_some, set_self]
    exact ⟨hact, hg, rfl⟩
  have hlistener : ∀ sock : Socket, (core.sockets.set conn.slot sock).get (core.sockets.idAt l) =
      some (core.sockets.sockets l) := by
    intro sock
    have hget := get_eq_some.mp (get_idAt hactive)
    rw [idAt_slot] at hget
    rwa [get_eq_some, idAt_slot, set_of_ne _ _ hne.symm]
  rw [modify_of_get (hconn _ rfl rfl), set_set, modify_of_get (hlistener _), idAt_slot, hgen]

lemma change_syn {payload : List UInt8} {listenerId : SocketId}
    (harrival : tcpArrival packet = some (ip, hdr, payload)) (hsyn : hdr.hasFlag Tcp.syn = true)
    (hack : hdr.hasFlag Tcp.ack = false)
    (hfind : core.sockets.findListener hdr.dstPort = some listenerId)
    (h : handleSyn listenerId hdr (arrivalSrc ip hdr) (arrivalDst ip hdr) core =
      (core', out.sent)) : Section core (.arrive packet now) core' out := by
  obtain ⟨l, rfl, hactive, hstate⟩ := findListener_eq_some hfind
  rcases halloc : core.sockets.alloc .stream .tcp (core.sockets.sockets l).owner with
    ⟨table, e | conn⟩
  · simp only [handleSyn, get_idAt hactive, halloc] at h
    obtain ⟨hcore, hsent⟩ := Prod.mk.inj h
    exact change_of_unchanged hcore.symm hsent.symm
  obtain ⟨hne, hfree, heq⟩ :=
    handleSyn_of_alloc hactive halloc hdr (arrivalSrc ip hdr) (arrivalDst ip hdr)
  obtain ⟨rfl, hsent⟩ := Prod.mk.inj (heq.symm.trans h)
  obtain ⟨reply, sent, packets⟩ := out
  subst hsent
  refine ⟨fun i => ?_, .inr rfl⟩
  have hby := NetOutput.sentBy_map reply
    [synAckSegment hdr (arrivalSrc ip hdr) (arrivalDst ip hdr) core.isnCounter] packets i
    conn.slot
  rw [List.map_singleton] at hby
  rw [hby]
  by_cases hi : i = conn.slot
  · subst hi
    rw [if_pos rfl, set_of_ne _ _ hne, set_self]
    exact .gotSyn harrival hsyn hack hfree
  rw [if_neg hi]
  by_cases hl : i = l
  · subst hl
    rw [set_self]
    exact .pushed conn hactive hstate
  · rw [set_of_ne _ _ hl, set_of_ne _ _ hi]
    exact .same _

lemma tcpReceive_of_found
    (hfind : core.sockets.findTcpConnection (arrivalDst ip hdr) (arrivalSrc ip hdr) =
      some (core.sockets.idAt i)) (payload : List UInt8) (now : UInt64) :
    tcpReceive ip hdr payload now core =
      (core.put (core.sockets.idAt i) ((core.sockets.sockets i).onSegment hdr payload now).1,
        ((core.sockets.sockets i).onSegment hdr payload now).2.map (⟨i, ·⟩)) := by
  obtain ⟨hactive, -⟩ := found_spec hfind
  have hfind' := hfind
  rw [arrivalDst, arrivalSrc] at hfind'
  simp only [tcpReceive, hfind', tcpStateMachine, get_idAt hactive, idAt_slot, put]

lemma change_segment {payload : List UInt8} (harrival : tcpArrival packet = some (ip, hdr, payload))
    (h : tcpReceive ip hdr payload now core = (core', out.sent)) :
    Section core (.arrive packet now) core' out := by
  cases hfind : core.sockets.findTcpConnection (arrivalDst ip hdr) (arrivalSrc ip hdr) with
  | some id =>
    obtain ⟨j, rfl, -⟩ := findTcpConnection_eq_some hfind
    rw [tcpReceive_of_found hfind] at h
    obtain ⟨rfl, hsent⟩ := Prod.mk.inj h
    have hslot := idAt_slot core.sockets j
    refine change_of_put _ rfl (hsent.symm.trans (by rw [hslot])) ?_ (.inl rfl)
    rw [hslot]
    exact .gotSegment harrival hfind
  | none =>
    rw [arrivalDst, arrivalSrc] at hfind
    simp only [tcpReceive, hfind] at h
    split at h
    · rename_i hflags
      rw [Bool.and_eq_true, Bool.not_eq_true'] at hflags
      split at h
      case h_1 hfind => exact change_syn harrival hflags.1 hflags.2 hfind h
      case h_2 =>
        obtain ⟨rfl, hsent⟩ := Prod.mk.inj h
        exact change_of_unchanged rfl hsent.symm
    · obtain ⟨rfl, hsent⟩ := Prod.mk.inj h
      exact change_of_unchanged rfl hsent.symm

lemma change_arrive (packet : List UInt8) (now : UInt64)
    (h : core.arrive packet now = .ok (core', out)) :
    Section core (.arrive packet now) core' out := by
  cases h
  rw [receiveIp]
  split
  case h_1 => exact change_of_unchanged rfl rfl
  case h_2 ip hip =>
    rw [dispatchIp]
    split
    · exact change_datagram _ rfl rfl
    split
    · rename_i hproto
      rw [tcpReceivePacket]
      split
      case h_1 => exact change_of_unchanged rfl rfl
      case h_2 hdr payload hsplit =>
        have harrival : tcpArrival packet = some (ip, hdr, payload) := by
          simp [tcpArrival, hip, hproto, hsplit]
        exact change_segment harrival rfl
    · exact change_of_unchanged rfl rfl

lemma step_section (h : core.step call = .ok (core', out)) : Section core call core' out := by
  cases call with
  | create sockType protocol owner => exact change_create sockType protocol owner h
  | bind id addr => exact change_bind addr h
  | connect id remote => exact change_connect remote h
  | listen id => exact change_listen h
  | accept id => exact change_accept h
  | send id data => exact change_send data h
  | sendto id data dst => exact change_sendto data dst h
  | recv id n => exact change_recv n h
  | shutdown id => exact change_shutdown h
  | release id => exact change_release h
  | cleanup pid => exact change_cleanup pid h
  | arrive packet now => exact change_arrive packet now h
  | checkTimers now =>
    cases h
    exact ⟨fun _ => .timer, .inl rfl⟩

lemma step_change (h : core.step call = .ok (core', out)) (i : Fin maxSockets) :
    Change core i call (core'.sockets.sockets i) (out.sentBy i) :=
  (step_section h).change i

end NetCore

end Fabric
