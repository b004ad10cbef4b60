/-
The network stack (`network/loopback.rs`, `arp.rs`, `nic_dispatch.rs`, `ops.rs`).

The stack adds to the locked sections the two interfaces: packets for `127.x.x.x` wait in
the loopback queue, all others are framed and given to the network card.  What the card has
received and what the clock says is read from the environment, once per poll.
-/
import FabricOS.SocketOps

namespace Fabric

/-- What one poll of the card and the clock yields. -/
structure Poll where
  frame : Option (List UInt8)
  now : UInt64

/-- `LOOPBACK_QUEUE_SIZE`. -/
def loopbackQueueSize : ℕ := 64

/-- `GATEWAY_IP`. -/
def gatewayIp : Ipv4Addr := ⟨10, 0, 2, 2⟩

/-- The datagram captured for the resolver. -/
structure DnsResponseBuf where
  data : List UInt8
  ready : Bool
  deriving DecidableEq

structure NetStack where
  core : NetCore
  /-- Packets in the loopback queue, oldest first. -/
  loopback : List (List UInt8)
  /-- The address of the card, if there is one. -/
  nicMac : Option MacAddr
  /-- Frames given to the card. -/
  transmitted : List (List UInt8)
  arpTable : Ipv4Addr → Option MacAddr
  dnsResponse : DnsResponseBuf

namespace NetStack

def init (nicMac : Option MacAddr) : NetStack where
  core := .init
  loopback := []
  nicMac
  transmitted := []
  arpTable := fun _ => none
  dnsResponse := ⟨[], false⟩

/-! ### Transmission -/

/-- Put a packet into the loopback queue, unless that is full or the packet too long. -/
def loopbackEnqueue (s : NetStack) (packet : List UInt8) : NetStack :=
  if s.loopback.length ≥ loopbackQueueSize ∨ packet.length > loopbackMtu then s
  else { s with loopback := s.loopback ++ [packet] }

def transmitIp (s : NetStack) (packet : List UInt8) : NetStack :=
  match Ipv4Header.fromBytes packet with
  | none => s
  | some ip =>
    if isLoopback ip.dstAddr then s.loopbackEnqueue packet
    else
      match s.nicMac with
      | none => s
      | some srcMac =>
        let dstMac := (s.arpTable gatewayIp).getD broadcastMac
        { s with
          transmitted :=
            s.transmitted ++ [EthernetFrame.build dstMac srcMac etherTypeIpv4 packet] }

def transmitOutput (s : NetStack) (out : NetOutput) : NetStack :=
  (out.sent.map (·.segment.packet) ++ out.packets).foldl transmitIp s

/-- A locked section, and the transmission of what it sends. -/
def perform (s : NetStack) (call : NetCall) : Exec (NetStack × NetOutput) := do
  let (core, out) ← s.core.step call
  .ok ({ s with core }.transmitOutput out, out)

/-! ### Reception -/

def dispatch (s : NetStack) (ip : Ipv4Header) (ipPayload : List UInt8) (now : UInt64) : NetStack :=
  let r := dispatchIp ip ipPayload now s.core
  { s with core := r.1 }.transmitOutput ⟨.done, r.2, []⟩

def processArpFrame (s : NetStack) (payload : List UInt8) : NetStack :=
  if payload.length < 28 then s
  else
    let b := fun i => payload.getD i 0
    let opcode := (b 6).toUInt16 <<< 8 ||| (b 7).toUInt16
    if opcode = 2 then
      let senderMac : MacAddr := Vector.ofFn fun i => b (8 + i)
      let senderIp : Ipv4Addr := ⟨b 14, b 15, b 16, b 17⟩
      { s with arpTable := Function.update s.arpTable senderIp (some senderMac) }
    else s

def frameBufSize : ℕ := 1600

/-- The datagram of a frame that has been copied, if it is an answer of a name server. -/
def dnsAnswer (ip : Ipv4Header) (ipPayload : List UInt8) : Option UdpHeader :=
  if ip.protocol = 17 then (UdpHeader.fromBytes ipPayload).filter (·.srcPort = 53) else none

def captureDns (s : NetStack) (udp : UdpHeader) (ipPayload : List UInt8) : NetStack :=
  let dataLen := udp.length.toNat - UdpHeader.size
  if UdpHeader.size + dataLen ≤ ipPayload.length then
    { s with
      dnsResponse := ⟨((ipPayload.drop UdpHeader.size).take dataLen).take 512, true⟩ }
  else s

def receiveIpv4 (s : NetStack) (datagram : List UInt8) (now : UInt64) : NetStack :=
  match Ipv4Header.fromBytes datagram with
  | none => s
  | some ip =>
    if Ipv4Header.size ≥ datagram.length then s
    else
      let ipPayload := datagram.drop Ipv4Header.size
      match dnsAnswer ip ipPayload with
      | some udp => s.captureDns udp ipPayload
      | none => s.dispatch ip ipPayload now

/-- Poll the card for one frame; the result says whether there was one. -/
def nicReceiveOne (s : NetStack) (poll : Poll) : NetStack × Bool :=
  match s.nicMac, poll.frame with
  | some _, some frame =>
    match EthernetFrame.parse (frame.take frameBufSize) with
    | none => (s, false)
    | some eth =>
      if eth.etherType = etherTypeArp then (s.processArpFrame eth.payload, true)
      else if eth.etherType = etherTypeIpv4 then (s.receiveIpv4 eth.payload poll.now, true)
      else (s, true)
  | _, _ => (s, false)

def checkTimers (s : NetStack) (now : UInt64) : NetStack :=
  match s.perform (.checkTimers now) with
  | .ok (s', _) => s'
  | _ => s

/-- Deliver one packet: from the loopback queue or, if that is empty, from the card. -/
def deliverOne (s : NetStack) (poll : Poll) : NetStack :=
  match s.loopback with
  | packet :: rest =>
    let s := { s with loopback := rest }
    match Ipv4Header.fromBytes packet with
    | none => s
    | some ip => s.dispatch ip (packet.drop Ipv4Header.size) poll.now
  | [] => (s.nicReceiveOne poll).1.checkTimers poll.now

/-! ### Operations -/

inductive Op
  | create (sockType : SocketType) (protocol : Protocol) (owner : ProcessId)
  | bind (id : SocketId) (addr : SocketAddr)
  | connect (id : SocketId) (remote : SocketAddr)
  | listen (id : SocketId)
  | accept (id : SocketId)
  | send (id : SocketId) (data : List UInt8)
  | sendto (id : SocketId) (data : List UInt8) (dst : SocketAddr)
  | recv (id : SocketId) (n : ℕ)
  | shutdown (id : SocketId)
  | close (id : SocketId)

def established (s : NetStack) (id : SocketId) : Bool :=
  (s.core.sockets.get id).any (·.state == .established)

/-- Deliver until the socket is established, at most so many times. -/
def awaitEstablished (id : SocketId) : ℕ → (ℕ → Poll) → NetStack → NetStack × Bool
  | 0, _, s => (s, false)
  | n + 1, env, s =>
    let s := s.deliverOne (env 0)
    if s.established id then (s, true) else awaitEstablished id n (fun k => env (k + 1)) s

def deliverTimes : ℕ → (ℕ → Poll) → NetStack → NetStack
  | 0, _, s => s
  | n + 1, env, s => deliverTimes n (fun k => env (k + 1)) (s.deliverOne (env 0))

def socketConnect (s : NetStack) (id : SocketId) (remote : SocketAddr) (env : ℕ → Poll) :
    Exec (NetStack × NetReply) := do
  let (s, out) ← s.perform (.connect id remote)
  -- an error, or a UDP socket
  if out.sent.isEmpty then .ok (s, out.reply)
  else
    let maxIters := if isLoopback remote.addr then 10 else 100000
    match awaitEstablished id maxIters env s with
    | (s, true) => .ok (s, .done)
    | (s, false) => .ok (s, .failed .connectionRefused)

def socketAccept (s : NetStack) (id : SocketId) (env : ℕ → Poll) : Exec (NetStack × NetReply) := do
  let (s, out) ← s.perform (.accept id)
  match out.reply with
  | .socket conn => .ok ((awaitEstablished conn 10 env s).1, .socket conn)
  | reply => .ok (s, reply)

/-- Transmit, and deliver one packet if something was built. -/
def socketTransmit (s : NetStack) (call : NetCall) (env : ℕ → Poll) :
    Exec (NetStack × NetReply) := do
  let (s, out) ← s.perform call
  let built := (out.sent.map (·.segment.packet) ++ out.packets).any (!·.isEmpty)
  .ok (if built then s.deliverOne (env 0) else s, out.reply)

def socketShutdown (s : NetStack) (id : SocketId) (env : ℕ → Poll) :
    Exec (NetStack × NetReply) := do
  let (s, out) ← s.perform (.shutdown id)
  .ok (if out.sent.isEmpty then s else deliverTimes 10 env s, out.reply)

def shutdownIfOpen (s : NetStack) (id : SocketId) (env : ℕ → Poll) : Exec NetStack :=
  let isOpen := (s.core.sockets.get id).any fun sock =>
    sock.protocol == .tcp && (sock.state == .established || sock.state == .closeWait)
  if isOpen then do
    let (s, _) ← s.socketShutdown id env
    .ok s
  else .ok s

def socketClose (s : NetStack) (id : SocketId) (env : ℕ → Poll) : Exec (NetStack × NetReply) := do
  let s ← s.shutdownIfOpen id env
  let (s, out) ← s.perform (.release id)
  .ok (s, out.reply)

def op (s : NetStack) (env : ℕ → Poll) : Op → Exec (NetStack × NetReply)
  | .create sockType protocol owner => do
    let (s, out) ← s.perform (.create sockType protocol owner)
    .ok (s, out.reply)
  | .bind id addr => do
    let (s, out) ← s.perform (.bind id addr)
    .ok (s, out.reply)
  | .connect id remote => s.socketConnect id remote env
  | .listen id => do
    let (s, out) ← s.perform (.listen id)
    .ok (s, out.reply)
  | .accept id => s.socketAccept id env
  | .send id data => s.socketTransmit (.send id data) env
  | .sendto id data dst => s.socketTransmit (.sendto id data dst) env
  | .recv id n => do
    let (s, out) ← (s.deliverOne (env 0)).perform (.recv id n)
    .ok (s, out.reply)
  | .shutdown id => s.socketShutdown id env
  | .close id => s.socketClose id env

/-! ### Transmission leaves the core alone -/

@[simp] lemma loopbackEnqueue_core (s : NetStack) (packet : List UInt8) :
    (s.loopbackEnqueue packet).core = s.core := by
  rw [loopbackEnqueue]
  split <;> rfl

@[simp] lemma transmitIp_core (s : NetStack) (packet : List UInt8) :
    (s.transmitIp packet).core = s.core := by
  rw [transmitIp]
  split
  · rfl
  · split
    · exact loopbackEnqueue_core s packet
    · split <;> rfl

@[simp] lemma transmitOutput_core (s : NetStack) (out : NetOutput) :
    (s.transmitOutput out).core = s.core := by
  rw [transmitOutput]
  generalize out.sent.map (·.segment.packet) ++ out.packets = packets
  induction packets generalizing s with
  | nil => rfl
  | cons packet packets ih => rw [List.foldl_cons, ih, transmitIp_core]

end NetStack

end Fabric
