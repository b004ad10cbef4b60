/-
Sockets and the socket table (`network/socket.rs`).

A table has 256 slots.  An id names a slot together with the generation of its occupant, so
that an id outlives neither its socket nor, until the generations come round, the slot's next
occupant.
-/
import FabricOS.NetTypes
import FabricOS.Retransmit
import FabricOS.SocketBuffer
import FabricOS.WireTypes

open Function

namespace Fabric

def maxBacklog : ℕ := 8

inductive SocketState
  | closed
  | bound
  | listen
  | synSent
  | synReceived
  | established
  | finWait1
  | finWait2
  | closeWait
  | lastAck
  | timeWait
  | closing
  deriving DecidableEq

inductive SocketError
  | notFound
  | invalidState
  | addressInUse
  | connectionRefused
  | notConnected
  | wouldBlock
  | bufferFull
  | tooManySockets
  | invalidArgument
  | notBound
  deriving DecidableEq

structure Socket where
  active : Bool
  generation : UInt16
  sockType : SocketType
  protocol : Protocol
  localAddr : SocketAddr
  remoteAddr : SocketAddr
  state : SocketState
  owner : ProcessId
  rx : SocketBuffer
  /-- Next sequence number to send. -/
  sendSeq : UInt32
  /-- Last acknowledgement taken from the peer. -/
  sendAck : UInt32
  /-- Next sequence number expected from the peer. -/
  recvSeq : UInt32
  /-- Window advertised by the peer. -/
  sendWindow : UInt16
  /-- Only TCP sockets have one. -/
  retransmit : Option RetransmitQueue
  /-- The connections that wait to be accepted: `backlog_count` entries of `backlog`. -/
  backlog : List SocketId

namespace Socket

def empty : Socket where
  active := false
  generation := 0
  sockType := .stream
  protocol := .tcp
  localAddr := .unspecified
  remoteAddr := .unspecified
  state := .closed
  owner := 0
  rx := .new
  sendSeq := 0
  sendAck := 0
  recvSeq := 0
  sendWindow := 4096
  retransmit := none
  backlog := []

/-- A socket as `alloc` makes it. -/
def fresh (generation : UInt16) (sockType : SocketType) (protocol : Protocol) (owner : ProcessId) :
    Socket :=
  { empty with
    active := true, generation, sockType, protocol, owner
    retransmit := if protocol = .tcp then some .new else none }

end Socket

structure SocketTable where
  sockets : Fin maxSockets → Socket

namespace SocketTable

def new : SocketTable := ⟨fun _ => .empty⟩

def set (t : SocketTable) (slot : Fin maxSockets) (sock : Socket) : SocketTable :=
  ⟨update t.sockets slot sock⟩

/-- `if let Some(sock) = table.get_mut(id)`. -/
def modify (t : SocketTable) (id : SocketId) (f : Socket → Socket) : SocketTable :=
  let sock := t.sockets id.slot
  if sock.active && sock.generation == id.generation then t.set id.slot (f sock) else t

def idAt (t : SocketTable) (slot : Fin maxSockets) : SocketId :=
  .pack slot (t.sockets slot).generation

def alloc (t : SocketTable) (sockType : SocketType) (protocol : Protocol) (owner : ProcessId) :
    SocketTable × Except SocketError SocketId :=
  match firstSlot fun i => !(t.sockets i).active with
  | none => (t, .error .tooManySockets)
  | some slot =>
    let gen := (t.sockets slot).generation + 1
    (t.set slot (.fresh gen sockType protocol owner), .ok (.pack slot gen))

def get (t : SocketTable) (id : SocketId) : Option Socket :=
  let sock := t.sockets id.slot
  if sock.active && sock.generation == id.generation then some sock else none

def release (t : SocketTable) (id : SocketId) : SocketTable × Except SocketError Unit :=
  let sock := t.sockets id.slot
  if !sock.active || sock.generation != id.generation then (t, .error .notFound)
  else (t.set id.slot { sock with active := false }, .ok ())

/-- A socket bound to an address, or to its port on any address. -/
def localMatch (sock : Socket) (addr : SocketAddr) : Bool :=
  sock.localAddr == addr || (sock.localAddr.addr.isUnspecified && sock.localAddr.port == addr.port)

def findByLocal (t : SocketTable) (addr : SocketAddr) (protocol : Protocol) : Option SocketId :=
  (firstSlot fun i => (t.sockets i).active && (t.sockets i).protocol == protocol &&
    localMatch (t.sockets i) addr).map t.idAt

def findTcpConnection (t : SocketTable) (loc remote : SocketAddr) : Option SocketId :=
  (firstSlot fun i => (t.sockets i).active && (t.sockets i).protocol == .tcp &&
    localMatch (t.sockets i) loc && (t.sockets i).remoteAddr == remote).map t.idAt

def findListener (t : SocketTable) (port : UInt16) : Option SocketId :=
  (firstSlot fun i => (t.sockets i).active && (t.sockets i).protocol == .tcp &&
    (t.sockets i).state == .listen && (t.sockets i).localAddr.port == port).map t.idAt

def cleanupByOwner (t : SocketTable) (pid : ProcessId) : SocketTable :=
  ⟨fun i => if (t.sockets i).active && (t.sockets i).owner == pid then
    { t.sockets i with active := false } else t.sockets i⟩

def portInUse (t : SocketTable) (port : UInt16) (protocol : Protocol) : Bool :=
  (firstSlot fun i => (t.sockets i).active && (t.sockets i).protocol == protocol &&
    (t.sockets i).localAddr.port == port).isSome

/-! ### Slots and ids -/

variable {t t' : SocketTable} {id : SocketId} {sock : Socket}

@[simp] lemma set_self (t : SocketTable) (slot : Fin maxSockets) (sock : Socket) :
    (t.set slot sock).sockets slot = sock := update_self ..

lemma set_of_ne (t : SocketTable) {slot i : Fin maxSockets} (sock : Socket) (h : i ≠ slot) :
    (t.set slot sock).sockets i = t.sockets i := update_of_ne h ..

@[simp] lemma set_set (t : SocketTable) (slot : Fin maxSockets) (sock sock' : Socket) :
    (t.set slot sock).set slot sock' = t.set slot sock' := by
  simp [set]

lemma get_eq_some : t.get id = some sock ↔
    (t.sockets id.slot).active = true ∧ (t.sockets id.slot).generation = id.generation ∧
      t.sockets id.slot = sock := by
  simp only [get]
  split <;> simp_all

lemma modify_of_get (h : t.get id = some sock) (f : Socket → Socket) :
    t.modify id f = t.set id.slot (f sock) := by
  obtain ⟨hactive, hgen, rfl⟩ := get_eq_some.mp h
  simp [modify, hactive, hgen]

lemma get_idAt {i : Fin maxSockets} (h : (t.sockets i).active = true) :
    t.get (t.idAt i) = some (t.sockets i) := by
  simp [get_eq_some, idAt, h]

@[simp] lemma idAt_slot (t : SocketTable) (i : Fin maxSockets) : (t.idAt i).slot = i :=
  SocketId.slot_pack ..

lemma alloc_eq_ok {sockType : SocketType} {protocol : Protocol} {owner : ProcessId}
    (h : t.alloc sockType protocol owner = (t', .ok id)) :
    (t.sockets id.slot).active = false ∧
      id.generation = (t.sockets id.slot).generation + 1 ∧
      t' = t.set id.slot (.fresh id.generation sockType protocol owner) := by
  simp only [alloc] at h
  split at h
  case h_1 => simp at h
  case h_2 slot hslot =>
    cases h
    have hfree := (firstSlot_eq_some.mp hslot).1
    simp only [SocketId.slot_pack, SocketId.generation_pack]
    exact ⟨by simpa using hfree, trivial, trivial⟩

end SocketTable

end Fabric
