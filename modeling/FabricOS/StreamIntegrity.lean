/-
What the application reads of the peer's byte stream.

The state machine stores the payload of a data segment behind what is in the receive buffer
already, wherever in the stream it belongs and whether or not it fits, and acknowledges all of
it; a FIN is acknowledged without its payload.  So the stream is intact as long as segments
arrive in order, each once, and find room.
-/
import FabricOS.SocketOps

open Machine List

namespace Fabric

open SocketBuffer Socket NetCore

/-- The network, and what has been read from one socket. -/
structure StreamWatch where
  core : NetCore
  handed : List UInt8

namespace StreamWatch

def dataOf : NetReply → List UInt8
  | .bytes data => data
  | _ => []

/-- The bytes that a call hands to the reader of slot `i`. -/
def handedBy (i : Fin maxSockets) (call : NetCall) (reply : NetReply) : List UInt8 :=
  match call with
  | .recv id _ => if id.slot = i then dataOf reply else []
  | _ => []

def step (i : Fin maxSockets) (w : StreamWatch) (call : NetCall) :
    Exec (StreamWatch × NetOutput) := do
  let (core, out) ← w.core.step call
  .ok (⟨core, w.handed ++ handedBy i call out.reply⟩, out)

def sock (i : Fin maxSockets) (w : StreamWatch) : Socket := w.core.sockets.sockets i

/-- All bytes that have been stored: those read and those in the buffer. -/
def stored (i : Fin maxSockets) (w : StreamWatch) : List UInt8 :=
  w.handed ++ (w.sock i).rx.contents

/-! ### Segments of the stream -/

/-- The segment carries the bytes of the stream from position `p`, the first of which has the
sequence number `base`; a FIN follows the last byte. -/
def Carries (stream : List UInt8) (base : UInt32) (hdr : TcpHeader) (payload : List UInt8)
    (p : ℕ) : Prop :=
  hdr.seqNum = base + .ofNat p ∧ payload <+: stream.drop p ∧
    (hdr.hasFlag Tcp.fin = true → p + payload.length = stream.length)

def takesFin : SocketState → Bool
  | .established | .finWait1 | .finWait2 => true
  | _ => false

/-- The segment starts with the first byte that is not stored and fits, if it is data; it has no
data, if it is a FIN. -/
def NextInLine (sock : Socket) (stored : List UInt8) (hdr : TcpHeader) (payload : List UInt8)
    (p : ℕ) : Prop :=
  if hdr.hasFlag Tcp.fin then
    takesFin sock.state = true → payload = [] ∧ p = stored.length
  else
    sock.state = .established → hdr.hasFlag Tcp.ack = true → payload ≠ [] →
      p = stored.length ∧ payload.length ≤ sock.rx.available

/-- The socket is in use, and a segment of its connection that arrives belongs to the stream and
is the next one. -/
def InOrder (i : Fin maxSockets) (stream : List UInt8) (base : UInt32) (w : StreamWatch) :
    NetCall → Prop
  | .arrive packet _ =>
    (w.sock i).active = true ∧
    match tcpArrival packet with
    | some (ip, hdr, payload) =>
      w.core.sockets.findTcpConnection (arrivalDst ip hdr) (arrivalSrc ip hdr) =
          some (w.core.sockets.idAt i) →
        ∃ p, Carries stream base hdr payload p ∧
          NextInLine (w.sock i) (w.stored i) hdr payload p
    | none => True
  | _ => (w.sock i).active = true

/-! ### The stream is intact -/

/-- The bytes stored are the first ones of the stream, and the next byte expected is the first
one not stored; after the FIN, which comes when all are stored, it is the one after that. -/
structure Intact (i : Fin maxSockets) (stream : List UInt8) (base : UInt32) (w : StreamWatch) :
    Prop where
  prefixed : w.stored i <+: stream
  acknowledged : (w.sock i).recvSeq = base + .ofNat (w.stored i).length ∨
    (w.stored i = stream ∧ (w.sock i).recvSeq = base + .ofNat (w.stored i).length + 1)

variable {stream : List UInt8} {base : UInt32}

/-- A connection that is established or on its way to be closed. -/
def Open (sock : Socket) : Prop :=
  sock.protocol = .tcp ∧ (sock.state = .established ∨ sock.state = .finWait1 ∨
    sock.state = .finWait2 ∨ sock.state = .closeWait ∨ sock.state = .lastAck ∨
    sock.state = .timeWait ∨ sock.state = .closing)

variable {sock : Socket}

lemma not_open_of_state
    (h : sock.state = .closed ∨ sock.state = .bound ∨ sock.state = .listen) : ¬ Open sock := by
  rcases h with h | h | h <;> simp [Open, h]

lemma not_open_of_udp (h : sock.protocol = .udp) : ¬ Open sock := by
  simp [Open, h]

/-- The invariant on the socket, with the bytes `handed` read from it. -/
structure Receiving (stream : List UInt8) (base : UInt32) (sock : Socket) (handed : List UInt8) :
    Prop where
  isOpen : sock.active = true → Open sock
  prefixed : handed ++ sock.rx.contents <+: stream
  acknowledged : sock.recvSeq = base + .ofNat (handed ++ sock.rx.contents).length ∨
    (takesFin sock.state = false ∧ handed ++ sock.rx.contents = stream ∧
      sock.recvSeq = base + .ofNat (handed ++ sock.rx.contents).length + 1)

lemma onSegment_cases (hopen : Open sock) (hdr : TcpHeader) (payload : List UInt8) (now : UInt64) :
    (sock.state = .established ∧ hdr.hasFlag Tcp.fin = false ∧ hdr.hasFlag Tcp.ack = true ∧
      payload ≠ [] ∧
      (sock.onSegment hdr payload now).1 = { sock with
        rx := (sock.rx.write payload).1, recvSeq := hdr.seqNum + .ofNat payload.length }) ∨
    (takesFin sock.state = true ∧ hdr.hasFlag Tcp.fin = true ∧
      (sock.onSegment hdr payload now).1.rx = sock.rx ∧
      (sock.onSegment hdr payload now).1.recvSeq = hdr.seqNum + 1 ∧
      takesFin (sock.onSegment hdr payload now).1.state = false ∧
      Open (sock.onSegment hdr payload now).1) ∨
    ((sock.onSegment hdr payload now).1.rx = sock.rx ∧
      (sock.onSegment hdr payload now).1.recvSeq = sock.recvSeq ∧
      (takesFin sock.state = false → takesFin (sock.onSegment hdr payload now).1.state = false) ∧
      ((sock.onSegment hdr payload now).1.active = true →
        Open (sock.onSegment hdr payload now).1)) := by
  obtain ⟨hprotocol, hstate⟩ := hopen
  rcases hstate with hs | hs | hs | hs | hs | hs | hs
  -- established
  · cases hfin : hdr.hasFlag Tcp.fin with
    | true =>
      simp [onSegment, hs, hfin, takesFin, Open, hprotocol]
    | false =>
      cases hack : hdr.hasFlag Tcp.ack with
      | false =>
        simp [onSegment, hs, hfin, hack, takesFin, Open, hprotocol]
      | true =>
        by_cases hempty : payload = []
        · simp [onSegment, hs, hfin, hack, hempty, takesFin, Open, hprotocol,
            ackReceived]
        · simp [onSegment, hs, hfin, hack, hempty]
  -- in the other states no data is taken, and a FIN only in the first two of them
  all_goals
    refine .inr ?_
    cases hfin : hdr.hasFlag Tcp.fin <;> cases hack : hdr.hasFlag Tcp.ack <;>
      simp [onSegment, hs, hfin, hack, takesFin, Open, hprotocol, ackReceived,
        deactivate]

lemma prefix_append_of_drop {stored payload stream : List UInt8} (hstored : stored <+: stream)
    (hpayload : payload <+: stream.drop stored.length) : stored ++ payload <+: stream := by
  obtain ⟨rest, rfl⟩ := hstored
  rw [drop_left] at hpayload
  exact (prefix_append_right_inj stored).mpr hpayload

variable {handed : List UInt8}

lemma Receiving.congr {sock sock' : Socket} (h : Receiving stream base sock handed)
    (hrx : sock'.rx = sock.rx)
    (hrecv : sock'.recvSeq = sock.recvSeq) (hopen : sock'.active = true → Open sock')
    (htakes : takesFin sock.state = false → takesFin sock'.state = false) :
    Receiving stream base sock' handed := by
  refine ⟨hopen, ?_, ?_⟩
  · rw [hrx]
    exact h.prefixed
  rw [hrx, hrecv]
  rcases h.acknowledged with hack | ⟨htook, hrest⟩
  · exact .inl hack
  · exact .inr ⟨htakes htook, hrest⟩

lemma Receiving.onSegment (h : Receiving stream base sock handed) (hactive : sock.active = true)
    {hdr : TcpHeader} {payload : List UInt8} {p : ℕ} (hcarries : Carries stream base hdr payload p)
    (hnext : NextInLine sock (handed ++ sock.rx.contents) hdr payload p) (now : UInt64) :
    Receiving stream base (sock.onSegment hdr payload now).1 handed := by
  obtain ⟨hseq, hpayload, hend⟩ := hcarries
  obtain ⟨hs, hfin, hack, hne, heq⟩ | ⟨htakes, hfin, hrx, hrecv, htook, hopen⟩ |
    ⟨hrx, hrecv, htakes, hopen⟩ := onSegment_cases (h.isOpen hactive) hdr payload now
  -- data: it continues what is stored, and all of it is stored
  · rw [NextInLine, hfin] at hnext
    obtain ⟨rfl, hfits⟩ := hnext hs hack hne
    have hcontents : handed ++ (sock.rx.write payload).1.contents =
        handed ++ sock.rx.contents ++ payload := by
      rw [sock.rx.contents_write_of_le hfits, append_assoc]
    rw [heq]
    refine ⟨fun _ => ⟨(h.isOpen hactive).1, .inl hs⟩, ?_, .inl ?_⟩
    · simp only [hcontents]
      exact prefix_append_of_drop h.prefixed hpayload
    have hlength : (handed ++ sock.rx.contents ++ payload).length =
        (handed ++ sock.rx.contents).length + payload.length := length_append
    simp only [hcontents]
    rw [hseq, hlength, UInt32.ofNat_add, UInt32.add_assoc]
  -- the FIN: nothing is left to store
  · rw [NextInLine, if_pos hfin] at hnext
    obtain ⟨rfl, rfl⟩ := hnext htakes
    have hall : handed ++ sock.rx.contents = stream :=
      h.prefixed.eq_of_length (by simpa using hend hfin)
    refine ⟨fun _ => hopen, ?_, .inr ⟨htook, ?_, ?_⟩⟩
    · rw [hrx]
      exact h.prefixed
    · rw [hrx]
      exact hall
    · rw [hrecv, hrx, hseq]
  · exact h.congr hrx hrecv hopen htakes

lemma Receiving.recv (h : Receiving stream base sock handed) (htcp : sock.protocol = .tcp) (n : ℕ) :
    Receiving stream base (sock.recv n).1 (handed ++ dataOf (sock.recv n).2) := by
  rw [Socket.recv, htcp]
  simp only
  split
  · split <;> simpa [dataOf] using h
  have hmoved : handed ++ sock.rx.contents.take n ++ sock.rx.contents.drop n =
      handed ++ sock.rx.contents := by rw [append_assoc, take_append_drop]
  refine ⟨fun hactive => ⟨rfl, (h.isOpen hactive).2⟩, ?_, ?_⟩
  · simp only [dataOf, read_snd, contents_read, hmoved]
    exact h.prefixed
  · simp only [dataOf, read_snd, contents_read, hmoved]
    exact h.acknowledged

lemma Receiving.finSent {sock sock' : Socket} (h : Receiving stream base sock handed)
    (hfin : sock.finSent = some sock') (htcp : sock.protocol = .tcp) :
    Receiving stream base sock' handed := by
  rw [Socket.finSent] at hfin
  split at hfin
  · rename_i hstate
    cases hfin
    exact h.congr rfl rfl (fun _ => ⟨htcp, by simp⟩) (by simp [takesFin, hstate])
  · cases hfin
    exact h.congr rfl rfl (fun _ => ⟨htcp, by simp⟩) (fun _ => rfl)
  · cases hfin

lemma Receiving.onTimer (h : Receiving stream base sock handed) (now : UInt64) :
    Receiving stream base (sock.onTimer now).1 handed := by
  rw [Socket.onTimer]
  split
  · split
    · exact h
    simp only
    split
    · exact h.congr rfl rfl (by simp [deactivate]) (fun _ => rfl)
    · exact h.congr rfl rfl h.isOpen id
  · exact h

variable {i : Fin maxSockets} {stream : List UInt8} {base : UInt32} {w w' : StreamWatch}
  {call : NetCall} {out : NetOutput}

lemma Receiving.recvStep {id : SocketId} {n : ℕ} {core' : NetCore}
    (h : Receiving stream base (w.sock i) w.handed) (hactive : (w.sock i).active = true)
    (hstep : w.core.recvLocked id n = .ok (core', out)) :
    Receiving stream base (core'.sockets.sockets i)
      (w.handed ++ handedBy i (.recv id n) out.reply) := by
  rw [recvLocked, withSocket] at hstep
  split at hstep
  case h_1 =>
    cases hstep
    have hnone : handedBy i (.recv id n) (NetReply.failed .notFound) = [] := ite_self _
    show Receiving stream base _ (w.handed ++ handedBy i (.recv id n) (NetReply.failed .notFound))
    rw [hnone, append_nil]
    exact h
  case h_2 sock hget =>
    obtain rfl := socket_of_get hget
    cases hstep
    simp only [handedBy]
    by_cases hi : id.slot = i
    · subst hi
      rw [put_self, if_pos rfl]
      exact h.recv (h.isOpen hactive).1 n
    · rw [if_neg hi, append_nil, put, SocketTable.set_of_ne _ _ (Ne.symm hi)]
      exact h

lemma Receiving.step (h : Receiving stream base (w.sock i) w.handed)
    (hguard : InOrder i stream base w call) (hstep : w.step i call = .ok (w', out)) :
    Receiving stream base (w'.sock i) w'.handed := by
  obtain ⟨⟨core', out'⟩, hcore, hok⟩ := Exec.bind_eq_ok.mp hstep
  obtain ⟨rfl, rfl⟩ := Prod.mk.inj (Exec.ok.inj hok)
  have hactive : (w.sock i).active = true := by
    cases call <;> first | exact hguard | exact hguard.1
  have hopen := h.isOpen hactive
  have hchange := step_change hcore i
  -- only reading hands anything to the reader
  by_cases hread : ∃ id n, call = .recv id n
  · obtain ⟨id, n, rfl⟩ := hread
    exact h.recvStep hactive hcore
  have hnone : handedBy i call out'.reply = [] := by
    cases call <;> first | rfl | exact absurd ⟨_, _, rfl⟩ hread
  show Receiving stream base (core'.sockets.sockets i) (w.handed ++ handedBy i call out'.reply)
  rw [hnone, append_nil]
  generalize core'.sockets.sockets i = sock' at hchange
  generalize out'.sentBy i = sent at hchange
  cases hchange with
  | same => exact h
  | created free | gotSyn arrival syn ack free => exact absurd hactive (by rw [sock, free]; decide)
  | bound names state => exact absurd hopen (not_open_of_state (.inl state))
  | connectedUdp names protocol | closedUdp names protocol
  | gotDatagram ip hdr payload active protocol => exact absurd hopen (not_open_of_udp protocol)
  | connecting ephemeral names protocol state =>
    exact absurd hopen (not_open_of_state (state.imp_right .inl))
  | listening names protocol state =>
    exact absurd hopen (not_open_of_state (.inr (.inl state)))
  | popped backlog names state | pushed conn active state =>
    exact absurd hopen (not_open_of_state (.inr (.inr state)))
  | sentData names protocol state => exact h.congr rfl rfl h.isOpen id
  | read names => exact absurd ⟨_, _, rfl⟩ hread
  | sentFin names protocol fin => exact h.finSent fin protocol
  | released names | cleaned owner => exact h.congr rfl rfl (by simp) id
  | gotSegment arrival found =>
    simp only [InOrder, arrival] at hguard
    obtain ⟨p, hcarries, hnext⟩ := hguard.2 found
    exact h.onSegment hactive hcarries hnext _
  | timer => exact h.onTimer _

/-- **The stream is intact.**  For a connection that was established with nothing in its buffer
and `base` expected next: as long as its segments arrive in order, each once, and find room, and
a FIN comes after all data, the reader has got a prefix of the stream, and the acknowledgements
cover what has been stored and no more. -/
theorem stream_intact (i : Fin maxSockets) (stream : List UInt8) (base : UInt32) (core : NetCore)
    (hprotocol : (core.sockets.sockets i).protocol = .tcp)
    (hstate : (core.sockets.sockets i).state = .established)
    (hempty : (core.sockets.sockets i).rx.contents = [])
    (hbase : (core.sockets.sockets i).recvSeq = base) (w : StreamWatch)
    (h : ReachableVia (InOrder i stream base) (step i) ⟨core, []⟩ w) :
    w.handed <+: stream ∧ Intact i stream base w := by
  have hinit : Receiving stream base (core.sockets.sockets i) [] := by
    refine ⟨fun _ => ⟨hprotocol, .inl hstate⟩, ?_, .inl ?_⟩
    · rw [hempty]
      exact nil_prefix
    · rw [hempty, hbase]
      simp
  have hrun : Receiving stream base (w.sock i) w.handed := h.inv hinit Receiving.step
  have hintact : Intact i stream base w :=
    ⟨hrun.prefixed, hrun.acknowledged.imp_right And.right⟩
  exact ⟨(prefix_append _ _).trans hintact.prefixed, hintact⟩

/-! ### A connection -/

def clientEnd : SocketAddr := ⟨⟨10, 0, 2, 2⟩, 5000⟩
def serverEnd : SocketAddr := ⟨guestIp, 80⟩

/-- The peer's segments: the two of the handshake, and the first byte of its stream. -/
def peerSyn : Segment := ⟨clientEnd, serverEnd, 99, 0, Tcp.syn, 4096, []⟩
def peerAck : Segment := ⟨clientEnd, serverEnd, 100, 1001, Tcp.ack, 4096, []⟩
def peerData : Segment := ⟨clientEnd, serverEnd, 100, 1001, Tcp.ack, 4096, [65]⟩

/-- A server that the peer has connected to; the connection is in slot 1. -/
def connected : NetCore :=
  final NetCore.step .init
    [.create .stream .tcp 5, .bind (.pack ⟨0, zero_lt_maxSockets⟩ 1) ⟨.unspecified, 80⟩,
      .listen (.pack ⟨0, zero_lt_maxSockets⟩ 1), .arrive peerSyn.packet 0, .arrive peerAck.packet 0]

def connSlot : Fin maxSockets := ⟨1, one_lt_maxSockets⟩

/-- The first byte is delivered twice, and read twice. -/
theorem duplicate_read_twice : (connected.sockets.sockets connSlot).state = .established ∧
      (connected.sockets.sockets connSlot).recvSeq = 100 ∧
      Carries [65, 66] 100 peerData.tcpHeader peerData.data 0 ∧
      (final (step connSlot) ⟨connected, []⟩ [.arrive peerData.packet 0,
        .arrive peerData.packet 0, .recv (.pack connSlot 1) 10]).handed = [65, 65] ∧
      ¬ [65, 65] <+: ([65, 66] : List UInt8) := by
  refine ⟨by decide +kernel, by decide +kernel, ⟨by decide +kernel, by decide, ?_⟩,
    by decide +kernel, by decide⟩
  decide +kernel

/-- Delivered once, it is read once. -/
theorem delivered_once_read_once : (final (step connSlot) (final (step connSlot) ⟨connected, []⟩
      [.arrive peerData.packet 0]) [.recv (.pack connSlot 1) 10]).handed <+: [65, 66] ∧
    Intact connSlot [65, 66] 100 (final (step connSlot)
      (final (step connSlot) ⟨connected, []⟩ [.arrive peerData.packet 0])
      [.recv (.pack connSlot 1) 10]) := by
  refine stream_intact connSlot [65, 66] 100 connected (by decide +kernel) (by decide +kernel)
    (by decide +kernel) (by decide +kernel) _ ?_
  refine .tail_final (.tail_final .refl ?_ (by decide +kernel)) ?_ (by decide +kernel)
  · refine ⟨by decide +kernel, ?_⟩
    rw [tcpArrival_packet (by decide +kernel)]
    intro _
    refine ⟨0, ⟨by decide +kernel, by decide, by decide +kernel⟩, ?_⟩
    rw [NextInLine, if_neg (by decide +kernel)]
    intro _ _ _
    exact ⟨by decide +kernel, by decide +kernel⟩
  · show (sock connSlot _).active = true
    decide +kernel

end StreamWatch

end Fabric
