/-
Where the payload of a received segment begins and ends.

Three length fields delimit the payload of a frame with an IPv4/TCP segment: the length of the
IP header, the total length of the datagram and the data offset of the TCP header.  The receive
path reads none of them: it takes both headers to be 20 bytes long and the payload to reach to
the end of the frame.
-/
import FabricOS.NetworkStack

open List Option

namespace Fabric

open Ipv4Header NetStack SocketTable

/-! ### What the headers say -/

def datagramOf (frame : List UInt8) : List UInt8 := frame.drop EthernetFrame.headerSize

/-- A frame with an IPv4 datagram whose protocol is TCP. -/
def CarriesTcp (frame : List UInt8) : Prop :=
  EthernetFrame.headerSize ≤ frame.length ∧
    (frame.getD 12 0).toUInt16 <<< 8 ||| (frame.getD 13 0).toUInt16 = etherTypeIpv4 ∧
    (datagramOf frame).getD 9 0 = 6

instance (frame : List UInt8) : Decidable (CarriesTcp frame) :=
  inferInstanceAs (Decidable (_ ∧ _ ∧ _))

def ipHeaderLength (d : List UInt8) : ℕ := 4 * ((d.getD 0 0).toNat % 16)

def ipTotalLength (d : List UInt8) : ℕ := (be16 (d.getD 2 0) (d.getD 3 0)).toNat

/-- The TCP header length in bytes, from the data offset field. -/
def tcpHeaderLength (d : List UInt8) : ℕ := 4 * ((d.getD (ipHeaderLength d + 12) 0).toNat / 16)

/-- The lengths are possible, and within the datagram received. -/
def ConsistentLengths (d : List UInt8) : Prop :=
  Ipv4Header.size ≤ ipHeaderLength d ∧ TcpHeader.size ≤ tcpHeaderLength d ∧
    ipHeaderLength d + tcpHeaderLength d ≤ ipTotalLength d ∧ ipTotalLength d ≤ d.length

instance (d : List UInt8) : Decidable (ConsistentLengths d) :=
  inferInstanceAs (Decidable (_ ∧ _ ∧ _ ∧ _))

/-- From the end of the TCP header to the end of the datagram. -/
def payloadOf (d : List UInt8) : List UInt8 :=
  (d.take (ipTotalLength d)).drop (ipHeaderLength d + tcpHeaderLength d)

/-! ### What the receive path does -/

/-- What is left of the datagram of a frame that was copied. -/
def copiedDatagram (frame : List UInt8) : List UInt8 :=
  (frame.take NetStack.frameBufSize).drop EthernetFrame.headerSize

/-- The segment of a frame that is passed to the TCP code. -/
def tcpInput (frame : List UInt8) : Option (Ipv4Header × TcpHeader × List UInt8) :=
  tcpArrival (copiedDatagram frame)

lemma copiedDatagram_eq (frame : List UInt8) :
    copiedDatagram frame = (datagramOf frame).take 1586 := by
  rw [copiedDatagram, datagramOf, take_drop]
  rfl

lemma length_copiedDatagram (frame : List UInt8) :
    (copiedDatagram frame).length = min (datagramOf frame).length 1586 := by
  rw [copiedDatagram_eq, length_take, Nat.min_comm]

lemma getD_copiedDatagram (frame : List UInt8) {i : ℕ} (hi : i < 1586) :
    (copiedDatagram frame).getD i 0 = (datagramOf frame).getD i 0 := by
  rw [copiedDatagram_eq, getD_eq_getElem?_getD, getD_eq_getElem?_getD, getElem?_take_of_lt hi]

variable {frame : List UInt8}

lemma tcpInput_of_le (hcarries : CarriesTcp frame) (hlen : 40 ≤ (copiedDatagram frame).length) :
    ∃ ip hdr, tcpInput frame = some (ip, hdr, (copiedDatagram frame).drop 40) := by
  have hip : ¬ (copiedDatagram frame).length < size := by
    simp only [size]
    omega
  have htcp : ¬ ((copiedDatagram frame).drop size).length < TcpHeader.size := by
    simp only [size, TcpHeader.size, length_drop]
    omega
  have hproto : (copiedDatagram frame).getD 9 0 = 6 := by
    rw [getD_copiedDatagram frame (by decide)]
    exact hcarries.2.2
  have hdrop : ((copiedDatagram frame).drop size).drop TcpHeader.size =
      (copiedDatagram frame).drop 40 := by rw [drop_drop]; rfl
  simp only [tcpInput, tcpArrival, fromBytes, hip, if_false, hproto, if_true,
    splitSegment, TcpHeader.fromBytes, htcp, map_some, hdrop]
  exact ⟨_, _, rfl⟩

lemma tcpInput_of_lt (hlen : (copiedDatagram frame).length < 40) : tcpInput frame = none := by
  rw [tcpInput, tcpArrival]
  split
  · rfl
  have htcp : ((copiedDatagram frame).drop size).length < TcpHeader.size := by
    simp only [size, TcpHeader.size, length_drop]
    omega
  split
  · simp only [splitSegment, TcpHeader.fromBytes, htcp, if_true, map_none]
  · rfl

lemma nicReceiveOne_core (hcarries : CarriesTcp frame) {s : NetStack}
    (hnic : s.nicMac.isSome) (now : UInt64) :
    (s.nicReceiveOne ⟨some frame, now⟩).1.core =
      match tcpInput frame with
      | none => s.core
      | some (ip, hdr, payload) => (tcpReceive ip hdr payload now s.core).1 := by
  obtain ⟨hheader, htype, hproto⟩ := hcarries
  obtain ⟨mac, hmac⟩ := isSome_iff_exists.mp hnic
  have htake : ¬ (frame.take frameBufSize).length < EthernetFrame.headerSize := by
    simp only [length_take, frameBufSize, EthernetFrame.headerSize] at hheader ⊢
    omega
  have hbyte : ∀ i < 1600, (frame.take frameBufSize).getD i 0 = frame.getD i 0 := by
    intro i hi
    rw [getD_eq_getElem?_getD, getD_eq_getElem?_getD, frameBufSize, getElem?_take_of_lt hi]
  have hother : etherTypeIpv4 ≠ etherTypeArp := by decide
  simp only [nicReceiveOne, hmac, EthernetFrame.parse, htake, if_false,
    hbyte 12 (by decide), hbyte 13 (by decide), htype, if_true, if_neg hother]
  show (s.receiveIpv4 (copiedDatagram frame) now).core = _
  rw [receiveIpv4, tcpInput, tcpArrival]
  cases hip : fromBytes (copiedDatagram frame) with
  | none => rfl
  | some ip =>
    have hsix : ip.protocol = 6 := by
      rw [fromBytes] at hip
      split at hip
      · cases hip
      rw [← Option.some.inj hip]
      show (copiedDatagram frame).getD 9 0 = 6
      rw [getD_copiedDatagram frame (by decide)]
      exact hproto
    simp only [hsix, if_true]
    split
    case isTrue hshort =>
      have hnone : splitSegment ((copiedDatagram frame).drop size) = none := by
        have hlt : ((copiedDatagram frame).drop size).length < TcpHeader.size := by
          rw [length_drop]
          simp only [TcpHeader.size]
          omega
        simp only [splitSegment, TcpHeader.fromBytes, hlt, if_true, map_none]
      rw [hnone]
      rfl
    case isFalse =>
      have hdns : dnsAnswer ip ((copiedDatagram frame).drop size) = none := by
        simp [dnsAnswer, hsix]
      have hdispatch : ∀ payload core, dispatchIp ip payload now core =
          tcpReceivePacket ip payload now core := by
        intro payload core
        rw [dispatchIp, hsix]
        rfl
      simp only [hdns, dispatch, transmitOutput_core, hdispatch, tcpReceivePacket]
      cases splitSegment ((copiedDatagram frame).drop size) <;> rfl

/-! ### The comparison -/

/-- The payload passed on is the one that the headers delimit; and if the lengths are
inconsistent, no socket changes, whatever sockets there are. -/
def Delimited (frame : List UInt8) : Prop :=
  if ConsistentLengths (datagramOf frame) then
    ∃ ip hdr, tcpInput frame = some (ip, hdr, payloadOf (datagramOf frame))
  else
    ∀ (s : NetStack) (now : UInt64),
      (s.nicReceiveOne ⟨some frame, now⟩).1.core.sockets = s.core.sockets

/-- Without options and without padding, or too short for the headers.  A frame that was cut
to the size of the buffer may have the right payload by chance. -/
def LengthsAsAssumed (frame : List UInt8) : Prop :=
  let d := datagramOf frame
  if ConsistentLengths d then
    (ipHeaderLength d = 20 ∧ tcpHeaderLength d = 20 ∧ ipTotalLength d = min d.length 1586) ∨
      (1586 < d.length ∧ payloadOf d = (d.take 1586).drop 40)
  else d.length < 40

lemma payload_eq_iff {d : List UInt8} (h : ConsistentLengths d) :
    (d.take 1586).drop 40 = payloadOf d ↔
      (ipHeaderLength d = 20 ∧ tcpHeaderLength d = 20 ∧ ipTotalLength d = min d.length 1586) ∨
        (1586 < d.length ∧ payloadOf d = (d.take 1586).drop 40) := by
  obtain ⟨hip, htcp, htotal, hlen⟩ := h
  simp only [size, TcpHeader.size] at hip htcp
  constructor
  · intro heq
    by_cases hcut : 1586 < d.length
    · exact .inr ⟨hcut, heq.symm⟩
    -- the two have the same length
    have hlengths := congrArg length heq
    simp only [payloadOf, length_drop, length_take] at hlengths
    refine .inl ⟨?_, ?_, ?_⟩ <;> omega
  · rintro (⟨hip', htcp', htotal'⟩ | ⟨-, heq⟩)
    · rw [payloadOf, hip', htcp', htotal', Nat.min_comm, ← take_take, take_length]
    · exact heq.symm

/-- A socket that closes on any segment of the given connection. -/
def lastSocket (loc remote : SocketAddr) : Socket :=
  { Socket.empty with active := true, localAddr := loc, remoteAddr := remote, state := .timeWait }

def lastCore (loc remote : SocketAddr) : NetCore :=
  { NetCore.init with
    sockets := SocketTable.new.set ⟨0, zero_lt_maxSockets⟩ (lastSocket loc remote) }

lemma lastCore_socket (loc remote : SocketAddr) :
    (lastCore loc remote).sockets.sockets ⟨0, by decide⟩ = lastSocket loc remote :=
  set_self ..

lemma findTcpConnection_lastCore (loc remote : SocketAddr) :
    (lastCore loc remote).sockets.findTcpConnection loc remote =
      some ((lastCore loc remote).sockets.idAt ⟨0, by decide⟩) := by
  rw [findTcpConnection, firstSlot_eq_some.mpr]
  · rfl
  · refine ⟨?_, fun j hj => absurd hj (Nat.not_lt_zero _)⟩
    rw [lastCore_socket]
    simp [lastSocket, localMatch, Socket.empty]

lemma exists_changed (hcarries : CarriesTcp frame) (hlen : 40 ≤ (copiedDatagram frame).length) :
    ∃ s : NetStack, (s.nicReceiveOne ⟨some frame, 0⟩).1.core.sockets ≠ s.core.sockets := by
  obtain ⟨ip, hdr, hinput⟩ := tcpInput_of_le hcarries hlen
  generalize hc : lastCore (arrivalDst ip hdr) (arrivalSrc ip hdr) = core
  have hsock := lastCore_socket (arrivalDst ip hdr) (arrivalSrc ip hdr)
  have hfind := findTcpConnection_lastCore (arrivalDst ip hdr) (arrivalSrc ip hdr)
  rw [hc] at hsock hfind
  refine ⟨{ init (some broadcastMac) with core := core }, fun heq => ?_⟩
  rw [nicReceiveOne_core hcarries rfl, hinput] at heq
  simp only [NetCore.tcpReceive_of_found hfind] at heq
  have hactive := congrArg (fun t : SocketTable => (t.sockets ⟨0, by decide⟩).active) heq
  simp only [NetCore.put, idAt_slot, set_self, hsock] at hactive
  exact absurd hactive (by simp [Socket.onSegment, lastSocket, Socket.deactivate])

/-- **The lengths in the headers delimit the payload** exactly for frames whose lengths are as
the receive path takes them to be. -/
theorem delimited_iff (frame : List UInt8) (hcarries : CarriesTcp frame) :
    Delimited frame ↔ LengthsAsAssumed frame := by
  have hcopied := length_copiedDatagram frame
  unfold Delimited LengthsAsAssumed
  by_cases hlengths : ConsistentLengths (datagramOf frame)
  · rw [if_pos hlengths, if_pos hlengths, ← payload_eq_iff hlengths, ← copiedDatagram_eq]
    have hlong : 40 ≤ (copiedDatagram frame).length := by
      obtain ⟨hip, htcp, htotal, hlen⟩ := hlengths
      simp only [size, TcpHeader.size] at hip htcp
      omega
    obtain ⟨ip, hdr, hinput⟩ := tcpInput_of_le hcarries hlong
    rw [hinput]
    constructor
    · rintro ⟨ip', hdr', heq⟩
      simp only [Option.some.injEq, Prod.mk.injEq] at heq
      exact heq.2.2
    · intro heq
      exact ⟨ip, hdr, by rw [heq]⟩
  · rw [if_neg hlengths, if_neg hlengths]
    constructor
    · intro hdropped
      by_contra hlong
      obtain ⟨s, hchanged⟩ := exists_changed hcarries (by omega)
      exact hchanged (hdropped s 0)
    · intro hshort s now
      cases hnic : s.nicMac with
      | none => simp only [nicReceiveOne, hnic]
      | some mac =>
        rw [nicReceiveOne_core hcarries (by simp [hnic]), tcpInput_of_lt (by omega)]

/-- An acknowledgement in a frame of the least size, padded with six zeros. -/
def paddedAck : List UInt8 :=
  let s : Segment := ⟨⟨gatewayIp, 80⟩, ⟨guestIp, 49152⟩, 1, 1001, Tcp.ack, 4096, []⟩
  EthernetFrame.build broadcastMac broadcastMac etherTypeIpv4 s.packet ++ List.replicate 6 0

/-- The padding of an everyday frame is taken for data. -/
theorem padding_passed_on : CarriesTcp paddedAck ∧ payloadOf (datagramOf paddedAck) = [] ∧
    (tcpInput paddedAck).map (·.2.2) = some (List.replicate 6 0) ∧ ¬ Delimited paddedAck := by
  have hpassed : (tcpInput paddedAck).map (·.2.2) = some (replicate 6 0) := by
    decide +kernel
  have hpayload : payloadOf (datagramOf paddedAck) = [] := by decide +kernel
  refine ⟨by decide +kernel, hpayload, hpassed, fun hdelimited => ?_⟩
  have hconsistent : ConsistentLengths (datagramOf paddedAck) := by decide +kernel
  rw [Delimited, if_pos hconsistent, hpayload] at hdelimited
  obtain ⟨ip, hdr, hinput⟩ := hdelimited
  rw [hinput] at hpassed
  cases hpassed

def fullFrame : List UInt8 :=
  let s : Segment := ⟨⟨gatewayIp, 80⟩, ⟨guestIp, 49152⟩, 1, 1001, Tcp.ack, 4096, [71, 69, 84]⟩
  EthernetFrame.build broadcastMac broadcastMac etherTypeIpv4 s.packet

theorem fullFrame_delimited : CarriesTcp fullFrame ∧ LengthsAsAssumed fullFrame ∧
    Delimited fullFrame := by
  have hcarries : CarriesTcp fullFrame := by decide +kernel
  have hlengths : LengthsAsAssumed fullFrame := by
    have hconsistent : ConsistentLengths (datagramOf fullFrame) := by decide +kernel
    unfold LengthsAsAssumed
    rw [if_pos hconsistent]
    exact .inl (by decide +kernel)
  exact ⟨hcarries, hlengths, (delimited_iff fullFrame hcarries).mpr hlengths⟩

end Fabric
