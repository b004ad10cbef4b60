/-
Which segments would be sent again.

A segment that takes up sequence numbers (a SYN, a FIN, data) stays outstanding until the peer
has acknowledged all of them.  Such a segment should be in the retransmit queue of its socket;
but nothing ever calls `RetransmitQueue::enqueue`.
-/
import FabricOS.SocketOps

open Machine List Option

namespace Fabric

def Segment.needsAck (s : Segment) : Bool :=
  s.flags &&& Tcp.syn != 0 || s.flags &&& Tcp.fin != 0 || !s.data.isEmpty

def Segment.endSeq (s : Segment) : UInt32 :=
  s.seq + .ofNat s.data.length + (if s.flags &&& Tcp.syn != 0 then 1 else 0) +
    (if s.flags &&& Tcp.fin != 0 then 1 else 0)

def Segment.ackedBy (s : Segment) (ackNum : UInt32) : Bool :=
  s.endSeq == ackNum || wrappingLt s.endSeq ackNum

/-- The network, and the segments of each socket that have been transmitted and not been
acknowledged. -/
structure Tracked where
  core : NetCore
  outstanding : Fin maxSockets → List Segment

namespace Tracked

def init : Tracked := ⟨.init, fun _ => []⟩

/-- The acknowledgement that a call brings to the socket in a slot. -/
def ackFor (t : Tracked) (i : Fin maxSockets) : NetCall → Option UInt32
  | .arrive packet _ =>
    match tcpArrival packet with
    | some (ip, hdr, _) =>
      if t.core.sockets.findTcpConnection (arrivalDst ip hdr) (arrivalSrc ip hdr) =
          some (t.core.sockets.idAt i) ∧ hdr.hasFlag Tcp.ack = true then
        some hdr.ackNum
      else none
    | none => none
  | _ => none

/-- What is still outstanding of a socket; a socket that is new has nothing outstanding. -/
def remaining (t : Tracked) (call : NetCall) (i : Fin maxSockets) : List Segment :=
  if (t.core.sockets.sockets i).active then
    match t.ackFor i call with
    | some ackNum => (t.outstanding i).filter (!·.ackedBy ackNum)
    | none => t.outstanding i
  else []

def step (t : Tracked) (call : NetCall) : Exec (Tracked × NetOutput) := do
  let (core, out) ← t.core.step call
  .ok (⟨core, fun i => t.remaining call i ++
    (out.sentBy i).filter fun s => s.fits && s.needsAck⟩, out)

/-! ### The queues -/

def Queued (sock : Socket) (s : Segment) : Prop :=
  ∃ rq, sock.retransmit = some rq ∧ ∃ e ∈ rq.entries, e.seq = s.seq ∧ e.data = s.packet

/-- Every outstanding segment of every socket is in its queue. -/
def Covered (t : Tracked) : Prop :=
  ∀ i, (t.core.sockets.sockets i).active = true → ∀ s ∈ t.outstanding i,
    Queued (t.core.sockets.sockets i) s

def NothingOutstanding (t : Tracked) : Prop :=
  ∀ i, (t.core.sockets.sockets i).active = true → t.outstanding i = []

/-- The call transmits nothing that has to be acknowledged. -/
def SendsNothing (t : Tracked) (call : NetCall) : Prop :=
  ∀ t' out, t.step call = .ok (t', out) → ∀ x ∈ out.sent,
    x.segment.fits = true → x.segment.needsAck = false

def QueueEmpty (sock : Socket) : Prop := ∀ rq, sock.retransmit = some rq → rq.entries = []

variable {sock : Socket}

lemma QueueEmpty.ackReceived (h : QueueEmpty sock) (ackNum : UInt32)
    (now : UInt64) : QueueEmpty (sock.ackReceived ackNum now) := by
  intro rq hrq
  obtain ⟨rq0, hrq0, rfl⟩ := map_eq_some_iff.mp hrq
  simp [RetransmitQueue.ackReceived, h rq0 hrq0]

lemma queueEmpty_deactivate (sock : Socket) : QueueEmpty sock.deactivate := by
  intro rq hrq
  obtain ⟨rq0, -, rfl⟩ := map_eq_some_iff.mp hrq
  rfl

lemma QueueEmpty.congr {sock sock' : Socket} (h : QueueEmpty sock)
    (heq : sock'.retransmit = sock.retransmit) : QueueEmpty sock' := by
  intro rq hrq
  exact h rq (heq ▸ hrq)

lemma QueueEmpty.onSegment (h : QueueEmpty sock) (hdr : TcpHeader)
    (payload : List UInt8) (now : UInt64) : QueueEmpty (sock.onSegment hdr payload now).1 := by
  cases hs : sock.state <;> simp only [Socket.onSegment, hs] <;> (try split_ifs) <;>
    first
      | exact h
      | exact queueEmpty_deactivate _
      | exact QueueEmpty.congr h rfl
      | exact QueueEmpty.ackReceived (QueueEmpty.congr h rfl) _ _

lemma QueueEmpty.onTimer (h : QueueEmpty sock) (now : UInt64) :
    QueueEmpty (sock.onTimer now).1 := by
  rw [Socket.onTimer]
  split
  · rename_i rq hrq
    simpa [h rq hrq] using h
  · exact h

lemma queueEmpty_fresh (gen : UInt16) (sockType : SocketType) (protocol : Protocol)
    (owner : ProcessId) : QueueEmpty (.fresh gen sockType protocol owner) := by
  intro rq hrq
  simp only [Socket.fresh] at hrq
  split at hrq
  · rw [← some.inj hrq]
    rfl
  · cases hrq

lemma QueueEmpty.change {core : NetCore} {i : Fin maxSockets} {call : NetCall} {sock' : Socket}
    {sent : List Segment} (h : QueueEmpty (core.sockets.sockets i))
    (hchange : Change core i call sock' sent) : QueueEmpty sock' := by
  cases hchange with
  | same => exact h
  | created free => exact queueEmpty_fresh _ _ _ _
  | bound names state | connectedUdp names protocol | connecting ephemeral names protocol state
  | listening names protocol state | popped backlog names state | sentData names protocol state
  | closedUdp names protocol | released names | cleaned owner
  | gotDatagram ip hdr payload active protocol => exact h.congr rfl
  | @read id n names =>
    obtain ⟨rx, heq⟩ := (core.sockets.sockets i).recv_fst n
    rw [heq]
    exact h.congr rfl
  | sentFin names protocol fin =>
    obtain ⟨state, -, rfl⟩ := Socket.finSent_eq fin
    exact h.congr rfl
  | gotSegment arrival found => exact h.onSegment _ _ _
  | gotSyn arrival syn ack free => exact (queueEmpty_fresh 0 .stream .tcp 0).congr rfl
  | pushed conn active state =>
    obtain ⟨backlog, heq⟩ := (core.sockets.sockets i).pushBacklog_eq conn
    rw [heq]
    exact h.congr rfl
  | timer => exact h.onTimer _

variable {t t' : Tracked} {call : NetCall} {out : NetOutput}

lemma queues_empty (h : Machine.Reachable step init t) (i : Fin maxSockets) :
    QueueEmpty (t.core.sockets.sockets i) := by
  refine h.inv (P := fun t => ∀ i, QueueEmpty (t.core.sockets.sockets i)) ?_ ?_ i
  · intro i rq hrq
    exact absurd hrq (by simp [init, NetCore.init, SocketTable.new, Socket.empty])
  intro t t' call out ht hstep i
  obtain ⟨⟨core', out'⟩, hcore, hok⟩ := Exec.bind_eq_ok.mp hstep
  cases hok
  exact (ht i).change (NetCore.step_change hcore i)

lemma NothingOutstanding.step (h : ∀ i, t.outstanding i = []) (hguard : SendsNothing t call)
    (hstep : t.step call = .ok (t', out)) (i : Fin maxSockets) : t'.outstanding i = [] := by
  have hnone := hguard t' out hstep
  obtain ⟨⟨core', out'⟩, hcore, hok⟩ := Exec.bind_eq_ok.mp hstep
  cases hok
  have hremaining : t.remaining call i = [] := by
    simp only [remaining, h i, filter_nil]
    split
    · split <;> rfl
    · rfl
  simp only [hremaining, nil_append, filter_eq_nil_iff]
  intro seg hseg
  obtain ⟨x, hx, rfl⟩ := mem_map.mp hseg
  have hno := hnone x (mem_filter.mp hx).1
  intro hboth
  rw [Bool.and_eq_true] at hboth
  exact absurd hboth.2 (by simp [hno hboth.1])

/-- **Retransmission covers what is outstanding** in a reachable state exactly if nothing is
outstanding; and it does in every state of a run in which nothing that has to be acknowledged is
transmitted. -/
theorem covered_iff (t : Tracked) (h : Machine.Reachable step init t) :
    (Covered t ↔ NothingOutstanding t) ∧
      (ReachableVia SendsNothing step init t → Covered t) := by
  have hiff : Covered t ↔ NothingOutstanding t := by
    constructor
    · intro hcovered i hactive
      refine eq_nil_iff_forall_not_mem.mpr fun s hs => ?_
      obtain ⟨rq, hrq, e, he, -⟩ := hcovered i hactive s hs
      rw [queues_empty h i rq hrq] at he
      cases he
    · intro hnothing i hactive s hs
      rw [hnothing i hactive] at hs
      cases hs
  refine ⟨hiff, fun hvia => hiff.mpr fun i _ => ?_⟩
  exact hvia.inv (P := fun t => ∀ i, t.outstanding i = []) (fun _ => rfl)
    (fun ht hguard hstep => NothingOutstanding.step ht hguard hstep) i

def connecting : List NetCall :=
  [.create .stream .tcp 5, .connect (.pack ⟨0, zero_lt_maxSockets⟩ 1) ⟨⟨10, 0, 2, 2⟩, 80⟩]

/-- Its SYN is outstanding and in no queue. -/
theorem syn_not_covered :
    ((final step init connecting).outstanding ⟨0, by decide⟩).map (·.flags) = [Tcp.syn] ∧
      ¬ Covered (final step init connecting) := by
  have hsyn : ((final step init connecting).outstanding ⟨0, by decide⟩).map (·.flags) =
      [Tcp.syn] := by decide +kernel
  have hactive : ((final step init connecting).core.sockets.sockets
      ⟨0, by decide⟩).active = true := by decide +kernel
  refine ⟨hsyn, fun hcovered => ?_⟩
  obtain ⟨s, hs⟩ : ∃ s, (final step init connecting).outstanding ⟨0, by decide⟩ = [s] := by
    obtain ⟨s, hs, -⟩ := map_eq_singleton_iff.mp hsyn
    exact ⟨s, hs⟩
  obtain ⟨rq, hrq, e, he, -⟩ := hcovered _ hactive s (by rw [hs]; exact mem_singleton.mpr rfl)
  have hqueue : ((final step init connecting).core.sockets.sockets
      ⟨0, by decide⟩).retransmit.map (·.entries) = some [] := by decide +kernel
  rw [hrq, map_some, some.injEq] at hqueue
  rw [hqueue] at he
  cases he

/-- A socket that is only created has nothing to retransmit. -/
theorem created_covered : (Covered (final step init [.create .stream .tcp 5]) ↔
        NothingOutstanding (final step init [.create .stream .tcp 5])) ∧
      (ReachableVia SendsNothing step init
          (final step init [.create .stream .tcp 5]) →
        Covered (final step init [.create .stream .tcp 5])) :=
  covered_iff _ (Machine.Reachable.of_returns (by decide +kernel))

end Tracked

end Fabric
