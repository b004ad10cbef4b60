/-
The TCP handshake between hosts.

Any number of hosts run the network code and exchange segments; the network delivers a segment
that was sent to any host, at any time, any number of times, or never.  The sequence numbers of
the two ends of a connection never agree: the SYN counts as one number on the side of the
server, which expects the next one, but not on the side of the client, which goes on with the
number of the SYN.
-/
import FabricOS.SocketOps

open Machine Function List

namespace Fabric

open NetCore Segment Socket Tcp SocketTable

/-- Hosts and the network between them. -/
structure Hosts (H : Type) where
  core : H → NetCore
  /-- All segments that were ever sent. -/
  wire : List Segment
  /-- Sockets on which `connect` was called, by host and slot. -/
  client : H → Fin maxSockets → Bool

namespace Hosts

variable {H : Type}

def init : Hosts H where
  core := fun _ => .init
  wire := []
  client := fun _ _ => false

def sock (s : Hosts H) (h : H) (i : Fin maxSockets) : Socket := (s.core h).sockets.sockets i

def permitted (s : Hosts H) : NetCall → Bool
  | .arrive packet _ => (tcpArrival packet).isNone || s.wire.any (·.packet == packet)
  | _ => true

/-- The role of the socket in a slot after a call: a socket that is new has none yet. -/
def clientAfter (s : Hosts H) (h : H) (call : NetCall) (out : NetOutput) (i : Fin maxSockets) :
    Bool :=
  if (s.sock h i).active then
    match call with
    | .connect _ _ => s.client h i || !(out.sentBy i).isEmpty
    | _ => s.client h i
  else false

/-- One locked section on host `h`. -/
def step [DecidableEq H] (s : Hosts H) (input : H × NetCall) : Exec (Hosts H × NetOutput) :=
  let (h, call) := input
  if s.permitted call then do
    let (core, out) ← (s.core h).step call
    .ok ({ core := update s.core h core
           wire := s.wire ++ out.sent.map (·.segment)
           client := update s.client h (s.clientAfter h call out) }, out)
  else .ok (s, .quiet .done)

/-! ### Agreement -/

/-- No data was sent from one of two ends to the port of the other. -/
def NoData (s : Hosts H) (a b : SocketAddr) : Prop :=
  ∀ seg ∈ s.wire, (seg.src = a ∧ seg.dst.port = b.port) ∨ (seg.src = b ∧ seg.dst.port = a.port) →
    seg.data = []

instance (s : Hosts H) (a b : SocketAddr) : Decidable (s.NoData a b) :=
  inferInstanceAs (Decidable (∀ seg ∈ s.wire, _ → _))

def Established (sock : Socket) : Prop :=
  sock.active = true ∧ sock.protocol = .tcp ∧ sock.state = .established

instance (sock : Socket) : Decidable (Established sock) :=
  inferInstanceAs (Decidable (_ ∧ _ ∧ _))

/-- The socket in slot `i` of host `h` has connected to the one in slot `j` of host `k`, which a
listener has created; both are established, and no data has been sent. -/
def Completed (s : Hosts H) (h : H) (i : Fin maxSockets) (k : H) (j : Fin maxSockets) : Prop :=
  Established (s.sock h i) ∧ s.client h i = true ∧
    Established (s.sock k j) ∧ s.client k j = false ∧
    (s.sock h i).remoteAddr = (s.sock k j).localAddr ∧
    (s.sock h i).localAddr = (s.sock k j).remoteAddr ∧
    s.NoData (s.sock h i).localAddr (s.sock h i).remoteAddr

instance (s : Hosts H) (h : H) (i : Fin maxSockets) (k : H) (j : Fin maxSockets) :
    Decidable (s.Completed h i k j) :=
  inferInstanceAs (Decidable (_ ∧ _ ∧ _ ∧ _ ∧ _ ∧ _ ∧ _))

def Agreed (s : Hosts H) : Prop :=
  ∀ h i k j, s.Completed h i k j → (s.sock h i).sendSeq = (s.sock k j).recvSeq ∧
    (s.sock k j).sendSeq = (s.sock h i).recvSeq

/-- A socket that waits for the handshake, and is still at its initial sequence number. -/
def Opening (sock : Socket) : Prop := sock.state = .synSent ∨ sock.state = .synReceived

/-- If the step makes a socket established, then on a segment that acknowledges its initial
sequence number plus one. -/
def OpensOnAck [DecidableEq H] (s : Hosts H) (input : H × NetCall) : Prop :=
  ∀ s' out, s.step input = .ok (s', out) → ∀ i, (s.sock input.1 i).active = true →
    Opening (s.sock input.1 i) → (s'.sock input.1 i).state = .established →
    ∃ packet now ip hdr payload, input.2 = .arrive packet now ∧
      tcpArrival packet = some (ip, hdr, payload) ∧ hdr.ackNum = (s.sock input.1 i).sendSeq + 1

def Accepts (sock : Socket) (hdr : TcpHeader) : Prop :=
  (sock.state = .synSent ∧ hdr.hasFlag Tcp.syn = true ∧ hdr.hasFlag Tcp.ack = true) ∨
    (sock.state = .synReceived ∧ hdr.hasFlag Tcp.ack = true)

/-- A segment that ends a handshake acknowledges the initial sequence number plus one. -/
def AcksIsn (s : Hosts H) (input : H × NetCall) : Prop :=
  ∀ packet now ip hdr payload i, input.2 = .arrive packet now → s.permitted input.2 = true →
    tcpArrival packet = some (ip, hdr, payload) →
    (s.core input.1).sockets.findTcpConnection (arrivalDst ip hdr) (arrivalSrc ip hdr) =
      some ((s.core input.1).sockets.idAt i) →
    Accepts (s.sock input.1 i) hdr → hdr.ackNum = (s.sock input.1 i).sendSeq + 1

/-! ### One step, slot by slot -/

variable {s s' : Hosts H} {h k : H} {call : NetCall} {out : NetOutput} {i : Fin maxSockets}

lemma step_cases [DecidableEq H] (hstep : s.step (h, call) = .ok (s', out)) :
    (s.permitted call = false ∧ s' = s) ∨
    (s.permitted call = true ∧ (s.core h).step call = .ok (s'.core h, out) ∧
      (∀ k ≠ h, s'.core k = s.core k) ∧ s'.wire = s.wire ++ out.sent.map (·.segment) ∧
      s'.client h = s.clientAfter h call out ∧ ∀ k ≠ h, s'.client k = s.client k) := by
  simp only [step] at hstep
  split at hstep
  · rename_i hpermitted
    obtain ⟨⟨core, out'⟩, hcore, hok⟩ := Exec.bind_eq_ok.mp hstep
    cases hok
    refine .inr ⟨hpermitted, ?_, ?_, rfl, ?_, ?_⟩
    · simpa using hcore
    · exact fun k hk => update_of_ne hk ..
    · simp
    · exact fun k hk => update_of_ne hk ..
  · rename_i hpermitted
    exact .inl ⟨by simpa using hpermitted, (Prod.mk.inj (Exec.ok.inj hstep)).1.symm⟩

lemma permitted_arrive {packet : List UInt8} {now : UInt64} {ip : Ipv4Header} {hdr : TcpHeader}
    {payload : List UInt8} (hpermitted : s.permitted (.arrive packet now) = true)
    (harrival : tcpArrival packet = some (ip, hdr, payload)) :
    ∃ seg ∈ s.wire, ip = seg.ipHeader ∧ hdr = seg.tcpHeader ∧ payload = seg.data := by
  simp only [permitted, harrival, Option.isNone_some, Bool.false_or, any_eq_true,
    beq_iff_eq] at hpermitted
  obtain ⟨seg, hseg, rfl⟩ := hpermitted
  refine ⟨seg, hseg, ?_⟩
  cases hfits : seg.fits with
  | true =>
    rw [tcpArrival_packet hfits, Option.some.injEq] at harrival
    simp only [Prod.mk.injEq] at harrival
    exact ⟨harrival.1.symm, harrival.2.1.symm, harrival.2.2.symm⟩
  | false =>
    have hnone : tcpArrival [] = none := rfl
    rw [packet_of_not_fits hfits, hnone] at harrival
    cases harrival

/-! ### Parity -/

def SentData (wire : List Segment) (a : SocketAddr) (port : UInt16) : Prop :=
  ∃ seg ∈ wire, seg.data ≠ [] ∧ seg.src = a ∧ seg.dst.port = port

variable {wire : List Segment}

lemma SentData.append {a : SocketAddr} {port : UInt16}
    (hsent : SentData wire a port) (more : List Segment) : SentData (wire ++ more) a port := by
  obtain ⟨seg, hseg, hrest⟩ := hsent
  exact ⟨seg, mem_append_left _ hseg, hrest⟩

/-- The parities of a socket's numbers, as long as no data is sent. -/
structure SlotParity (wire : List Segment) (client : Bool) (sock : Socket) : Prop where
  synSent : sock.state = .synSent → client = true
  synReceived : sock.state = .synReceived → client = false
  sendSeq : client = true → (sock.state = .synSent ∨ sock.state = .established) →
    sock.sendSeq.toNat % 2 = 0 ∨ SentData wire sock.localAddr sock.remoteAddr.port
  recvSeq : client = false → (sock.state = .synReceived ∨ sock.state = .established) →
    sock.recvSeq.toNat % 2 = 1 ∨ SentData wire sock.remoteAddr sock.localAddr.port
  initial : Opening sock → ∃ seg ∈ wire, seg.tcpHeader.hasFlag Tcp.syn = true ∧
    seg.src = sock.localAddr ∧ seg.dst = sock.remoteAddr ∧ seg.seq = sock.sendSeq

variable {client : Bool} {sock : Socket}

lemma SlotParity.of_state (state : SocketState) (hstate : sock.state = state)
    (hother : state ≠ .synSent ∧ state ≠ .synReceived ∧ state ≠ .established) :
    SlotParity wire client sock := by
  obtain ⟨h1, h2, h3⟩ := hother
  refine ⟨?_, ?_, ?_, ?_, ?_⟩
  · exact fun h => absurd (hstate.symm.trans h) h1
  · exact fun h => absurd (hstate.symm.trans h) h2
  · rw [hstate]
    exact fun _ h => absurd h (not_or.mpr ⟨h1, h3⟩)
  · rw [hstate]
    exact fun _ h => absurd h (not_or.mpr ⟨h2, h3⟩)
  · intro hopening
    rw [Opening, hstate] at hopening
    exact absurd hopening (not_or.mpr ⟨h1, h2⟩)

lemma SlotParity.congr {sock sock' : Socket}
    (hp : SlotParity wire client sock) (more : List Segment) (hstate : sock'.state = sock.state)
    (hsend : sock'.sendSeq = sock.sendSeq) (hrecv : sock'.recvSeq = sock.recvSeq)
    (hlocal : sock'.localAddr = sock.localAddr) (hremote : sock'.remoteAddr = sock.remoteAddr) :
    SlotParity (wire ++ more) client sock' := by
  refine ⟨?_, ?_, ?_, ?_, ?_⟩
  · rw [hstate]
    exact hp.synSent
  · rw [hstate]
    exact hp.synReceived
  · rw [hstate, hsend, hlocal, hremote]
    exact fun hc hs => (hp.sendSeq hc hs).imp_right (·.append more)
  · rw [hstate, hrecv, hlocal, hremote]
    exact fun hc hs => (hp.recvSeq hc hs).imp_right (·.append more)
  rw [Opening, hstate, hsend, hlocal, hremote]
  intro hopening
  obtain ⟨seg, hseg, hrest⟩ := hp.initial hopening
  exact ⟨seg, mem_append_left _ hseg, hrest⟩

lemma odd_add_one {x : UInt32} (hx : x.toNat % 2 = 0) : (x + 1).toNat % 2 = 1 := by
  rw [UInt32.toNat_add, UInt32.toNat_one]
  omega

lemma SlotParity.onSegment (hp : SlotParity wire client sock) {seg : Segment} (hseg : seg ∈ wire)
    (hlocal : seg.dst.port = sock.localAddr.port) (hremote : seg.src = sock.remoteAddr)
    (now : UInt64) (more : List Segment) :
    SlotParity (wire ++ more) client (sock.onSegment seg.tcpHeader seg.data now).1 := by
  have hsame : SlotParity (wire ++ more) client sock := hp.congr more rfl rfl rfl rfl rfl
  cases hs : sock.state with
  | closed | bound | listen | closeWait => simpa only [Socket.onSegment, hs] using hsame
  | synSent =>
    -- the client becomes established, at the number of its SYN
    simp only [Socket.onSegment, hs]
    split
    · refine ⟨by simp [ackReceived], by simp [ackReceived], ?_, ?_,
        by simp [Opening, ackReceived]⟩
      · exact fun hc _ => hsame.sendSeq hc (.inl hs)
      · exact fun hc => absurd (hp.synSent hs) (by simp [hc])
    · exact hsame
  | synReceived =>
    simp only [Socket.onSegment, hs]
    split
    · refine ⟨by simp [ackReceived], by simp [ackReceived], ?_, ?_,
        by simp [Opening, ackReceived]⟩
      · exact fun hc => absurd (hp.synReceived hs) (by simp [hc])
      · exact fun hc _ => hsame.recvSeq hc (.inl hs)
    · exact hsame
  | established =>
    simp only [Socket.onSegment, hs]
    split
    · exact .of_state .closeWait rfl (by decide)
    split
    · have hne : seg.data ≠ [] := by simp_all
      refine ⟨by simp, by simp, fun hc _ => hsame.sendSeq hc (.inr hs), ?_, by simp [Opening]⟩
      exact fun _ _ => .inr
        (SentData.append ⟨seg, hseg, hne, hremote, hlocal⟩ more)
    · split
      · exact hp.congr more hs.symm rfl rfl rfl rfl
      · exact hsame
  | finWait1 | finWait2 | lastAck | closing | timeWait =>
    -- the socket stays as it is, or enters a state that the invariant is not about
    simp only [Socket.onSegment, hs]
    try split_ifs
    all_goals first
      | exact hsame
      | exact .of_state _ rfl (by simp [ackReceived, deactivate])

variable {sock' : Socket}

lemma sent_ack_or_isn {core : NetCore} {sent : List Segment}
    (hchange : Change core i call sock' sent) {seg : Segment} (hseg : seg ∈ sent) :
    seg.tcpHeader.hasFlag Tcp.ack = true ∨ seg.seq = core.isnCounter := by
  have hacks : ∀ {seg : Segment}, seg.flags = Tcp.ack → seg.tcpHeader.hasFlag Tcp.ack = true :=
    fun hflags => hasFlag_tcpHeader ack hflags (by decide) ack
  cases hchange with
  | connecting ephemeral names protocol state =>
    obtain rfl := mem_singleton.mp hseg
    exact .inr rfl
  | sentData names protocol state =>
    obtain rfl := mem_singleton.mp hseg
    exact .inl (hacks rfl)
  | sentFin names protocol fin =>
    obtain rfl := mem_singleton.mp hseg
    exact .inl (hasFlag_tcpHeader (Tcp.fin ||| Tcp.ack) rfl (by decide) Tcp.ack)
  | gotSegment arrival found => exact .inl (hacks (onSegment_sent hseg).1)
  | gotSyn arrival syn ack free =>
    obtain rfl := mem_singleton.mp hseg
    exact .inl (hasFlag_tcpHeader (Tcp.syn ||| Tcp.ack) rfl (by decide) Tcp.ack)
  | _ => exact absurd hseg (by simp)

/-- **The invariant.**  Initial sequence numbers are even. -/
structure Parity (s : Hosts H) : Prop where
  counter : ∀ h, (s.core h).isnCounter.toNat % 2 = 0
  syn : ∀ seg ∈ s.wire, seg.tcpHeader.hasFlag Tcp.ack = false → seg.seq.toNat % 2 = 0
  slot : ∀ h i, (s.sock h i).active = true → (s.sock h i).protocol = .tcp →
    SlotParity s.wire (s.client h i) (s.sock h i)

lemma Parity.init : Parity (init : Hosts H) := by
  refine ⟨fun _ => ?_, by simp [Hosts.init], fun _ _ hactive => absurd hactive Bool.false_ne_true⟩
  show (1000 : UInt32).toNat % 2 = 0
  decide

lemma clientAfter_free (hfree : (s.sock h i).active = false) :
    s.clientAfter h call out i = false := by
  simp [clientAfter, hfree]

lemma clientAfter_quiet (hactive : (s.sock h i).active = true) (hsent : out.sentBy i = []) :
    s.clientAfter h call out i = s.client h i := by
  cases call <;> simp [clientAfter, hactive, hsent]

lemma Parity.change (hp : Parity s) (hpermitted : s.permitted call = true)
    {more : List Segment} (hchange : Change (s.core h) i call sock' (out.sentBy i))
    (hmore : ∀ seg ∈ out.sentBy i, seg ∈ more) (hactive' : sock'.active = true)
    (htcp' : sock'.protocol = .tcp) :
    SlotParity (s.wire ++ more) (s.clientAfter h call out i) sock' := by
  -- what a socket in use keeps, if it sends nothing
  have hkept : out.sentBy i = [] → (s.sock h i).active = true →
      ∀ {t : Socket}, t.protocol = (s.sock h i).protocol → t.protocol = .tcp →
        t.state = (s.sock h i).state → t.sendSeq = (s.sock h i).sendSeq →
        t.recvSeq = (s.sock h i).recvSeq → t.localAddr = (s.sock h i).localAddr →
        t.remoteAddr = (s.sock h i).remoteAddr →
        SlotParity (s.wire ++ more) (s.clientAfter h call out i) t := by
    intro hsent hactive t h0 htcp h1 h2 h3 h4 h5
    rw [clientAfter_quiet hactive hsent]
    exact (hp.slot h i hactive (h0 ▸ htcp)).congr more h1 h2 h3 h4 h5
  generalize hsent : out.sentBy i = sent at hchange hmore hkept
  cases hchange with
  | same => exact hkept rfl hactive' rfl htcp' rfl rfl rfl rfl rfl
  | created free | closedUdp names protocol => exact .of_state .closed rfl (by decide)
  | bound names state => exact .of_state .bound rfl (by decide)
  | connectedUdp names protocol => exact absurd (protocol.symm.trans htcp') (by decide)
  | connecting ephemeral names protocol state =>
    have hclient : ∀ id remote, s.clientAfter h (.connect id remote) out i = true := by
      have hactive : (s.sock h i).active = true := names.active
      simp [clientAfter, hactive, hsent]
    rw [hclient]
    refine ⟨fun _ => rfl, fun hs => absurd hs (by simp [connectTcp]),
      fun _ _ => .inl (hp.counter h), by simp, fun _ => ?_⟩
    refine ⟨_, mem_append_right _ (hmore _ (mem_singleton.mpr rfl)), ?_, rfl, rfl, rfl⟩
    exact hasFlag_tcpHeader Tcp.syn rfl (by decide) Tcp.syn
  | listening names protocol state => exact .of_state .listen rfl (by decide)
  | popped backlog names state => exact hkept rfl names.active rfl htcp' rfl rfl rfl rfl rfl
  | @sentData id data names protocol state =>
    have hslot := hp.slot h i names.active protocol
    have hrole : s.clientAfter h (.send id data) out i = s.client h i := by
      have hactive : (s.sock h i).active = true := names.active
      simp [clientAfter, hactive]
    rw [hrole]
    by_cases hdata : data = []
    · subst hdata
      exact hslot.congr more rfl (by simp [sock]) rfl rfl rfl
    have hseg := hmore _ (mem_singleton.mpr rfl)
    refine ⟨by simp [state], by simp [state], fun _ _ => .inr ?_, fun hc hs => ?_,
      by simp [Opening, state]⟩
    · exact ⟨_, mem_append_right _ hseg, hdata, rfl, rfl⟩
    · exact (hslot.recvSeq hc (.inr state)).imp_right (·.append more)
  | @read id n names =>
    obtain ⟨rx, hrecv⟩ := ((s.core h).sockets.sockets i).recv_fst n
    rw [hrecv] at htcp' ⊢
    exact hkept rfl names.active rfl htcp' rfl rfl rfl rfl rfl
  | sentFin names protocol fin =>
    obtain ⟨state, rfl | rfl, rfl⟩ := finSent_eq fin
    · exact .of_state .finWait1 rfl (by decide)
    · exact .of_state .lastAck rfl (by decide)
  | released names | cleaned owner => exact absurd hactive' (by simp)
  | gotDatagram ip hdr payload active protocol =>
    exact absurd (protocol.symm.trans htcp') (by decide)
  | @gotSegment packet now ip hdr payload arrival found =>
    obtain ⟨seg, hseg, rfl, rfl, rfl⟩ := permitted_arrive hpermitted arrival
    obtain ⟨hactive, htcp, hlocal, hremote⟩ := found_spec found
    have hrole : s.clientAfter h (.arrive packet now) out i = s.client h i := by
      have hact : (s.sock h i).active = true := hactive
      simp [clientAfter, hact]
    have hport : seg.dst.port = (s.sock h i).localAddr.port := by
      simp only [localMatch, Bool.or_eq_true, Bool.and_eq_true, beq_iff_eq] at hlocal
      rcases hlocal with hlocal | ⟨-, hlocal⟩
      · exact congrArg SocketAddr.port hlocal.symm
      · exact hlocal.symm
    rw [hrole]
    exact (hp.slot h i hactive htcp).onSegment hseg hport hremote.symm now more
  | gotSyn arrival syn ack free =>
    obtain ⟨seg, hseg, rfl, rfl, rfl⟩ := permitted_arrive hpermitted arrival
    rw [clientAfter_free free]
    refine ⟨by simp [ofSyn], fun _ => rfl, by simp,
      fun _ _ => .inl (odd_add_one (hp.syn seg hseg ack)), fun _ => ?_⟩
    refine ⟨_, mem_append_right _ (hmore _ (mem_singleton.mpr rfl)), ?_, rfl, rfl, rfl⟩
    exact hasFlag_tcpHeader (Tcp.syn ||| Tcp.ack) rfl (by decide) Tcp.syn
  | pushed conn active state =>
    obtain ⟨backlog, heq⟩ := ((s.core h).sockets.sockets i).pushBacklog_eq conn
    rw [heq] at htcp' ⊢
    exact hkept rfl active rfl htcp' rfl rfl rfl rfl rfl
  | @timer now =>
    obtain ⟨hoff, -⟩ | ⟨retransmit, heq⟩ := ((s.core h).sockets.sockets i).onTimer_fst now
    · exact absurd hactive' (by simp [hoff])
    · rw [heq] at htcp' hactive' ⊢
      exact hkept rfl hactive' rfl htcp' rfl rfl rfl rfl rfl

lemma even_add_isn {x : UInt32} (hx : x.toNat % 2 = 0) : (x + 1000).toNat % 2 = 0 := by
  show (x.toNat + 1000) % 2 ^ 32 % 2 = 0
  omega

lemma Parity.step [DecidableEq H] {input : H × NetCall} (hp : Parity s)
    (hstep : s.step input = .ok (s', out)) : Parity s' := by
  obtain ⟨h, call⟩ := input
  obtain ⟨-, rfl⟩ | ⟨hpermitted, hcore, hothers, hwire, hclient, hclients⟩ := step_cases hstep
  · exact hp
  refine ⟨fun k => ?_, fun seg hseg hack => ?_, fun k i hactive htcp => ?_⟩
  · by_cases hk : k = h
    · subst hk
      rcases (step_section hcore).isn with hisn | hisn <;> rw [hisn]
      · exact hp.counter k
      · exact even_add_isn (hp.counter k)
    · rw [hothers k hk]
      exact hp.counter k
  · rw [hwire] at hseg
    rcases mem_append.mp hseg with hold | hnew
    · exact hp.syn seg hold hack
    obtain ⟨x, hx, rfl⟩ := mem_map.mp hnew
    have hsent := sent_ack_or_isn (step_change hcore x.sender)
      (mem_map.mpr ⟨x, mem_filter.mpr ⟨hx, by simp⟩, rfl⟩)
    rcases hsent with hyes | hisn
    · exact absurd hyes (by simp [hack])
    · rw [hisn]
      exact hp.counter h
  · rw [hwire]
    by_cases hk : k = h
    · subst hk
      rw [hclient]
      refine hp.change hpermitted (step_change hcore i) (fun seg hseg => ?_) hactive htcp
      obtain ⟨x, hx, rfl⟩ := mem_map.mp hseg
      exact mem_map_of_mem (mem_filter.mp hx).1
    · rw [sock, hothers k hk] at hactive htcp ⊢
      rw [hclients k hk]
      exact (hp.slot k i hactive htcp).congr _ rfl rfl rfl rfl rfl

lemma Parity.not_agreed (hp : Parity s) {j : Fin maxSockets} (hcompleted : s.Completed h i k j) :
    (s.sock h i).sendSeq ≠ (s.sock k j).recvSeq := by
  obtain ⟨⟨hactive, htcp, hstate⟩, hclient, ⟨hactive', htcp', hstate'⟩, hserver, hremote, hlocal,
    hnodata⟩ := hcompleted
  have hnone : ¬ SentData s.wire (s.sock h i).localAddr (s.sock h i).remoteAddr.port := by
    rintro ⟨seg, hseg, hdata, hsrc, hdst⟩
    exact hdata (hnodata seg hseg (.inl ⟨hsrc, hdst⟩))
  have heven := ((hp.slot h i hactive htcp).sendSeq hclient (.inr hstate)).resolve_right hnone
  rw [hremote, hlocal] at hnone
  have hodd := ((hp.slot k j hactive' htcp').recvSeq hserver (.inr hstate')).resolve_right hnone
  intro heq
  rw [heq, hodd] at heven
  exact absurd heven (by decide)

lemma agreed_iff (hp : Parity s) : s.Agreed ↔ ∀ h i k j, ¬ s.Completed h i k j := by
  constructor
  · intro hagreed h i k j hcompleted
    exact hp.not_agreed hcompleted (hagreed h i k j hcompleted).1
  · intro hnone h i k j hcompleted
    exact absurd hcompleted (hnone h i k j)

/-! ### The end of the handshake -/

lemma onSegment_established_iff (hopening : Opening sock) (hdr : TcpHeader)
    (payload : List UInt8) (now : UInt64) :
    (sock.onSegment hdr payload now).1.state = .established ↔ Accepts sock hdr := by
  rcases hopening with hs | hs
  · cases hsyn : hdr.hasFlag syn <;> cases hack : hdr.hasFlag ack <;>
      simp [onSegment, Accepts, hs, hsyn, hack, ackReceived]
  · cases hack : hdr.hasFlag ack <;>
      simp [onSegment, Accepts, hs, hack, ackReceived]

lemma established_of_change {core : NetCore} {sent : List Segment}
    (hchange : Change core i call sock' sent) (hopening : Opening (core.sockets.sockets i))
    (hactive : (core.sockets.sockets i).active = true) (hstate : sock'.state = .established) :
    ∃ packet now ip hdr payload, call = .arrive packet now ∧
      tcpArrival packet = some (ip, hdr, payload) ∧
      core.sockets.findTcpConnection (arrivalDst ip hdr) (arrivalSrc ip hdr) =
        some (core.sockets.idAt i) ∧ Accepts (core.sockets.sockets i) hdr := by
  have hnot : (core.sockets.sockets i).state ≠ .established := by
    rcases hopening with hs | hs <;> simp [hs]
  cases hchange with
  | same | popped backlog names state | released names | cleaned owner
  | gotDatagram ip hdr payload active protocol => exact absurd hstate hnot
  | created free | gotSyn arrival syn ack free => exact absurd hactive (by simp [free])
  | bound names state | listening names protocol state | closedUdp names protocol =>
    exact absurd hstate (by simp)
  | connectedUdp names protocol =>
    rw [connectUdp] at hstate
    split at hstate
    · cases hstate
    · exact absurd hstate hnot
  | connecting ephemeral names protocol state => exact absurd hstate (by simp [connectTcp])
  | sentData names protocol state => exact absurd state hnot
  | @read id n names =>
    obtain ⟨rx, hrecv⟩ := (core.sockets.sockets i).recv_fst n
    rw [hrecv] at hstate
    exact absurd hstate hnot
  | sentFin names protocol fin =>
    obtain ⟨state, rfl | rfl, rfl⟩ := finSent_eq fin <;> exact absurd hstate (by simp)
  | @gotSegment packet now ip hdr payload arrival found =>
    exact ⟨packet, now, ip, hdr, payload, rfl, arrival, found,
      (onSegment_established_iff hopening hdr payload now).mp hstate⟩
  | pushed conn active state =>
    obtain ⟨backlog, heq⟩ := (core.sockets.sockets i).pushBacklog_eq conn
    rw [heq] at hstate
    exact absurd hstate hnot
  | @timer now =>
    obtain ⟨-, hclosed⟩ | ⟨retransmit, heq⟩ := (core.sockets.sockets i).onTimer_fst now
    · exact absurd hstate (by simp [hclosed])
    · rw [heq] at hstate
      exact absurd hstate hnot

lemma opensOnAck_iff [DecidableEq H] (s : Hosts H) (input : H × NetCall) :
    s.OpensOnAck input ↔ s.AcksIsn input := by
  obtain ⟨h, call⟩ := input
  constructor
  · rintro hopens packet now ip hdr payload i rfl hpermitted harrival hfound haccepts
    obtain ⟨hactive, -⟩ := found_spec hfound
    have hopening : Opening (s.sock h i) := haccepts.imp And.left And.left
    obtain ⟨s', out, hstep⟩ : ∃ s' out, s.step (h, .arrive packet now) = .ok (s', out) := by
      simp only [Hosts.step, hpermitted, if_true]
      exact ⟨_, _, rfl⟩
    have hstate : (s'.sock h i).state = .established := by
      obtain ⟨hno, -⟩ | ⟨-, hcore, -⟩ := step_cases hstep
      · exact absurd hpermitted (by simp [hno])
      obtain ⟨hcore', -⟩ := Prod.mk.inj (Exec.ok.inj hcore)
      rw [sock, ← hcore', receiveIp_of_arrival harrival, tcpReceive_of_found hfound,
        NetCore.put, idAt_slot, set_self]
      exact (onSegment_established_iff hopening hdr payload now).mpr haccepts
    obtain ⟨packet', now', ip', hdr', payload', heq, harrival', hack⟩ :=
      hopens s' out hstep i hactive hopening hstate
    obtain ⟨rfl, -⟩ := NetCall.arrive.inj heq
    rw [harrival] at harrival'
    simp only [Option.some.injEq, Prod.mk.injEq] at harrival'
    rw [harrival'.2.1]
    exact hack
  · rintro hacks s' out hstep i hactive hopening hstate
    obtain ⟨-, rfl⟩ | ⟨hpermitted, hcore, -⟩ := step_cases hstep
    · exact absurd hstate (by rcases hopening with hs | hs <;> simp [hs])
    obtain ⟨packet, now, ip, hdr, payload, rfl, harrival, hfound, haccepts⟩ :=
      established_of_change (step_change hcore i) hopening hactive hstate
    exact ⟨packet, now, ip, hdr, payload, rfl, harrival,
      hacks packet now ip hdr payload i rfl hpermitted harrival hfound haccepts⟩

/-! ### Whole runs -/

def statesOf (evs : List (Event (Hosts H) (H × NetCall) NetOutput)) (s : Hosts H) :
    List (Hosts H) := evs.map (·.before) ++ [s]

lemma parity_of_mem_statesOf [DecidableEq H] {evs : List (Event (Hosts H) (H × NetCall) NetOutput)}
    (hrun : Run step init evs s) {t : Hosts H} (ht : t ∈ statesOf evs s) : Parity t := by
  have hreach : Machine.Reachable step init t := by
    rcases mem_append.mp ht with hbefore | hlast
    · obtain ⟨ev, hev, rfl⟩ := mem_map.mp hbefore
      obtain ⟨evs1, evs2, rfl⟩ := append_of_mem hev
      obtain ⟨-, hpre, -⟩ := hrun.split
      exact hpre.reachable
    · rw [mem_singleton.mp hlast]
      exact hrun.reachable
  exact hreach.inv Parity.init Parity.step

/-- **Agreement after the handshake**: throughout a run of any hosts the two ends of a completed
handshake agree, and sockets become established on an acknowledgement of their initial sequence
number plus one, exactly if no handshake is completed in the run and every segment that is
accepted as the end of one acknowledges that number. -/
theorem handshake_iff [DecidableEq H]
    (evs : List (Event (Hosts H) (H × NetCall) NetOutput)) (s : Hosts H)
    (hrun : Run step init evs s) :
    ((∀ t ∈ statesOf evs s, t.Agreed) ∧ ∀ ev ∈ evs, ev.before.OpensOnAck ev.input) ↔
      ((∀ t ∈ statesOf evs s, ∀ h i k j, ¬ t.Completed h i k j) ∧
        ∀ ev ∈ evs, ev.before.AcksIsn ev.input) := by
  refine and_congr (forall₂_congr fun t ht => ?_) (forall₂_congr fun ev _ => ?_)
  · exact agreed_iff (parity_of_mem_statesOf hrun ht)
  · exact opensOnAck_iff ev.before ev.input

/-! ### A handshake -/

def clientEnd : SocketAddr := ⟨.loopback, 49152⟩
def serverEnd : SocketAddr := ⟨.loopback, 80⟩

/-- A server listens, a client connects, and the three segments are delivered in order. -/
def plainHandshake : List (Unit × NetCall) :=
  let server : SocketId := .pack ⟨0, by decide⟩ 1
  let client : SocketId := .pack ⟨1, by decide⟩ 1
  let syn : Segment := ⟨clientEnd, serverEnd, 1000, 0, Tcp.syn, 4096, []⟩
  let synAck : Segment := ⟨serverEnd, clientEnd, 2000, 1001, Tcp.syn ||| Tcp.ack, 4096, []⟩
  let ack : Segment := ⟨clientEnd, serverEnd, 1000, 2001, Tcp.ack, 4096, []⟩
  [.create .stream .tcp 5, .bind server ⟨.unspecified, 80⟩, .listen server, .create .stream .tcp 6,
    .connect client serverEnd, .arrive syn.packet 0, .arrive synAck.packet 0,
    .arrive ack.packet 0].map (((), ·))

/-- Both ends are established; the client is at 1000, the server expects 1001. -/
theorem plain_handshake_disagrees : let s := final step init plainHandshake
    s.Completed () ⟨1, by decide⟩ () ⟨2, by decide⟩ ∧
      (s.sock () ⟨1, by decide⟩).sendSeq = 1000 ∧ (s.sock () ⟨2, by decide⟩).recvSeq = 1001 ∧
      ¬ s.Agreed := by
  have hcompleted : (final step init plainHandshake).Completed () ⟨1, by decide⟩ ()
      ⟨2, by decide⟩ := by decide +kernel
  have hsend : ((final step init plainHandshake).sock () ⟨1, by decide⟩).sendSeq =
      1000 := by decide +kernel
  have hrecv : ((final step init plainHandshake).sock () ⟨2, by decide⟩).recvSeq =
      1001 := by decide +kernel
  refine ⟨hcompleted, hsend, hrecv, fun hagreed => ?_⟩
  have heq := (hagreed _ _ _ _ hcompleted).1
  exact absurd heq (by decide)

/-- The characterisation at this run. -/
theorem plain_handshake_iff :
    ∃ evs, evs.map (·.input) = plainHandshake ∧
      (((∀ t ∈ statesOf evs (final step init plainHandshake), t.Agreed) ∧
          ∀ ev ∈ evs, ev.before.OpensOnAck ev.input) ↔
        ((∀ t ∈ statesOf evs (final step init plainHandshake),
            ∀ h i k j, ¬ t.Completed h i k j) ∧
          ∀ ev ∈ evs, ev.before.AcksIsn ev.input)) := by
  have hreturns : (Machine.run step (init : Hosts Unit) plainHandshake).returns = true := by
    decide +kernel
  obtain ⟨evs, hrun, hinputs⟩ := Run.of_returns hreturns
  exact ⟨evs, hinputs, handshake_iff evs _ hrun⟩

end Hosts

end Fabric
