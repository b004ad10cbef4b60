/-
Connections that wait to be accepted (`handle_syn`, `socket_accept`, `socket_close`).

A SYN makes a socket for the connection and enters its id into the backlog of the listener.  The
socket is made first; whether the backlog has room for its id is asked afterwards.
-/
import FabricOS.SocketOps

open Machine List Bool

namespace Fabric

open SocketTable

/-- Listening, a SYN for the listener on its port, accepting, and the two sections of
`socket_close`. -/
inductive BacklogCall
  | listen (id : SocketId)
  | syn (hdr : TcpHeader) (src dst : SocketAddr)
  | accept (id : SocketId)
  | finish (id : SocketId)
  | close (id : SocketId)

/-- The sockets, with the connections made so far, each with its listener, and those that
`accept` has returned. -/
structure Backlogs where
  core : NetCore
  made : List (SocketId × SocketId)
  accepted : List SocketId

namespace Backlogs

/-- The connection that a SYN makes, with its listener. -/
def newConn (core : NetCore) (hdr : TcpHeader) : Option (SocketId × SocketId) :=
  match core.sockets.findListener hdr.dstPort with
  | none => none
  | some l =>
    match core.sockets.get l with
    | none => none
    | some listener =>
      match core.sockets.alloc .stream .tcp listener.owner with
      | (_, .ok c) => some (c, l)
      | (_, .error _) => none

def step (s : Backlogs) : BacklogCall → Exec (Backlogs × NetReply)
  | .listen id => do
    let (core, out) ← s.core.step (.listen id)
    .ok ({ s with core }, out.reply)
  | .syn hdr src dst =>
    match s.core.sockets.findListener hdr.dstPort with
    | none => .ok (s, .done)
    | some l =>
      .ok ({ s with
        core := (handleSyn l hdr src dst s.core).1
        made := (newConn s.core hdr).toList ++ s.made }, .done)
  | .accept id => do
    let (core, out) ← s.core.step (.accept id)
    let accepted := match out.reply with
      | .socket c => c :: s.accepted
      | _ => s.accepted
    .ok ({ s with core, accepted }, out.reply)
  | .finish id =>
    if (s.core.sockets.get id).any fun sock =>
        sock.protocol = .tcp ∧ (sock.state = .established ∨ sock.state = .closeWait) then do
      let (core, out) ← s.core.step (.shutdown id)
      .ok ({ s with core }, out.reply)
    else .ok (s, .done)
  | .close id => do
    let (core, out) ← s.core.step (.release id)
    .ok ({ s with core }, out.reply)

/-- In use, not accepted, and not listed exactly once by its listener. -/
def orphaned (s : Backlogs) (p : SocketId × SocketId) : Bool :=
  (s.core.sockets.get p.1).isSome && !s.accepted.contains p.1 &&
    (s.core.sockets.get p.2).map (·.backlog.count p.1) != some 1

def NoOrphans (s : Backlogs) : Prop := ∀ p ∈ s.made, s.orphaned p = false

/-- A SYN that makes a connection finds room in the backlog, and its id was not in use before;
a listener is closed only when no connections wait. -/
def orderly (s : Backlogs) : BacklogCall → Bool
  | .syn hdr _ _ => (newConn s.core hdr).all fun (c, l) =>
    (s.core.sockets.get l).all (·.backlog.length < maxBacklog) &&
      s.made.all fun p => p.1.slot ≠ c.slot ∨ p.1.generation ≠ c.generation
  | .close id => (s.core.sockets.get id).all (·.backlog = [])
  | _ => true

structure Inv (s : Backlogs) : Prop where
  waiting : ∀ p ∈ s.made, (s.core.sockets.get p.1).isSome → p.1 ∉ s.accepted →
    ∃ sock, s.core.sockets.get p.2 = some sock ∧ sock.state = .listen ∧ sock.backlog.count p.1 = 1
  listed : ∀ i, ∀ c ∈ (s.core.sockets.sockets i).backlog, ∃ l, (c, l) ∈ s.made

lemma Inv.noOrphans {s : Backlogs} (h : s.Inv) : s.NoOrphans := by
  intro p hp
  by_contra horphaned
  simp only [orphaned, not_eq_false, and_eq_true, not_eq_true', bne_iff_ne,
    contains_eq_mem, decide_eq_false_iff_not] at horphaned
  obtain ⟨⟨hsome, hnot⟩, hcount⟩ := horphaned
  obtain ⟨sock, hget, -, hone⟩ := h.waiting p hp hsome hnot
  exact hcount (by rw [hget, Option.map_some, hone])

lemma get_set (t : SocketTable) (j : Fin maxSockets) (sock : Socket) (id : SocketId) :
    (t.set j sock).get id = if id.slot = j then
      if sock.active && sock.generation == id.generation then some sock else none
    else t.get id := by
  split
  · rename_i hslot
    subst hslot
    simp [SocketTable.get]
  · rename_i hslot
    simp [SocketTable.get, set_of_ne _ _ hslot]

section

variable {s s' : Backlogs} {id : SocketId} {sock sock' : Socket} {accepted : List SocketId}

/-- A socket is written back that lists the same waiting connections. -/
lemma Inv.put (h : s.Inv) (hget : s.core.sockets.get id = some sock)
    (hgen : sock'.generation = sock.generation) (hsub : sock'.backlog ⊆ sock.backlog)
    (haccepted : s.accepted ⊆ accepted)
    (hkeep : ∀ c, c ∉ accepted → sock.state = .listen → sock.backlog.count c = 1 →
      sock'.active = true ∧ sock'.state = .listen ∧ sock'.backlog.count c = 1) :
    Inv ⟨s.core.put id sock', s.made, accepted⟩ := by
  obtain ⟨hactive, -, hsock⟩ := get_eq_some.mp hget
  refine ⟨fun p hp hsome hnot => ?_, fun i c hc => ?_⟩
  · simp only [NetCore.put, get_set] at hsome ⊢
    have hbefore : (s.core.sockets.get p.1).isSome := by
      by_cases hslot : p.1.slot = id.slot
      · simp only [hslot, if_true, Option.isSome_ite, and_eq_true, beq_iff_eq] at hsome
        have hsame : (s.core.sockets.sockets p.1.slot).generation = p.1.generation := by
          rw [hslot, hsock, ← hgen, hsome.2]
        rw [get_eq_some.mpr ⟨hslot ▸ hactive, hsame, rfl⟩]
        rfl
      · rwa [if_neg hslot] at hsome
    obtain ⟨listener, hlistener, hstate, hcount⟩ :=
      h.waiting p hp hbefore fun hmem => hnot (haccepted hmem)
    by_cases hslot : p.2.slot = id.slot
    · obtain ⟨-, hlgen, hl⟩ := get_eq_some.mp hlistener
      rw [hslot, hsock] at hl hlgen
      subst hl
      obtain ⟨hactive', hstate', hcount'⟩ := hkeep p.1 hnot hstate hcount
      exact ⟨sock', by simp [hslot, hactive', hgen, hlgen], hstate', hcount'⟩
    · exact ⟨listener, by rw [if_neg hslot, hlistener], hstate, hcount⟩
  · by_cases hi : i = id.slot
    · subst hi
      rw [NetCore.put_self] at hc
      exact h.listed id.slot c (hsock ▸ hsub hc)
    · exact h.listed i c (by rwa [NetCore.put, set_of_ne _ _ hi] at hc)

/-- A connection is made, and listed. -/
lemma Inv.syn (h : s.Inv) {l : Fin maxSockets} {c : SocketId} {conn : Socket} {isn : UInt32}
    (hactive : (s.core.sockets.sockets l).active = true)
    (hstate : (s.core.sockets.sockets l).state = .listen) (hne : c.slot ≠ l)
    (hroom : (s.core.sockets.sockets l).backlog.length < maxBacklog)
    (hnew : ∀ p ∈ s.made, p.1.slot ≠ c.slot ∨ p.1.generation ≠ c.generation)
    (hfree : (s.core.sockets.sockets c.slot).active = false)
    (hgen : conn.generation = c.generation) (hempty : conn.backlog = []) :
    Inv ⟨{ s.core with
      sockets := (s.core.sockets.set c.slot conn).set l
        ((s.core.sockets.sockets l).pushBacklog c)
      isnCounter := isn }, (c, s.core.sockets.idAt l) :: s.made, s.accepted⟩ := by
  have hpush : (s.core.sockets.sockets l).pushBacklog c =
      { s.core.sockets.sockets l with
        backlog := (s.core.sockets.sockets l).backlog ++ [c] } := by
    rw [Socket.pushBacklog, if_pos hroom]
  have hfresh : c ∉ (s.core.sockets.sockets l).backlog := fun hc => by
    obtain ⟨l', hmade⟩ := h.listed l c hc
    simpa using hnew _ hmade
  have hafter : ∀ id : SocketId, id.slot ≠ c.slot →
      ((s.core.sockets.set c.slot conn).set l ((s.core.sockets.sockets l).pushBacklog c)).get id =
        (s.core.sockets.get id).map fun sock =>
          if id.slot = l then { sock with backlog := sock.backlog ++ [c] } else sock := by
    intro id hid
    rw [get_set, get_set, if_neg hid, hpush]
    by_cases hslot : id.slot = l
    · subst hslot
      by_cases hid' : (s.core.sockets.sockets id.slot).generation = id.generation <;>
        simp [SocketTable.get, hactive, hid']
    · simp [hslot]
  refine ⟨fun p hp hsome hnot => ?_, fun i c' hc' => ?_⟩
  · rcases mem_cons.mp hp with rfl | hp
    · refine ⟨{ s.core.sockets.sockets l with
        backlog := (s.core.sockets.sockets l).backlog ++ [c] }, ?_, hstate, ?_⟩
      · rw [hafter _ (by rw [idAt_slot]; exact hne.symm), get_idAt hactive]
        simp
      · simp [count_append, count_eq_zero_of_not_mem hfresh]
    · have hslot : p.1.slot ≠ c.slot := fun hslot => by
        rw [get_set, if_neg (hslot ▸ hne), get_set, if_pos hslot] at hsome
        simp only [Option.isSome_ite, and_eq_true, beq_iff_eq] at hsome
        exact (hnew p hp).elim (· hslot) (· (hsome.2.symm.trans hgen))
      rw [hafter _ hslot, Option.isSome_map] at hsome
      obtain ⟨listener, hlistener, hlisten, hcount⟩ := h.waiting p hp hsome hnot
      have hslot' : p.2.slot ≠ c.slot := fun hslot' => by
        have hused := (get_eq_some.mp hlistener).1
        rw [hslot', hfree] at hused
        cases hused
      have hother : c ≠ p.1 := fun heq => hslot (heq ▸ rfl)
      rw [hafter _ hslot', hlistener]
      refine ⟨_, rfl, ?_, ?_⟩ <;> split <;> simp_all [count_append]
  · have hlisted : c' ∈ (s.core.sockets.sockets i).backlog ∨ c' = c := by
      by_cases hl : i = l
      · subst hl
        rw [set_self, hpush] at hc'
        simpa using hc'
      rw [set_of_ne _ _ hl] at hc'
      by_cases hi : i = c.slot
      · subst hi
        simp [set_self, hempty] at hc'
      · exact .inl (by rwa [set_of_ne _ _ hi] at hc')
    rcases hlisted with hc' | rfl
    · obtain ⟨l', hmade⟩ := h.listed i c' hc'
      exact ⟨l', mem_cons_of_mem _ hmade⟩
    · exact ⟨_, mem_cons_self⟩

lemma Inv.step {call : BacklogCall} {r : NetReply} (h : s.Inv) (horderly : s.orderly call)
    (hstep : s.step call = .ok (s', r)) : s'.Inv := by
  cases call with
  | listen id =>
    obtain ⟨⟨core, out⟩, hcall, hok⟩ := Exec.bind_eq_ok.mp hstep
    cases hok
    simp only [NetCore.step, NetCore.socketListen, NetCore.withSocket, NetCore.refuse] at hcall
    split at hcall
    · cases hcall
      exact h
    rename_i sock hget
    split_ifs at hcall with htcp hbound <;> cases hcall
    · exact h
    · exact h
    -- a socket that is only bound lists nothing
    refine h.put hget rfl (nil_subset _) (List.Subset.refl _) fun c _ hlisten => ?_
    rw [not_not.mp hbound] at hlisten
    cases hlisten
  | accept id =>
    obtain ⟨⟨core, out⟩, hcall, hok⟩ := Exec.bind_eq_ok.mp hstep
    simp only [NetCore.step, NetCore.acceptStart, NetCore.withSocket, NetCore.refuse] at hcall
    split at hcall
    · cases hcall
      cases hok
      exact h
    rename_i sock hget
    split_ifs at hcall with hlisten
    · cases hcall
      cases hok
      exact h
    split at hcall
    · cases hcall
      cases hok
      exact h
    rename_i c rest hbacklog
    cases hcall
    cases hok
    refine h.put hget rfl (hbacklog ▸ subset_cons_self c rest)
      (subset_cons_self c _) fun c' hc' hstate hcount => ?_
    rw [hbacklog, count_cons_of_ne (Ne.symm (ne_of_not_mem_cons hc'))] at hcount
    exact ⟨(get_eq_some.mp hget).2.2 ▸ (get_eq_some.mp hget).1, hstate,
      hcount⟩
  | finish id =>
    simp only [Backlogs.step] at hstep
    split_ifs at hstep with hopen
    · obtain ⟨⟨core, out⟩, hcall, hok⟩ := Exec.bind_eq_ok.mp hstep
      cases hok
      cases hget : s.core.sockets.get id with
      | none => simp [hget] at hopen
      | some sock =>
        simp only [hget, Option.any_some, decide_eq_true_eq] at hopen
        obtain ⟨sock', hfin, hgen, hbacklog⟩ : ∃ sock', sock.finSent = some sock' ∧
            sock'.generation = sock.generation ∧ sock'.backlog = sock.backlog := by
          rcases hopen.2 with hstate | hstate <;> simp [Socket.finSent, hstate]
        simp only [NetCore.step, NetCore.shutdownStart, NetCore.withSocket, hget, hopen.1, hfin]
          at hcall
        cases hcall
        refine h.put hget hgen (hbacklog ▸ List.Subset.refl _) (List.Subset.refl _)
          fun c _ hlisten => ?_
        simp [hlisten] at hopen
    · cases hstep
      exact h
  | close id =>
    obtain ⟨⟨core, out⟩, hcall, hok⟩ := Exec.bind_eq_ok.mp hstep
    cases hok
    simp only [NetCore.step, NetCore.releaseSocket, release] at hcall
    by_cases hfound : (!(s.core.sockets.sockets id.slot).active ||
        (s.core.sockets.sockets id.slot).generation != id.generation) = true
    · rw [if_pos hfound] at hcall
      cases hcall
      exact h
    rw [if_neg hfound] at hcall
    cases hcall
    have hget : s.core.sockets.get id = some (s.core.sockets.sockets id.slot) :=
      get_eq_some.mpr (by simpa using hfound)
    refine h.put hget rfl (List.Subset.refl _) (List.Subset.refl _) fun c _ _ hcount => ?_
    rw [orderly, hget, Option.all_some, decide_eq_true_eq] at horderly
    rw [horderly] at hcount
    cases hcount
  | syn hdr src dst =>
    simp only [Backlogs.step] at hstep
    split at hstep
    · cases hstep
      exact h
    rename_i l hfind
    cases hstep
    obtain ⟨i, rfl, hactive, hstate⟩ := NetCore.findListener_eq_some hfind
    have hget := get_idAt hactive
    rcases halloc : s.core.sockets.alloc .stream .tcp (s.core.sockets.sockets i).owner with
      ⟨table, e | c⟩
    · simpa [newConn, hfind, hget, halloc, handleSyn] using h
    have hnew : newConn s.core hdr = some (c, s.core.sockets.idAt i) := by
      simp [newConn, hfind, hget, halloc]
    simp only [orderly, hnew, hget, Option.all_some, and_eq_true, decide_eq_true_eq,
      all_eq_true] at horderly
    obtain ⟨hne, hfree, heq⟩ := NetCore.handleSyn_of_alloc hactive halloc hdr src dst
    rw [hnew, heq]
    exact h.syn hactive hstate hne horderly.1 horderly.2 hfree
      (alloc_eq_ok halloc).2.1.symm rfl

/-- As long as calls come in order, no connection is orphaned, whatever the sockets were before;
only backlogs are empty at first. -/
theorem noOrphans_of_orderly {core : NetCore}
    (hcore : ∀ i, (core.sockets.sockets i).backlog = []) {s : Backlogs}
    (h : ReachableVia (fun s call => s.orderly call) Backlogs.step ⟨core, [], []⟩ s) :
    s.NoOrphans := by
  refine (h.inv (P := Inv) ⟨?_, ?_⟩ fun h horderly hstep => h.step horderly hstep).noOrphans
  · intro p hp
    cases hp
  · intro i c hc
    rw [hcore] at hc
    cases hc

end

/-! ### More SYNs than the backlog holds -/

def serverId : SocketId := .pack ⟨1, Nat.succ_lt_succ (Nat.succ_pos _)⟩ 1

/-- A socket that is bound to port 80. -/
def bound : NetCore :=
  { NetCore.init with
    sockets := .set .new serverId.slot
      { Socket.fresh 1 .stream .tcp 7 with localAddr := ⟨.loopback, 80⟩, state := .bound } }

/-- The SYN of a peer. -/
def peerSyn (port : UInt16) : BacklogCall :=
  .syn (.new port 80 0 0 Tcp.syn 4096) ⟨.loopback, port⟩ ⟨.loopback, 80⟩

/-- Listening, then nine SYNs: the ninth connection is listed nowhere. -/
theorem flood_orphans : ¬ NoOrphans (final Backlogs.step ⟨bound, [], []⟩
    (.listen serverId :: (List.range 9).map fun n => peerSyn (.ofNat (1000 + n)))) := by
  unfold NoOrphans
  decide +kernel

/-- One connection is made and accepted. -/
theorem noOrphans_accepted : NoOrphans (final Backlogs.step (final Backlogs.step
    (final Backlogs.step ⟨bound, [], []⟩ [.listen serverId]) [peerSyn 1000])
    [.accept serverId]) := by
  refine @noOrphans_of_orderly bound ?_ _
    (.tail_final (.tail_final (.tail_final .refl ?_ ?_) ?_ ?_) ?_ ?_) <;> decide +kernel

end Backlogs

end Fabric
