/-
TLS sessions of several processes (`tls_send`, `tls_recv` and `tls_close` of `network/tls.rs`,
and the system calls of `x86/syscall.rs`).

The eight slots of the session table are shared by all processes, and a call names a slot by
its number alone: nobody asks to whom the session in it was returned.

The system (`TlsSystem`) remembers to whom each session was returned.  Whether a process hears
of another one's calls is a property of two runs, one of which leaves out the calls of `q` on
indices that were never returned to it (`stepWithout`).
-/
import FabricOS.FileSystems
import FabricOS.Machine
import FabricOS.TlsConnect

open Function Machine List Option Bool Exec

namespace Fabric

namespace Tls

variable {σ : Type}

/-! ### Records of a session -/

def slotOf (idx : UInt64) : Option (Fin maxTlsSessions) :=
  if h : idx.toNat < maxTlsSessions then some ⟨idx.toNat, h⟩ else none

def session (idx : Fin maxTlsSessions) : TlsRoutine σ TlsConnection := fun w =>
  match w.sessions idx with
  | some s => .ok (.ok s, w)
  | none => .ok (.error .invalidSession, w)

def tlsSend (c : TlsSuite) (t : Transport σ) (idx : Fin maxTlsSessions) (data : List UInt8) :
    TlsRoutine σ ℕ := do
  let s ← session idx
  if s.state ≠ .applicationData then Routine.fail .notReady
  else do
    let record := buildEncryptedRecord c s.clientAppKey s.clientAppIv s.clientSeq 23 data
    updateSession idx fun s => { s with clientSeq := s.clientSeq + 1 }
    tcpSendRaw t s.socketId record
    pure data.length

def tlsRecv (c : TlsSuite) (t : Transport σ) (idx : Fin maxTlsSessions) (bufLen : ℕ) :
    TlsRoutine σ (List UInt8) := do
  let s ← session idx
  if s.state ≠ .applicationData then Routine.fail .notReady
  else do
    let (ct, payload) ← readTlsRecord t s.socketId
    if ct ≠ 23 then Routine.fail (if ct = 21 then .alertReceived else .unexpectedMessage)
    else do
      let s ← session idx
      let decrypted ← Routine.lift (decryptRecord c s.serverAppKey s.serverAppIv s.serverSeq
        (recordHeader payload.length) payload)
      match decrypted with
      | none => Routine.fail .decryptError
      | some (innerType, inner) => do
        updateSession idx fun s => { s with serverSeq := s.serverSeq + 1 }
        if innerType = 23 then pure (inner.take bufLen)
        else Routine.fail (if innerType = 21 then .alertReceived else .unexpectedMessage)

def tlsClose (c : TlsSuite) (t : Transport σ) (idx : Fin maxTlsSessions) : TlsRoutine σ Unit := do
  let s ← session idx
  if s.state = .closed then pure ()
  else do
    let record := buildEncryptedRecord c s.clientAppKey s.clientAppIv s.clientSeq 21 [1, 0]
    updateSession idx fun s => { s with clientSeq := s.clientSeq + 1, state := .closed }
    Routine.ignore (tcpSendRaw t s.socketId record)
    freeSession idx

end Tls

/-! ### System calls -/

/-- A call, with the registers, the memory of the caller and what the tick counter reads. -/
inductive TlsCall where
  | connect (fd namePtr nameLen : UInt64) (memory : UInt64 → UInt8) (tick₁ tick₂ : UInt64)
  | send (sessionIdx bufPtr len : UInt64) (memory : UInt64 → UInt8)
  | recv (sessionIdx bufPtr len : UInt64)
  | close (sessionIdx : UInt64)

/-- What is left in `rax`, and the bytes written to the caller's buffer. -/
structure TlsReply where
  rax : UInt64
  data : List UInt8
  deriving DecidableEq

namespace TlsReply

def failed : TlsReply := ⟨0xFFFFFFFFFFFFFFFF, []⟩

/-- The reply to a call that ends in `r`. -/
def ofResult {α : Type} (f : α → TlsReply) : Except TlsError α → TlsReply
  | .ok a => f a
  | .error _ => failed

end TlsReply

namespace Tls

variable {σ : Type}

def userEnd : UInt64 := 0x0000800000000000

def userBytes (memory : UInt64 → UInt8) (ptr : UInt64) (len : ℕ) : List UInt8 :=
  (List.range len).map fun i => memory (ptr + .ofNat i)

def onSlot {α : Type} (sessionIdx : UInt64) (m : Fin maxTlsSessions → TlsRoutine σ α)
    (f : α → TlsReply) (w : TlsWorld σ) : Exec (TlsWorld σ × TlsReply) :=
  match slotOf sessionIdx with
  | none => .ok (w, .failed)
  | some idx => do
    let (r, w) ← m idx w
    .ok (w, .ofResult f r)

def resolveFd (fds : List (UInt64 × SocketId)) (fd : UInt64) : Option SocketId :=
  (fds.find? (·.1 == fd)).map (·.2)

/-- `SYS_TLS_CONNECT`, `SYS_TLS_SEND`, `SYS_TLS_RECV` and `SYS_TLS_CLOSE`, with the socket
descriptors of the caller. -/
def syscall (c : TlsSuite) (t : Transport σ) (fds : List (UInt64 × SocketId)) (w : TlsWorld σ) :
    TlsCall → Exec (TlsWorld σ × TlsReply)
  | .connect fd namePtr nameLen memory tick₁ tick₂ =>
    if namePtr ≥ userEnd ∨ nameLen > 256 then .ok (w, .failed)
    else
      let hostname := userBytes memory namePtr nameLen.toNat
      if isUtf8 hostname then
        match resolveFd fds fd with
        | none => .ok (w, .failed)
        | some sockId => do
          let (r, w) ← tlsConnect c t sockId hostname tick₁ tick₂ w
          .ok (w, .ofResult (fun idx : Fin maxTlsSessions => ⟨.ofNat idx.val, []⟩) r)
      else .ok (w, .failed)
  | .send sessionIdx bufPtr len memory =>
    if bufPtr ≥ userEnd ∨ len > 65536 then .ok (w, .failed)
    else onSlot sessionIdx (tlsSend c t · (userBytes memory bufPtr len.toNat))
      (fun n => ⟨.ofNat n, []⟩) w
  | .recv sessionIdx bufPtr len =>
    if bufPtr ≥ userEnd ∨ len > 65536 then .ok (w, .failed)
    else onSlot sessionIdx (tlsRecv c t · len.toNat) (fun data => ⟨.ofNat data.length, data⟩) w
  | .close sessionIdx => onSlot sessionIdx (tlsClose c t) (fun _ => ⟨0, []⟩) w

end Tls

/-! ### The system -/

/-- The session table and the connections, with to whom each session was returned. -/
structure TlsSystem (σ : Type) where
  world : TlsWorld σ
  /-- The process to which the session in a slot was returned. -/
  owner : Fin maxTlsSessions → Option ProcessId
  /-- The indices that were ever returned to a process. -/
  returned : ProcessId → Fin maxTlsSessions → Bool

/-- What a process learns in a step: the reply, if the call was its own, and the records that
are sent on its sockets. -/
structure TlsView where
  reply : Option TlsReply
  records : List (SocketId × List UInt8)
  deriving DecidableEq

namespace TlsCall

def slot? : TlsCall → Option (Fin maxTlsSessions)
  | .connect .. => none
  | .send sessionIdx .. => Tls.slotOf sessionIdx
  | .recv sessionIdx .. => Tls.slotOf sessionIdx
  | .close sessionIdx => Tls.slotOf sessionIdx

def isConnect : TlsCall → Bool
  | .connect .. => true
  | _ => false

def isClose : TlsCall → Bool
  | .close _ => true
  | _ => false

/-- The index that the call returned, if it opened a session. -/
def opened (call : TlsCall) (reply : TlsReply) : Option (Fin maxTlsSessions) :=
  if call.isConnect then Tls.slotOf reply.rax else none

end TlsCall

namespace TlsSystem

variable {σ : Type}

def boot (conns : SocketId → σ) : TlsSystem σ where
  world := ⟨fun _ => none, conns, []⟩
  owner _ := none
  returned _ _ := false

section Steps

variable (c : TlsSuite) (t : Transport σ) (fds : ProcessId → List (UInt64 × SocketId))

def sockets (p : ProcessId) : List SocketId := (fds p).map (·.2)

def call (s : TlsSystem σ) (pid : ProcessId) (cmd : TlsCall) : Exec (TlsSystem σ × TlsReply) := do
  let (w, reply) ← Tls.syscall c t (fds pid) s.world cmd
  .ok ({ world := w
         owner := fun i => (w.sessions i).bind fun _ =>
           if cmd.opened reply = some i then some pid else s.owner i
         returned := fun pid' i =>
           s.returned pid' i || (pid' == pid && cmd.opened reply == some i) }, reply)

/-- The records on the sockets of `p`, oldest first. -/
def recordsOf (p : ProcessId) (s : TlsSystem σ) : List (SocketId × List UInt8) :=
  s.world.sent.filter (·.1 ∈ sockets fds p)

/-- A call, as `p` sees it. -/
def step (p : ProcessId) (s : TlsSystem σ) (e : ProcessId × TlsCall) :
    Exec (TlsSystem σ × TlsView) := do
  let (s', reply) ← s.call c t fds e.1 e.2
  .ok (s', { reply := if e.1 = p then some reply else none
             records := (s'.recordsOf fds p).drop (s.recordsOf fds p).length })

/-- The call names an index that was never returned to `q`. -/
def foreign (q : ProcessId) (s : TlsSystem σ) (cmd : TlsCall) : Bool :=
  !cmd.isConnect &&
    match cmd.slot? with
    | none => true
    | some i => !s.returned q i

/-- The same, but the calls of `q` on indices never returned to it do not take place. -/
def stepWithout (p q : ProcessId) (s : TlsSystem σ) (e : ProcessId × TlsCall) :
    Exec (TlsSystem σ × TlsView) :=
  if e.1 = q ∧ s.foreign q e.2 then .ok (s, ⟨none, []⟩) else s.step c t fds p e

/-- What a call leaves alone of the sessions and the sockets of `p`. -/
structure Untouched (p : ProcessId) (s s' : TlsSystem σ) : Prop where
  sessions : ∀ i, s.owner i = some p → s'.world.sessions i = s.world.sessions i
  conns : ∀ sock ∈ sockets fds p, s'.world.conns sock = s.world.conns sock
  records : s'.recordsOf fds p = s.recordsOf fds p

/-- The sessions of `p` are private from `q`: `p` sees the same whether or not `q` makes calls
on indices not returned to it, and no call of `q` reads from, sends on or closes a session of
`p`. -/
structure Private (p q : ProcessId) (s₀ : TlsSystem σ) (calls : List (ProcessId × TlsCall)) :
    Prop where
  unobserved : ∀ pre, pre <+: calls →
    outputs (step c t fds p) s₀ pre = outputs (stepWithout c t fds p q) s₀ pre
  untouched : ∀ pre cmd, pre ++ [(q, cmd)] <+: calls → ∀ s views,
    Machine.run (step c t fds p) s₀ pre = .ok (s, views) →
    ∀ s' reply, s.call c t fds q cmd = .ok (s', reply) → Untouched fds p s s' ∧
      ∀ i, cmd.slot? = some i → s.owner i = some p → reply = .failed

end Steps

/-- The call fails without an effect: it names no session, or one that is not set up. -/
def unanswered (w : TlsWorld σ) (cmd : TlsCall) : Bool :=
  !cmd.isConnect &&
    match cmd.slot? with
    | none => true
    | some i =>
      match w.sessions i with
      | none => true
      | some conn => !cmd.isClose && conn.state ≠ .applicationData

/-- The session that the call names was returned to `q`, and not closed since. -/
def names (q : ProcessId) (s : TlsSystem σ) (cmd : TlsCall) : Bool :=
  match cmd.slot? with
  | none => false
  | some i => s.owner i == some q

/-- If `q` makes a call on a session, then on one of its own. -/
def keepsToOwn (q : ProcessId) (s : TlsSystem σ) (e : ProcessId × TlsCall) : Bool :=
  e.1 != q || e.2.isConnect || unanswered s.world e.2 || s.names q e.2

end TlsSystem

/-! ### What one call can change -/

namespace Tls

open Routine

section Frames

variable {c : TlsSuite} {t : Transport σ} {idx : Fin maxTlsSessions} {sock : SocketId}
  {w w' : TlsWorld σ}

lemma session_bind_frame {α : Type} {body : TlsConnection → TlsRoutine σ α}
    (hbody : ∀ s, Keeps (Frame idx s.socketId) (body s))
    {r : Except TlsError α} (h : (session idx >>= body) w = .ok (r, w')) :
    w' = w ∨ ∃ conn, w.sessions idx = some conn ∧ Frame idx conn.socketId w w' := by
  cases hsession : w.sessions idx with
  | none =>
    have hfail : session idx w = .ok (.error .invalidSession, w) := by rw [session, hsession]
    rw [bind_of_error hfail] at h
    cases h
    exact .inl rfl
  | some conn =>
    have hread : session idx w = .ok (.ok conn, w) := by rw [session, hsession]
    rw [bind_of_ok hread] at h
    exact .inr ⟨conn, rfl, hbody conn h⟩

lemma keeps_session : Keeps (Frame idx sock) (session idx : TlsRoutine σ TlsConnection) := by
  intro w w' r h
  unfold session at h
  split at h <;>
  · cases h
    exact refl w

lemma tlsSend_frame {data : List UInt8} {r : Except TlsError ℕ}
    (h : tlsSend c t idx data w = .ok (r, w')) :
    w' = w ∨ ∃ conn, w.sessions idx = some conn ∧ Frame idx conn.socketId w w' := by
  refine session_bind_frame (fun s => ?_) h
  split_ifs
  · exact Keeps.fail _
  · refine Keeps.bind (keeps_updateSession ?_) fun _ => (keeps_tcpSendRaw _).bind fun _ =>
      Keeps.pure _
    exact fun _ => rfl

lemma tlsRecv_frame {bufLen : ℕ} {r : Except TlsError (List UInt8)}
    (h : tlsRecv c t idx bufLen w = .ok (r, w')) :
    w' = w ∨ ∃ conn, w.sessions idx = some conn ∧ Frame idx conn.socketId w w' := by
  refine session_bind_frame (fun s => ?_) h
  split_ifs
  · exact Keeps.fail _
  refine keeps_readTlsRecord.bind fun record => ?_
  dsimp only
  split_ifs
  · exact Keeps.fail _
  · exact Keeps.fail _
  refine keeps_session.bind fun s' => (Keeps.lift _).bind fun decrypted => ?_
  cases decrypted with
  | none => exact Keeps.fail _
  | some r =>
    refine Keeps.bind (keeps_updateSession ?_) fun _ => ?_
    · exact fun _ => rfl
    split_ifs
    · exact Keeps.pure _
    · exact Keeps.fail _
    · exact Keeps.fail _

lemma tlsClose_frame {r : Except TlsError Unit} (h : tlsClose c t idx w = .ok (r, w')) :
    w' = w ∨ ∃ conn, w.sessions idx = some conn ∧ Frame idx conn.socketId w w' := by
  refine session_bind_frame (fun s => ?_) h
  split_ifs
  · exact Keeps.pure _
  · refine Keeps.bind (keeps_updateSession ?_) fun _ => ?_
    · exact fun _ => rfl
    · exact (keeps_tcpSendRaw _).ignore.bind fun _ => keeps_freeSession

end Frames

/-- What a call does: nothing; or it changes a free slot and a socket of the caller; or the slot
that it names and the socket of the session in it. -/
inductive Effect (fds : List (UInt64 × SocketId)) (cmd : TlsCall) (reply : TlsReply)
    (w w' : TlsWorld σ) : Prop
  | nothing (hw : w' = w) (hopened : cmd.opened reply = none)
  | connects {idx : Fin maxTlsSessions} {sock : SocketId} (hfree : w.sessions idx = none)
      (hsock : sock ∈ fds.map (·.2)) (hframe : Frame idx sock w w')
      (hopened : ∀ i, cmd.opened reply = some i → i = idx) (hslot : cmd.slot? = none)
  | uses {idx : Fin maxTlsSessions} {conn : TlsConnection} (hconn : w.sessions idx = some conn)
      (hframe : Frame idx conn.socketId w w') (hopened : cmd.opened reply = none)
      (hslot : cmd.slot? = some idx)

lemma slotOf_ofNat (idx : Fin maxTlsSessions) : slotOf (.ofNat idx.val) = some idx := by
  have hmax : maxTlsSessions = 8 := rfl
  have hval : (UInt64.ofNat idx.val).toNat = idx :=
    UInt64.toNat_ofNat_of_lt' (show idx.val < 2 ^ 64 by omega)
  simp [slotOf, hval]

variable {fds : List (UInt64 × SocketId)} {cmd : TlsCall}

lemma onSlot_effect {α : Type} {m : Fin maxTlsSessions → TlsRoutine σ α} {f : α → TlsReply}
    {reply : TlsReply} {w w' : TlsWorld σ}
    {sessionIdx : UInt64}
    (hm : ∀ {idx r}, m idx w = .ok (r, w') →
      w' = w ∨ ∃ conn, w.sessions idx = some conn ∧ Frame idx conn.socketId w w')
    (hslot : cmd.slot? = slotOf sessionIdx) (hconnect : cmd.isConnect = false)
    (h : onSlot sessionIdx m f w = .ok (w', reply)) : Effect fds cmd reply w w' := by
  have hopened : cmd.opened reply = none := by simp [TlsCall.opened, hconnect]
  unfold onSlot at h
  cases hidx : slotOf sessionIdx with
  | none =>
    rw [hidx] at h
    cases h
    exact .nothing rfl hopened
  | some idx =>
    rw [hidx] at h
    obtain ⟨⟨r, w1⟩, hr, hend⟩ := bind_eq_ok.mp h
    cases hend
    obtain hw | ⟨conn, hconn, hframe⟩ := hm hr
    · exact .nothing hw hopened
    · exact .uses hconn hframe hopened (hslot.trans hidx)

lemma mem_of_resolveFd {fd : UInt64} {sock : SocketId}
    (h : resolveFd fds fd = some sock) : sock ∈ fds.map (·.2) := by
  obtain ⟨entry, hfind, rfl⟩ := map_eq_some_iff.mp h
  exact mem_map_of_mem (mem_of_find?_eq_some hfind)

lemma syscall_effect {c : TlsSuite} {t : Transport σ} {reply : TlsReply} {w w' : TlsWorld σ}
    (h : syscall c t fds w cmd = .ok (w', reply)) : Effect fds cmd reply w w' := by
  have hfailed : ∀ cmd : TlsCall, cmd.opened .failed = none := fun cmd => by
    cases cmd <;> rfl
  have hnothing : ok (w, TlsReply.failed) = .ok (w', reply) → Effect fds cmd reply w w' := by
    intro heq
    cases heq
    exact .nothing rfl (hfailed cmd)
  cases cmd with
  | connect fd namePtr nameLen memory tick₁ tick₂ =>
    unfold syscall at h
    dsimp only at h
    split_ifs at h
    · exact hnothing h
    · cases hfd : resolveFd fds fd with
      | none =>
        rw [hfd] at h
        exact hnothing h
      | some sock =>
        rw [hfd] at h
        obtain ⟨⟨r, w1⟩, hr, hend⟩ := bind_eq_ok.mp h
        cases hend
        obtain ⟨hw, rfl⟩ | ⟨idx, hfree, hframe, hidx, -⟩ := tlsConnect_cases hr
        · exact .nothing hw (hfailed _)
        refine .connects hfree (mem_of_resolveFd hfd) hframe (fun i hi => ?_) rfl
        cases r with
        | error e => exact absurd ((hfailed _).symm.trans hi) (by simp)
        | ok j =>
          have hj : slotOf (.ofNat j.val) = some i := hi
          rw [slotOf_ofNat] at hj
          rw [← some.inj hj]
          exact hidx j rfl
    · exact hnothing h
  | send sessionIdx bufPtr len memory =>
    unfold syscall at h
    dsimp only at h
    split_ifs at h
    · exact hnothing h
    · exact onSlot_effect tlsSend_frame rfl rfl h
  | recv sessionIdx bufPtr len =>
    unfold syscall at h
    dsimp only at h
    split_ifs at h
    · exact hnothing h
    · exact onSlot_effect tlsRecv_frame rfl rfl h
  | close sessionIdx => exact onSlot_effect tlsClose_frame rfl rfl h

variable {w : TlsWorld σ}

lemma onSlot_failed {α : Type} {m : Fin maxTlsSessions → TlsRoutine σ α} {f : α → TlsReply}
    {sessionIdx : UInt64}
    (hm : ∀ idx, slotOf sessionIdx = some idx → ∃ e, m idx w = .ok (.error e, w)) :
    onSlot sessionIdx m f w = .ok (w, .failed) := by
  unfold onSlot
  cases hidx : slotOf sessionIdx with
  | none => rfl
  | some idx =>
    obtain ⟨e, he⟩ := hm idx hidx
    dsimp only
    rw [he]
    rfl

lemma session_bind_failed {α : Type} {body : TlsConnection → TlsRoutine σ α}
    {idx : Fin maxTlsSessions}
    (h : ∀ conn, w.sessions idx = some conn → ∃ e, body conn w = .ok (.error e, w)) :
    ∃ e, (session idx >>= body) w = .ok (.error e, w) := by
  cases hsession : w.sessions idx with
  | none =>
    have hfail : session idx w = .ok (.error .invalidSession, w) := by rw [session, hsession]
    exact ⟨_, bind_of_error hfail⟩
  | some conn =>
    have hread : session idx w = .ok (.ok conn, w) := by rw [session, hsession]
    rw [bind_of_ok hread]
    exact h conn hsession

lemma syscall_of_unanswered {c : TlsSuite} {t : Transport σ}
    (h : TlsSystem.unanswered w cmd = true) : syscall c t fds w cmd = .ok (w, .failed) := by
  -- a session that is named is not set up, and the call does not close it
  have hnamed : ∀ {idx conn}, cmd.slot? = some idx → w.sessions idx = some conn →
      cmd.isClose = false ∧ conn.state ≠ .applicationData := by
    intro idx conn hidx hconn
    simp only [TlsSystem.unanswered, hidx, hconn, and_eq_true, not_eq_true',
      decide_eq_true_eq] at h
    exact h.2
  cases cmd with
  | connect => cases h
  | send sessionIdx bufPtr len memory | recv sessionIdx bufPtr len =>
    unfold syscall
    dsimp only
    split_ifs
    · rfl
    refine onSlot_failed fun idx hidx => session_bind_failed fun conn hconn => ?_
    exact ⟨_, by rw [if_pos (hnamed hidx hconn).2]; rfl⟩
  | close sessionIdx =>
    refine onSlot_failed fun idx hidx => session_bind_failed fun conn hconn => ?_
    exact absurd (hnamed hidx hconn).1 (by simp [TlsCall.isClose])

end Tls

/-! ### Privacy -/

namespace TlsSystem

open Tls

variable {c : TlsSuite} {t : Transport σ} {fds : ProcessId → List (UInt64 × SocketId)}
  {p q pid : ProcessId} {s s' : TlsSystem σ} {cmd : TlsCall} {reply : TlsReply}

def Inv (fds : ProcessId → List (UInt64 × SocketId)) (s : TlsSystem σ) : Prop :=
  ∀ ⦃i pid⦄, s.owner i = some pid → s.returned pid i = true ∧
    ∃ conn, s.world.sessions i = some conn ∧ conn.socketId ∈ sockets fds pid

lemma inv_boot (conns : SocketId → σ) : Inv fds (boot conns) := fun _ _ h => nomatch h

lemma call_effect (h : s.call c t fds pid cmd = .ok (s', reply)) :
    Effect (fds pid) cmd reply s.world s'.world ∧
      (∀ i, s'.owner i = (s'.world.sessions i).bind fun _ =>
        if cmd.opened reply = some i then some pid else s.owner i) ∧
      ∀ pid' i, s'.returned pid' i =
        (s.returned pid' i || (pid' == pid && cmd.opened reply == some i)) := by
  obtain ⟨⟨w, reply'⟩, hw, hend⟩ := bind_eq_ok.mp h
  cases hend
  exact ⟨syscall_effect hw, fun _ => rfl, fun _ _ => rfl⟩

lemma Inv.call (hinv : Inv fds s) (h : s.call c t fds pid cmd = .ok (s', reply)) : Inv fds s' := by
  obtain ⟨heffect, howner, hreturned⟩ := call_effect h
  intro i pid' hi
  rw [howner i, bind_eq_some_iff] at hi
  obtain ⟨conn', hconn', hi⟩ := hi
  rw [hreturned]
  -- an index that is returned stays returned
  have hkept : s.owner i = some pid' → (s.returned pid' i ||
      (pid' == pid && cmd.opened reply == some i)) = true := fun ho => by
    rw [(hinv ho).1, Bool.true_or]
  cases heffect with
  | nothing hw hopened =>
    have ho : s.owner i = some pid' := by simpa [hopened] using hi
    obtain ⟨-, conn, hconn, hsock⟩ := hinv ho
    exact ⟨hkept ho, conn, by rw [hw, hconn], hsock⟩
  | @connects idx sock hfree hsock hframe hopened hslot =>
    by_cases ho : cmd.opened reply = some i
    · rw [if_pos ho] at hi
      cases hi
      obtain rfl := hopened i ho
      have hconn : conn'.socketId = sock :=
        hframe.socket (fun conn hc => by rw [hfree] at hc; cases hc) conn' hconn'
      exact ⟨by simp [ho], conn', hconn', hconn ▸ hsock⟩
    · rw [if_neg ho] at hi
      obtain ⟨-, conn, hconn, hsock'⟩ := hinv hi
      have hne : i ≠ idx := by
        rintro rfl
        rw [hfree] at hconn
        cases hconn
      exact ⟨hkept hi, conn, by rw [hframe.sessions i hne, hconn], hsock'⟩
  | @uses idx conn hconn hframe hopened hslot =>
    have ho : s.owner i = some pid' := by simpa [hopened] using hi
    obtain ⟨-, conn0, hconn0, hsock⟩ := hinv ho
    by_cases hne : i = idx
    · subst hne
      cases hconn.symm.trans hconn0
      have hsame : conn'.socketId = conn.socketId :=
        hframe.socket (fun conn1 hc => by rw [some.inj (hc.symm.trans hconn)]) conn' hconn'
      exact ⟨hkept ho, conn', hconn', hsame ▸ hsock⟩
    · exact ⟨hkept ho, conn0, by rw [hframe.sessions i hne, hconn0], hsock⟩

lemma untouched_of_frame {idx : Fin maxTlsSessions} {sock : SocketId}
    (hframe : Frame idx sock s.world s'.world) (hidx : s.owner idx ≠ some p)
    (hsock : sock ∉ sockets fds p) : Untouched fds p s s' := by
  refine ⟨fun i hi => hframe.sessions i ?_, fun sock' hsock' => hframe.conns sock' ?_, ?_⟩
  · rintro rfl
    exact hidx hi
  · rintro rfl
    exact hsock hsock'
  obtain ⟨records, hsent⟩ := hframe.sent
  have hnone : (records.map (sock, ·)).filter (·.1 ∈ sockets fds p) = [] := by
    rw [filter_eq_nil_iff]
    intro r hr
    obtain ⟨record, -, rfl⟩ := mem_map.mp hr
    simpa using hsock
  rw [recordsOf, recordsOf, hsent, filter_append, hnone, append_nil]

lemma untouched_of_world (hw : s'.world = s.world) : Untouched fds p s s' :=
  ⟨fun i _ => by rw [hw], fun _ _ => by rw [hw], by rw [recordsOf, recordsOf, hw]⟩

lemma call_of_unanswered (hinv : Inv fds s) (h : unanswered s.world cmd = true) :
    s.call c t fds pid cmd = .ok (s, .failed) := by
  have hconnect : cmd.isConnect = false := by
    unfold unanswered at h
    rw [Bool.and_eq_true, Bool.not_eq_true'] at h
    exact h.1
  have hopened : cmd.opened .failed = none := by simp [TlsCall.opened, hconnect]
  have howner : (fun i => (s.world.sessions i).bind fun _ => s.owner i) = s.owner := by
    funext i
    cases ho : s.owner i with
    | none => cases s.world.sessions i <;> rfl
    | some pid' =>
      obtain ⟨-, conn, hconn, -⟩ := hinv ho
      rw [hconn, bind_some]
  simp only [call, syscall_of_unanswered h, ok_bind, hopened, reduceCtorEq, if_false, howner,
    none_beq_some, Bool.and_false, Bool.or_false]

lemma untouched_of_keepsToOwn (hpq : p ≠ q)
    (hshare : ∀ sock ∈ sockets fds p, sock ∉ sockets fds q) (hinv : Inv fds s)
    (hown : keepsToOwn q s (q, cmd) = true) (h : s.call c t fds q cmd = .ok (s', reply)) :
    Untouched fds p s s' ∧ ∀ i, cmd.slot? = some i → s.owner i = some p → reply = .failed := by
  by_cases hun : unanswered s.world cmd = true
  · rw [call_of_unanswered hinv hun] at h
    cases h
    exact ⟨untouched_of_world rfl, fun _ _ _ => rfl⟩
  have hnames : cmd.isConnect = true ∨ s.names q cmd = true := by
    simpa [keepsToOwn, hun] using hown
  obtain ⟨heffect, -, -⟩ := call_effect h
  -- the slot that the call names is not one of `p`
  have hslot : ∀ i, cmd.slot? = some i → s.owner i = some q := by
    intro i hi
    rcases hnames with hconnect | hnames
    · cases cmd <;> simp_all [TlsCall.isConnect, TlsCall.slot?]
    · simpa [names, hi] using hnames
  refine ⟨?_, fun i hi hp => absurd (some.inj (hp.symm.trans (hslot i hi))) hpq⟩
  cases heffect with
  | nothing hw _ => exact untouched_of_world hw
  | @connects idx sock hfree hsock hframe _ _ =>
    refine untouched_of_frame hframe (fun ho => ?_) fun hmem => hshare _ hmem hsock
    obtain ⟨-, conn, hconn, -⟩ := hinv ho
    rw [hfree] at hconn
    cases hconn
  | @uses idx conn hconn hframe _ hnamed =>
    have hq := hslot idx hnamed
    obtain ⟨-, conn0, hconn0, hsock⟩ := hinv hq
    cases hconn.symm.trans hconn0
    refine untouched_of_frame hframe (fun ho => ?_) fun hmem => hshare _ hmem hsock
    exact hpq (some.inj (ho.symm.trans hq))

lemma step_eq_stepWithout (hpq : p ≠ q) (hinv : Inv fds s) {e : ProcessId × TlsCall}
    (hown : keepsToOwn q s e = true) : step c t fds p s e = stepWithout c t fds p q s e := by
  obtain ⟨pid, cmd⟩ := e
  unfold stepWithout
  split_ifs with hleft
  · obtain ⟨rfl, hforeign⟩ := hleft
    have hun : unanswered s.world cmd = true := by
      unfold foreign at hforeign
      rw [and_eq_true, not_eq_true'] at hforeign
      obtain ⟨hconnect, hslot⟩ := hforeign
      obtain hun | hnames : unanswered s.world cmd = true ∨ s.names pid cmd = true := by
        simpa [keepsToOwn, hconnect] using hown
      · exact hun
      cases hcmd : cmd.slot? with
      | none => simp [names, hcmd] at hnames
      | some i =>
        have hreturned := (hinv (beq_iff_eq.mp (by simpa [names, hcmd] using hnames))).1
        simp [hcmd, hreturned] at hslot
    rw [step, call_of_unanswered hinv hun, ok_bind]
    simp [hpq.symm]
  · rfl

lemma step_inv {e : ProcessId × TlsCall} {view : TlsView} (hinv : Inv fds s)
    (h : step c t fds p s e = .ok (s', view)) : Inv fds s' := by
  obtain ⟨⟨s1, reply⟩, hcall, hend⟩ := bind_eq_ok.mp h
  cases hend
  exact hinv.call hcall

/-- **Sessions are private** from a process that makes no call on a session of another one, in
every run. -/
theorem sessions_private (hpq : p ≠ q) (hshare : ∀ sock ∈ sockets fds p, sock ∉ sockets fds q)
    (conns : SocketId → σ) (calls : List (ProcessId × TlsCall))
    (hown : guarded (keepsToOwn q) (step c t fds p) (boot conns) calls = true) :
    Private c t fds p q (boot conns) calls where
  unobserved pre hpre := by
    have hrun := run_eq_of_guarded (fun hinv hown => step_eq_stepWithout hpq hinv hown)
      step_inv pre (inv_boot conns) ( guarded_of_prefix hown hpre)
    unfold outputs
    rw [hrun]
  untouched pre cmd hpre s views hrun s' reply hcall := by
    obtain ⟨evs, hevs, -, -⟩ := Machine.Run.of_run hrun
    have hinv : Inv fds s := hevs.reachable.inv (inv_boot conns) step_inv
    exact untouched_of_keepsToOwn hpq hshare hinv (guard_of_guarded hown hpre hrun) hcall

/-- A server that completes the handshake and then sends `hi`. -/
def serverBytes : List UInt8 :=
  -- the ServerHello
  [22, 3, 3, 0, 84, 2, 0, 0, 80, 3, 3] ++ List.replicate 32 7 ++
    [0, 0x13, 0x03, 0, 0, 40, 0, 0x33, 0, 36, 0, 0x1D, 0, 32] ++ List.replicate 32 9 ++
  -- an encrypted record with a Finished
  [23, 3, 3, 0, 21, 20, 0, 0, 0, 22] ++ List.replicate 16 0 ++
  -- an encrypted record with data
  [23, 3, 3, 0, 19, 104, 105, 23] ++ List.replicate 16 0

def peers : TlsSystem (List UInt8) := boot fun _ => serverBytes

def descriptors (pid : ProcessId) : List (UInt64 × SocketId) :=
  if pid = 3 then [(0, ⟨1⟩)] else if pid = 5 then [(0, ⟨2⟩)] else []

def opening : TlsCall := .connect 0 0 0 (fun _ => 0) 1 2

/-- Process 5 opens, uses and closes a session of its own, and closes one that is not there. -/
theorem own_sessions_private :
    Private idle script descriptors 3 5 peers
      [(3, opening), (5, opening), (5, .send 1 0 2 fun _ => 0), (5, .close 1), (5, .close 4),
        (3, .send 0 0 2 fun _ => 0)] :=
  sessions_private (by decide) (by decide) _ _ (by decide +kernel)

/-- Process 5 closes the session of process 3, and then process 3 cannot send; or it reads from
this session, and gets what was sent to process 3. -/
theorem foreign_session_reached : (∀ sock ∈ sockets descriptors 3, sock ∉ sockets descriptors 5) ∧
      ¬ Private idle script descriptors 3 5 peers
        [(3, opening), (5, .close 0), (3, .send 0 0 2 fun _ => 0)] ∧
      (do let views ← outputs (step idle script descriptors 5) peers
            [(3, opening), (5, .recv 0 0 64)]
          .ok (views.map (·.reply)) : Exec (List (Option TlsReply))) =
        .ok [none, some ⟨2, [104, 105]⟩] := by
  refine ⟨by decide, fun h => ?_, by decide +kernel⟩
  exact absurd (h.unobserved _ (prefix_refl _)) (by decide +kernel)

end TlsSystem

end Fabric
