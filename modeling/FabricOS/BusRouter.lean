/-
The bus router (`bus/router.rs`): registration, the send pipeline, reception.

`send` is cut at the steps of the source: `checkRoute` is the checks 1–4, then come
the sequence check (7), the copy into the arena (8), the signature (9) and the push
into the receiver's inbox (10); capability checks (5–6) happen before the router is
entered.  Every exit appends one audit entry.  `Sent` lists the ways a call can
return, with everything it changes, and `send_cases` proves the list complete.
-/
import FabricOS.BusComponents
import FabricOS.CapabilityStore

namespace Fabric

open Exec SequenceTracker

def maxProcesses : ℕ := 64

inductive BusError where
  | senderNotRegistered
  | receiverNotRegistered
  | receiverQueueFull
  | selfSendDenied
  | capabilityInvalid (e : CapabilityError)
  | ownerMismatch
  | hmacVerificationFailed
  | sequenceReplay
  | sequenceGap (expected got : UInt64)
  | invalidVersion
  | invalidSender
  | payloadLengthMismatch
  | payloadTooLarge
  | arenaFull
  | monitorLimitReached
  | monitorNotFound
  | processAlreadyRegistered
  | processLimitReached
  | policyDenied
  | notInitialized
  deriving DecidableEq

def SequenceError.toBusError : SequenceError → BusError
  | .replay => .sequenceReplay
  | .gap expected got => .sequenceGap expected got

structure BusRouter where
  inboxes : Finmap fun _ : ProcessId => InboxQueue
  arena : PayloadArena
  sequences : SequenceTracker
  monitors : MonitorRegistry
  audit : AuditLog
  currentTick : ℕ
  totalSent : ℕ
  totalRejected : ℕ

namespace BusRouter

def new : BusRouter where
  inboxes := ∅
  arena := .new
  sequences := .new
  monitors := .new
  audit := .new
  currentTick := 0
  totalSent := 0
  totalRejected := 0

def init (r : BusRouter) : BusRouter := { r with arena := r.arena.init }

def tick (r : BusRouter) : BusRouter := { r with currentTick := r.currentTick + 1 }

def registerProcess (r : BusRouter) (pid : ProcessId) : BusRouter × Except BusError Unit :=
  if pid = 0 then (r, .error .invalidSender)
  else if pid ∈ r.inboxes then (r, .error .processAlreadyRegistered)
  else if r.inboxes.keys.card ≥ maxProcesses then (r, .error .processLimitReached)
  else ({ r with inboxes := r.inboxes.insert pid .new }, .ok ())

def unregisterProcess (r : BusRouter) (pid : ProcessId) : BusRouter × Except BusError Unit :=
  match r.inboxes.lookup pid with
  | none => (r, .error .receiverNotRegistered)
  | some _ =>
    ({ r with inboxes := r.inboxes.erase pid, sequences := ⟨r.sequences.lastSeen.erase pid⟩ },
      .ok ())

/-! ### The send pipeline -/

def record (c : Crypto) (r : BusRouter) (header : MessageHeader) (action : AuditAction) :
    BusRouter :=
  { r with
    audit := r.audit.append c header.sender action header.receiver header.msgType
      header.capabilityId header.sequence r.currentTick }

def reject (c : Crypto) (r : BusRouter) (header : MessageHeader) (action : AuditAction) :
    BusRouter :=
  { r.record c header action with totalRejected := r.totalRejected + 1 }

@[simp] lemma reject_inboxes (c : Crypto) (r : BusRouter) (header : MessageHeader)
    (action : AuditAction) : (r.reject c header action).inboxes = r.inboxes := rfl

@[simp] lemma reject_sequences (c : Crypto) (r : BusRouter) (header : MessageHeader)
    (action : AuditAction) : (r.reject c header action).sequences = r.sequences := rfl

/-- Step 4: the payload to be carried, if its length is as announced. -/
def checkPayload (payloadLen : UInt32) (payload : Option (List UInt8)) :
    Except BusError (Option (List UInt8)) :=
  match payload with
  | none => if payloadLen = 0 then .ok none else .error .payloadLengthMismatch
  | some data =>
    if payloadLen = 0 ∧ data = [] then .ok none
    else if payloadLen.toNat = data.length then
      if data.length > maxPayloadSize then .error .payloadTooLarge else .ok (some data)
    else .error .payloadLengthMismatch

def checkRoute (r : BusRouter) (header : MessageHeader) (payload : Option (List UInt8)) :
    Except BusError (Option (List UInt8)) :=
  if header.version ≠ MessageHeader.version1 then .error .invalidVersion
  else if header.sender = 0 then .error .invalidSender
  else if header.sender ∉ r.inboxes then .error .senderNotRegistered
  else if header.receiver ∉ r.inboxes then .error .receiverNotRegistered
  else if header.sender = header.receiver then .error .selfSendDenied
  else checkPayload header.payloadLen payload

/-- Step 8: copy the payload, if there is one, into the arena. -/
def stow (a : PayloadArena) : Option (List UInt8) → Option (PayloadArena × Option ArenaSlice)
  | none => some (a, none)
  | some data => (a.allocate data).map fun (a, slice) => (a, some slice)

def sign (c : Crypto) (header : MessageHeader) (data : Option (List UInt8)) : Digest :=
  c.hmac (header.activeBytes ++ data.getD [])

def delivered (c : Crypto) (r : BusRouter) (env : Envelope) (inbox : InboxQueue) : BusRouter :=
  let r := { r with
    inboxes := r.inboxes.insert env.header.receiver inbox
    monitors := r.monitors.notify env }
  { r.record c env.header .messageSent with totalSent := r.totalSent + 1 }

@[simp] lemma delivered_inboxes (c : Crypto) (r : BusRouter) (env : Envelope)
    (inbox : InboxQueue) : (r.delivered c env inbox).inboxes =
      r.inboxes.insert env.header.receiver inbox := rfl

@[simp] lemma delivered_arena (c : Crypto) (r : BusRouter) (env : Envelope)
    (inbox : InboxQueue) : (r.delivered c env inbox).arena = r.arena := rfl

/-- Send a message.  The nonce belongs to the capability checks before the router. -/
def send (c : Crypto) (r : BusRouter) (header : MessageHeader) (payload : Option (List UInt8))
    (_nonce : UInt32) : Exec (BusRouter × Except BusError Unit) :=
  match r.checkRoute header payload with
  | .error e => .ok (r.reject c header .messageRejected, .error e)
  | .ok data => do
      -- step 7: a number that passes is recorded at once
      let (sequences, checked) ← r.sequences.check header.sender header.sequence
      let r := { r with sequences }
      match checked with
      | .error e => .ok (r.reject c header .sequenceViolation, .error e.toBusError)
      | .ok () =>
        match stow r.arena data with
        | none => .ok (r.reject c header .messageRejected, .error .arenaFull)
        | some (arena, slice) =>
          let r := { r with arena }
          let env : Envelope := ⟨header, sign c header data, slice⟩
          -- step 10: step 2 has seen the inbox that is unwrapped here
          match r.inboxes.lookup header.receiver with
          | none => .panic
          | some inbox =>
            match inbox.push env with
            -- neither the number nor the arena space is given back
            | (_, false) => .ok (r.reject c header .queueFull, .error .receiverQueueFull)
            | (inbox, true) => .ok (r.delivered c env inbox, .ok ())

def receive (r : BusRouter) (pid : ProcessId) : BusRouter × Option Envelope :=
  match r.inboxes.lookup pid with
  | none => (r, none)
  | some inbox => ({ r with inboxes := r.inboxes.insert pid inbox.pop.1 }, inbox.pop.2)

def payload (r : BusRouter) (slice : ArenaSlice) : Exec (List UInt8) := r.arena.get slice

def registerMonitor (r : BusRouter) (filter : MonitorFilter) : BusRouter × Except BusError ℕ :=
  match r.monitors.register filter with
  | (_, none) => (r, .error .monitorLimitReached)
  | (monitors, some id) => ({ r with monitors }, .ok id)

def unregisterMonitor (r : BusRouter) (tapId : ℕ) : BusRouter × Except BusError Unit :=
  match r.monitors.unregister tapId with
  | (_, false) => (r, .error .monitorNotFound)
  | (monitors, true) => ({ r with monitors }, .ok ())

def monitorDrain (r : BusRouter) (tapId : ℕ) : BusRouter × Option Envelope :=
  ({ r with monitors := (r.monitors.drain tapId).1 }, (r.monitors.drain tapId).2)

/-! ### The router as a machine -/

inductive Op where
  | register (pid : ProcessId)
  | unregister (pid : ProcessId)
  | send (header : MessageHeader) (payload : Option (List UInt8)) (nonce : UInt32)
  | receive (pid : ProcessId)
  | registerMonitor (filter : MonitorFilter)
  | unregisterMonitor (tapId : ℕ)
  | monitorDrain (tapId : ℕ)
  | tick

inductive Answer where
  | done (r : Except BusError Unit)
  | sent (r : Except BusError Unit)
  | received (env : Option Envelope)
  | tap (r : Except BusError ℕ)
  | drained (env : Option Envelope)
  | ticked

def step (c : Crypto) (r : BusRouter) : Op → Exec (BusRouter × Answer)
  | .register pid => .ok ((r.registerProcess pid).1, .done (r.registerProcess pid).2)
  | .unregister pid => .ok ((r.unregisterProcess pid).1, .done (r.unregisterProcess pid).2)
  | .send header payload nonce => do
      let (r, res) ← r.send c header payload nonce
      .ok (r, .sent res)
  | .receive pid => .ok ((r.receive pid).1, .received (r.receive pid).2)
  | .registerMonitor filter => .ok ((r.registerMonitor filter).1, .tap (r.registerMonitor filter).2)
  | .unregisterMonitor tapId =>
      .ok ((r.unregisterMonitor tapId).1, .done (r.unregisterMonitor tapId).2)
  | .monitorDrain tapId => .ok ((r.monitorDrain tapId).1, .drained (r.monitorDrain tapId).2)
  | .tick => .ok (r.tick, .ticked)

/-! ### What `send` can do -/

/-- The ways a call of `send` returns: with which state and which result. -/
inductive Sent (c : Crypto) (r : BusRouter) (header : MessageHeader)
    (payload : Option (List UInt8)) : BusRouter → Except BusError Unit → Prop
  | refused {e : BusError} : r.checkRoute header payload = .error e →
      Sent c r header payload (r.reject c header .messageRejected) (.error e)
  | outOfSequence {data : Option (List UInt8)} {e : SequenceError} :
      r.checkRoute header payload = .ok data →
      r.sequences.check header.sender header.sequence = .ok (r.sequences, .error e) →
      Sent c r header payload (r.reject c header .sequenceViolation) (.error e.toBusError)
  | arenaFull {data : Option (List UInt8)} {sequences : SequenceTracker} :
      r.checkRoute header payload = .ok data →
      r.sequences.check header.sender header.sequence = .ok (sequences, .ok ()) →
      stow r.arena data = none →
      Sent c r header payload ({ r with sequences }.reject c header .messageRejected)
        (.error .arenaFull)
  | queueFull {data : Option (List UInt8)} {sequences : SequenceTracker} {arena : PayloadArena}
      {slice : Option ArenaSlice} {inbox : InboxQueue} :
      r.checkRoute header payload = .ok data →
      r.sequences.check header.sender header.sequence = .ok (sequences, .ok ()) →
      stow r.arena data = some (arena, slice) →
      r.inboxes.lookup header.receiver = some inbox → ¬ inbox.len < queueCapacity →
      Sent c r header payload ({ r with sequences, arena }.reject c header .queueFull)
        (.error .receiverQueueFull)
  | accepted {data : Option (List UInt8)} {sequences : SequenceTracker} {arena : PayloadArena}
      {slice : Option ArenaSlice} {inbox : InboxQueue} :
      r.checkRoute header payload = .ok data →
      r.sequences.check header.sender header.sequence = .ok (sequences, .ok ()) →
      stow r.arena data = some (arena, slice) →
      r.inboxes.lookup header.receiver = some inbox → inbox.len < queueCapacity →
      Sent c r header payload ({ r with sequences, arena }.delivered c
        ⟨header, sign c header data, slice⟩ (inbox.push ⟨header, sign c header data, slice⟩).1)
        (.ok ())

lemma stow_cases {a a' : PayloadArena} {data : Option (List UInt8)} {slice : Option ArenaSlice}
    (h : stow a data = some (a', slice)) :
    (data = none ∧ a' = a ∧ slice = none) ∨
      ∃ bytes region, data = some bytes ∧ slice = some region ∧
        a.allocate bytes = some (a', region) := by
  cases data with
  | none =>
    simp only [stow, Option.some.injEq, Prod.mk.injEq] at h
    exact Or.inl ⟨rfl, h.1.symm, h.2.symm⟩
  | some bytes =>
    simp only [stow, Option.map_eq_some_iff, Prod.mk.injEq, Prod.exists] at h
    obtain ⟨a1, region, halloc, rfl, rfl⟩ := h
    exact Or.inr ⟨bytes, region, rfl, rfl, halloc⟩

lemma check_error {t t' : SequenceTracker} {sender : ProcessId} {sequence : UInt64}
    {e : SequenceError} (h : t.check sender sequence = .ok (t', .error e)) : t' = t := by
  simp only [check, bind_eq_ok] at h
  obtain ⟨expected, -, h⟩ := h
  split_ifs at h <;> simp only [Exec.ok.injEq, Prod.mk.injEq, reduceCtorEq, and_false] at h
  · exact h.1.symm
  · exact h.1.symm

lemma check_ne_diverge (t : SequenceTracker) (sender : ProcessId) (sequence : UInt64) :
    t.check sender sequence ≠ .diverge := by
  unfold check nextExpected
  split
  · simp only [ok_bind]
    split_ifs <;> simp
  split
  · simp only [ok_bind]
    split_ifs <;> simp
  · simp

variable {header : MessageHeader}

variable {c : Crypto} {r : BusRouter}

lemma send_cases {r' : BusRouter} {payload : Option (List UInt8)} {nonce : UInt32}
    {res : Except BusError Unit} (h : r.send c header payload nonce = .ok (r', res)) :
    Sent c r header payload r' res := by
  unfold send at h
  cases hroute : r.checkRoute header payload with
  | error e =>
    simp only [hroute] at h
    cases h
    exact .refused hroute
  | ok data =>
    simp only [hroute, bind_eq_ok] at h
    obtain ⟨⟨sequences, checked⟩, hseq, h⟩ := h
    cases checked with
    | error e =>
      obtain rfl := check_error hseq
      cases h
      exact .outOfSequence hroute hseq
    | ok u =>
      cases hstow : stow r.arena data with
      | none =>
        simp only [hstow] at h
        cases h
        exact .arenaFull hroute hseq hstow
      | some stowed =>
        obtain ⟨arena, slice⟩ := stowed
        simp only [hstow] at h
        cases hinbox : r.inboxes.lookup header.receiver with
        | none => simp [hinbox] at h
        | some inbox =>
          simp only [hinbox] at h
          -- `push` returns true exactly when there is room
          by_cases hlt : inbox.len < queueCapacity
          · have hpush := inbox.push_of_lt ⟨header, sign c header data, slice⟩ hlt
            rw [← Prod.mk.eta (p := inbox.push _), hpush.1] at h
            cases h
            exact .accepted hroute hseq hstow hinbox hlt
          · rw [show inbox.push _ = (inbox, false) from dif_neg hlt] at h
            cases h
            exact .queueFull hroute hseq hstow hinbox hlt

lemma checkRoute_ok {payload data : Option (List UInt8)}
    (h : r.checkRoute header payload = .ok data) :
    header.sender ∈ r.inboxes ∧ header.receiver ∈ r.inboxes ∧ header.sender ≠ header.receiver ∧
      checkPayload header.payloadLen payload = .ok data := by
  unfold checkRoute at h
  split_ifs at h with h1 h2 h3 h4 h5
  exact ⟨h3, h4, h5, h⟩

def NumbersLeft (r : BusRouter) (sender : ProcessId) : Prop :=
  ∀ n, r.sequences.lastSeen.lookup sender = some n → n.toNat + 1 < 2 ^ 64

lemma send_returns (hleft : r.NumbersLeft header.sender) (payload : Option (List UInt8))
    (nonce : UInt32) : ∃ r' res, r.send c header payload nonce = .ok (r', res) := by
  -- the two places where `send` can stop: the next number and the inbox
  have hexpected : ∃ n, r.sequences.nextExpected header.sender = .ok n := by
    unfold nextExpected
    cases hlast : r.sequences.lastSeen.lookup header.sender with
    | none => exact ⟨1, rfl⟩
    | some n => exact ⟨n + 1, if_pos (hleft n hlast)⟩
  obtain ⟨n, hn⟩ := hexpected
  have hcheck : ∃ t, r.sequences.check header.sender header.sequence = .ok t := by
    simp only [check, hn, ok_bind]
    split_ifs <;> exact ⟨_, rfl⟩
  obtain ⟨⟨sequences, checked⟩, hcheck⟩ := hcheck
  unfold send
  cases hroute : r.checkRoute header payload with
  | error e => exact ⟨_, _, rfl⟩
  | ok data =>
    simp only [hcheck, ok_bind]
    cases checked with
    | error e => exact ⟨_, _, rfl⟩
    | ok u =>
      cases hstow : stow r.arena data with
      | none => exact ⟨_, _, rfl⟩
      | some stowed =>
        obtain ⟨-, hmem, -, -⟩ := checkRoute_ok hroute
        obtain ⟨inbox, hinbox⟩ := Option.isSome_iff_exists.mp (Finmap.lookup_isSome.mpr hmem)
        simp only [hinbox]
        cases inbox.push _ with
        | mk q ok => cases ok <;> exact ⟨_, _, rfl⟩

/-! ### What a step can do -/

/-- Messages, sequence numbers, payloads and accounts are as before. -/
structure Quiet (r r' : BusRouter) : Prop where
  inboxes : r'.inboxes = r.inboxes
  sequences : r'.sequences = r.sequences
  arena : r'.arena = r.arena
  audit : r'.audit = r.audit
  totalSent : r'.totalSent = r.totalSent
  totalRejected : r'.totalRejected = r.totalRejected

def Op.isQuiet : Op → Bool
  | .registerMonitor _ | .unregisterMonitor _ | .monitorDrain _ | .tick => true
  | _ => false

inductive Stepped (c : Crypto) (r : BusRouter) : Op → Answer → BusRouter → Prop
  | registered (pid : ProcessId) :
      Stepped c r (.register pid) (.done (r.registerProcess pid).2) (r.registerProcess pid).1
  | unregistered (pid : ProcessId) :
      Stepped c r (.unregister pid) (.done (r.unregisterProcess pid).2) (r.unregisterProcess pid).1
  | sent {header : MessageHeader} {payload : Option (List UInt8)} (nonce : UInt32)
      {r' : BusRouter} {res : Except BusError Unit} : Sent c r header payload r' res →
      Stepped c r (.send header payload nonce) (.sent res) r'
  | received (pid : ProcessId) :
      Stepped c r (.receive pid) (.received (r.receive pid).2) (r.receive pid).1
  | quiet {op : Op} {ans : Answer} {r' : BusRouter} : op.isQuiet = true → Quiet r r' →
      Stepped c r op ans r'

lemma step_cases {r' : BusRouter} {op : Op} {ans : Answer} (h : step c r op = .ok (r', ans)) :
    Stepped c r op ans r' := by
  cases op with
  | send header payload nonce =>
    obtain ⟨⟨r1, res⟩, hsend, hok⟩ := bind_eq_ok.mp h
    cases hok
    exact .sent nonce (send_cases hsend)
  | register pid =>
    cases h
    exact .registered pid
  | unregister pid =>
    cases h
    exact .unregistered pid
  | receive pid =>
    cases h
    exact .received pid
  | registerMonitor filter =>
    cases h
    refine .quiet rfl ?_
    unfold registerMonitor
    split <;> exact ⟨rfl, rfl, rfl, rfl, rfl, rfl⟩
  | unregisterMonitor tapId =>
    cases h
    refine .quiet rfl ?_
    unfold unregisterMonitor
    split <;> exact ⟨rfl, rfl, rfl, rfl, rfl, rfl⟩
  | monitorDrain tapId | tick =>
    cases h
    exact .quiet rfl ⟨rfl, rfl, rfl, rfl, rfl, rfl⟩

end BusRouter

end Fabric
