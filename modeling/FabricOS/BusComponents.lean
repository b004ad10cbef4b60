/-
The parts of the message bus (`bus/arena.rs`, `queue.rs`, `sequence.rs`,
`monitor.rs`, `audit.rs`).

Conventions.  Ticks, statistics, positions and tap ids are natural numbers.  The
arena's bytes are a function of the address; slices of it are checked against the
capacity as the source's slicing is.  Sequence numbers keep their `u64` width, and
computing the successor of the last one aborts.  `BTreeMap`s are finite maps.
-/
import FabricOS.Exec
import FabricOS.RingBuffer
import FabricOS.WireTypes
import Mathlib.Data.Finmap

namespace Fabric

/-! ### Payload arena -/

def arenaCapacity : ℕ := 256 * 1024

def maxPayloadSize : ℕ := 4096

structure ArenaSlice where
  offset : ℕ
  len : ℕ
  deriving DecidableEq

structure PayloadArena where
  buffer : Option (ℕ → UInt8)
  writeCursor : ℕ

namespace PayloadArena

def new : PayloadArena := ⟨none, 0⟩

def init (_ : PayloadArena) : PayloadArena := ⟨some fun _ => 0, 0⟩

/-- `buf[offset..offset + data.len()].copy_from_slice(data)`. -/
def copyIn (buf : ℕ → UInt8) (offset : ℕ) (data : List UInt8) : ℕ → UInt8 := fun i =>
  if offset ≤ i ∧ i < offset + data.length then data.getD (i - offset) 0 else buf i

/-- Where the next payload of length `len` goes: at the cursor, or at the beginning
if it does not fit any more. -/
def place (a : PayloadArena) (len : ℕ) : ℕ :=
  if a.writeCursor + len > arenaCapacity then 0 else a.writeCursor

/-- Copy a payload in; `none` leaves the arena as it is. -/
def allocate (a : PayloadArena) (data : List UInt8) : Option (PayloadArena × ArenaSlice) :=
  if data = [] then none
  else if data.length > maxPayloadSize then none
  else
    match a.buffer with
    | none => none
    | some buf =>
      let offset := a.place data.length
      some (⟨some (copyIn buf offset data), offset + data.length⟩, ⟨offset, data.length⟩)

lemma allocate_spec {a a' : PayloadArena} {data : List UInt8} {slice : ArenaSlice}
    (h : a.allocate data = some (a', slice)) :
    0 < data.length ∧ data.length ≤ maxPayloadSize ∧
      slice = ⟨a.place data.length, data.length⟩ ∧
      a'.writeCursor = a.place data.length + data.length ∧
      ∃ buf, a.buffer = some buf ∧ a'.buffer = some (copyIn buf (a.place data.length) data) := by
  unfold allocate at h
  split_ifs at h with hempty hlong
  cases hbuf : a.buffer with
  | none => simp [hbuf] at h
  | some buf =>
    simp only [hbuf] at h
    cases h
    exact ⟨List.length_pos_iff.mpr hempty, Nat.le_of_not_lt hlong, rfl, rfl, buf, rfl, rfl⟩

def get (a : PayloadArena) (slice : ArenaSlice) : Exec (List UInt8) :=
  match a.buffer with
  | none => .panic
  | some buf =>
    if slice.offset + slice.len ≤ arenaCapacity then
      .ok ((List.range slice.len).map fun i => buf (slice.offset + i))
    else .panic

end PayloadArena

/-! ### Inboxes -/

def queueCapacity : ℕ := 32

structure Envelope where
  header : MessageHeader
  hmac : Digest
  payload : Option ArenaSlice
  deriving DecidableEq

/-- The bounded circular buffer of one process. -/
abbrev InboxQueue := RingQueue Envelope queueCapacity

def InboxQueue.new : InboxQueue := RingQueue.new (by decide)

/-! ### Sequence numbers -/

inductive SequenceError where
  | replay
  | gap (expected got : UInt64)
  deriving DecidableEq

/-- The last accepted sequence number per sender. -/
structure SequenceTracker where
  lastSeen : Finmap fun _ : ProcessId => UInt64

namespace SequenceTracker

def new : SequenceTracker := ⟨∅⟩

def nextExpected (t : SequenceTracker) (sender : ProcessId) : Exec UInt64 :=
  match t.lastSeen.lookup sender with
  | none => .ok 1
  | some n => if n.toNat + 1 < 2 ^ 64 then .ok (n + 1) else .panic

def record (t : SequenceTracker) (sender : ProcessId) (sequence : UInt64) : SequenceTracker :=
  ⟨t.lastSeen.insert sender sequence⟩

/-- Check a sequence number, and record it if it is the expected one. -/
def check (t : SequenceTracker) (sender : ProcessId) (sequence : UInt64) :
    Exec (SequenceTracker × Except SequenceError Unit) := do
  let expected ← t.nextExpected sender
  if sequence = expected then .ok (t.record sender sequence, .ok ())
  else if sequence ≤ (t.lastSeen.lookup sender).getD 0 then .ok (t, .error .replay)
  else .ok (t, .error (.gap expected sequence))

end SequenceTracker

/-! ### Monitors -/

def maxMonitors : ℕ := 4

def monitorBufferSize : ℕ := 64

/-- Filter criteria of a monitor tap; `none` matches all. -/
structure MonitorFilter where
  sender : Option ProcessId
  receiver : Option ProcessId
  msgType : Option TypeId

def MonitorFilter.matchesEnvelope (f : MonitorFilter) (env : Envelope) : Bool :=
  f.sender.all (· == env.header.sender) && f.receiver.all (· == env.header.receiver) &&
    f.msgType.all (· == env.header.msgType)

structure MonitorTap where
  id : ℕ
  filter : MonitorFilter
  buffer : RingQueue Envelope monitorBufferSize

def MonitorTap.new (id : ℕ) (filter : MonitorFilter) : MonitorTap :=
  ⟨id, filter, RingQueue.new (by decide)⟩

/-- Buffer an envelope, over the oldest one if need be. -/
def MonitorTap.push (tap : MonitorTap) (env : Envelope) : MonitorTap :=
  { tap with buffer := tap.buffer.pushOver (by decide) env }

structure MonitorRegistry where
  taps : Vector (Option MonitorTap) maxMonitors
  nextId : ℕ

namespace MonitorRegistry

def new : MonitorRegistry := ⟨Vector.replicate maxMonitors none, 1⟩

def register (r : MonitorRegistry) (filter : MonitorFilter) : MonitorRegistry × Option ℕ :=
  match r.taps.findFinIdx? (·.isNone) with
  | none => (r, none)
  | some i => (⟨r.taps.set i (some (.new r.nextId filter)), r.nextId + 1⟩, some r.nextId)

def findTap (r : MonitorRegistry) (tapId : ℕ) : Option (Fin maxMonitors) :=
  r.taps.findFinIdx? fun slot => slot.any (·.id == tapId)

def unregister (r : MonitorRegistry) (tapId : ℕ) : MonitorRegistry × Bool :=
  match r.findTap tapId with
  | none => (r, false)
  | some i => ({ r with taps := r.taps.set i none }, true)

def notify (r : MonitorRegistry) (env : Envelope) : MonitorRegistry :=
  { r with taps := r.taps.map fun slot => slot.map fun tap =>
      if tap.filter.matchesEnvelope env then tap.push env else tap }

def drain (r : MonitorRegistry) (tapId : ℕ) : MonitorRegistry × Option Envelope :=
  match r.findTap tapId with
  | none => (r, none)
  | some i =>
    match r.taps[i] with
    | none => (r, none)
    | some tap =>
      ({ r with taps := r.taps.set i (some { tap with buffer := tap.buffer.pop.1 }) },
        tap.buffer.pop.2)

end MonitorRegistry

/-! ### Audit log -/

inductive AuditAction where
  | messageSent
  | messageDelivered
  | messageRejected
  | capValidated
  | capDenied
  | sequenceViolation
  | hmacFailure
  | queueFull
  | monitorNotify
  | policyViolation
  deriving DecidableEq

def AuditAction.code : AuditAction → UInt8
  | .messageSent => 1
  | .messageDelivered => 2
  | .messageRejected => 3
  | .capValidated => 4
  | .capDenied => 5
  | .sequenceViolation => 6
  | .hmacFailure => 7
  | .queueFull => 8
  | .monitorNotify => 9
  | .policyViolation => 10

structure AuditEntry where
  sequence : UInt64
  timestamp : UInt64
  actor : ProcessId
  action : AuditAction
  target : ProcessId
  msgType : TypeId
  capabilityId : UInt64
  msgSequence : UInt64
  prevHash : Digest
  hash : Digest
  deriving DecidableEq

/-- The fields that are hashed first, with the link to the previous entry. -/
def AuditEntry.hashableBytes (e : AuditEntry) : List UInt8 :=
  toLeBytes 8 e.sequence.toNat ++ toLeBytes 8 e.timestamp.toNat ++ toLeBytes 4 e.actor.toNat ++
    [e.action.code, 0, 0, 0] ++ toLeBytes 4 e.target.toNat ++ toLeBytes 2 e.msgType.toNat ++
    [0, 0] ++ e.prevHash.toList

def auditCapacity : ℕ := 512

structure AuditLog where
  entries : ℕ → Option AuditEntry
  writePos : ℕ
  totalCount : ℕ
  prevHash : Digest

namespace AuditLog

def new : AuditLog := ⟨fun _ => none, 0, 0, Vector.replicate 32 0⟩

/-- Append an entry, chained to the previous one by its hash. -/
def append (c : Crypto) (log : AuditLog) (actor : ProcessId) (action : AuditAction)
    (target : ProcessId) (msgType : TypeId) (capabilityId msgSequence : UInt64) (timestamp : ℕ) :
    AuditLog :=
  let entry : AuditEntry :=
    { sequence := UInt64.ofNat log.totalCount, timestamp := UInt64.ofNat timestamp, actor, action
      target, msgType, capabilityId, msgSequence, prevHash := log.prevHash
      hash := Vector.replicate 32 0 }
  let hash := c.sha3 (entry.hashableBytes ++ toLeBytes 8 capabilityId.toNat ++
    toLeBytes 8 msgSequence.toNat)
  { entries := Function.update log.entries log.writePos (some { entry with hash })
    writePos := (log.writePos + 1) % auditCapacity
    totalCount := log.totalCount + 1
    prevHash := hash }

end AuditLog

end Fabric
