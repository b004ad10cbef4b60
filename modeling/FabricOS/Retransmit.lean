/-
The retransmit queue of a TCP socket (`network/tcp_timer.rs`).

The queue holds packets that have not been acknowledged, with the tick at which each was last
sent, and the estimator of the round-trip time from which the timeout is computed.  The
estimator works in `u32` arithmetic, which wraps around in the release build.
-/
import Mathlib.Algebra.Group.Nat.Defs
import Mathlib.Tactic.Common

namespace Fabric

def rtoMinMs : UInt32 := 200
def rtoMaxMs : UInt32 := 60000

def maxRetries : UInt8 := 5

/-- `a < b` in the space of sequence numbers, which wraps around. -/
def wrappingLt (a b : UInt32) : Bool :=
  let diff := b - a
  decide (diff > 0) && decide (diff < 0x80000000)

/-- `u64::saturating_sub`. -/
def saturatingSub (a b : UInt64) : UInt64 := if b ≤ a then a - b else 0

/-- A packet that awaits its acknowledgement. -/
structure RetransmitEntry where
  seq : UInt32
  /-- The whole IP packet. -/
  data : List UInt8
  timestamp : UInt64
  retries : UInt8
  deriving DecidableEq

structure RetransmitQueue where
  entries : List RetransmitEntry
  /-- Smoothed round-trip time, times 8. -/
  srttX8 : UInt32
  /-- Its variance, times 4. -/
  rttvarX4 : UInt32
  rto : UInt32
  deriving DecidableEq

namespace RetransmitQueue

def new : RetransmitQueue where
  entries := []
  srttX8 := 1000 * 8
  rttvarX4 := 500 * 4
  rto := 1000

def enqueue (q : RetransmitQueue) (seq : UInt32) (packet : List UInt8) (now : UInt64) :
    RetransmitQueue :=
  { q with entries := q.entries ++ [⟨seq, packet, now, 0⟩] }

def updateRto (q : RetransmitQueue) (rttMs : UInt32) : RetransmitQueue :=
  let rX8 := rttMs * 8
  let srtt := q.srttX8 / 8
  let diff := if srtt > rttMs then srtt - rttMs else rttMs - srtt
  let rttvarX4 := (q.rttvarX4 * 3 + diff * 4) / 4
  let srttX8 := (q.srttX8 * 7 + rX8) / 8
  let newRto := srttX8 / 8 + rttvarX4
  { q with srttX8, rttvarX4, rto := max rtoMinMs (min newRto rtoMaxMs) }

/-- Process an acknowledgement: remove the entries that start before it.  The last of them
that was sent only once gives a measurement. -/
def ackReceived (q : RetransmitQueue) (ackNum : UInt32) (now : UInt64) : RetransmitQueue :=
  let acked := q.entries.filter fun e => wrappingLt e.seq ackNum
  let kept := q.entries.filter fun e => !wrappingLt e.seq ackNum
  let rttSample := (acked.filter (·.retries == 0)).getLast?.map fun e =>
    (saturatingSub now e.timestamp).toUInt32
  let q := { q with entries := kept }
  match rttSample with
  | some rtt => q.updateRto rtt
  | none => q

/-- The timeout of an entry, which doubles with each retry. -/
def effectiveRto (q : RetransmitQueue) (e : RetransmitEntry) : UInt32 :=
  -- `saturating_mul`
  let scaled : UInt32 := .ofNat (min (q.rto.toNat * 2 ^ (min e.retries.toNat 5)) (2 ^ 32 - 1))
  min scaled rtoMaxMs

/-- The entry is due at tick `now`. -/
def timedOut (q : RetransmitQueue) (now : UInt64) (e : RetransmitEntry) : Bool :=
  decide ((saturatingSub now e.timestamp).toUInt32 ≥ q.effectiveRto e) &&
    decide (e.retries < maxRetries)

/-- Restart the entries that are due; the result is their packets. -/
def checkTimeouts (q : RetransmitQueue) (now : UInt64) : RetransmitQueue × List (List UInt8) :=
  ({ q with entries := q.entries.map fun e =>
      if q.timedOut now e then { e with retries := e.retries + 1, timestamp := now } else e },
    (q.entries.filter (q.timedOut now)).map (·.data))

def hasMaxRetries (q : RetransmitQueue) : Bool := q.entries.any (·.retries ≥ maxRetries)

def clear (q : RetransmitQueue) : RetransmitQueue := { q with entries := [] }

end RetransmitQueue

end Fabric
