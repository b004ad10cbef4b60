/-
When a connection is given up (`check_all_retransmits` of `network/tcp_timer.rs`).

A pass of the timer counts a retransmission when it makes it, and looks at the counters right
after that.  So the fifth retransmission of a segment closes the connection in the same pass,
before the segment can be acknowledged.
-/
import FabricOS.SocketOps
import FabricOS.Stepwise

open Stepwise List UInt8

namespace Fabric

open RetransmitQueue

namespace GiveUp

inductive TimerCall
  | enqueue (seq : UInt32) (packet : List UInt8)
  | ack (ackNum : UInt32)
  | check

/-- A call at a tick. -/
def step (sock : Socket) : UInt64 × TimerCall → Socket
  | (now, .enqueue seq packet) =>
    { sock with retransmit := sock.retransmit.map (·.enqueue seq packet now) }
  | (now, .ack ackNum) =>
    { sock with retransmit := sock.retransmit.map (·.ackReceived ackNum now) }
  | (now, .check) => (sock.onTimer now).1

/-- With the resends of this pass some segment has been sent again five times, and since the
last time its timeout has passed. -/
def exhausted (q : RetransmitQueue) (now : UInt64) : Bool :=
  (q.checkTimeouts now).1.entries.any fun e => e.retries == maxRetries &&
    decide ((q.effectiveRto e).toNat ≤ now.toNat - e.timestamp.toNat)

/-- The connection is closed only if it is exhausted. -/
def RuleMet (sock : Socket) (call : UInt64 × TimerCall) : Prop :=
  sock.active = true → (step sock call).active = false →
    ∃ q, sock.retransmit = some q ∧ exhausted q call.1 = true

/-- This pass sends a segment again for the fifth time. -/
def fifth (q : RetransmitQueue) (now : UInt64) : Bool :=
  q.entries.any fun e => q.timedOut now e && e.retries + 1 == maxRetries

def ResendsFifth (sock : Socket) (call : UInt64 × TimerCall) : Prop :=
  sock.active = true ∧ call.2 = .check ∧ ∃ q, sock.retransmit = some q ∧ fifth q call.1 = true

structure Fresh (q : RetransmitQueue) : Prop where
  rto_pos : 0 < q.rto.toNat
  retries_lt : ∀ e ∈ q.entries, e.retries < maxRetries

variable {sock : Socket} {q : RetransmitQueue} {now : UInt64} {call : UInt64 × TimerCall}

lemma effectiveRto_pos (h : 0 < q.rto.toNat) (e : RetransmitEntry) :
    0 < (q.effectiveRto e).toNat := by
  have hpos : 0 < q.rto.toNat * 2 ^ min e.retries.toNat 5 := Nat.mul_pos h (Nat.two_pow_pos _)
  change 0 < (if UInt32.ofNat _ ≤ rtoMaxMs then _ else rtoMaxMs).toNat
  split_ifs
  · rw [UInt32.toNat_ofNat_of_lt' (by simp only [UInt32.size]; omega)]
    omega
  · decide

lemma updateRto_pos (q : RetransmitQueue) (rttMs : UInt32) : 0 < (q.updateRto rttMs).rto.toNat := by
  have hclamp : ∀ x : UInt32, 0 < (if rtoMinMs ≤ x then x else rtoMinMs).toNat := by
    intro x
    split_ifs with hle
    · exact Nat.lt_of_lt_of_le (by decide : 0 < rtoMinMs.toNat) hle
    · decide
  exact hclamp _

lemma hasMaxRetries_eq (h : Fresh q) : (q.checkTimeouts now).1.hasMaxRetries = fifth q now := by
  rw [Bool.eq_iff_iff, hasMaxRetries, fifth, checkTimeouts, any_map, any_eq_true, any_eq_true]
  refine exists_congr fun e => and_congr_right fun he => ?_
  have hlt := h.retries_lt e he
  simp only [maxRetries, lt_iff_toNat_lt, UInt8.reduceToNat] at hlt
  cases hdue : q.timedOut now e with
  | true => simp [hdue, maxRetries, le_iff_toNat_le, ← UInt8.toNat_inj]; omega
  | false => simp [hdue, maxRetries, le_iff_toNat_le]; omega

-- only this pass can have counted a fifth retransmission, and it was made just now
lemma not_exhausted (h : Fresh q) : exhausted q now = false := by
  rw [exhausted, checkTimeouts, any_map, any_eq_false]
  intro e he
  have hpos := effectiveRto_pos h.rto_pos
  cases hdue : q.timedOut now e with
  | true => simp [hdue, Nat.ne_of_gt (hpos _)]
  | false => simp [hdue, UInt8.ne_of_lt (h.retries_lt e he)]

lemma active_onTimer (h : Fresh q) (hq : sock.retransmit = some q)
    (hactive : sock.active = true) : (sock.onTimer now).1.active = !fifth q now := by
  rw [← hasMaxRetries_eq h]
  simp only [Socket.onTimer, hq, hactive, Bool.not_true, Bool.false_or]
  cases hempty : q.entries.isEmpty with
  | true => simp [isEmpty_iff.mp hempty, checkTimeouts, hasMaxRetries, hactive]
  | false =>
    cases hmax : (q.checkTimeouts now).1.hasMaxRetries with
    | true => simp [Socket.deactivate]
    | false => simp

def Inv (sock : Socket) : Prop := ∀ q, sock.retransmit = some q → Fresh q

lemma ruleMet_iff (hinv : Inv sock) : RuleMet sock call ↔ ¬ResendsFifth sock call := by
  obtain ⟨now, call⟩ := call
  constructor
  · rintro hrule ⟨hactive, hcheck, q, hq, hfifth⟩
    obtain rfl : call = .check := hcheck
    have hclosed : (sock.onTimer now).1.active = false := by
      rw [active_onTimer (hinv q hq) hq hactive, hfifth, Bool.not_true]
    obtain ⟨q', hq', hexhausted⟩ := hrule hactive hclosed
    exact Bool.false_ne_true ((not_exhausted (hinv q' hq')).symm.trans hexhausted)
  · intro hfifth hactive hclosed
    refine absurd hactive (Bool.eq_false_iff.mp ?_)
    cases call with
    | enqueue seq packet | ack ackNum => exact hclosed
    | check =>
      cases hq : sock.retransmit with
      | none => simpa [step, Socket.onTimer, hq] using hclosed
      | some q =>
        rw [step, active_onTimer (hinv q hq) hq hactive, Bool.not_eq_false'] at hclosed
        exact absurd ⟨hactive, rfl, q, hq, hclosed⟩ hfifth

lemma Inv.step (hinv : Inv sock) : Inv (GiveUp.step sock call) := by
  obtain ⟨now, call⟩ := call
  cases call with
  | enqueue seq packet =>
    intro q' hq'
    obtain ⟨q, hq, rfl⟩ := Option.map_eq_some_iff.mp hq'
    refine ⟨(hinv q hq).rto_pos, fun e he => ?_⟩
    obtain he | he := mem_append.mp he
    · exact (hinv q hq).retries_lt e he
    · obtain rfl := mem_singleton.mp he
      exact (by decide : (0 : UInt8) < maxRetries)
  | ack ackNum =>
    intro q' hq'
    obtain ⟨q, hq, rfl⟩ := Option.map_eq_some_iff.mp hq'
    have hkept : ∀ e ∈ q.entries.filter fun e => !wrappingLt e.seq ackNum,
        e.retries < maxRetries := fun e he => (hinv q hq).retries_lt e (mem_of_mem_filter he)
    simp only [ackReceived]
    generalize Option.map _ _ = sample
    cases sample with
    | none => exact ⟨(hinv q hq).rto_pos, hkept⟩
    | some rtt => exact ⟨updateRto_pos _ _, hkept⟩
  | check =>
    simp only [GiveUp.step, Socket.onTimer]
    cases hq : sock.retransmit with
    | none => exact hinv
    | some q =>
      have hpos := (hinv q hq).rto_pos
      simp only []
      split_ifs with hidle hmax
      · exact hinv
      · rintro _ ⟨⟩
        exact ⟨hpos, forall_mem_nil _⟩
      · rintro _ ⟨⟩
        refine ⟨hpos, fun e he => ?_⟩
        simpa using any_eq_false.mp (Bool.eq_false_of_not_eq_true hmax) e he

/-- **A connection is given up too early**: in the runs of a connection with a new queue the
rule, that it is closed only after the timeout of a fifth retransmission, is kept just as long
as no segment is sent again for the fifth time. -/
theorem rule_iff (sock : Socket) (h : sock.retransmit = some .new)
    (calls : List (UInt64 × TimerCall)) :
    Always step RuleMet sock calls ↔ Always step (fun s c => ¬ResendsFifth s c) sock calls := by
  have hnew : Inv sock := by
    intro q hq
    obtain rfl := Option.some.inj (h.symm.trans hq)
    exact ⟨by decide, forall_mem_nil _⟩
  refine always_iff fun before call _ hbefore => ruleMet_iff ?_
  exact hbefore.inv Inv hnew fun _ _ _ hinv _ => hinv.step

/-- One segment is sent at tick 0, and the timer runs at the given ticks. -/
def passes (ticks : List UInt64) : List (UInt64 × TimerCall) :=
  (0, .enqueue 1 [7]) :: ticks.map (·, .check)

def connection : Socket := { Socket.empty with active := true, retransmit := some .new }

theorem rule_kept_once : Always step RuleMet connection (passes [1000]) := by
  refine (rule_iff connection rfl ([] ++ [(0, .enqueue 1 [7])] ++ [(1000, .check)])).mpr ?_
  rw [always_concat, always_concat]
  refine ⟨⟨always_nil, fun h => nomatch h.2.1⟩, ?_⟩
  rintro ⟨-, -, q, hq, hfifth⟩
  cases hq
  exact absurd hfifth (by decide +kernel)

/-- The fifth retransmission, at tick 31000, closes the connection in the same pass; its timeout
would have ended at tick 63000. -/
theorem closed_at_fifth :
    ¬Always step RuleMet connection (passes [1000, 3000, 7000, 15000, 31000]) := by
  intro h
  obtain ⟨q, hq, hexhausted⟩ := h (passes [1000, 3000, 7000, 15000]) (31000, .check) ⟨[], rfl⟩
    (by decide +kernel) (by decide +kernel)
  cases hq
  exact absurd hexhausted (by decide +kernel)

end GiveUp

end Fabric
