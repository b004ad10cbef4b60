/-
What a failed send leaves behind.

Most errors are found before anything is changed, and then the router answers every
later operation as if the call had not been made (`SameBus.outputs_eq`).  Two errors
come after the sequence number has been recorded: an arena that was never initialised,
and a full inbox, when the payload has reached the arena as well.  The number is used
up then, and the sender goes on with the next one.
-/
import FabricOS.BusDelivery

open Machine

namespace Fabric.BusRouter

open SequenceTracker

variable {c : Crypto} {r r' : BusRouter}

/-! ### Routers that answer alike -/

/-- Equal up to the audit log, the clock and the statistics. -/
structure SameBus (r r' : BusRouter) : Prop where
  inboxes : r'.inboxes = r.inboxes
  sequences : r'.sequences = r.sequences
  arena : r'.arena = r.arena
  monitors : r'.monitors = r.monitors

lemma sameBus_reject (c : Crypto) (r : BusRouter) (header : MessageHeader)
    (action : AuditAction) : SameBus r (r.reject c header action) := ⟨rfl, rfl, rfl, rfl⟩

lemma SameBus.send (h : SameBus r r') (header : MessageHeader) (payload : Option (List UInt8))
    (nonce : UInt32) :
    Agree SameBus (r.send c header payload nonce) (r'.send c header payload nonce) := by
  obtain ⟨hinboxes, hsequences, harena, hmonitors⟩ := h
  have hroute : r'.checkRoute header payload = r.checkRoute header payload := by
    unfold checkRoute
    rw [hinboxes]
  unfold BusRouter.send
  rw [hroute]
  cases r.checkRoute header payload with
  | error e => exact ⟨⟨hinboxes, hsequences, harena, hmonitors⟩, rfl⟩
  | ok data =>
    simp only [hsequences, harena, hinboxes]
    rcases hcheck : r.sequences.check header.sender header.sequence with
      ⟨sequences, checked⟩ | _ | _
    · cases checked with
      | error e => exact ⟨⟨rfl, rfl, rfl, hmonitors⟩, rfl⟩
      | ok u =>
        cases stow r.arena data with
        | none => exact ⟨⟨rfl, rfl, rfl, hmonitors⟩, rfl⟩
        | some stowed =>
          obtain ⟨arena, slice⟩ := stowed
          cases r.inboxes.lookup header.receiver with
          | none => trivial
          | some inbox =>
            simp only
            cases inbox.push ⟨header, sign c header data, slice⟩ with
            | mk inbox ok =>
              cases ok with
              | false => exact ⟨⟨rfl, rfl, rfl, hmonitors⟩, rfl⟩
              | true =>
                refine ⟨⟨rfl, rfl, rfl, ?_⟩, rfl⟩
                simp [delivered, record, hmonitors]
    · trivial
    · exact absurd hcheck (check_ne_diverge _ _ _)

lemma SameBus.step (h : SameBus r r') (op : Op) : Agree SameBus (step c r op) (step c r' op) := by
  have hsend := fun header payload nonce => h.send (c := c) header payload nonce
  obtain ⟨hinboxes, hsequences, harena, hmonitors⟩ := h
  cases op with
  | send header payload nonce =>
    exact (hsend header payload nonce).rename Answer.sent
  | register pid =>
    simp only [BusRouter.step, registerProcess, hinboxes]
    split_ifs <;> exact ⟨⟨by simp [hinboxes], hsequences, harena, hmonitors⟩, rfl⟩
  | unregister pid =>
    simp only [BusRouter.step, unregisterProcess, hinboxes, hsequences]
    split <;> exact ⟨⟨by simp [hinboxes], by simp [hsequences], harena, hmonitors⟩, rfl⟩
  | receive pid =>
    simp only [BusRouter.step, receive, hinboxes]
    split <;> exact ⟨⟨by simp [hinboxes], hsequences, harena, hmonitors⟩, rfl⟩
  | registerMonitor filter =>
    simp only [BusRouter.step, BusRouter.registerMonitor, hmonitors]
    split <;> exact ⟨⟨hinboxes, hsequences, harena, by simp [hmonitors]⟩, rfl⟩
  | unregisterMonitor tapId =>
    simp only [BusRouter.step, BusRouter.unregisterMonitor, hmonitors]
    split <;> exact ⟨⟨hinboxes, hsequences, harena, by simp [hmonitors]⟩, rfl⟩
  | monitorDrain tapId =>
    simp only [BusRouter.step, BusRouter.monitorDrain, hmonitors]
    exact ⟨⟨hinboxes, hsequences, harena, rfl⟩, rfl⟩
  | tick => exact ⟨⟨hinboxes, hsequences, harena, hmonitors⟩, rfl⟩

lemma SameBus.outputs_eq (h : SameBus r r') (ops : List Op) :
    outputs (BusRouter.step c) r ops = outputs (BusRouter.step c) r' ops :=
  (run_eq_of_sim (fun op hsame => hsame.step op) ops h).outputs_eq

/-! ### Sending once more -/

variable {payloadLen : UInt32} {payload : Option (List UInt8)}

lemma stow_eq_none {data : Option (List UInt8)} {a : PayloadArena}
    (hpayload : checkPayload payloadLen payload = .ok data) (h : stow a data = none) :
    a.buffer = none := by
  cases data with
  | none => exact absurd h (by simp [stow])
  | some bytes =>
    unfold checkPayload at hpayload
    cases payload with
    | none =>
      simp only at hpayload
      split at hpayload <;> simp at hpayload
    | some given =>
      simp only at hpayload
      split_ifs at hpayload with hempty hlen hlong
      · simp at hpayload
      simp only [Except.ok.injEq, Option.some.injEq] at hpayload
      subst hpayload
      have hne : given ≠ [] := by
        rintro rfl
        exact hempty ⟨UInt32.toNat_inj.mp hlen, rfl⟩
      cases hbuf : a.buffer with
      | none => rfl
      | some buf => simp [stow, PayloadArena.allocate, hne, hlong, hbuf] at h

lemma stow_again {data : Option (List UInt8)} {a a' : PayloadArena} {slice : Option ArenaSlice}
    (hpayload : checkPayload payloadLen payload = .ok data) (h : stow a data = some (a', slice)) :
    stow a' data ≠ none := by
  intro hnone
  have hbuf := stow_eq_none hpayload hnone
  obtain ⟨rfl, -, -⟩ | ⟨bytes, region, rfl, -, halloc⟩ := stow_cases h
  · simp [stow] at hnone
  · -- after a copy the buffer is there
    obtain ⟨-, -, -, -, buf, -, hbuf'⟩ := PayloadArena.allocate_spec halloc
    simp [hbuf'] at hbuf

lemma checkPayload_error {e : BusError} (h : checkPayload payloadLen payload = .error e) :
    e = .payloadLengthMismatch ∨ e = .payloadTooLarge := by
  unfold checkPayload at h
  split at h <;> split_ifs at h <;> simp_all

lemma checkRoute_error {header : MessageHeader} {e : BusError}
    (h : r.checkRoute header payload = .error e) : e ≠ .arenaFull ∧ e ≠ .receiverQueueFull := by
  unfold checkRoute at h
  split_ifs at h
  case neg => rcases checkPayload_error h with rfl | rfl <;> simp
  all_goals
    obtain rfl := Except.error.inj h
    simp

section

variable {t : SequenceTracker} {sender : ProcessId} {n : UInt64}
  (hlast : t.lastSeen.lookup sender = some n) (hlt : n.toNat + 1 < 2 ^ 64)

include hlast hlt

lemma nextExpected_of_last : t.nextExpected sender = .ok (n + 1) := by
  simp only [nextExpected, hlast]
  exact if_pos hlt

lemma check_next : t.check sender (n + 1) = .ok (t.record sender (n + 1), .ok ()) := by
  simp [check, nextExpected_of_last hlast hlt]

lemma check_replay : t.check sender n = .ok (t, .error .replay) := by
  have hne : n ≠ n + 1 := by simp
  simp [check, nextExpected_of_last hlast hlt, hlast, hne]

end

lemma retry_after_receive {header : MessageHeader} {payload data : Option (List UInt8)}
    {arena : PayloadArena} {slice : Option ArenaSlice} {inbox : InboxQueue}
    (hroute : r.checkRoute header payload = .ok data)
    (hstow : stow r.arena data = some (arena, slice))
    (hinbox : r.inboxes.lookup header.receiver = some inbox)
    (hfull : ¬ inbox.len < queueCapacity)
    (hinboxes : r'.inboxes = r.inboxes) (harena : r'.arena = arena)
    (hlast : r'.sequences.lastSeen.lookup header.sender = some header.sequence)
    (hlt : header.sequence.toNat + 1 < 2 ^ 64) (nonce : UInt32) :
    (∃ r2, (r'.receive header.receiver).1.send c header payload nonce =
      .ok (r2, .error .sequenceReplay)) ∧
    ∃ r2, (r'.receive header.receiver).1.send c
      { header with sequence := header.sequence + 1 } payload nonce = .ok (r2, .ok ()) := by
  obtain ⟨-, hmem, -, hpayload⟩ := checkRoute_ok hroute
  have hreceive : (r'.receive header.receiver).1 =
      { r' with inboxes := r.inboxes.insert header.receiver inbox.pop.1 } := by
    simp [receive, hinboxes, hinbox]
  rw [hreceive]
  set r1 : BusRouter := { r' with inboxes := r.inboxes.insert header.receiver inbox.pop.1 }
  have hsame : ∀ k, k ∈ r1.inboxes ↔ k ∈ r.inboxes := by
    intro k
    rw [Finmap.mem_insert]
    exact or_iff_right_of_imp fun heq => heq ▸ hmem
  have hroute1 : ∀ n, r1.checkRoute { header with sequence := n } payload = .ok data := by
    intro n
    rw [← hroute]
    simp only [checkRoute, hsame]
  have hlast1 : r1.sequences.lastSeen.lookup header.sender = some header.sequence := hlast
  -- both sends return, so it is enough to rule out their other exits
  have hleft : r1.NumbersLeft header.sender := by
    intro n hn
    rw [hlast1, Option.some.injEq] at hn
    exact hn ▸ hlt
  constructor
  · obtain ⟨r2, res, hsend⟩ := send_returns (c := c) hleft payload nonce
    have hcheck := check_replay hlast1 hlt
    cases send_cases hsend <;> simp_all [SequenceError.toBusError]
  · obtain ⟨r2, res, hsend⟩ := @send_returns
      { header with sequence := header.sequence + 1 } c r1 hleft payload nonce
    have hcheck := check_next hlast1 hlt
    have hstow1 : stow r1.arena data ≠ none := harena ▸ stow_again hpayload hstow
    have hinbox1 : r1.inboxes.lookup header.receiver = some inbox.pop.1 := Finmap.lookup_insert _
    have hroom : inbox.pop.1.len < queueCapacity := by
      have hcap : 0 < queueCapacity := by decide
      have hpop := inbox.len_pop (Nat.lt_of_lt_of_le hcap (Nat.not_lt.mp hfull))
      have hle := inbox.len_le
      omega
    cases send_cases hsend <;> simp_all

/-! ### Every error exit -/

/-- **What a failed send changes.**  Except for an arena without buffer and a full
inbox, nothing but the audit log and the count of rejections, so that every later
operation is answered as before.  These two have used up the sequence number, and the
full inbox also the arena space: when the receiver has taken a message, the same message
is a replay, and it is accepted with the next number. -/
theorem failed_send_changes {header : MessageHeader} {payload : Option (List UInt8)}
    {nonce : UInt32} {e : BusError} (h : r.send c header payload nonce = .ok (r', .error e)) :
    (e ≠ .arenaFull → e ≠ .receiverQueueFull →
      (∃ action, r' = r.reject c header action) ∧
      ∀ ops, outputs (step c) r' ops = outputs (step c) r ops) ∧
    (e = .arenaFull → r.arena.buffer = none ∧
      r' = { r with sequences := r.sequences.record header.sender header.sequence }.reject c header
        .messageRejected) ∧
    (e = .receiverQueueFull → ∃ data arena slice,
      r.checkRoute header payload = .ok data ∧ stow r.arena data = some (arena, slice) ∧
      r' = { r with
          sequences := r.sequences.record header.sender header.sequence
          arena }.reject c header .queueFull ∧
      (header.sequence.toNat + 1 < 2 ^ 64 →
        (∃ r₂, (r'.receive header.receiver).1.send c header payload nonce =
          .ok (r₂, .error .sequenceReplay)) ∧
        ∃ r₂, (r'.receive header.receiver).1.send c
          { header with sequence := header.sequence + 1 } payload nonce = .ok (r₂, .ok ()))) := by
  cases send_cases h with
  | refused hroute =>
    have hkinds := checkRoute_error hroute
    exact ⟨fun _ _ => ⟨⟨_, rfl⟩, fun ops => ((sameBus_reject c r header _).outputs_eq ops).symm⟩,
      fun he => absurd he hkinds.1, fun he => absurd he hkinds.2⟩
  | outOfSequence hroute hcheck =>
    refine ⟨fun _ _ => ⟨⟨_, rfl⟩, fun ops => ((sameBus_reject c r header _).outputs_eq ops).symm⟩,
      ?_, ?_⟩ <;> rename_i e <;> cases e <;> simp [SequenceError.toBusError]
  | arenaFull hroute hcheck hstow =>
    refine ⟨fun he => absurd rfl he, fun _ => ⟨?_, ?_⟩, fun he => absurd he (by simp)⟩
    · exact stow_eq_none (checkRoute_ok hroute).2.2.2 hstow
    · rw [(check_ok hcheck).1]
  | queueFull hroute hcheck hstow hinbox hfull =>
    refine ⟨fun _ he => absurd rfl he, fun he => absurd he (by simp), fun _ =>
      ⟨_, _, _, hroute, hstow, by rw [(check_ok hcheck).1], fun hlt => ?_⟩⟩
    refine retry_after_receive hroute hstow hinbox hfull ?_ ?_ ?_ hlt nonce
    · rfl
    · rfl
    · simp [(check_ok hcheck).1, SequenceTracker.record]

def floodOps : List Op :=
  .register 1 :: .register 2 ::
    (List.range queueCapacity).map fun i => .send (plainHeader 1 2 (UInt64.ofNat (i + 1))) none 0

def flooded : BusRouter := final (step Crypto.zero) new.init floodOps

/-- Message 33 finds the inbox full; its number is recorded all the same, and after the
receiver has made room the message is taken for a replay. -/
theorem queue_full_consumes_number :
    Machine.Reachable (step Crypto.zero) new.init flooded ∧ flooded.lastNumber 1 = 32 ∧
    ∃ r', flooded.send Crypto.zero (plainHeader 1 2 33) none 0 =
        .ok (r', .error .receiverQueueFull) ∧ r'.lastNumber 1 = 33 ∧
      ∃ r₂, (r'.receive 2).1.send Crypto.zero (plainHeader 1 2 33) none 0 =
        .ok (r₂, .error .sequenceReplay) :=
  ⟨Machine.Reachable.of_returns rfl, rfl, _, rfl, rfl, _, rfl⟩

theorem flooded_failed_send_changes :
    ∃ r', flooded.send Crypto.zero (plainHeader 1 2 33) none 0 =
        .ok (r', .error .receiverQueueFull) ∧
      ∃ r₂, (r'.receive 2).1.send Crypto.zero (plainHeader 1 2 34) none 0 = .ok (r₂, .ok ()) := by
  have hsend : ∃ r', flooded.send Crypto.zero (plainHeader 1 2 33) none 0 =
      .ok (r', .error .receiverQueueFull) := ⟨_, rfl⟩
  obtain ⟨r', hsend⟩ := hsend
  obtain ⟨_, _, _, _, _, _, hretry⟩ := (failed_send_changes hsend).2.2 rfl
  exact ⟨r', hsend, (hretry (by decide)).2⟩

end Fabric.BusRouter
