/-
Delivery on the bus.

A run of the router is read through two projections of its events: the envelopes
accepted for a receiver (`accepted`) and those it was handed (`received`).  One step
moves at most one envelope from one end of an inbox to the other (`step_delivery`),
so over a run what was received and what is pending add up to what was accepted.
-/
import FabricOS.BusRouter

open List Finmap

namespace Fabric.BusRouter

variable {c : Crypto} {r r' r₀ : BusRouter} {p q : ProcessId}

def pending (r : BusRouter) (q : ProcessId) : List Envelope :=
  match r.inboxes.lookup q with
  | none => []
  | some inbox => inbox.toList

/-- The envelope that `send` builds in state `r`, if it gets that far. -/
def envelope (c : Crypto) (r : BusRouter) (header : MessageHeader)
    (payload : Option (List UInt8)) : Option Envelope :=
  match r.checkRoute header payload with
  | .error _ => none
  | .ok data => (stow r.arena data).map fun stowed => ⟨header, sign c header data, stowed.2⟩

/-! ### Events -/

abbrev BusEvent := Machine.Event BusRouter Op Answer

def accepted (c : Crypto) (ev : BusEvent) : Option Envelope :=
  match ev.input, ev.output with
  | .send header payload _, .sent (.ok ()) => ev.before.envelope c header payload
  | _, _ => none

/-- The envelope handed to process `q`. -/
def received (q : ProcessId) (ev : BusEvent) : Option Envelope :=
  match ev.input, ev.output with
  | .receive pid, .received env => if pid = q then env else none
  | _, _ => none

/-- The envelopes of the successful sends to `q`, in the order of acceptance. -/
def acceptedFor (c : Crypto) (q : ProcessId) (evs : List BusEvent) : List Envelope :=
  (evs.filterMap (accepted c)).filter (·.header.receiver = q)

def receivedBy (q : ProcessId) (evs : List BusEvent) : List Envelope :=
  evs.filterMap (received q)

/-- The sequence numbers of the accepted messages of `p`, in the order of acceptance. -/
def acceptedNumbers (c : Crypto) (p : ProcessId) (evs : List BusEvent) : List UInt64 :=
  ((evs.filterMap (accepted c)).filter (·.header.sender = p)).map (·.header.sequence)

/-! ### One step -/

variable {header : MessageHeader}

variable {payload : Option (List UInt8)} {op : Op}

lemma envelope_of_stow {data : Option (List UInt8)} {arena : PayloadArena}
    {slice : Option ArenaSlice} (hroute : r.checkRoute header payload = .ok data)
    (hstow : stow r.arena data = some (arena, slice)) :
    r.envelope c header payload = some ⟨header, sign c header data, slice⟩ := by
  simp [envelope, hroute, hstow]

lemma pending_insert {inbox : InboxQueue} (h : r'.inboxes = r.inboxes.insert p inbox) :
    r'.pending q = if q = p then inbox.toList else r.pending q := by
  by_cases hqp : q = p
  · subst hqp
    simp [pending, h]
  · simp [pending, h, lookup_insert_of_ne _ hqp, hqp]

lemma pending_of_lookup {inbox : InboxQueue} (h : r.inboxes.lookup q = some inbox) :
    r.pending q = inbox.toList := by
  simp [pending, h]

lemma register_pending (r : BusRouter) (pid q : ProcessId) :
    (r.registerProcess pid).1.pending q = r.pending q := by
  unfold registerProcess
  split_ifs with h1 h2 h3
  · rfl
  · rfl
  · rfl
  -- a new inbox is empty, as the process had none
  rw [pending_insert rfl]
  split_ifs with hq
  · subst hq
    simp [pending, lookup_eq_none.mpr h2, InboxQueue.new]
  · rfl

lemma unregister_pending (r : BusRouter) {pid : ProcessId} (hne : pid ≠ q) :
    (r.unregisterProcess pid).1.pending q = r.pending q := by
  unfold unregisterProcess
  split
  · rfl
  · simp [pending, lookup_erase_ne (Ne.symm hne)]

lemma receive_pending (r : BusRouter) (pid q : ProcessId) :
    (if pid = q then (r.receive pid).2 else none).toList ++ (r.receive pid).1.pending q =
      r.pending q := by
  unfold receive
  cases hinbox : r.inboxes.lookup pid with
  | none => simp
  | some inbox =>
    rw [pending_insert rfl]
    by_cases hq : pid = q
    · subst hq
      simp [pending_of_lookup hinbox, inbox.pop_toList]
    · simp [hq, Ne.symm hq]

lemma sent_pending {res : Except BusError Unit} (h : Sent c r header payload r' res) (q : ProcessId)
    (nonce : UInt32) : r'.pending q = r.pending q ++
      ((accepted c ⟨r, .send header payload nonce, .sent res⟩).toList.filter
        (·.header.receiver = q)) := by
  cases h with
  | refused _ | outOfSequence _ _ | arenaFull _ _ _ | queueFull _ _ _ _ _ =>
    simp [accepted, pending]
  | @accepted data _ _ slice inbox hroute _ hstow hinbox hlt =>
    have hpush := inbox.push_of_lt ⟨header, sign c header data, slice⟩ hlt
    rw [pending_insert (r := r) rfl]
    simp only [accepted, envelope_of_stow hroute hstow, Option.toList_some, hpush.2]
    by_cases hq : q = header.receiver
    · subst hq
      simp [pending_of_lookup hinbox]
    · simp [hq, Ne.symm hq]

lemma quiet_event (hop : op.isQuiet = true) (ans : Answer) (q : ProcessId) :
    accepted c ⟨r, op, ans⟩ = none ∧ received q ⟨r, op, ans⟩ = none := by
  cases op <;> simp_all [Op.isQuiet, accepted, received]

lemma step_delivery {ans : Answer} (h : step c r op = .ok (r', ans)) (hq : op ≠ .unregister q) :
    (received q ⟨r, op, ans⟩).toList ++ r'.pending q =
      r.pending q ++ ((accepted c ⟨r, op, ans⟩).toList.filter (·.header.receiver = q)) := by
  cases step_cases h with
  | registered pid => simp [received, accepted, register_pending]
  | unregistered pid =>
    have hne : pid ≠ q := fun heq => hq (heq ▸ rfl)
    simp [received, accepted, unregister_pending r hne]
  | sent nonce hsent => simpa [received] using sent_pending hsent q nonce
  | received pid => simpa [received, accepted] using receive_pending r pid q
  | quiet hop hquiet =>
    obtain ⟨hnone, hnone'⟩ := quiet_event (c := c) (r := r) hop ans q
    simp [hnone, hnone', pending, hquiet.inboxes]

/-! ### Sequence numbers -/

def lastNumber (r : BusRouter) (p : ProcessId) : UInt64 :=
  (r.sequences.lastSeen.lookup p).getD 0

lemma check_ok {t t' : SequenceTracker} {sender : ProcessId} {sequence : UInt64}
    (h : t.check sender sequence = .ok (t', .ok ())) :
    t' = t.record sender sequence ∧
      sequence.toNat = ((t.lastSeen.lookup sender).getD 0).toNat + 1 := by
  simp only [SequenceTracker.check, Exec.bind_eq_ok] at h
  obtain ⟨expected, hexpected, h⟩ := h
  have hnat : expected.toNat = ((t.lastSeen.lookup sender).getD 0).toNat + 1 := by
    unfold SequenceTracker.nextExpected at hexpected
    cases hlast : t.lastSeen.lookup sender with
    | none =>
      simp only [hlast, Exec.ok.injEq] at hexpected
      simp [← hexpected]
    | some n =>
      simp only [hlast] at hexpected
      split at hexpected
      · next hlt =>
        simp only [Exec.ok.injEq] at hexpected
        rw [← hexpected, UInt64.toNat_add, Option.getD_some]
        exact Nat.mod_eq_of_lt hlt
      · cases hexpected
  split_ifs at h with heq hle
  · simp only [Exec.ok.injEq, Prod.mk.injEq, and_true] at h
    exact ⟨h.symm, heq ▸ hnat⟩
  · simp at h
  · simp at h

lemma lastNumber_check {sequences : SequenceTracker}
    (hseq : r.sequences.check header.sender header.sequence = .ok (sequences, .ok ()))
    (hsame : r'.sequences = sequences) :
    (p = header.sender → r.lastNumber p < header.sequence ∧ r'.lastNumber p = header.sequence) ∧
      r.lastNumber p ≤ r'.lastNumber p := by
  obtain ⟨hrecord, hnat⟩ := check_ok hseq
  have hlt : r.lastNumber header.sender < header.sequence := by
    rw [UInt64.lt_iff_toNat_lt, hnat]
    exact Nat.lt_succ_self _
  by_cases hp : p = header.sender
  · subst hp
    have hnew : r'.lastNumber header.sender = header.sequence := by
      simp [lastNumber, hsame, hrecord, SequenceTracker.record]
    exact ⟨fun _ => ⟨hlt, hnew⟩, hnew ▸ UInt64.le_of_lt hlt⟩
  · have hold : r'.lastNumber p = r.lastNumber p := by
      simp [lastNumber, hsame, hrecord, SequenceTracker.record, lookup_insert_of_ne _ hp]
    exact ⟨fun heq => absurd heq hp, hold ▸ UInt64.le_refl _⟩

lemma sent_numbers {res : Except BusError Unit} (h : Sent c r header payload r' res) (p : ProcessId) :
    (res = .ok () → p = header.sender →
      r.lastNumber p < header.sequence ∧ r'.lastNumber p = header.sequence) ∧
    r.lastNumber p ≤ r'.lastNumber p := by
  cases h with
  | refused _ | outOfSequence _ _ => exact ⟨by simp, UInt64.le_refl _⟩
  | arenaFull _ hseq _ | queueFull _ hseq _ _ _ => exact ⟨by simp, (lastNumber_check hseq rfl).2⟩
  | accepted _ hseq _ _ _ =>
    exact ⟨fun _ => (lastNumber_check hseq rfl).1, (lastNumber_check hseq rfl).2⟩

lemma accepted_header {ev : BusEvent} {env : Envelope} (h : accepted c ev = some env) :
    ∃ payload nonce, ev.input = .send env.header payload nonce ∧ ev.output = .sent (.ok ()) := by
  unfold accepted at h
  split at h
  · next header payload nonce hin hout =>
    unfold envelope at h
    split at h
    · cases h
    · obtain ⟨stowed, -, rfl⟩ := Option.map_eq_some_iff.mp h
      exact ⟨_, _, hin, hout⟩
  · cases h

lemma step_numbers {ans : Answer} (h : step c r op = .ok (r', ans)) (hp : op ≠ .unregister p) :
    (∀ env, accepted c ⟨r, op, ans⟩ = some env → env.header.sender = p →
      r.lastNumber p < env.header.sequence ∧ r'.lastNumber p = env.header.sequence) ∧
    r.lastNumber p ≤ r'.lastNumber p := by
  cases step_cases h with
  | sent nonce hsent =>
    obtain ⟨hnew, hle⟩ := sent_numbers hsent p
    refine ⟨fun env henv hsender => ?_, hle⟩
    -- an accepted envelope carries the header of the send
    obtain ⟨_, _, hin, hout⟩ := accepted_header henv
    simp only [Answer.sent.injEq] at hout
    obtain ⟨rfl, -, -⟩ := hin
    exact hnew hout hsender.symm
  | registered pid =>
    refine ⟨by simp [accepted], ?_⟩
    unfold registerProcess
    split_ifs <;> exact UInt64.le_refl _
  | unregistered pid =>
    have hne : p ≠ pid := fun heq => hp (heq ▸ rfl)
    refine ⟨by simp [accepted], ?_⟩
    unfold unregisterProcess
    split
    · exact UInt64.le_refl _
    · simp [lastNumber, lookup_erase_ne hne]
  | received pid =>
    refine ⟨by simp [accepted], ?_⟩
    unfold receive
    split <;> exact UInt64.le_refl _
  | quiet hop hquiet =>
    refine ⟨by simp [(quiet_event hop ans p).1], ?_⟩
    rw [lastNumber, lastNumber, hquiet.sequences]
    exact UInt64.le_refl _

/-! ### Whole runs -/

lemma run_delivery {evs : List BusEvent} (h : Machine.Run (step c) r₀ evs r)
    (hq : ∀ ev ∈ evs, ev.input ≠ .unregister q) :
    receivedBy q evs ++ r.pending q = r₀.pending q ++ acceptedFor c q evs := by
  induction h with
  | nil => simp [receivedBy, acceptedFor]
  | @snoc evs s s' op ans _ hstep ih =>
    -- the last event moves one envelope across one of the two boundaries
    have hlast := step_delivery hstep (hq ⟨s, op, ans⟩ (by simp))
    have ih := ih fun ev hev => hq ev (by simp [hev])
    calc receivedBy q (evs ++ [⟨s, op, ans⟩]) ++ s'.pending q
        = receivedBy q evs ++ ((received q ⟨s, op, ans⟩).toList ++ s'.pending q) := by
          cases hreceived : received q ⟨s, op, ans⟩ <;> simp [receivedBy, hreceived]
      _ = (receivedBy q evs ++ s.pending q) ++
            (accepted c ⟨s, op, ans⟩).toList.filter (·.header.receiver = q) := by
          rw [hlast, append_assoc]
      _ = r₀.pending q ++ acceptedFor c q (evs ++ [⟨s, op, ans⟩]) := by
          rw [ih]
          cases haccepted : accepted c ⟨s, op, ans⟩ <;>
            simp [acceptedFor, haccepted]

lemma run_numbers {evs : List BusEvent} (h : Machine.Run (step c) r₀ evs r)
    (hp : ∀ ev ∈ evs, ev.input ≠ .unregister p) :
    (acceptedNumbers c p evs).Pairwise (· < ·) ∧
      ∀ n ∈ acceptedNumbers c p evs, n ≤ r.lastNumber p := by
  induction h with
  | nil => simp [acceptedNumbers]
  | @snoc evs s s' op ans _ hstep ih =>
    obtain ⟨hnew, hle⟩ := step_numbers hstep (hp ⟨s, op, ans⟩ (by simp))
    obtain ⟨hpair, hbound⟩ := ih fun ev hev => hp ev (by simp [hev])
    have hold : ∀ n ∈ acceptedNumbers c p evs, n ≤ s'.lastNumber p :=
      fun n hn => UInt64.le_trans (hbound n hn) hle
    cases haccepted : accepted c ⟨s, op, ans⟩ with
    | none =>
      have hsame : acceptedNumbers c p (evs ++ [⟨s, op, ans⟩]) = acceptedNumbers c p evs := by
        simp [acceptedNumbers, haccepted]
      rw [hsame]
      exact ⟨hpair, hold⟩
    | some env =>
      by_cases hsender : env.header.sender = p
      · -- the new number goes to the end, above all earlier ones
        obtain ⟨hlt, hlast⟩ := hnew env haccepted hsender
        have hsplit : acceptedNumbers c p (evs ++ [⟨s, op, ans⟩]) =
            acceptedNumbers c p evs ++ [env.header.sequence] := by
          simp [acceptedNumbers, haccepted, hsender]
        rw [hsplit]
        refine ⟨pairwise_append.mpr ⟨hpair, pairwise_singleton _ _, ?_⟩, ?_⟩
        · intro n hn m hm
          rw [mem_singleton.mp hm]
          exact UInt64.lt_of_le_of_lt (hbound n hn) hlt
        intro n hn
        rcases mem_append.mp hn with hn | hn
        · exact hold n hn
        · rw [mem_singleton.mp hn, hlast]
          exact UInt64.le_refl _
      · have hsplit : acceptedNumbers c p (evs ++ [⟨s, op, ans⟩]) = acceptedNumbers c p evs := by
          simp [acceptedNumbers, haccepted, hsender]
        rw [hsplit]
        exact ⟨hpair, hold⟩

/-- **The bus neither loses, duplicates nor reorders accepted messages.**  In every run
of a new router, for every receiver that is not unregistered, the envelopes it was
handed followed by those pending are the accepted ones in order; and for every sender
that is not unregistered, the accepted sequence numbers are strictly increasing. -/
theorem bus_delivers_in_order {evs : List BusEvent} (h₀ : r₀ = new ∨ r₀ = new.init)
    (h : Machine.Run (step c) r₀ evs r) :
    (∀ q, (∀ ev ∈ evs, ev.input ≠ .unregister q) →
      receivedBy q evs ++ r.pending q = acceptedFor c q evs) ∧
    ∀ p, (∀ ev ∈ evs, ev.input ≠ .unregister p) →
      (acceptedNumbers c p evs).Pairwise (· < ·) := by
  refine ⟨fun q hq => ?_, fun p hp => (run_numbers h hp).1⟩
  have hempty : r₀.pending q = [] := by
    rcases h₀ with rfl | rfl <;> rfl
  rw [run_delivery h hq, hempty, nil_append]

/-- A header of a message without payload and capability. -/
def plainHeader (sender receiver : ProcessId) (sequence : UInt64) : MessageHeader where
  version := MessageHeader.version1
  msgType := 0
  sender := sender
  receiver := receiver
  payloadLen := 0
  capabilityId := 0
  sequence := sequence
  timestamp := 0

/-- Two senders share the inbox of process 2, which takes one of three messages. -/
def chatOps : List Op :=
  [.register 1, .register 2, .register 3, .send (plainHeader 1 2 1) none 0,
    .send (plainHeader 3 2 1) none 0, .receive 2, .send (plainHeader 1 2 2) none 0]

theorem chat_delivers_in_order :
    ∃ evs : List BusEvent, Machine.Run (step Crypto.zero) new.init evs
        (Machine.final (step Crypto.zero) new.init chatOps) ∧ evs.map (·.input) = chatOps ∧
      receivedBy 2 evs ++ (Machine.final (step Crypto.zero) new.init chatOps).pending 2 =
        acceptedFor Crypto.zero 2 evs ∧
      (acceptedNumbers Crypto.zero 1 evs).Pairwise (· < ·) := by
  have hreturns : (Machine.run (step Crypto.zero) new.init chatOps).returns = true := rfl
  obtain ⟨evs, hrun, hin⟩ := Machine.Run.of_returns hreturns
  have hstay : ∀ pid, ∀ ev ∈ evs, ev.input ≠ .unregister pid := by
    intro pid ev hev heq
    have hmem : ev.input ∈ chatOps := hin ▸ mem_map_of_mem hev
    rw [heq] at hmem
    simp [chatOps] at hmem
  obtain ⟨hdelivery, hnumbers⟩ := bus_delivers_in_order (Or.inr rfl) hrun
  exact ⟨evs, hrun, hin, hdelivery 2 (hstay 2), hnumbers 1 (hstay 1)⟩

end Fabric.BusRouter
