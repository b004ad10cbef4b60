/-
Accounting for sends.

Every message gets an audit entry, and is counted as sent or as rejected, if it reaches
the router (`Sent.booked`).  Messages that the policy or the capability check stops do
not reach it: nothing records them, though the router has an operation for it.
-/
import FabricOS.BusSend

open Exec

namespace Fabric

open BusRouter

namespace BusRouter

variable {c : Crypto} {r r' : BusRouter} {header : MessageHeader}
  {payload : Option (List UInt8)} {res : Except BusError Unit}

/-- One audit entry was appended for the message, and it was counted once, as sent
if it succeeded and as rejected otherwise. -/
structure Booked (c : Crypto) (r r' : BusRouter) (header : MessageHeader)
    (res : Except BusError Unit) : Prop where
  entry : ∃ action, r'.audit = r.audit.append c header.sender action header.receiver
    header.msgType header.capabilityId header.sequence r.currentTick
  sent : res = .ok () → r'.totalSent = r.totalSent + 1 ∧ r'.totalRejected = r.totalRejected
  rejected : ∀ e, res = .error e →
    r'.totalSent = r.totalSent ∧ r'.totalRejected = r.totalRejected + 1

lemma Sent.booked (h : Sent c r header payload r' res) : Booked c r r' header res := by
  cases h with
  | refused _ | outOfSequence _ _ | arenaFull _ _ _ | queueFull _ _ _ _ _ =>
    exact ⟨⟨_, rfl⟩, by simp, fun _ _ => ⟨rfl, rfl⟩⟩
  | accepted _ _ _ _ _ => exact ⟨⟨_, rfl⟩, fun _ => ⟨rfl, rfl⟩, by simp⟩

lemma Booked.totalCount (h : Booked c r r' header res) :
    r'.audit.totalCount = r.audit.totalCount + 1 := by
  obtain ⟨action, haudit⟩ := h.entry
  simp [haudit, AuditLog.append]

lemma Booked.totals (h : Booked c r r' header res) :
    r'.totalSent + r'.totalRejected = r.totalSent + r.totalRejected + 1 := by
  cases res with
  | ok u =>
    have hsent := h.sent rfl
    omega
  | error e =>
    have hrejected := h.rejected e rfl
    omega

lemma numbersLeft_of_send {data : Option (List UInt8)} {nonce : UInt32}
    (hroute : r.checkRoute header payload = .ok data)
    (h : r.send c header payload nonce = .ok (r', res)) : r.NumbersLeft header.sender := by
  intro n hlast
  by_contra hlt
  have hpanic : r.sequences.check header.sender header.sequence = .panic := by
    simp only [SequenceTracker.check, SequenceTracker.nextExpected, hlast, if_neg hlt,
      panic_bind]
  simp [send, hroute, hpanic] at h

lemma step_accounts {op : Op} {ans : Answer} (hop : op.isSend = false)
    (h : step c r op = .ok (r', ans)) :
    r'.totalSent = r.totalSent ∧ r'.totalRejected = r.totalRejected ∧ r'.audit = r.audit := by
  cases step_cases h with
  | registered pid =>
    unfold registerProcess
    split_ifs <;> exact ⟨rfl, rfl, rfl⟩
  | unregistered pid =>
    unfold unregisterProcess
    split <;> exact ⟨rfl, rfl, rfl⟩
  | received pid =>
    unfold receive
    split <;> exact ⟨rfl, rfl, rfl⟩
  | quiet _ hquiet => exact ⟨hquiet.totalSent, hquiet.totalRejected, hquiet.audit⟩
  | sent nonce _ => simp [Op.isSend] at hop

end BusRouter

namespace Kernel

variable {c : Crypto} {k k' : Kernel} {header : MessageHeader} {payload : Option (List UInt8)}
  {nonce : UInt32}

/-- The send returns, and the router has booked the message. -/
def Accounted (c : Crypto) (k : Kernel) (header : MessageHeader) (payload : Option (List UInt8))
    (nonce : UInt32) : Prop :=
  ∃ k' res, k.send c header payload nonce = .ok (k', res) ∧
    BusRouter.Booked c k.router k'.router header res

/-- The capability that a header names, if it names one, is a live, unexpired token of the
sender that permits writing, with a new nonce and within its budget. -/
def Authorized (s : CapabilityStore) (header : MessageHeader) (nonce : UInt32) : Prop :=
  header.capabilityId = 0 ∨ ∃ st, s.tokens.get header.capabilityId = some st ∧
    st.expiredAt s.currentTick = false ∧ st.token.permissions.contains Perm.write = true ∧
    s.Fresh header.capabilityId nonce ∧ s.WithinBudget header.capabilityId st ∧
    st.token.owner = header.sender

/-- The message reaches the router, and its sender has a number left if the router gets
as far as looking at it. -/
structure Passes (c : Crypto) (k : Kernel) (header : MessageHeader)
    (payload : Option (List UInt8)) (nonce : UInt32) : Prop where
  policy : k.PolicyAdmits c header
  capability : Authorized k.store header nonce
  numbers : ∀ data, k.router.checkRoute header payload = .ok data →
    k.router.NumbersLeft header.sender

lemma checkCapability_ok_iff {s : CapabilityStore} (hreach : CapabilityStore.Reachable c s) :
    (∃ s', checkCapability c s header nonce = .ok (s', .ok ())) ↔ Authorized s header nonce := by
  by_cases hid : header.capabilityId = 0
  · simp [checkCapability, Authorized, hid]
  cases hst : s.tokens.get header.capabilityId with
  | none => simp [checkCapability, CapabilityStore.validate, Authorized, hid, hst]
  | some st =>
    obtain ⟨s', r, hcheck, haccepts, -, -⟩ := checkCapability_live hreach.wf hst nonce
    have hsigned := (hreach.wf.genuine _ st hst).signed
    simp only [hcheck, ok.injEq, Prod.mk.injEq, exists_eq_left', haccepts]
    simp [Authorized, hid, hst, CapabilityStore.Admits, hsigned, and_assoc]

lemma not_booked_self {res : Except BusError Unit} {r : BusRouter} :
    ¬ BusRouter.Booked c r r header res := by
  intro hbooked
  have hcount := hbooked.totalCount
  omega

lemma accounted_iff (hreach : CapabilityStore.Reachable c k.store) :
    k.Accounted c header payload nonce ↔ k.Passes c header payload nonce := by
  constructor
  · rintro ⟨k', res, hsend, hbooked⟩
    cases send_cases hsend with
    -- the two exits before the router leave it as it is
    | denied _ => exact absurd hbooked not_booked_self
    | unauthorized _ _ => exact absurd hbooked not_booked_self
    | routed hpolicy hcheck hroute =>
      exact ⟨hpolicy, (checkCapability_ok_iff hreach).mp ⟨_, hcheck⟩, fun data hdata =>
        numbersLeft_of_send hdata hroute⟩
  · rintro ⟨hpolicy, hcapability, hnumbers⟩
    obtain ⟨s', hcheck⟩ := (checkCapability_ok_iff hreach).mpr hcapability
    have hroute : ∃ r' res, k.router.send c header payload nonce = .ok (r', res) := by
      cases hdata : k.router.checkRoute header payload with
      | error e => exact ⟨_, _, by simp only [BusRouter.send, hdata]; rfl⟩
      | ok data => exact send_returns (hnumbers data hdata) payload nonce
    obtain ⟨r', res, hroute⟩ := hroute
    have hpolicy : (k.evaluatePolicy c header).2.2 = .ok () := hpolicy
    refine ⟨{ k.judged c header with store := s', router := r' }, res, ?_,
      (BusRouter.send_cases hroute).booked⟩
    simp only [send, hpolicy, judged, hcheck, hroute, ok_bind]

/-! ### Runs of the kernel -/

abbrev KernelEvent := Machine.Event Kernel Op Answer

def Op.isSend : Op → Bool
  | .send _ _ _ => true
  | _ => false

/-- The number of calls of `send`. -/
def sends (evs : List KernelEvent) : ℕ := evs.countP (·.input.isSend)

/-- The event is no send, or one that passes in the state it was made in. -/
def KernelEvent.Passes (c : Crypto) (ev : KernelEvent) : Prop :=
  ∀ header payload nonce, ev.input = .send header payload nonce →
    ev.before.Passes c header payload nonce

lemma step_totals {op : Op} {ans : Answer} (hreach : CapabilityStore.Reachable c k.store)
    (hpasses : KernelEvent.Passes c ⟨k, op, ans⟩) (h : step c k op = .ok (k', ans)) :
    k'.router.totalSent + k'.router.totalRejected =
        k.router.totalSent + k.router.totalRejected + sends [⟨k, op, ans⟩] ∧
      k'.router.audit.totalCount = k.router.audit.totalCount + sends [⟨k, op, ans⟩] := by
  cases op with
  | send header payload nonce =>
    obtain ⟨k1, res, hsend, hbooked⟩ :=
      (accounted_iff hreach).mpr (hpasses header payload nonce rfl)
    simp only [step, hsend, ok_bind] at h
    cases h
    exact ⟨hbooked.totals, hbooked.totalCount⟩
  | store op =>
    simp only [step, bind_eq_ok, ok.injEq, Prod.mk.injEq] at h
    obtain ⟨_, -, rfl, -⟩ := h
    exact ⟨rfl, rfl⟩
  | router op hop =>
    obtain ⟨⟨r, ans'⟩, hstep, hok⟩ := bind_eq_ok.mp h
    cases hok
    obtain ⟨hsent, hrejected, haudit⟩ := step_accounts hop hstep
    simp [sends, Op.isSend, hsent, hrejected, haudit]
  | elsewhere governance council priorityOf =>
    cases h
    exact ⟨rfl, rfl⟩

lemma run_totals {evs : List KernelEvent} (h : Machine.Run (step c) (boot c) evs k)
    (hpasses : ∀ ev ∈ evs, KernelEvent.Passes c ev) :
    k.router.totalSent + k.router.totalRejected = sends evs ∧
      k.router.audit.totalCount = sends evs := by
  induction h with
  | nil => exact ⟨rfl, rfl⟩
  | @snoc evs s s' op ans hrun hstep ih =>
    obtain ⟨hsum, hcount⟩ := step_totals (run_store hrun.reachable)
      (hpasses ⟨s, op, ans⟩ (by simp)) hstep
    obtain ⟨ihsum, ihcount⟩ := ih fun ev hev => hpasses ev (by simp [hev])
    have hsends : sends (evs ++ [⟨s, op, ans⟩]) = sends evs + sends [⟨s, op, ans⟩] := by
      simp [sends]
    omega

/-- **Which sends are accounted for.**  With any reachable store, and any state of
governance, council and router, a send gets its one audit entry and is counted once exactly
if policy and capability let it through to the router (and the sender's numbers are not
used up).  In every run from boot all of whose sends are let through, the messages sent and
rejected and the audit entries are as many as the calls of `send`. -/
theorem bus_send_accounted_iff (c : Crypto) :
    (∀ k : Kernel, CapabilityStore.Reachable c k.store → ∀ header payload nonce,
      (k.Accounted c header payload nonce ↔ k.Passes c header payload nonce)) ∧
    ∀ evs k, Machine.Run (step c) (boot c) evs k → (∀ ev ∈ evs, KernelEvent.Passes c ev) →
      k.router.totalSent + k.router.totalRejected = sends evs ∧
        k.router.audit.totalCount = sends evs :=
  ⟨fun _ hreach _ _ _ => accounted_iff hreach, fun _ _ hrun hpasses => run_totals hrun hpasses⟩

def spoofedHeader : MessageHeader where
  version := MessageHeader.version1
  msgType := 0
  sender := 0
  receiver := 2
  payloadLen := 0
  capabilityId := 0
  sequence := 1
  timestamp := 0

/-- The constitution denies it by a rule that says to log it, but no entry is made and
nothing is counted; a message under a capability that does not exist fares likewise. -/
theorem denied_send_unrecorded : (∃ k, (boot Crypto.zero).send Crypto.zero spoofedHeader none 1 =
        .ok (k, .error .policyDenied) ∧
      k.router.audit.totalCount = 0 ∧ k.router.totalSent + k.router.totalRejected = 0) ∧
    ∃ k, (boot Crypto.zero).send Crypto.zero { spoofedHeader with sender := 3, capabilityId := 9 }
        none 1 = .ok (k, .error (.capabilityInvalid .notFound)) ∧
      k.router.audit.totalCount = 0 ∧ k.router.totalSent + k.router.totalRejected = 0 :=
  ⟨⟨_, rfl, rfl, rfl⟩, _, rfl, rfl, rfl⟩

/-- A message from a process that is not registered reaches the router. -/
def strayHeader : MessageHeader := { spoofedHeader with sender := 3 }

lemma passes_stray : (boot Crypto.zero).Passes Crypto.zero strayHeader none 1 where
  policy := rfl
  capability := Or.inl rfl
  numbers := by
    intro data hdata n hlast
    simp [boot, new, init, SequenceTracker.new] at hlast

theorem stray_send_accounted : (boot Crypto.zero).Accounted Crypto.zero strayHeader none 1 ∧
    ∃ evs k, Machine.Run (step Crypto.zero) (boot Crypto.zero) evs k ∧
      k.router.totalSent + k.router.totalRejected = 1 ∧ k.router.audit.totalCount = 1 := by
  obtain ⟨haccounted, hruns⟩ := bus_send_accounted_iff Crypto.zero
  have hstore : CapabilityStore.Reachable Crypto.zero (boot Crypto.zero).store :=
    Machine.Reachable.init
  refine ⟨(haccounted (boot Crypto.zero) hstore strayHeader none 1).mpr passes_stray, ?_⟩
  have hstep : ∃ k ans, step Crypto.zero (boot Crypto.zero) (.send strayHeader none 1) =
      .ok (k, ans) := ⟨_, _, rfl⟩
  obtain ⟨k, ans, hstep⟩ := hstep
  have hrun := Machine.Run.snoc Machine.Run.nil hstep
  refine ⟨_, k, hrun, hruns _ k hrun ?_⟩
  intro ev hev header payload nonce hinput
  simp only [List.nil_append, List.mem_singleton] at hev
  subst hev
  cases hinput
  exact passes_stray

end Kernel

end Fabric
