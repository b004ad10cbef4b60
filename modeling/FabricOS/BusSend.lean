/-
Sending through the whole kernel (`bus/mod.rs`).

`send` asks governance, then the capability store, then the router, each under its own
lock; an error ends the call where it arises.  The capability check validates a use of
the token and then compares its owner with the sender.

The kernel around it is a machine whose other operations are those of the store and of
the router, and any change at all of the parts that a send only reads or judges by: the
rules and states of governance, the council, and the priorities in the process table.
-/
import FabricOS.Governance
import FabricOS.StoreEquivalence

namespace Fabric

open Exec

/-- The subsystems that take part in a send. -/
structure Kernel where
  governance : GovernanceEngine
  council : CouncilEngine
  /-- The effective priority of each process in the process table. -/
  priorityOf : ProcessId → Option UInt8
  store : CapabilityStore
  router : BusRouter

namespace Kernel

variable {c : Crypto} {k k' : Kernel} {header : MessageHeader} {payload : Option (List UInt8)}
  {nonce : UInt32} {res : Except BusError Unit}

/-- The policy check of a header: the new state of governance and council, and the result. -/
def evaluatePolicy (c : Crypto) (k : Kernel) (header : MessageHeader) :
    GovernanceEngine × CouncilEngine × Except BusError Unit :=
  k.governance.evaluatePolicy c k.council header ((k.priorityOf header.sender).getD 0)
    (((k.store.getTokenInfo header.capabilityId).map fun info => ResourceId.kind info.2).getD 0)

/-- The capability check of a header: validate a use, then compare the owner. -/
def checkCapability (c : Crypto) (s : CapabilityStore) (header : MessageHeader) (nonce : UInt32) :
    Exec (CapabilityStore × Except BusError Unit) :=
  if header.capabilityId ≠ 0 then do
    -- nonce and budget are charged before the owner is compared
    let (s, validated) ← s.validate c header.capabilityId Perm.write nonce
    match validated with
    | .error e => .ok (s, .error (.capabilityInvalid e))
    | .ok () =>
      match s.getTokenInfo header.capabilityId with
      | some (owner, _) =>
        if owner ≠ header.sender then .ok (s, .error .ownerMismatch) else .ok (s, .ok ())
      | none => .ok (s, .error (.capabilityInvalid .notFound))
  else .ok (s, .ok ())

def judged (c : Crypto) (k : Kernel) (header : MessageHeader) : Kernel :=
  { k with
    governance := (k.evaluatePolicy c header).1
    council := (k.evaluatePolicy c header).2.1 }

def send (c : Crypto) (k : Kernel) (header : MessageHeader) (payload : Option (List UInt8))
    (nonce : UInt32) : Exec (Kernel × Except BusError Unit) :=
  match (k.evaluatePolicy c header).2.2 with
  -- a refusal here or by the capability check does not reach the router and its audit log
  | .error e => .ok (k.judged c header, .error e)
  | .ok () => do
      let k := k.judged c header
      let (store, checked) ← checkCapability c k.store header nonce
      let k := { k with store }
      match checked with
      | .error e => .ok (k, .error e)
      | .ok () => do
          let (router, res) ← k.router.send c header payload nonce
          .ok ({ k with router }, res)

def PolicyAdmits (c : Crypto) (k : Kernel) (header : MessageHeader) : Prop :=
  (k.evaluatePolicy c header).2.2 = .ok ()

/-! ### What a send can do -/

/-- The ways a call of `send` returns. -/
inductive Ended (c : Crypto) (k : Kernel) (header : MessageHeader) (payload : Option (List UInt8))
    (nonce : UInt32) : Kernel → Except BusError Unit → Prop
  | denied {e : BusError} : (k.evaluatePolicy c header).2.2 = .error e →
      Ended c k header payload nonce (k.judged c header) (.error e)
  | unauthorized {store : CapabilityStore} {e : BusError} : k.PolicyAdmits c header →
      checkCapability c k.store header nonce = .ok (store, .error e) →
      Ended c k header payload nonce { k.judged c header with store } (.error e)
  | routed {store : CapabilityStore} {router : BusRouter} {res : Except BusError Unit} :
      k.PolicyAdmits c header → checkCapability c k.store header nonce = .ok (store, .ok ()) →
      k.router.send c header payload nonce = .ok (router, res) →
      Ended c k header payload nonce { k.judged c header with store, router } res

lemma send_cases (h : k.send c header payload nonce = .ok (k', res)) :
    Ended c k header payload nonce k' res := by
  unfold send at h
  cases hpolicy : (k.evaluatePolicy c header).2.2 with
  | error e =>
    simp only [hpolicy] at h
    cases h
    exact .denied hpolicy
  | ok u =>
    simp only [hpolicy, bind_eq_ok] at h
    obtain ⟨⟨store, checked⟩, hcheck, h⟩ := h
    cases checked with
    | error e =>
      cases h
      exact .unauthorized hpolicy hcheck
    | ok u =>
      obtain ⟨⟨router, res'⟩, hroute, h⟩ := bind_eq_ok.mp h
      cases h
      exact .routed hpolicy hcheck hroute

/-! ### The kernel as a machine -/

end Kernel

/-- The operations of the router besides `send`, which only the kernel's `send` calls. -/
def BusRouter.Op.isSend : BusRouter.Op → Bool
  | .send _ _ _ => true
  | _ => false

namespace Kernel

variable {c : Crypto} {k k' : Kernel}

inductive Op where
  | send (header : MessageHeader) (payload : Option (List UInt8)) (nonce : UInt32)
  | store (op : CapabilityStore.Op)
  | router (op : BusRouter.Op) (hop : op.isSend = false)
  | elsewhere (governance : GovernanceEngine) (council : CouncilEngine)
      (priorityOf : ProcessId → Option UInt8)

inductive Answer where
  | sent (r : Except BusError Unit)
  | store (ans : CapabilityStore.Answer)
  | router (ans : BusRouter.Answer)
  | elsewhere

def step (c : Crypto) (k : Kernel) : Op → Exec (Kernel × Answer)
  | .send header payload nonce => do
      let (k, res) ← k.send c header payload nonce
      .ok (k, .sent res)
  | .store op => do
      let (store, ans) ← CapabilityStore.step c k.store op
      .ok ({ k with store }, .store ans)
  | .router op _ => do
      let (router, ans) ← BusRouter.step c k.router op
      .ok ({ k with router }, .router ans)
  | .elsewhere governance council priorityOf =>
      .ok ({ k with governance, council, priorityOf }, .elsewhere)

def boot (c : Crypto) : Kernel where
  governance := GovernanceEngine.new.init
  council := .init c
  priorityOf := fun _ => none
  store := .new
  router := BusRouter.new.init

/-! ### The capability store in kernel runs -/

variable {header : MessageHeader}

lemma checkCapability_store {s s' : CapabilityStore} {nonce : UInt32}
    {checked : Except BusError Unit}
    (h : checkCapability c s header nonce = .ok (s', checked)) :
    s' = s ∨ ∃ r, s.validate c header.capabilityId Perm.write nonce = .ok (s', r) := by
  unfold checkCapability at h
  split at h
  · obtain ⟨⟨s1, validated⟩, hvalidate, h⟩ := bind_eq_ok.mp h
    refine Or.inr ⟨validated, ?_⟩
    have hs : s1 = s' := by
      cases validated with
      | error e =>
        simp only [ok.injEq, Prod.mk.injEq] at h
        exact h.1
      | ok u =>
        simp only at h
        split at h
        · split_ifs at h <;> simp only [ok.injEq, Prod.mk.injEq] at h <;> exact h.1
        · simp only [ok.injEq, Prod.mk.injEq] at h
          exact h.1
    exact hs ▸ hvalidate
  · simp only [ok.injEq, Prod.mk.injEq] at h
    exact Or.inl h.1.symm

lemma checkCapability_live {s : CapabilityStore} {st : StoredToken}
    (h : CapabilityStore.Wf c s) (hst : s.tokens.get header.capabilityId = some st)
    (nonce : UInt32) :
    ∃ s' r, checkCapability c s header nonce = .ok (s', r) ∧
      (r = .ok () ↔ (CapabilityStore.Admits c s st Perm.write ∧
        s.Fresh header.capabilityId nonce ∧ s.WithinBudget header.capabilityId st) ∧
          st.token.owner = header.sender) ∧
      (CapabilityStore.Admits c s st Perm.write ∧ s.Fresh header.capabilityId nonce →
        s'.nonceTracker.last header.capabilityId = nonce) ∧
      (¬ (CapabilityStore.Admits c s st Perm.write ∧ s.Fresh header.capabilityId nonce) →
        CapabilityStore.Alike s s') := by
  have hid : header.capabilityId ≠ 0 := by
    intro hzero
    exact h.forest.none_free (s.tokens.mem_keys.mpr ⟨st, hzero ▸ hst⟩)
  obtain ⟨s', r, hvalidate, htokens, haccepts, hused, halike⟩ :=
    h.validate_live hst Perm.write nonce
  rw [← haccepts]
  simp only [checkCapability, hid, ne_eq, not_false_eq_true, if_true, hvalidate, ok_bind,
    CapabilityStore.getTokenInfo, htokens, hst, Option.map_some]
  cases r with
  | error e => exact ⟨s', _, rfl, by simp, hused, halike⟩
  | ok u =>
    split_ifs with howner <;> exact ⟨s', _, rfl, by simp [howner], hused, halike⟩

lemma checkCapability_reachable {s s' : CapabilityStore}
    {nonce : UInt32} {checked : Except BusError Unit} (hreach : CapabilityStore.Reachable c s)
    (h : checkCapability c s header nonce = .ok (s', checked)) :
    CapabilityStore.Reachable c s' := by
  rcases checkCapability_store h with rfl | ⟨r, hvalidate⟩
  · exact hreach
  have hstep : CapabilityStore.step c s (.validate header.capabilityId Perm.write nonce) =
      .ok (s', .checked r) := by
    simp only [CapabilityStore.step, hvalidate, ok_bind]
  exact Machine.Reachable.tail hreach hstep

lemma step_store {op : Op} {ans : Answer} (hreach : CapabilityStore.Reachable c k.store)
    (h : step c k op = .ok (k', ans)) : CapabilityStore.Reachable c k'.store := by
  cases op with
  | send header payload nonce =>
    obtain ⟨⟨k1, res⟩, hsend, hok⟩ := bind_eq_ok.mp h
    cases hok
    cases send_cases hsend with
    | denied _ => exact hreach
    | unauthorized _ hcheck | routed _ hcheck _ => exact checkCapability_reachable hreach hcheck
  | store op =>
    obtain ⟨⟨s, ans'⟩, hstep, hok⟩ := bind_eq_ok.mp h
    cases hok
    exact Machine.Reachable.tail hreach hstep
  | router op hop =>
    obtain ⟨⟨r, ans'⟩, hstep, hok⟩ := bind_eq_ok.mp h
    cases hok
    exact hreach
  | elsewhere governance council priorityOf =>
    cases h
    exact hreach

lemma run_store (h : Machine.Reachable (step c) (boot c) k) :
    CapabilityStore.Reachable c k.store := by
  refine Machine.Reachable.inv (P := fun k => CapabilityStore.Reachable c k.store) h ?_ ?_
  · exact Machine.Reachable.init
  · exact fun hreach hstep => step_store hreach hstep

end Kernel

end Fabric
