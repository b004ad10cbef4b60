/-
Messages that are admitted only with a valid capability.

The constitution lets some messages pass on the condition that they are sent under a
valid capability (`AllowIfCapValid`).  The policy check turns this into a plain
admission and leaves the capability to the next stage of `send`, which checks every
capability that a header names.  A header that names none, with id 0, skips that stage.
-/
import FabricOS.BusSend
import FabricOS.Constitution

namespace Fabric.Kernel

open CapabilityStore

variable {c : Crypto} {k k' : Kernel} {header : MessageHeader} {payload : Option (List UInt8)}
  {nonce : UInt32}

def policyContext (k : Kernel) (header : MessageHeader) : EvalContext :=
  k.governance.context header ((k.priorityOf header.sender).getD 0)
    (((k.store.getTokenInfo header.capabilityId).map fun info => ResourceId.kind info.2).getD 0)

/-- The action of the rule that the policy check matches; none if it looks at no rule. -/
def matchedAction (k : Kernel) (header : MessageHeader) : Option RuleAction :=
  if !k.governance.initialized || k.governance.breakGlass.active then none
  else some (k.governance.rules.evaluateWithAction (k.policyContext header)).1

/-- The header names a live, unexpired token of the sender that permits writing. -/
def HoldsCapability (s : CapabilityStore) (header : MessageHeader) : Prop :=
  ∃ st, s.tokens.get header.capabilityId = some st ∧ st.expiredAt s.currentTick = false ∧
    st.token.permissions.contains Perm.write = true ∧ st.token.owner = header.sender

/-- The message names a capability, or the matched rule asks for one. -/
def CapabilityDue (k : Kernel) (header : MessageHeader) : Prop :=
  header.capabilityId ≠ 0 ∨ k.matchedAction header = some .allowIfCapValid

/-- A message without a capability for which the rule of the `Safe` state is the first to
match: governance is on, the sender is neither the kernel nor Butler and not throttled, and
the state is `Safe` or `Chaos` with the authority system below `Emergency`. -/
structure SlipsThrough (k : Kernel) (header : MessageHeader) : Prop where
  unnamed : header.capabilityId = 0
  initialized : k.governance.initialized = true
  governed : k.governance.breakGlass.active = false
  sender : header.sender ≠ 0 ∧ header.sender ≠ 1
  acs : k.governance.acs ≠ .emergency
  safety : k.governance.safety.state = .safe ∧ 2 ≤ (k.priorityOf header.sender).getD 0 ∨
    k.governance.safety.state = .chaos ∧ 4 ≤ (k.priorityOf header.sender).getD 0

variable {s s' : CapabilityStore}

lemma validate_ok {t : UInt64} {perm : Perm} (h : s.validate c t perm nonce = .ok (s', .ok ())) :
    (∃ st, s.tokens.get t = some st ∧ CapabilityStore.Admits c s st perm) ∧
      s'.tokens = s.tokens ∧ s'.currentTick = s.currentTick := by
  obtain ⟨-, ⟨e, he, -⟩, -⟩ | ⟨st, nt, hst, hadmits, hcases⟩ :=
    validate_cases h
  · cases he
  obtain ⟨-, -, he⟩ | ⟨-, ⟨-, rfl, -⟩ | ⟨b, bt, ok, -, -, rfl, -⟩⟩ := hcases
  · cases he
  · exact ⟨⟨st, hst, hadmits⟩, rfl, rfl⟩
  · exact ⟨⟨st, hst, hadmits⟩, rfl, rfl⟩

lemma holdsCapability_of_check (hid : header.capabilityId ≠ 0)
    (h : checkCapability c s header nonce = .ok (s', .ok ())) : HoldsCapability s' header := by
  simp only [checkCapability, ne_eq, hid, not_false_eq_true, if_true, Exec.bind_eq_ok] at h
  obtain ⟨⟨s1, validated⟩, hvalidate, h⟩ := h
  cases validated with
  | error e => simp at h
  | ok u =>
    obtain ⟨⟨st, hst, -, hexpired, hperm⟩, htokens, htick⟩ := validate_ok hvalidate
    simp only [getTokenInfo, htokens, hst, Option.map_some] at h
    split_ifs at h with howner
    · simp only [Exec.ok.injEq, Prod.mk.injEq, and_true] at h
      subst h
      exact ⟨st, htokens ▸ hst, htick ▸ hexpired, hperm, howner⟩
    · simp at h

lemma checkCapability_unnamed {checked : Except BusError Unit} (hid : header.capabilityId = 0)
    (h : checkCapability c s header nonce = .ok (s', checked)) : s' = s := by
  simp only [checkCapability, hid, ne_eq, not_true_eq_false, if_false, Exec.ok.injEq,
    Prod.mk.injEq] at h
  exact h.1.symm

lemma slipsThrough_iff (hrules : k.governance.rules = genesisEngine)
    (hzero : k.store.tokens.get 0 = none) (hid : header.capabilityId = 0) :
    k.SlipsThrough header ↔ k.matchedAction header = some .allowIfCapValid := by
  have hkind : (k.policyContext header).resourceKind = 0 := by
    simp [policyContext, GovernanceEngine.context, getTokenInfo, hid, hzero]
  have haction : (k.governance.rules.evaluateWithAction (k.policyContext header)).1 =
      genesisAction (k.policyContext header) := by
    rw [hrules, evaluateWithAction_genesis]
  have hgated : genesisAction (k.policyContext header) = .allowIfCapValid ↔ _ :=
    genesisAction_eq_allowIfCapValid (by rw [hkind]; decide) (by rw [hkind]; decide)
  unfold matchedAction
  rw [haction]
  constructor
  · rintro ⟨-, hinit, hgoverned, hsender, hacs, hsafety⟩
    simp only [hinit, hgoverned, Bool.not_true, Bool.or_self, Bool.false_eq_true, if_false]
    exact congrArg some (hgated.mpr ⟨hsender, hacs, hsafety⟩)
  · intro hmatched
    split at hmatched
    · cases hmatched
    next hon =>
    simp only [Bool.or_eq_true, Bool.not_eq_true', not_or, Bool.not_eq_false,
      Bool.not_eq_true] at hon
    obtain ⟨hsender, hacs, hsafety⟩ := hgated.mp (Option.some.inj hmatched)
    exact ⟨hid, hon.1, hon.2, hsender, hacs, hsafety⟩

/-- **Delivery without a capability.**  With the constitution in force and any reachable
capability store, a message that is delivered was sent under a valid capability of its
sender, if it names one or the matched rule asks for one, exactly if it is not one that slips
through. -/
theorem gated_send_iff (hrules : k.governance.rules = genesisEngine)
    (hreach : CapabilityStore.Reachable c k.store)
    (hsend : k.send c header payload nonce = .ok (k', .ok ())) :
    (k.CapabilityDue header → HoldsCapability k'.store header) ↔ ¬ k.SlipsThrough header := by
  cases send_cases hsend with
  | routed hpolicy hcheck hroute =>
    by_cases hid : header.capabilityId = 0
    · -- the check is skipped, and no token has the id 0
      have hnone := hreach.wf.get_zero
      rw [slipsThrough_iff hrules hnone hid]
      obtain rfl := checkCapability_unnamed hid hcheck
      have hbare : ¬ HoldsCapability k.store header := by
        rintro ⟨st, hst, -⟩
        simp [hid, hnone] at hst
      simp [CapabilityDue, hid, hbare]
    · have hholds := holdsCapability_of_check hid hcheck
      exact iff_of_true (fun _ => hholds) fun hslips => hid hslips.unnamed

/-! ### The gap -/

/-- Process 2 owns capability 1, which permits writing. -/
def ownerStore : CapabilityStore := Machine.final (CapabilityStore.step Crypto.zero) .new
  [.create 7 Perm.write 2 none none]

lemma reachable_ownerStore : CapabilityStore.Reachable Crypto.zero ownerStore :=
  Machine.Reachable.of_returns rfl

/-- A kernel in the `Safe` state with this store and two registered processes of normal
priority. -/
def safeKernel : Kernel :=
  { boot Crypto.zero with
    governance := { GovernanceEngine.new.init with safety := ⟨.safe, 0, 2⟩ }
    priorityOf := fun _ => some 2
    store := ownerStore
    router := Machine.final (BusRouter.step Crypto.zero) BusRouter.new.init
      [.register 2, .register 3] }

/-- A message of process 2 to process 3 under a capability. -/
def gatedHeader (capabilityId : UInt64) : MessageHeader where
  version := MessageHeader.version1
  msgType := 0
  sender := 2
  receiver := 3
  payloadLen := 0
  capabilityId := capabilityId
  sequence := 1
  timestamp := 0

/-- The rule asks for a valid capability, and the message goes through without one. -/
theorem safe_state_send_without_capability :
    safeKernel.governance.rules = genesisEngine ∧
    CapabilityStore.Reachable Crypto.zero safeKernel.store ∧
    safeKernel.matchedAction (gatedHeader 0) = some .allowIfCapValid ∧
    ∃ k', safeKernel.send Crypto.zero (gatedHeader 0) none 1 = .ok (k', .ok ()) ∧
      ¬ HoldsCapability k'.store (gatedHeader 0) := by
  refine ⟨rfl, reachable_ownerStore, rfl, _, rfl, ?_⟩
  rintro ⟨st, hst, -⟩
  have hnone : safeKernel.store.tokens.get 0 = none := rfl
  cases hst.symm.trans hnone

/-- Under its capability the same message is delivered as it should be. -/
theorem gated_send_with_capability :
    ∃ k', safeKernel.send Crypto.zero (gatedHeader 1) none 1 = .ok (k', .ok ()) ∧
      HoldsCapability k'.store (gatedHeader 1) := by
  have hsend : ∃ k', safeKernel.send Crypto.zero (gatedHeader 1) none 1 = .ok (k', .ok ()) :=
    ⟨_, rfl⟩
  obtain ⟨k', hsend⟩ := hsend
  have hiff := gated_send_iff rfl reachable_ownerStore hsend
  refine ⟨k', hsend, hiff.mpr (fun hslips => ?_) (Or.inl (by decide))⟩
  exact absurd hslips.unnamed (by decide)

end Fabric.Kernel
