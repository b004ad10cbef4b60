/-
Sends under another process's capability.

A send that names a capability of another process fails, but only after `validate` has
been asked: if the use would have been admitted, the presented nonce has been recorded
(and a use may have been charged to the budget) when the owner is compared.  Whoever
knows the id of a capability can so use up the nonces of its owner.
-/
import FabricOS.BusSend

namespace Fabric.Kernel

variable {c : Crypto} {k : Kernel} {header : MessageHeader} {payload : Option (List UInt8)}
  {nonce : UInt32}

/-- The send fails, the capability it names has the accepted nonce and the usage it had, and
every later list of store operations is answered as if it had not been made. -/
def Unaffected (c : Crypto) (k : Kernel) (header : MessageHeader) (payload : Option (List UInt8))
    (nonce : UInt32) : Prop :=
  ∃ k' e, k.send c header payload nonce = .ok (k', .error e) ∧
    k'.store.nonceTracker.last header.capabilityId =
      k.store.nonceTracker.last header.capabilityId ∧
    k'.store.budgetTracker.usage.get header.capabilityId =
      k.store.budgetTracker.usage.get header.capabilityId ∧
    ∀ ops, Machine.outputs (CapabilityStore.step c) k'.store ops =
      Machine.outputs (CapabilityStore.step c) k.store ops

lemma unaffected_of_alike {k' : Kernel} {e : BusError}
    (hsend : k.send c header payload nonce = .ok (k', .error e))
    (hreach : CapabilityStore.Reachable c k.store) (hreach' : CapabilityStore.Reachable c k'.store)
    (halike : CapabilityStore.Alike k.store k'.store) : k.Unaffected c header payload nonce :=
  ⟨k', e, hsend, halike.last _, by rw [halike.budgetTracker], fun ops =>
    (halike.outputs_eq hreach.wf hreach'.wf ops).symm⟩

/-- **A foreign send goes unnoticed** exactly if the policy stops it, or the capability is
expired or does not permit writing, or the nonce is not above the last accepted one. -/
theorem foreign_send_unaffected_iff {st : StoredToken}
    (hreach : CapabilityStore.Reachable c k.store)
    (hst : k.store.tokens.get header.capabilityId = some st)
    (howner : st.token.owner ≠ header.sender) (payload : Option (List UInt8)) (nonce : UInt32) :
    k.Unaffected c header payload nonce ↔
      ¬ (k.PolicyAdmits c header ∧ st.expiredAt k.store.currentTick = false ∧
        st.token.permissions.contains Perm.write = true ∧
        k.store.Fresh header.capabilityId nonce) := by
  obtain ⟨s', r, hcheck, haccepts, hused, halike⟩ := checkCapability_live hreach.wf hst nonce
  -- reachable stores hold signed tokens only, so the HMAC check passes
  have hadmits : CapabilityStore.Admits c k.store st Perm.write ↔
      st.expiredAt k.store.currentTick = false ∧
        st.token.permissions.contains Perm.write = true :=
    and_iff_right (hreach.wf.genuine _ st hst).signed
  have hrefused : ∃ e, r = .error e := by
    cases r with
    | error e => exact ⟨e, rfl⟩
    | ok u => exact absurd (haccepts.mp rfl).2 howner
  obtain ⟨e, rfl⟩ := hrefused
  constructor
  · rintro ⟨k', e', hsend, hlast, -⟩ ⟨hpolicy, hexpired, hperm, hfresh⟩
    have hstore : k'.store = s' := by
      simp only [send, PolicyAdmits] at hsend hpolicy
      simp only [hpolicy, judged, hcheck, Exec.ok_bind, Exec.ok.injEq, Prod.mk.injEq] at hsend
      rw [← hsend.1]
    rw [hstore, hused ⟨hadmits.mpr ⟨hexpired, hperm⟩, hfresh⟩] at hlast
    exact absurd hfresh (by simp [CapabilityStore.Fresh, hlast])
  · intro hstopped
    cases hpolicy : (k.evaluatePolicy c header).2.2 with
    | error e' =>
      have hsend : k.send c header payload nonce = .ok (k.judged c header, .error e') := by
        simp only [send, hpolicy]
      exact unaffected_of_alike hsend hreach hreach (.refl _)
    | ok u =>
      have hout : ¬ (CapabilityStore.Admits c k.store st Perm.write ∧
          k.store.Fresh header.capabilityId nonce) := by
        rw [hadmits]
        exact fun hin => hstopped ⟨hpolicy, hin.1.1, hin.1.2, hin.2⟩
      have hsend : k.send c header payload nonce =
          .ok ({ k.judged c header with store := s' }, .error e) := by
        simp only [send, hpolicy, judged, hcheck, Exec.ok_bind]
      exact unaffected_of_alike hsend hreach (checkCapability_reachable hreach hcheck) (halike hout)

/-! ### An attack -/

/-- Process 2 owns capability 1, which permits writing. -/
def victimStore : CapabilityStore := Machine.final (CapabilityStore.step Crypto.zero) .new
  [.create 7 Perm.write 2 none none]

lemma reachable_victimStore : CapabilityStore.Reachable Crypto.zero victimStore :=
  Machine.Reachable.of_returns rfl

def victimKernel : Kernel := { boot Crypto.zero with store := victimStore }

def foreignHeader : MessageHeader where
  version := MessageHeader.version1
  msgType := 0
  sender := 3
  receiver := 2
  payloadLen := 0
  capabilityId := 1
  sequence := 1
  timestamp := 0

def attackedKernel : Kernel :=
  match victimKernel.send Crypto.zero foreignHeader none 5 with
  | .ok (k, _) => k
  | _ => victimKernel

/-- The message is refused, but has advanced the nonce: the owner's next use, which would
have been accepted, is taken for a replay. -/
theorem foreign_send_burns_nonce :
    victimKernel.send Crypto.zero foreignHeader none 5 =
      .ok (attackedKernel, .error .ownerMismatch) ∧
    victimKernel.store.nonceTracker.last 1 = 0 ∧ attackedKernel.store.nonceTracker.last 1 = 5 ∧
    Prod.snd <$> victimKernel.store.validate Crypto.zero 1 Perm.write 1 = .ok (.ok ()) ∧
    Prod.snd <$> attackedKernel.store.validate Crypto.zero 1 Perm.write 1 =
      .ok (.error .nonceReplay) :=
  ⟨rfl, rfl, rfl, rfl, rfl⟩

/-- With a nonce that is not new the same message does no harm. -/
theorem stale_foreign_send_unaffected :
    ∃ st, victimStore.tokens.get 1 = some st ∧ st.token.owner ≠ foreignHeader.sender ∧
      victimKernel.Unaffected Crypto.zero foreignHeader none 0 := by
  have hlive : ∃ st, victimStore.tokens.get 1 = some st := Option.isSome_iff_exists.mp rfl
  obtain ⟨st, hst⟩ := hlive
  have howner : st.token.owner = 2 := by
    have hmap : (victimStore.tokens.get 1).map (·.token.owner) = some 2 := rfl
    simpa [hst] using hmap
  have hforeign : st.token.owner ≠ foreignHeader.sender := by
    rw [howner]
    decide
  have hlast : victimKernel.store.nonceTracker.last 1 = 0 := rfl
  refine ⟨st, hst, hforeign,
    (foreign_send_unaffected_iff reachable_victimStore hst hforeign none 0).mpr ?_⟩
  rintro ⟨-, -, -, hfresh⟩
  simp [CapabilityStore.Fresh, foreignHeader, hlast] at hfresh

end Fabric.Kernel
