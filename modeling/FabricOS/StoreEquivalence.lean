/-
Stores that answer alike.

A nonce that is refused may leave an entry behind in the nonce tracker: the first use
of a capability with nonce 0 files the last accepted nonce 0, which is what a missing
entry means as well.  Stores that differ in such entries only are `Alike`, and give the
same answers to every list of operations (`Alike.outputs_eq`).

A use that the budget refuses has used up its nonce.
-/
import FabricOS.CapabilityInvariant

open Machine

namespace Fabric

open Exec NonceTracker CapabilityStore

namespace CapabilityStore

variable {c : Crypto} {s s' s1 : CapabilityStore} {t : UInt64}

/-- Equal but for the entries of the nonce tracker, which mean the same. -/
structure Alike (s s' : CapabilityStore) : Prop where
  tokens : s'.tokens = s.tokens
  nextId : s'.nextId = s.nextId
  budgetTracker : s'.budgetTracker = s.budgetTracker
  currentTick : s'.currentTick = s.currentTick
  last : ∀ k, s'.nonceTracker.last k = s.nonceTracker.last k

lemma Alike.refl (s : CapabilityStore) : Alike s s := ⟨rfl, rfl, rfl, rfl, fun _ => rfl⟩

/-! ### Operations that do not look at nonces -/

lemma Alike.create (h : Alike s s') (resource : ResourceId) (permissions : Perm)
    (owner : ProcessId) (expires : Option UInt32) (budget : Option Budget) :
    Agree Alike (s.create c resource permissions owner expires budget)
      (s'.create c resource permissions owner expires budget) := by
  simp only [CapabilityStore.create, CapabilityStore.allocId, h.tokens, h.nextId]
  split
  · exact ⟨h, rfl⟩
  split
  · simp only [ok_bind, mint, h.currentTick]
    exact ⟨⟨rfl, rfl, h.budgetTracker, rfl, h.last⟩, rfl⟩
  · trivial

lemma Alike.delegate (h : Alike s s') (parentId : UInt64) (newOwner : ProcessId)
    (permissions : Perm) (expires : Option UInt32) (budget : Option Budget) :
    Agree Alike (s.delegate c parentId newOwner permissions expires budget)
      (s'.delegate c parentId newOwner permissions expires budget) := by
  simp only [CapabilityStore.delegate, CapabilityStore.allocId, h.tokens, h.nextId]
  split
  · exact ⟨h, rfl⟩
  split
  · exact ⟨h, rfl⟩
  split_ifs
  · exact ⟨h, rfl⟩
  · exact ⟨h, rfl⟩
  · simp only [ok_bind, mint, h.currentTick]
    exact ⟨⟨rfl, rfl, h.budgetTracker, rfl, h.last⟩, rfl⟩
  · trivial

/-! ### Revocation -/

lemma Alike.removeToken (h : Alike s s') (id : UInt64) :
    Alike (s.removeToken id) (s'.removeToken id) where
  tokens := by simp [CapabilityStore.removeToken, h.tokens]
  nextId := h.nextId
  budgetTracker := by simp [CapabilityStore.removeToken, h.budgetTracker]
  currentTick := h.currentTick
  last := by
    intro k
    have hlast := h.last k
    simp only [NonceTracker.last] at hlast
    simp only [CapabilityStore.removeToken, NonceTracker.last, NonceTracker.remove, Slab.get_remove]
    split_ifs
    · rfl
    · exact hlast

lemma Alike.setTokens (h : Alike s s') (tokens : Slab StoredToken) :
    Alike { s with tokens } { s' with tokens } :=
  ⟨rfl, h.nextId, h.budgetTracker, h.currentTick, h.last⟩

lemma Alike.nextSiblingOf (h : Alike s s') (id : UInt64) :
    s'.nextSiblingOf id = s.nextSiblingOf id := by
  simp only [CapabilityStore.nextSiblingOf, h.tokens]

lemma Alike.firstChildOf (h : Alike s s') (id : UInt64) :
    s'.firstChildOf id = s.firstChildOf id := by
  simp only [CapabilityStore.firstChildOf, h.tokens]

lemma Alike.unlinkFrom (h : Alike s s') {childId childNext : UInt64} {fuel : ℕ} {prevId : UInt64}
    (hr : s.unlinkFrom childId childNext fuel prevId = .ok s1) :
    ∃ s1', s'.unlinkFrom childId childNext fuel prevId = .ok s1' ∧ Alike s1 s1' := by
  induction fuel generalizing prevId with
  | zero => simp [CapabilityStore.unlinkFrom] at hr
  | succ fuel ih =>
    simp only [CapabilityStore.unlinkFrom, h.nextSiblingOf, h.tokens] at hr ⊢
    split_ifs at hr ⊢
    · exact ⟨s', rfl, ok.inj hr ▸ h⟩
    · exact ⟨_, rfl, ok.inj hr ▸ h.setTokens _⟩
    · exact ih hr

lemma Alike.unlinkChild (h : Alike s s') {parentId childId : UInt64}
    (hr : s.unlinkChild parentId childId = .ok s1) :
    ∃ s1', s'.unlinkChild parentId childId = .ok s1' ∧ Alike s1 s1' := by
  simp only [CapabilityStore.unlinkChild, h.nextSiblingOf, h.firstChildOf, h.tokens] at hr ⊢
  split_ifs at hr ⊢
  · exact ⟨_, rfl, ok.inj hr ▸ h.setTokens _⟩
  · exact h.unlinkFrom hr

lemma Alike.collectFrom (h : Alike s s') (fuel : ℕ) (childId : UInt64) :
    s'.collectFrom fuel childId = s.collectFrom fuel childId := by
  induction fuel generalizing childId with
  | zero => rfl
  | succ fuel ih => simp only [CapabilityStore.collectFrom, h.nextSiblingOf, ih]

lemma Alike.collectChildren (h : Alike s s') (parentId : UInt64) :
    s'.collectChildren parentId = s.collectChildren parentId := by
  simp only [CapabilityStore.collectChildren, h.tokens, h.firstChildOf, h.collectFrom]

lemma Alike.revokeLoop {fuel : ℕ} {stack : List UInt64} {count n : ℕ} (h : Alike s s')
    (hr : revokeLoop fuel s stack count = .ok (s1, n)) :
    ∃ s1', revokeLoop fuel s' stack count = .ok (s1', n) ∧ Alike s1 s1' := by
  induction fuel generalizing s s' stack count with
  | zero => simp [revokeLoop] at hr
  | succ fuel ih =>
    cases stack with
    | nil =>
      simp only [revokeLoop, ok.injEq, Prod.mk.injEq] at hr ⊢
      obtain ⟨rfl, rfl⟩ := hr
      exact ⟨s', ⟨rfl, rfl⟩, h⟩
    | cons id stack =>
      simp only [revokeLoop, bind_eq_ok] at hr
      obtain ⟨children, hchildren, hr⟩ := hr
      simp only [revokeLoop, h.collectChildren, hchildren, ok_bind, h.tokens]
      split_ifs at hr ⊢
      · exact ih (h.removeToken id) hr
      · exact ih (h.setTokens _) hr

lemma Alike.revoke {r : Except CapabilityError ℕ} (h : Alike s s')
    (hr : s.revoke t = .ok (s1, r)) : ∃ s1', s'.revoke t = .ok (s1', r) ∧ Alike s1 s1' := by
  unfold CapabilityStore.revoke at hr ⊢
  rw [h.tokens]
  cases hst : s.tokens.get t with
  | none =>
    simp only [hst] at hr
    cases hr
    exact ⟨s', rfl, h⟩
  | some stored =>
    simp only [hst, bind_eq_ok] at hr
    obtain ⟨s2, hunlink, ⟨s3, n⟩, hloop, hr⟩ := hr
    cases hr
    have hunlink' : ∃ s2', (if stored.token.delegatedFrom ≠ 0 then
        s'.unlinkChild stored.token.delegatedFrom t else .ok s' : Exec _) = .ok s2' ∧
          Alike s2 s2' := by
      split_ifs at hunlink ⊢
      · exact h.unlinkChild hunlink
      · exact ⟨s', rfl, ok.inj hunlink ▸ h⟩
    obtain ⟨s2', hunlink', h2⟩ := hunlink'
    -- the fuel of the loop is read off the tokens, which are the same
    rw [← h2.tokens] at hloop
    obtain ⟨s3', hloop', h3⟩ := h2.revokeLoop hloop
    exact ⟨s3', by simp only [hunlink', ok_bind, hloop'], h3⟩

/-! ### Validation -/

lemma Wf.room_nonce (h : Wf c s) (ht : t ∈ s.tokens.keys) : s.nonceTracker.lastSeen.Room t :=
  Slab.Room.of_subset h.nonces ht

lemma Wf.room_usage (h : Wf c s) (ht : t ∈ s.tokens.keys) : s.budgetTracker.usage.Room t :=
  Slab.Room.of_subset h.usage ht

variable {nonce : UInt32}

lemma Alike.checkAndAdvance (h : Alike s s') {nt nt' : NonceTracker}
    {accepted accepted' : Bool} (hn : s.nonceTracker.checkAndAdvance t nonce = .ok (nt, accepted))
    (hn' : s'.nonceTracker.checkAndAdvance t nonce = .ok (nt', accepted')) :
    accepted' = accepted ∧ ∀ k, nt'.last k = nt.last k := by
  obtain ⟨rfl, hget⟩ := checkAndAdvance_cases hn
  obtain ⟨rfl, hget'⟩ := checkAndAdvance_cases hn'
  rw [h.last t]
  refine ⟨rfl, fun k => ?_⟩
  simp only [NonceTracker.last, hget, hget']
  have hlast := h.last
  simp only [NonceTracker.last] at hlast
  split_ifs <;> simp_all

lemma Alike.validate (h : Alike s s') (hwf : Wf c s) (hwf' : Wf c s') (requiredPerm : Perm)
    (nonce : UInt32) :
    Agree Alike (s.validate c t requiredPerm nonce)
      (s'.validate c t requiredPerm nonce) := by
  unfold CapabilityStore.validate
  rw [h.tokens]
  cases hst : s.tokens.get t with
  | none => exact ⟨h, rfl⟩
  | some st =>
    have ht : t ∈ s.tokens.keys := s.tokens.mem_keys.mpr ⟨st, hst⟩
    simp only [h.currentTick]
    split_ifs
    · exact ⟨h, rfl⟩
    · exact ⟨h, rfl⟩
    · exact ⟨h, rfl⟩
    -- both trackers have room for a live token, so neither aborts
    obtain ⟨⟨nt, accepted⟩, hn, -⟩ := checkAndAdvance_spec nonce (hwf.room_nonce ht)
    obtain ⟨⟨nt', accepted'⟩, hn', -⟩ :=
      checkAndAdvance_spec nonce (hwf'.room_nonce (h.tokens ▸ ht))
    obtain ⟨rfl, hlast⟩ := h.checkAndAdvance hn hn'
    simp only [hn, hn', ok_bind]
    cases accepted' with
    | false => exact ⟨⟨rfl, h.nextId, h.budgetTracker, rfl, hlast⟩, rfl⟩
    | true =>
      cases st.budget with
      | none => exact ⟨⟨rfl, h.nextId, h.budgetTracker, rfl, hlast⟩, rfl⟩
      | some b =>
        obtain ⟨⟨bt, allowed⟩, hb, -⟩ :=
          BudgetTracker.checkAndConsume_spec b s.currentTick (hwf.room_usage ht)
        simp only [h.budgetTracker, hb, ok_bind]
        cases allowed <;> exact ⟨⟨rfl, h.nextId, rfl, rfl, hlast⟩, rfl⟩

/-! ### Runs -/

lemma Alike.step (h : Alike s s') (hwf : Wf c s) (hwf' : Wf c s') (op : Op) :
    Agree (fun s s' => Alike s s' ∧ Wf c s ∧ Wf c s') (step c s op) (step c s' op) := by
  refine Agree.and ?_ hwf.step hwf'.step
  cases op with
  | create resource permissions owner expires budget =>
    exact (h.create resource permissions owner expires budget).rename Answer.id
  | delegate parentId newOwner permissions expires budget =>
    exact (h.delegate parentId newOwner permissions expires budget).rename Answer.id
  | validate tokenId requiredPerm nonce =>
    exact (h.validate hwf hwf' requiredPerm nonce).rename Answer.checked
  | revoke tokenId =>
    obtain ⟨⟨s1, r⟩, hr⟩ := revoke_returns hwf.forest tokenId
    obtain ⟨s1', hr', halike⟩ := h.revoke hr
    simp only [CapabilityStore.step, hr, hr', ok_bind]
    exact ⟨halike, rfl⟩
  | tick =>
    have htick : s'.tick.currentTick = s.tick.currentTick := by simp [tick, h.currentTick]
    exact ⟨⟨h.tokens, h.nextId, h.budgetTracker, htick, h.last⟩, rfl⟩

lemma Alike.outputs_eq (h : Alike s s') (hwf : Wf c s) (hwf' : Wf c s') (ops : List Op) :
    outputs (CapabilityStore.step c) s ops = outputs (CapabilityStore.step c) s' ops :=
  (run_eq_of_sim (R := fun s s' => Alike s s' ∧ Wf c s ∧ Wf c s')
    (fun op hR => hR.1.step hR.2.1 hR.2.2 op) ops ⟨h, hwf, hwf'⟩).outputs_eq

/-! ### What a use leaves behind -/

/-- The budget of the token, if it has one, allows a use. -/
def WithinBudget (s : CapabilityStore) (t : UInt64) (st : StoredToken) : Prop :=
  ∀ b, st.budget = some b → (s.budgetTracker.current t b s.currentTick).1 < b.maxUses

def Fresh (s : CapabilityStore) (t : UInt64) (nonce : UInt32) : Prop :=
  nonce > s.nonceTracker.last t

lemma alike_of_stale {nt : NonceTracker} (hstale : ¬ s.Fresh t nonce)
    (hget : ∀ k, nt.lastSeen.get k = if k = t then
      some (if nonce > s.nonceTracker.last t then nonce else s.nonceTracker.last t)
      else s.nonceTracker.lastSeen.get k) : Alike s { s with nonceTracker := nt } := by
  refine ⟨rfl, rfl, rfl, rfl, fun k => ?_⟩
  have hstale : ¬ nonce > s.nonceTracker.last t := hstale
  simp only [if_neg hstale] at hget
  by_cases hk : k = t <;> simp [last, hget, hk]

/-- **A use of a live token.**  It is accepted iff the first checks pass, the nonce is new
and the budget allows it.  If the first checks pass and the nonce is new, the nonce is used
up; otherwise the store is like before. -/
theorem Wf.validate_live {st : StoredToken} (h : Wf c s) (hst : s.tokens.get t = some st)
    (requiredPerm : Perm) (nonce : UInt32) :
    ∃ s' r, s.validate c t requiredPerm nonce = .ok (s', r) ∧ s'.tokens = s.tokens ∧
      (r = .ok () ↔ Admits c s st requiredPerm ∧ s.Fresh t nonce ∧ s.WithinBudget t st) ∧
      (Admits c s st requiredPerm ∧ s.Fresh t nonce → s'.nonceTracker.last t = nonce) ∧
      (¬ (Admits c s st requiredPerm ∧ s.Fresh t nonce) → Alike s s') := by
  have ht : t ∈ s.tokens.keys := s.tokens.mem_keys.mpr ⟨st, hst⟩
  unfold CapabilityStore.validate
  simp only [hst]
  split_ifs with hmac hexpired hperm
  · exact ⟨s, _, rfl, rfl, by simp [Admits, hmac], fun hin => absurd hin.1.1 hmac,
      fun _ => .refl s⟩
  · exact ⟨s, _, rfl, rfl, by simp [Admits, hexpired], fun hin => by simp [Admits, hexpired] at hin,
      fun _ => .refl s⟩
  · have hperm : st.token.permissions.contains requiredPerm = false := by simpa using hperm
    exact ⟨s, _, rfl, rfl, by simp [Admits, hperm], fun hin => by simp [Admits, hperm] at hin,
      fun _ => .refl s⟩
  have hadmits : Admits c s st requiredPerm := by simp_all [Admits]
  obtain ⟨⟨nt, accepted⟩, hn, haccepted, hget⟩ :=
    checkAndAdvance_spec nonce (h.room_nonce ht)
  simp only [hn, ok_bind]
  by_cases hfresh : s.Fresh t nonce
  · have hfresh' : nonce > s.nonceTracker.last t := hfresh
    have hlast : nt.last t = nonce := by
      simp [last] at hget hfresh' ⊢
      simp [hget, hfresh']
    have haccepted : accepted = true := by simpa [hfresh'] using haccepted
    simp only [haccepted, Bool.not_true, Bool.false_eq_true, if_false]
    cases hb : st.budget with
    | none =>
      exact ⟨_, _, rfl, rfl, by simp [hadmits, hfresh, WithinBudget, hb], fun _ => hlast,
        fun hout => absurd ⟨hadmits, hfresh⟩ hout⟩
    | some b =>
      obtain ⟨⟨bt, allowed⟩, hbt, hallowed, -⟩ :=
        BudgetTracker.checkAndConsume_spec b s.currentTick (h.room_usage ht)
      simp only [hbt, ok_bind]
      have hwithin : s.WithinBudget t st ↔ allowed = true := by
        simp only at hallowed
        simp [WithinBudget, hb, hallowed]
      cases allowed with
      | false => exact ⟨_, _, rfl, rfl, by simp [hwithin], fun _ => hlast,
          fun hout => absurd ⟨hadmits, hfresh⟩ hout⟩
      | true => exact ⟨_, _, rfl, rfl, by simp [hwithin, hadmits, hfresh], fun _ => hlast,
          fun hout => absurd ⟨hadmits, hfresh⟩ hout⟩
  · have hstale : ¬ nonce > s.nonceTracker.last t := hfresh
    have haccepted : accepted = false := by simpa [hstale] using haccepted
    simp only [haccepted, Bool.not_false, if_true]
    exact ⟨_, _, rfl, rfl, by simp [hfresh], fun hin => absurd hin.2 hfresh,
      fun _ => alike_of_stale hfresh hget⟩

/-! ### Uses that are refused -/

/-- If the use is refused, every later list of operations is answered as if it had not been
made. -/
def RefusalUnnoticed (c : Crypto) (s : CapabilityStore) (t : UInt64) (requiredPerm : Perm)
    (nonce : UInt32) : Prop :=
  ∀ s' e, s.validate c t requiredPerm nonce = .ok (s', .error e) →
    ∀ ops, outputs (step c) s' ops = outputs (step c) s ops

def LosesNonce (c : Crypto) (s : CapabilityStore) (t : UInt64) (requiredPerm : Perm)
    (nonce : UInt32) : Prop :=
  ∃ st, s.tokens.get t = some st ∧ Admits c s st requiredPerm ∧ s.Fresh t nonce ∧
    ¬ s.WithinBudget t st

lemma Wf.validate_of_losesNonce {requiredPerm : Perm} (h : Wf c s)
    (hloses : LosesNonce c s t requiredPerm nonce) :
    ∃ s', s.validate c t requiredPerm nonce = .ok (s', .error .budgetExhausted) ∧
      s'.tokens = s.tokens ∧ s'.currentTick = s.currentTick ∧ ¬ s'.Fresh t nonce := by
  obtain ⟨st, hst, hadmits, hfresh, hbudget⟩ := hloses
  obtain ⟨s', r, hvalidate, htokens, haccepted, hused, -⟩ := h.validate_live hst requiredPerm nonce
  have hlast : s'.nonceTracker.last t = nonce := hused ⟨hadmits, hfresh⟩
  have hstale : ¬ s'.Fresh t nonce := by simp [Fresh, hlast]
  have hrefused : r ≠ .ok () := fun hr => hbudget (haccepted.mp hr).2.2
  obtain ⟨-, -, hnot⟩ | ⟨st', nt, -, -, htrackers⟩ := validate_cases hvalidate
  · exact absurd hadmits (hnot st hst)
  obtain ⟨hnonce, -, -⟩ | ⟨-, ⟨-, -, rfl⟩ | ⟨b, bt, ok, -, -, hs', rfl⟩⟩ := htrackers
  · -- the nonce was new, so the tracker has accepted it
    have haccepts := (checkAndAdvance_cases hnonce).1
    have hfresh : nonce > s.nonceTracker.last t := hfresh
    simp [hfresh] at haccepts
  · exact absurd rfl hrefused
  · cases ok with
    | true => exact absurd rfl hrefused
    | false => exact ⟨s', hvalidate, htokens, by rw [hs'], hstale⟩

lemma validate_stale {st : StoredToken} {requiredPerm : Perm}
    {r : Except CapabilityError Unit} (hst : s.tokens.get t = some st)
    (hadmits : Admits c s st requiredPerm) (hstale : ¬ s.Fresh t nonce)
    (h : s.validate c t requiredPerm nonce = .ok (s', r)) : r = .error .nonceReplay := by
  obtain ⟨-, -, hnot⟩ | ⟨st', nt, -, -, ⟨-, -, hr⟩ | ⟨hnonce, -⟩⟩ := validate_cases h
  · exact absurd hadmits (hnot st hst)
  · exact hr
  · have haccepts := (checkAndAdvance_cases hnonce).1
    have hstale : ¬ nonce > s.nonceTracker.last t := hstale
    simp [hstale] at haccepts

/-- **A use that is refused goes unnoticed** exactly if it is not the budget alone that refuses
it. -/
theorem refused_use_unnoticed_iff (h : Reachable c s) (t : UInt64) (requiredPerm : Perm)
    (nonce : UInt32) :
    RefusalUnnoticed c s t requiredPerm nonce ↔ ¬ LosesNonce c s t requiredPerm nonce := by
  constructor
  · intro hunnoticed hloses
    obtain ⟨s', hvalidate, htokens, htick, hstale⟩ := h.wf.validate_of_losesNonce hloses
    obtain ⟨st, hst, hadmits, -, -⟩ := hloses
    have hst' : s'.tokens.get t = some st := by rw [htokens, hst]
    have hadmits' : Admits c s' st requiredPerm := by simpa only [Admits, htick] using hadmits
    have hstep : step c s (.validate t requiredPerm nonce) =
        .ok (s', .checked (.error .budgetExhausted)) := by simp [step, hvalidate]
    -- the same use once more: it is now its nonce that is refused
    obtain ⟨s1, r, hvalidate1, -⟩ := (h.wf.step hstep).validate_live hst' requiredPerm nonce
    obtain rfl := validate_stale hst' hadmits' hstale hvalidate1
    have hagain := hunnoticed s' _ hvalidate [.validate t requiredPerm nonce]
    simp [outputs, Machine.run, step, hvalidate, hvalidate1] at hagain
  · intro hkept s' e hvalidate ops
    cases hst : s.tokens.get t with
    | none =>
      simp only [validate, hst, ok.injEq, Prod.mk.injEq] at hvalidate
      rw [hvalidate.1]
    | some st =>
      obtain ⟨s1, r, hvalidate1, -, haccepted, -, halike⟩ :=
        h.wf.validate_live hst requiredPerm nonce
      obtain ⟨rfl, rfl⟩ : s1 = s' ∧ r = .error e := by simpa [hvalidate] using hvalidate1.symm
      have hearly : ¬ (Admits c s st requiredPerm ∧ s.Fresh t nonce) := by
        rintro ⟨hadmits, hfresh⟩
        have hbudget : s.WithinBudget t st := by
          by_contra hbudget
          exact hkept ⟨st, hst, hadmits, hfresh, hbudget⟩
        simpa using haccepted.mpr ⟨hadmits, hfresh, hbudget⟩
      have hstep : step c s (.validate t requiredPerm nonce) = .ok (s1, .checked (.error e)) := by
        simp [step, hvalidate]
      exact ((halike hearly).outputs_eq h.wf (h.wf.step hstep) ops).symm

/-- **When a use is accepted**: the HMAC check refuses no token of a reachable store. -/
theorem accepts_iff {st : StoredToken} (h : Reachable c s) (hst : s.tokens.get t = some st)
    (perm : Perm) (nonce : UInt32) : ∃ s' r, s.validate c t perm nonce = .ok (s', r) ∧
      (r = .ok () ↔ st.expiredAt s.currentTick = false ∧ st.token.permissions.contains perm ∧
        s.Fresh t nonce ∧ s.WithinBudget t st) := by
  obtain ⟨s', r, hvalidate, -, haccepts, -⟩ := h.wf.validate_live hst perm nonce
  refine ⟨s', r, hvalidate, haccepts.trans ?_⟩
  simp only [Admits, (h.wf.genuine t st hst).signed, true_and, and_assoc]

/-- Capability 1 may be used twice in a tick, and has been used twice. -/
def spentStore : CapabilityStore := final (step Crypto.zero) .new
  [.create 7 Perm.write 2 none (some ⟨2, 1⟩), .validate 1 Perm.write 1, .validate 1 Perm.write 2]

/-- The budget refuses the use.  Made in the next tick it would have been accepted, but not if
it has been refused before. -/
theorem refused_use_burns_nonce :
    outputs (step Crypto.zero) spentStore [.tick, .validate 1 Perm.write 3] =
      .ok [.ticked, .checked (.ok ())] ∧
    outputs (step Crypto.zero) spentStore
        [.validate 1 Perm.write 3, .tick, .validate 1 Perm.write 3] =
      .ok [.checked (.error .budgetExhausted), .ticked, .checked (.error .nonceReplay)] :=
  ⟨rfl, rfl⟩

/-- A use that the nonce itself refuses goes unnoticed. -/
theorem replayed_use_unnoticed : RefusalUnnoticed Crypto.zero spentStore 1 Perm.write 2 := by
  refine (refused_use_unnoticed_iff (s := spentStore) (.of_returns rfl) 1 Perm.write 2).mpr ?_
  rintro ⟨st, -, -, hfresh, -⟩
  have hlast : spentStore.nonceTracker.last 1 = 2 := rfl
  simp [Fresh, hlast] at hfresh

theorem spent_returns : ∃ s' r, spentStore.validate .zero 1 Perm.write 3 = .ok (s', r) :=
  have ⟨s', r, h, _⟩ := accepts_iff (.of_returns rfl) rfl Perm.write 3
  ⟨s', r, h⟩

end CapabilityStore

end Fabric
