/-
The invariant of the capability store.

For each operation an inversion lemma says everything it can do to the store
(`create_cases`, `delegate_cases`, `validate_cases`; `revoke_pruned` for `revoke`).
`Wf` is the invariant derived from them: the links are a forest, ids are fresh
and grow, tokens are signed and filed under their id, and usage is tracked for
live tokens only.
-/
import FabricOS.Revocation

open SiblingForest Finset

namespace Fabric

open Exec Slab NonceTracker

/-! ### Trackers -/

/-- The highest nonce accepted for a capability; 0 before the first. -/
def NonceTracker.last (t : NonceTracker) (capId : UInt64) : UInt32 :=
  (t.lastSeen.get capId).getD 0

variable {capId : UInt64}

/-- What `check_and_advance` answers and leaves. -/
def NonceTracker.Advances (t : NonceTracker) (capId : UInt64) (nonce : UInt32)
    (r : NonceTracker × Bool) : Prop :=
  r.2 = decide (nonce > t.last capId) ∧ ∀ k, r.1.lastSeen.get k = if k = capId then
    some (if nonce > t.last capId then nonce else t.last capId) else t.lastSeen.get k

lemma NonceTracker.checkAndAdvance_spec {t : NonceTracker}
    (nonce : UInt32) (hroom : t.lastSeen.Room capId) :
    (t.checkAndAdvance capId nonce).Post (t.Advances capId nonce) := by
  obtain ⟨m, hm, hget⟩ := t.lastSeen.getOrInsert_spec 0
    (fun e => if nonce > e then nonce else e) hroom
  simp only [checkAndAdvance, hm, ok_bind, post_ok]
  exact ⟨rfl, hget⟩

def BudgetTracker.current (t : BudgetTracker) (capId : UInt64) (budget : Budget) (tick : ℕ) :
    ℕ × ℕ :=
  refresh budget tick ((t.usage.get capId).getD (0, tick))

/-- What `check_and_consume` answers and leaves. -/
def BudgetTracker.Consumes (t : BudgetTracker) (capId : UInt64) (budget : Budget) (tick : ℕ)
    (r : BudgetTracker × Bool) : Prop :=
  r.2 = decide ((t.current capId budget tick).1 < budget.maxUses) ∧
    ∀ k, r.1.usage.get k = if k = capId then
      some (if (t.current capId budget tick).1 < budget.maxUses then
        ((t.current capId budget tick).1 + 1, (t.current capId budget tick).2)
        else t.current capId budget tick) else t.usage.get k

lemma BudgetTracker.checkAndConsume_spec {t : BudgetTracker}
    (budget : Budget) (tick : ℕ) (hroom : t.usage.Room capId) :
    (t.checkAndConsume capId budget tick).Post (t.Consumes capId budget tick) := by
  obtain ⟨m, hm, hget⟩ := t.usage.getOrInsert_spec (0, tick) (fun e =>
    if (refresh budget tick e).1 < budget.maxUses then
      ((refresh budget tick e).1 + 1, (refresh budget tick e).2) else refresh budget tick e) hroom
  simp only [checkAndConsume, hm, ok_bind, post_ok]
  exact ⟨rfl, hget⟩

variable {nonce : UInt32}

lemma NonceTracker.checkAndAdvance_cases {t t' : NonceTracker}
    {accepted : Bool} (h : t.checkAndAdvance capId nonce = .ok (t', accepted)) :
    t.Advances capId nonce (t', accepted) := by
  have hroom : t.lastSeen.Room capId := by
    by_contra hroom
    simp [checkAndAdvance, t.lastSeen.getOrInsert_full _ _ hroom] at h
  have hspec := checkAndAdvance_spec nonce hroom
  rwa [h, post_ok] at hspec

lemma BudgetTracker.checkAndConsume_cases {t t' : BudgetTracker}
    {budget : Budget} {tick : ℕ} {allowed : Bool}
    (h : t.checkAndConsume capId budget tick = .ok (t', allowed)) :
    t.Consumes capId budget tick (t', allowed) := by
  have hroom : t.usage.Room capId := by
    by_contra hroom
    simp [checkAndConsume, t.usage.getOrInsert_full _ _ hroom] at h
  have hspec := checkAndConsume_spec budget tick hroom
  rwa [h, post_ok] at hspec

namespace CapabilityStore

variable {c : Crypto} {s s' : CapabilityStore} {id t p : UInt64} {st : StoredToken}

/-! ### What each operation can do -/

def freshId (s : CapabilityStore) : UInt64 := UInt64.ofNat s.nextId

def added (s : CapabilityStore) (st : StoredToken) : CapabilityStore :=
  { s with nextId := s.nextId + 1, tokens := (s.tokens.insert s.freshId st).1 }

lemma allocId_cases {s1 : CapabilityStore} (h : s.allocId = .ok (id, s1)) :
    s.nextId + 1 < 2 ^ 64 ∧ id = s.freshId ∧ s1 = { s with nextId := s.nextId + 1 } := by
  unfold allocId at h
  split at h
  · next hid =>
    simp only [ok.injEq, Prod.mk.injEq] at h
    exact ⟨hid, h.1.symm, h.2.symm⟩
  · cases h

variable {permissions : Perm} {expires : Option UInt32} {budget : Option Budget}
  {r : Except CapabilityError CapabilityId}

lemma create_cases {resource : ResourceId} {owner : ProcessId}
    (h : s.create c resource permissions owner expires budget = .ok (s', r)) :
    (s' = s ∧ r = .error .storeFull) ∨
      (s.tokens.len < maxTokens ∧ s.nextId + 1 < 2 ^ 64 ∧ r = .ok s.freshId ∧
        s' = s.added
          (s.mint c s.freshId permissions owner resource 0 (expires.getD 0) budget 0)) := by
  unfold create at h
  by_cases hfull : s.tokens.len ≥ maxTokens
  · simp only [hfull, if_true, ok.injEq, Prod.mk.injEq] at h
    exact Or.inl ⟨h.1.symm, h.2.symm⟩
  simp only [hfull, if_false, bind_eq_ok] at h
  obtain ⟨⟨id, s1⟩, halloc, h⟩ := h
  obtain ⟨hid, rfl, rfl⟩ := allocId_cases halloc
  simp only [ok.injEq, Prod.mk.injEq] at h
  exact Or.inr ⟨by omega, hid, h.2.symm, h.1.symm⟩

/-- The child `delegate` makes of a parent. -/
def childOf (c : Crypto) (s : CapabilityStore) (parentId : UInt64) (parent : StoredToken)
    (newOwner : ProcessId) (permissions : Perm) (expires : Option UInt32)
    (budget : Option Budget) : StoredToken :=
  s.mint c s.freshId permissions newOwner parent.token.resource parentId
    (childExpires expires parent.token.expires) budget parent.firstChild

lemma delegate_cases {parentId : UInt64} {newOwner : ProcessId}
    (h : s.delegate c parentId newOwner permissions expires budget = .ok (s', r)) :
    (s' = s ∧ ∃ e, r = .error e) ∨
      ∃ parent, s.tokens.get parentId = some parent ∧
        parent.token.permissions.contains Perm.grant = true ∧
        permissions.isSubsetOf parent.token.permissions = true ∧
        s.tokens.len < maxTokens ∧ s.nextId + 1 < 2 ^ 64 ∧ r = .ok s.freshId ∧
        s' = (s.added (s.childOf c parentId parent newOwner permissions expires
          budget)).setFirstChild parentId s.freshId := by
  unfold delegate at h
  by_cases hfull : s.tokens.len ≥ maxTokens
  · simp only [hfull, if_true, ok.injEq, Prod.mk.injEq] at h
    exact Or.inl ⟨h.1.symm, _, h.2.symm⟩
  simp only [hfull, if_false] at h
  cases hget : s.tokens.get parentId with
  | none =>
    simp only [hget, ok.injEq, Prod.mk.injEq] at h
    exact Or.inl ⟨h.1.symm, _, h.2.symm⟩
  | some parent =>
    simp only [hget] at h
    by_cases hgrant : parent.token.permissions.contains Perm.grant = true
    · by_cases hsub : permissions.isSubsetOf parent.token.permissions = true
      · simp only [hgrant, hsub, Bool.not_true, Bool.false_eq_true, if_false, bind_eq_ok] at h
        obtain ⟨⟨id, s1⟩, halloc, h⟩ := h
        obtain ⟨hid, rfl, rfl⟩ := allocId_cases halloc
        simp only [ok.injEq, Prod.mk.injEq] at h
        exact Or.inr ⟨parent, rfl, hgrant, hsub, by omega, hid, h.2.symm, h.1.symm⟩
      · simp only [hgrant, hsub, Bool.not_true, Bool.false_eq_true, if_false,
          Bool.not_false, if_true, ok.injEq, Prod.mk.injEq] at h
        exact Or.inl ⟨h.1.symm, _, h.2.symm⟩
    · simp only [hgrant, Bool.not_false, if_true, ok.injEq, Prod.mk.injEq] at h
      exact Or.inl ⟨h.1.symm, _, h.2.symm⟩

/-- The checks of `validate` that come before anything is recorded. -/
def Admits (c : Crypto) (s : CapabilityStore) (st : StoredToken) (requiredPerm : Perm) : Prop :=
  c.hmac st.token.activeBytes = st.hmac ∧ st.expiredAt s.currentTick = false ∧
    st.token.permissions.contains requiredPerm = true

lemma validate_cases {requiredPerm : Perm} {r : Except CapabilityError Unit}
    (h : s.validate c t requiredPerm nonce = .ok (s', r)) :
    (s' = s ∧ (∃ e, r = .error e ∧ e ≠ .budgetExhausted) ∧
        ∀ st, s.tokens.get t = some st → ¬ Admits c s st requiredPerm) ∨
      ∃ st nt, s.tokens.get t = some st ∧ Admits c s st requiredPerm ∧
        ((s.nonceTracker.checkAndAdvance t nonce = .ok (nt, false) ∧
            s' = { s with nonceTracker := nt } ∧ r = .error .nonceReplay) ∨
          (s.nonceTracker.checkAndAdvance t nonce = .ok (nt, true) ∧
            ((st.budget = none ∧ s' = { s with nonceTracker := nt } ∧ r = .ok ()) ∨
              ∃ b bt ok, st.budget = some b ∧
                s.budgetTracker.checkAndConsume t b s.currentTick = .ok (bt, ok) ∧
                s' = { s with nonceTracker := nt, budgetTracker := bt } ∧
                r = if ok then .ok () else .error .budgetExhausted))) := by
  unfold validate at h
  cases hget : s.tokens.get t with
  | none =>
    simp only [hget, ok.injEq, Prod.mk.injEq] at h
    exact Or.inl ⟨h.1.symm, ⟨_, h.2.symm, by decide⟩, by simp⟩
  | some st =>
    simp only [hget] at h
    by_cases hmac : c.hmac st.token.activeBytes = st.hmac
    case neg =>
      simp only [ne_eq, hmac, not_false_eq_true, if_true, ok.injEq, Prod.mk.injEq] at h
      exact Or.inl ⟨h.1.symm, ⟨_, h.2.symm, by decide⟩, by simp [Admits, hmac]⟩
    simp only [ne_eq, hmac, not_true_eq_false, if_false] at h
    cases hexp : st.expiredAt s.currentTick with
    | true =>
      simp only [hexp, if_true, ok.injEq, Prod.mk.injEq] at h
      exact Or.inl ⟨h.1.symm, ⟨_, h.2.symm, by decide⟩, by simp [Admits, hexp]⟩
    | false =>
      simp only [hexp, Bool.false_eq_true, if_false] at h
      cases hperm : st.token.permissions.contains requiredPerm with
      | false =>
        simp only [hperm, Bool.not_false, if_true, ok.injEq, Prod.mk.injEq] at h
        exact Or.inl ⟨h.1.symm, ⟨_, h.2.symm, by decide⟩, by simp [Admits, hperm]⟩
      | true =>
        simp only [hperm, Bool.not_true, Bool.false_eq_true, if_false, bind_eq_ok] at h
        -- all the checks that record nothing have passed
        obtain ⟨⟨nt, accepted⟩, hnonce, h⟩ := h
        refine Or.inr ⟨st, nt, rfl, ⟨hmac, hexp, hperm⟩, ?_⟩
        cases accepted with
        | false =>
          simp only [Bool.not_false, if_true, ok.injEq, Prod.mk.injEq] at h
          exact Or.inl ⟨hnonce, h.1.symm, h.2.symm⟩
        | true =>
          refine Or.inr ⟨hnonce, ?_⟩
          simp only [Bool.not_true, Bool.false_eq_true, if_false] at h
          cases hb : st.budget with
          | none =>
            simp only [hb, ok.injEq, Prod.mk.injEq] at h
            exact Or.inl ⟨rfl, h.1.symm, h.2.symm⟩
          | some b =>
            simp only [hb, bind_eq_ok] at h
            obtain ⟨⟨bt, ok⟩, hbudget, h⟩ := h
            cases ok <;> simp_all

/-! ### The invariant -/

/-- A token as the store keeps it: filed under its id, signed, made in the past. -/
structure Genuine (c : Crypto) (tick : ℕ) (id : UInt64) (st : TokenData) : Prop where
  filed : st.token.id = id
  signed : c.hmac st.token.activeBytes = st.hmac
  created : st.createdAt ≤ tick

/-- The part of the invariant that does not speak of links. -/
structure Sound (c : Crypto) (s : CapabilityStore) : Prop where
  nextId_pos : 0 < s.nextId
  nextId_lt : s.nextId < 2 ^ 64
  fresh : ∀ k ∈ s.tokens.keys, k.toNat < s.nextId
  genuine : ∀ k st, s.tokens.get k = some st → Genuine c s.currentTick k st.toTokenData
  nonces : s.nonceTracker.lastSeen.keys ⊆ s.tokens.keys
  usage : s.budgetTracker.usage.keys ⊆ s.tokens.keys

structure Wf (c : Crypto) (s : CapabilityStore) : Prop extends Sound c s where
  forest : Forest 0 s.links []

lemma wf_new : Wf c new where
  nextId_pos := by simp [new]
  nextId_lt := by simp [new]
  fresh := by simp [new, mem_keys]
  genuine := by simp [new]
  nonces := by intro k; simp [new, NonceTracker.new, mem_keys]
  usage := by intro k; simp [new, BudgetTracker.new, mem_keys]
  forest :=
    { none_free := by simp [links, new, mem_keys]
      detached_live := by simp
      detached_nodup := List.nodup_nil
      parent_live := by simp [links, new, mem_keys]
      parent_lt := by simp [links, new, mem_keys]
      root_next := by simp [links, new, mem_keys]
      children := by simp [links, new, mem_keys] }

/-! #### New ids -/

lemma Sound.toNat_freshId (h : Sound c s) : s.freshId.toNat = s.nextId :=
  UInt64.toNat_ofNat_of_lt' h.nextId_lt

lemma Sound.lt_freshId (h : Sound c s) (hk : id ∈ s.tokens.keys) : id < s.freshId := by
  rw [UInt64.lt_iff_toNat_lt, h.toNat_freshId]
  exact h.fresh id hk

lemma Sound.freshId_notMem (h : Sound c s) : s.freshId ∉ s.tokens.keys :=
  fun hmem => absurd (h.lt_freshId hmem) (UInt64.lt_irrefl _)

lemma Sound.freshId_ne_zero (h : Sound c s) : s.freshId ≠ 0 := by
  intro hz
  have hnat := h.toNat_freshId
  rw [hz, UInt64.toNat_zero] at hnat
  exact absurd h.nextId_pos (by omega)

/-! #### Adding a token -/

lemma room_freshId (hlen : s.tokens.len < maxTokens) : s.tokens.Room s.freshId := Or.inr hlen

lemma get_added (hlen : s.tokens.len < maxTokens) (k : UInt64) :
    (s.added st).tokens.get k = if k = s.freshId then some st else s.tokens.get k :=
  s.tokens.get_insert (room_freshId hlen) st k

lemma keys_added (hlen : s.tokens.len < maxTokens) :
    (s.added st).tokens.keys = insert s.freshId s.tokens.keys :=
  s.tokens.keys_insert (room_freshId hlen) st

lemma Sound.added (h : Sound c s) (hlen : s.tokens.len < maxTokens)
    (hid : s.nextId + 1 < 2 ^ 64) (hst : Genuine c s.currentTick s.freshId st.toTokenData) :
    Sound c (s.added st) where
  nextId_pos := Nat.succ_pos _
  nextId_lt := hid
  fresh := by
    rw [keys_added hlen]
    intro k hk
    rcases mem_insert.mp hk with rfl | hk
    · rw [h.toNat_freshId]
      exact Nat.lt_succ_self _
    · exact Nat.lt_succ_of_lt (h.fresh k hk)
  genuine := by
    intro k u hu
    rw [get_added hlen] at hu
    by_cases hk : k = s.freshId
    · simp only [hk, if_true, Option.some.injEq] at hu
      exact hu ▸ hk ▸ hst
    · simp only [hk, if_false] at hu
      exact h.genuine k u hu
  nonces := by
    rw [keys_added hlen]
    exact h.nonces.trans (subset_insert _ _)
  usage := by
    rw [keys_added hlen]
    exact h.usage.trans (subset_insert _ _)

lemma agree_added (st : StoredToken) (hlen : s.tokens.len < maxTokens)
    (hfirst : st.firstChild = 0) :
    Agree (s.links.add s.freshId st.token.delegatedFrom st.nextSibling 0) (s.added st).links := by
  constructor
  · exact keys_added hlen
  all_goals
    intro x _
    by_cases hx : x = s.freshId <;>
      simp [links, Links.add, delegatedFromOf, firstChildOf, nextSiblingOf, get_added hlen, hx,
        hfirst]

/-! #### Losing tokens -/

lemma Sound.pruned {U : Finset UInt64} (h : Sound c s) (hp : Pruned s U s') : Sound c s' where
  nextId_pos := hp.nextId ▸ h.nextId_pos
  nextId_lt := hp.nextId ▸ h.nextId_lt
  fresh := by
    intro k hk
    rw [hp.nextId]
    exact h.fresh k (hp.mem_keys.mp hk).1
  genuine := by
    intro k u hu
    obtain ⟨-, st, hst, hdata⟩ := hp.get hu
    rw [hp.currentTick, ← hdata]
    exact h.genuine k st hst
  nonces := by
    intro k hk
    rw [hp.mem_keys]
    rw [mem_keys, hp.nonces] at hk
    by_cases hU : k ∈ U
    · simp [hU] at hk
    · simp only [hU, if_false] at hk
      exact ⟨h.nonces (mem_keys _ |>.mpr hk), hU⟩
  usage := by
    intro k hk
    rw [hp.mem_keys]
    rw [mem_keys, hp.usage] at hk
    by_cases hU : k ∈ U
    · simp [hU] at hk
    · simp only [hU, if_false] at hk
      exact ⟨h.usage (mem_keys _ |>.mpr hk), hU⟩

/-! #### Steps and runs -/

lemma Wf.create {resource : ResourceId} {owner : ProcessId}
    (h : Wf c s) (hr : s.create c resource permissions owner expires budget = .ok (s', r)) :
    Wf c s' := by
  obtain ⟨rfl, -⟩ | ⟨hlen, hid, -, rfl⟩ := create_cases hr
  · exact h
  refine ⟨h.added hlen hid ⟨rfl, rfl, le_rfl⟩, ?_⟩
  exact (h.forest.addRoot h.freshId_notMem h.freshId_ne_zero).of_agree
    (agree_added (s.mint c s.freshId permissions owner resource 0 (expires.getD 0) budget 0)
      hlen rfl)

lemma Wf.delegate {parentId : UInt64} {newOwner : ProcessId} (h : Wf c s)
    (hr : s.delegate c parentId newOwner permissions expires budget = .ok (s', r)) : Wf c s' := by
  obtain ⟨rfl, -⟩ | ⟨parent, hparent, -, -, hlen, hid, -, rfl⟩ := delegate_cases hr
  · exact h
  have hlive : parentId ∈ s.tokens.keys := s.tokens.mem_keys.mpr ⟨parent, hparent⟩
  have hfirst : s.links.first parentId = parent.firstChild := by
    simp [links, firstChildOf, hparent]
  -- ids only grow, which is what keeps the parent relation free of cycles
  have hadd := h.forest.addChild h.freshId_notMem h.freshId_ne_zero hlive (h.lt_freshId hlive)
  rw [hfirst] at hadd
  refine ⟨(h.added hlen hid ⟨rfl, rfl, le_rfl⟩).pruned (pruned_setFirstChild _ _ _), ?_⟩
  refine (hadd.of_agree ((agree_added (s.childOf c parentId parent newOwner permissions
    expires budget) hlen rfl).setFirst parentId s.freshId)).of_agree
    (agree_setFirstChild ?_ _)
  rw [keys_added hlen]
  exact mem_insert_of_mem hlive

lemma Wf.track {nt : NonceTracker} {bt : BudgetTracker} (h : Wf c s) (ht : t ∈ s.tokens.keys)
    (hnt : nt.lastSeen.keys ⊆ insert t s.nonceTracker.lastSeen.keys)
    (hbt : bt.usage.keys ⊆ insert t s.budgetTracker.usage.keys) :
    Wf c { s with nonceTracker := nt, budgetTracker := bt } where
  nextId_pos := h.nextId_pos
  nextId_lt := h.nextId_lt
  fresh := h.fresh
  genuine := h.genuine
  nonces := hnt.trans (insert_subset ht h.nonces)
  usage := hbt.trans (insert_subset ht h.usage)
  forest := h.forest

lemma Wf.validate {requiredPerm : Perm} {r : Except CapabilityError Unit}
    (h : Wf c s) (hr : s.validate c t requiredPerm nonce = .ok (s', r)) : Wf c s' := by
  obtain ⟨rfl, -⟩ | ⟨st, nt, hst, -, hcases⟩ := validate_cases hr
  · exact h
  have ht : t ∈ s.tokens.keys := s.tokens.mem_keys.mpr ⟨st, hst⟩
  obtain ⟨hn, rfl, -⟩ | ⟨hn, ⟨-, rfl, -⟩ | ⟨b, bt, ok, -, hb, rfl, -⟩⟩ := hcases
  · exact h.track ht (keys_subset_of_get (checkAndAdvance_cases hn).2)
      (subset_insert _ _)
  · exact h.track ht (keys_subset_of_get (checkAndAdvance_cases hn).2)
      (subset_insert _ _)
  · exact h.track ht (keys_subset_of_get (checkAndAdvance_cases hn).2)
      (keys_subset_of_get (BudgetTracker.checkAndConsume_cases hb).2)

lemma Wf.revoke {r : Except CapabilityError ℕ} (h : Wf c s)
    (hr : s.revoke t = .ok (s', r)) : Wf c s' := by
  obtain ⟨_, hforest, hpruned⟩ := revoke_pruned h.forest hr
  exact ⟨h.pruned hpruned, hforest⟩

lemma Wf.tick (h : Wf c s) : Wf c s.tick where
  nextId_pos := h.nextId_pos
  nextId_lt := h.nextId_lt
  fresh := h.fresh
  genuine := fun k st hst =>
    have hgen := h.genuine k st hst
    ⟨hgen.filed, hgen.signed, Nat.le_succ_of_le hgen.created⟩
  nonces := h.nonces
  usage := h.usage
  forest := h.forest

lemma step_cases {op : Op} {o : Answer} (h : step c s op = .ok (s', o)) :
    (∃ resource permissions owner expires budget r, op = .create resource permissions owner expires
        budget ∧ s.create c resource permissions owner expires budget = .ok (s', r)) ∨
    (∃ parentId newOwner permissions expires budget r, op = .delegate parentId newOwner permissions
        expires budget ∧
        s.delegate c parentId newOwner permissions expires budget = .ok (s', r)) ∨
    (∃ tokenId requiredPerm nonce r, op = .validate tokenId requiredPerm nonce ∧
        s.validate c tokenId requiredPerm nonce = .ok (s', r)) ∨
    (∃ tokenId r, op = .revoke tokenId ∧ s.revoke tokenId = .ok (s', r)) ∨
    (op = .tick ∧ s' = s.tick) := by
  cases op with
  | create resource permissions owner expires budget =>
    obtain ⟨⟨s1, r⟩, hr, hok⟩ := bind_eq_ok.mp h
    cases hok
    exact Or.inl ⟨_, _, _, _, _, r, rfl, hr⟩
  | delegate parentId newOwner permissions expires budget =>
    obtain ⟨⟨s1, r⟩, hr, hok⟩ := bind_eq_ok.mp h
    cases hok
    exact Or.inr (Or.inl ⟨_, _, _, _, _, r, rfl, hr⟩)
  | validate tokenId requiredPerm nonce =>
    obtain ⟨⟨s1, r⟩, hr, hok⟩ := bind_eq_ok.mp h
    cases hok
    exact Or.inr (Or.inr (Or.inl ⟨_, _, _, r, rfl, hr⟩))
  | revoke tokenId =>
    obtain ⟨⟨s1, r⟩, hr, hok⟩ := bind_eq_ok.mp h
    cases hok
    exact Or.inr (Or.inr (Or.inr (Or.inl ⟨_, r, rfl, hr⟩)))
  | tick =>
    simp only [step, ok.injEq, Prod.mk.injEq] at h
    exact Or.inr (Or.inr (Or.inr (Or.inr ⟨rfl, h.1.symm⟩)))

lemma Wf.step {op : Op} {o : Answer} (h : Wf c s) (hop : step c s op = .ok (s', o)) : Wf c s' := by
  obtain ⟨_, _, _, _, _, _, -, hr⟩ | ⟨_, _, _, _, _, _, -, hr⟩ | ⟨_, _, _, _, -, hr⟩ |
    ⟨_, _, -, hr⟩ | ⟨-, rfl⟩ := step_cases hop
  · exact h.create hr
  · exact h.delegate hr
  · exact h.validate hr
  · exact h.revoke hr
  · exact h.tick

lemma Wf.get_zero (h : Wf c s) : s.tokens.get 0 = none :=
  s.tokens.notMem_keys.mp h.forest.none_free

lemma Reachable.wf (h : Reachable c s) : Wf c s :=
  Machine.Reachable.inv h wf_new fun hwf hop => hwf.step hop

lemma Reachable.inv_wf {P : CapabilityStore → Prop} (h : Reachable c s) (h0 : P new)
    (hstep : ∀ {s s' op o}, Wf c s → P s → step c s op = .ok (s', o) → P s') : P s := by
  refine (Machine.Reachable.inv (P := fun s => Wf c s ∧ P s) h ⟨wf_new, h0⟩ ?_).2
  exact fun hinv hop => ⟨hinv.1.step hop, hstep hinv.1 hinv.2 hop⟩

/-! ### The forest in terms of the stored fields -/

/-- The two records of the parent relation, `delegated_from` and the intrusive
lists, agree, and no link of a live token dangles. -/
structure IsForest (s : CapabilityStore) : Prop where
  parent : ∀ id st, s.tokens.get id = some st → st.token.delegatedFrom ≠ 0 →
    (∃ pst, s.tokens.get st.token.delegatedFrom = some pst) ∧ st.token.delegatedFrom < id
  children : ∀ p pst, s.tokens.get p = some pst →
    ∃ l, Chain 0 s.nextSiblingOf pst.firstChild l ∧ l.Nodup ∧
      ∀ k, k ∈ l ↔ ∃ st, s.tokens.get k = some st ∧ st.token.delegatedFrom = p
  first_live : ∀ id st, s.tokens.get id = some st → st.firstChild ≠ 0 →
    ∃ fst, s.tokens.get st.firstChild = some fst
  next_live : ∀ id st, s.tokens.get id = some st → st.nextSibling ≠ 0 →
    ∃ nst, s.tokens.get st.nextSibling = some nst

lemma live_child_iff {k : UInt64} : k ∈ s.tokens.keys ∧ s.delegatedFromOf k = p ↔
    ∃ st, s.tokens.get k = some st ∧ st.token.delegatedFrom = p := by
  rw [mem_keys]
  constructor
  · rintro ⟨⟨st, hst⟩, hp⟩
    exact ⟨st, hst, by simpa [delegatedFromOf, hst] using hp⟩
  · rintro ⟨st, hst, hp⟩
    exact ⟨⟨st, hst⟩, by simpa [delegatedFromOf, hst] using hp⟩

lemma IsForest.of_links (h : Forest 0 s.links []) : IsForest s := by
  have hlive : ∀ {id st}, s.tokens.get id = some st → id ∈ s.links.live :=
    fun hst => s.tokens.mem_keys.mpr ⟨_, hst⟩
  refine ⟨fun id st hst hp => ?_, fun p pst hpst => ?_, fun id st hst hf => ?_,
    fun id st hst hn => ?_⟩
  · have hparent : s.links.parent id = st.token.delegatedFrom := by
      simp [links, delegatedFromOf, hst]
    have hmem := h.parent_live id (hlive hst) (by simp) (hparent ▸ hp)
    rw [hparent] at hmem
    exact ⟨s.tokens.mem_keys.mp hmem, hparent ▸ h.parent_lt id (hlive hst) (hparent ▸ hp)⟩
  · obtain ⟨l, hl⟩ := h.children p (hlive hpst)
    have hfirst : s.links.first p = pst.firstChild := by simp [links, firstChildOf, hpst]
    refine ⟨l, hfirst ▸ hl.chain, hl.nodup, fun k => ?_⟩
    rw [hl.mem_iff, ← live_child_iff]
    simp [links]
  · have hfirst : s.links.first id = st.firstChild := by simp [links, firstChildOf, hst]
    have hmem := h.first_live (hlive hst) (hfirst ▸ hf)
    rw [hfirst] at hmem
    exact s.tokens.mem_keys.mp hmem
  · have hnext : s.links.next id = st.nextSibling := by simp [links, nextSiblingOf, hst]
    have hmem := h.next_live (hlive hst) (hnext ▸ hn)
    rw [hnext] at hmem
    exact s.tokens.mem_keys.mp hmem

/-- **The intrusive links of every reachable store form a forest** that agrees with
`delegated_from`, and the loops that follow them end. -/
theorem links_form_forest (h : Reachable c s) :
    IsForest s ∧ (∀ p, ∃ l, s.collectChildren p = .ok l) ∧
      (∀ p t, ∃ s', s.unlinkChild p t = .ok s') ∧ ∀ t, ∃ r, s.revoke t = .ok r :=
  ⟨IsForest.of_links h.wf.forest, fun p => have ⟨l, hchain, hlt⟩ := exists_chain h.wf.forest p
    ⟨l, collectFrom_spec hchain hlt⟩, unlinkChild_returns h.wf.forest, revoke_returns h.wf.forest⟩

def familyOps : List Op :=
  [.create 7 ⟨0xF⟩ 1 none none, .delegate 1 2 ⟨0xA⟩ none none, .delegate 1 3 ⟨0x2⟩ none none,
    .delegate 2 4 ⟨0x2⟩ none none]

def familyStore : CapabilityStore := Machine.final (step Crypto.zero) new familyOps

lemma reachable_familyStore : Reachable Crypto.zero familyStore :=
  Machine.Reachable.of_returns rfl

theorem family_links_form_forest :
    familyStore.firstChildOf 1 = 3 ∧ familyStore.nextSiblingOf 3 = 2 ∧ IsForest familyStore ∧
      ∃ r, familyStore.revoke 2 = .ok r :=
  have hforest := links_form_forest reachable_familyStore
  ⟨rfl, rfl, hforest.1, hforest.2.2.2 2⟩

/-! ### Revocation of reachable stores -/

/-- The token `k` names `p` as the one it was delegated from. -/
def DelegatedFrom (s : CapabilityStore) (k p : UInt64) : Prop :=
  ∃ st, s.tokens.get k = some st ∧ st.token.delegatedFrom = p

/-- Following `delegated_from` from `k` one meets `t`, possibly at once. -/
def Descends (s : CapabilityStore) : UInt64 → UInt64 → Prop :=
  Relation.ReflTransGen s.DelegatedFrom

open Classical in
/-- The live tokens at or below `t`. -/
noncomputable def subtree (s : CapabilityStore) (t : UInt64) : Finset UInt64 :=
  s.tokens.keys.filter fun k => s.Descends k t

lemma mem_subtree {k : UInt64} : k ∈ s.subtree t ↔ k ∈ s.tokens.keys ∧ s.Descends k t := by
  simp [subtree]

lemma under_eq_subtree (s : CapabilityStore) (t : UInt64) : s.links.under [t] = s.subtree t := by
  have hedge : s.links.Edge = s.DelegatedFrom := by
    funext k p
    exact propext live_child_iff
  ext k
  rw [Links.mem_under, Links.Below, hedge, mem_subtree]
  simp [Descends, links]

/-- **Revocation is exact.**  Revoking a live token counts and removes its subtree
with all usage state, and keeps the data of every other token and the forest; an id
that is not live is reported and nothing changes. -/
theorem revoke_removes_subtree (h : Reachable c s) (t : UInt64) :
    (t ∈ s.tokens.keys → ∃ s', s.revoke t = .ok (s', .ok (s.subtree t).card) ∧
      Pruned s (s.subtree t) s' ∧ IsForest s') ∧
    (t ∉ s.tokens.keys → s.revoke t = .ok (s, .error .notFound)) := by
  refine ⟨fun ht => ?_, revoke_notFound⟩
  obtain ⟨⟨s', r⟩, hr, hcount, hforest, hpruned⟩ := revoke_spec h.wf.forest ht
  rw [under_eq_subtree] at hcount hpruned
  exact ⟨s', hcount ▸ hr, hpruned, IsForest.of_links hforest⟩

theorem family_revoke_removes_subtree :
    Prod.snd <$> familyStore.revoke 2 = .ok (.ok 2) ∧
      ∃ s', familyStore.revoke 2 = .ok (s', .ok (familyStore.subtree 2).card) ∧
        Pruned familyStore (familyStore.subtree 2) s' ∧ IsForest s' := by
  have hlive : 2 ∈ familyStore.tokens.keys := by
    rw [mem_keys, ← Option.isSome_iff_exists]
    rfl
  exact ⟨rfl, (revoke_removes_subtree reachable_familyStore 2).1 hlive⟩

end CapabilityStore

end Fabric
