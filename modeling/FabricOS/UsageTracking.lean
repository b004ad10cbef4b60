/-
Nonces and table capacity over whole runs of the capability store.

The store forgets the last nonce of a token when the token is revoked, and it keeps the
trackers in tables of a fixed capacity whose inserts it does not check.  Both rest on the
same two facts: ids are never given out twice, and only live tokens are tracked.
-/
import FabricOS.StoreEquivalence

open Machine List Exec

namespace Fabric

namespace CapabilityStore

variable {c : Crypto} {s s' : CapabilityStore} {t : UInt64}

/-! ### Nonces along a step -/

/-- Of the ids that were given out before, only live ones are live after, and their nonces
have not gone down. -/
structure Advances (s s' : CapabilityStore) : Prop where
  nextId : s.nextId ≤ s'.nextId
  live : ∀ k ∈ s'.tokens.keys, k.toNat < s.nextId → k ∈ s.tokens.keys
  last : ∀ k ∈ s'.tokens.keys, k.toNat < s.nextId →
    s.nonceTracker.last k ≤ s'.nonceTracker.last k

lemma Advances.refl (s : CapabilityStore) : Advances s s :=
  ⟨le_rfl, fun _ hk _ => hk, fun _ _ _ => UInt32.le_refl _⟩

lemma Sound.advances_added (h : Sound c s) (st : StoredToken)
    (hlen : s.tokens.len < maxTokens) : Advances s (s.added st) where
  nextId := Nat.le_succ _
  live := by
    intro k hk hlt
    rw [keys_added hlen] at hk
    rcases Finset.mem_insert.mp hk with rfl | hk
    · rw [h.toNat_freshId] at hlt
      exact absurd hlt (lt_irrefl _)
    · exact hk
  last := fun _ _ _ => UInt32.le_refl _

lemma Pruned.advances {U : Finset UInt64} (h : Pruned s U s') : Advances s s' where
  nextId := le_of_eq h.nextId.symm
  live := fun k hk _ => (h.mem_keys.mp hk).1
  last := by
    intro k hk _
    have hU : k ∉ U := (h.mem_keys.mp hk).2
    simp only [NonceTracker.last, h.nonces, hU, if_false]
    exact UInt32.le_refl _

lemma Advances.trans {s1 s2 : CapabilityStore} (h1 : Advances s s1) (h2 : Advances s1 s2) :
    Advances s s2 where
  nextId := h1.nextId.trans h2.nextId
  live := fun k hk hlt => h1.live k (h2.live k hk (lt_of_lt_of_le hlt h1.nextId)) hlt
  last := by
    intro k hk hlt
    have hlt1 := lt_of_lt_of_le hlt h1.nextId
    exact UInt32.le_trans (h1.last k (h2.live k hk hlt1) hlt) (h2.last k hk hlt1)

end CapabilityStore

variable {nonce : UInt32}

lemma NonceTracker.last_le_of_checkAndAdvance {nt nt' : NonceTracker} {t : UInt64}
    {accepted : Bool} (h : nt.checkAndAdvance t nonce = .ok (nt', accepted))
    (k : UInt64) : nt.last k ≤ nt'.last k := by
  obtain ⟨-, hget⟩ := checkAndAdvance_cases h
  by_cases hk : k = t
  · by_cases hn : nonce > nt.last t
    · have hlast : nt'.last k = nonce := by rw [last, hget, if_pos hk, if_pos hn, Option.getD_some]
      rw [hlast, hk]
      exact UInt32.le_of_lt hn
    have hlast : nt'.last k = nt.last t := by
      rw [last, hget, if_pos hk, if_neg hn, Option.getD_some]
    rw [hlast, hk]
    exact UInt32.le_refl _
  · have hlast : nt'.last k = nt.last k := by rw [last, hget, if_neg hk, last]
    rw [hlast]
    exact UInt32.le_refl _

namespace CapabilityStore

variable {c : Crypto} {s s' : CapabilityStore} {t : UInt64}

lemma advances_validate {requiredPerm : Perm} {r : Except CapabilityError Unit}
    (h : s.validate c t requiredPerm nonce = .ok (s', r)) : Advances s s' := by
  have hrecord : ∀ nt bt ok, s.nonceTracker.checkAndAdvance t nonce = .ok (nt, ok) →
      Advances s { s with nonceTracker := nt, budgetTracker := bt } := fun nt _ _ hn =>
    ⟨le_rfl, fun _ hk _ => hk, fun k _ _ => NonceTracker.last_le_of_checkAndAdvance hn k⟩
  obtain ⟨rfl, -⟩ | ⟨st, nt, -, -, hcases⟩ := validate_cases h
  · exact .refl s'
  obtain ⟨hn, rfl, -⟩ | ⟨hn, ⟨-, rfl, -⟩ | ⟨b, bt, ok, -, -, rfl, -⟩⟩ := hcases
  · exact hrecord nt s.budgetTracker _ hn
  · exact hrecord nt s.budgetTracker _ hn
  · exact hrecord nt bt _ hn

lemma step_nonces {op : Op} {o : Answer} (hwf : Wf c s) (h : step c s op = .ok (s', o)) :
    Advances s s' := by
  obtain ⟨_, _, _, _, _, _, -, hr⟩ | ⟨_, _, _, _, _, _, -, hr⟩ | ⟨_, _, _, _, -, hr⟩ |
    ⟨t, _, -, hr⟩ | ⟨-, rfl⟩ := step_cases h
  · obtain ⟨rfl, -⟩ | ⟨hlen, -, -, rfl⟩ := create_cases hr
    · exact .refl s'
    · exact hwf.advances_added _ hlen
  · obtain ⟨rfl, -⟩ | ⟨parent, -, -, -, hlen, -, -, rfl⟩ := delegate_cases hr
    · exact .refl s'
    · exact (hwf.advances_added _ hlen).trans (pruned_setFirstChild _ _ _).advances
  · exact advances_validate hr
  · obtain ⟨_, -, hpruned⟩ := revoke_pruned hwf.forest hr
    exact hpruned.advances
  · exact ⟨le_rfl, fun _ hk _ => hk, fun _ _ _ => UInt32.le_refl _⟩

/-! ### Accepted uses -/

/-- The token and the nonce of a use, if the event is one that was accepted. -/
def acceptedUse (ev : Event CapabilityStore Op Answer) : Option (UInt64 × UInt32) :=
  match ev.input, ev.output with
  | .validate tokenId _ nonce, .checked (.ok ()) => some (tokenId, nonce)
  | _, _ => none

/-- The accepted uses of a run, in the order of the calls. -/
def acceptedUses (evs : List (Event CapabilityStore Op Answer)) : List (UInt64 × UInt32) :=
  evs.filterMap acceptedUse

/-- The nonces accepted for one capability, in the order of the calls. -/
def acceptedNonces (evs : List (Event CapabilityStore Op Answer)) (t : UInt64) : List UInt32 :=
  ((acceptedUses evs).filter (·.1 = t)).map (·.2)

/-- What the store remembers of a use: its id has been given out, and as long as the token
lives its last nonce is not below the one of the use. -/
def Remembers (s : CapabilityStore) (use : UInt64 × UInt32) : Prop :=
  use.1.toNat < s.nextId ∧ (use.1 ∈ s.tokens.keys → use.2 ≤ s.nonceTracker.last use.1)

lemma Remembers.advances {use : UInt64 × UInt32} (h : s.Remembers use) (hs : Advances s s') :
    s'.Remembers use := by
  refine ⟨lt_of_lt_of_le h.1 hs.nextId, fun hlive => ?_⟩
  exact UInt32.le_trans (h.2 (hs.live _ hlive h.1)) (hs.last _ hlive h.1)

lemma validate_accepted {requiredPerm : Perm} (hwf : Wf c s)
    (h : s.validate c t requiredPerm nonce = .ok (s', .ok ())) :
    t ∈ s.tokens.keys ∧ s.nonceTracker.last t < nonce ∧ s'.Remembers (t, nonce) := by
  cases hst : s.tokens.get t with
  | none => simp [validate, hst] at h
  | some st =>
    have ht : t ∈ s.tokens.keys := s.tokens.mem_keys.mpr ⟨st, hst⟩
    obtain ⟨s1, r, hr, htokens, hok, hlast, -⟩ := hwf.validate_live hst requiredPerm nonce
    rw [h] at hr
    cases hr
    obtain ⟨hadmits, hfresh, -⟩ := hok.mp rfl
    have hnext : s.nextId ≤ s'.nextId := (advances_validate h).nextId
    refine ⟨ht, hfresh, lt_of_lt_of_le (hwf.fresh t ht) hnext, fun _ => ?_⟩
    rw [hlast ⟨hadmits, hfresh⟩]
    exact UInt32.le_refl _

lemma acceptedUse_cases {op : Op} {o : Answer} (hwf : Wf c s) (h : step c s op = .ok (s', o)) :
    acceptedUse ⟨s, op, o⟩ = none ∨ ∃ use, acceptedUse ⟨s, op, o⟩ = some use ∧
      use.1 ∈ s.tokens.keys ∧ s.nonceTracker.last use.1 < use.2 ∧ s'.Remembers use := by
  cases op with
  | validate tokenId requiredPerm nonce =>
    obtain ⟨⟨s1, r⟩, hr, hok⟩ := bind_eq_ok.mp h
    cases hok
    cases r with
    | error e => exact Or.inl rfl
    | ok => exact Or.inr ⟨(tokenId, nonce), rfl, validate_accepted hwf hr⟩
  | _ => exact Or.inl rfl

lemma run_remembers {evs : List (Event CapabilityStore Op Answer)} (h : Run (step c) new evs s) :
    (acceptedUses evs).Pairwise (fun u v => u.1 = v.1 → u.2 < v.2) ∧
      ∀ use ∈ acceptedUses evs, s.Remembers use := by
  induction h with
  | nil => exact ⟨.nil, by simp [acceptedUses]⟩
  | @snoc evs s s' op o hrun hstep ih =>
    obtain ⟨hsorted, hall⟩ := ih
    have hwf : Wf c s := Reachable.wf hrun.reachable
    have hkept : ∀ use ∈ acceptedUses evs, s'.Remembers use := fun use huse =>
      (hall use huse).advances (step_nonces hwf hstep)
    rw [acceptedUses, filterMap_append, ← acceptedUses]
    obtain hnone | ⟨use, huse, hlive, hlt, hnew⟩ := acceptedUse_cases hwf hstep
    · rw [filterMap_cons_none hnone, filterMap_nil, append_nil]
      exact ⟨hsorted, hkept⟩
    rw [filterMap_cons_some huse, filterMap_nil]
    constructor
    · refine pairwise_append.mpr ⟨hsorted, pairwise_singleton _ _, ?_⟩
      intro u hu v hv huv
      obtain rfl := mem_singleton.mp hv
      -- the token is live, so the store still holds the nonce of the earlier use against it
      have hle := (hall u hu).2 (huv ▸ hlive)
      rw [huv] at hle
      exact UInt32.lt_of_le_of_lt hle hlt
    · intro u hu
      rcases mem_append.mp hu with hu | hu
      · exact hkept u hu
      · exact mem_singleton.mp hu ▸ hnew

/-- **Replay protection over whole runs.**  For each capability the nonces of the accepted
uses strictly increase, so no capability and nonce are accepted together twice. -/
theorem nonces_strictly_increase {evs : List (Event CapabilityStore Op Answer)}
    (h : Run (step c) new evs s) :
    (∀ t, (acceptedNonces evs t).Pairwise (· < ·)) ∧ (acceptedUses evs).Nodup := by
  obtain ⟨hsorted, -⟩ := run_remembers h
  constructor
  · intro t
    rw [acceptedNonces, pairwise_map]
    refine (List.Pairwise.filter _ hsorted).imp_of_mem ?_
    intro u v hu hv huv
    have hut : u.1 = t := by simpa using (mem_filter.mp hu).2
    have hvt : v.1 = t := by simpa using (mem_filter.mp hv).2
    exact huv (hut.trans hvt.symm)
  · refine hsorted.imp ?_
    rintro u v huv rfl
    exact absurd (huv rfl) (UInt32.lt_irrefl _)

/-- A use, its replay, and a use of the token that takes the place of the revoked one. -/
def replayOps : List Op :=
  [.create 7 ⟨0xF⟩ 1 none none, .validate 1 ⟨0x1⟩ 5, .validate 1 ⟨0x1⟩ 5, .revoke 1,
    .create 7 ⟨0xF⟩ 1 none none, .validate 2 ⟨0x1⟩ 5, .validate 1 ⟨0x1⟩ 6]

theorem replay_refused : outputs (step Crypto.zero) new replayOps = .ok [.id (.ok 1),
      .checked (.ok ()), .checked (.error .nonceReplay), .revoked (.ok 1), .id (.ok 2),
      .checked (.ok ()), .checked (.error .notFound)] ∧
    ∃ evs, Run (step Crypto.zero) new evs (final (step Crypto.zero) new replayOps) ∧
      evs.map (·.input) = replayOps ∧ (∀ t, (acceptedNonces evs t).Pairwise (· < ·)) ∧
      (acceptedUses evs).Nodup := by
  have hreturns : (run (step Crypto.zero) new replayOps).returns = true := rfl
  obtain ⟨evs, hrun, hin⟩ := Run.of_returns hreturns
  exact ⟨rfl, evs, hrun, hin, nonces_strictly_increase hrun⟩

/-! ### Capacity -/

lemma step_inserts {op : Op} {id : CapabilityId} (h : step c s op = .ok (s', .id (.ok id))) :
    s.tokens.Room id ∧ id ∈ s'.tokens.keys := by
  cases op with
  | create resource permissions owner expires budget =>
    simp only [step, bind_eq_ok, ok.injEq, Prod.mk.injEq, Answer.id.injEq] at h
    obtain ⟨⟨s1, r⟩, hr, rfl, rfl⟩ := h
    obtain ⟨-, hid⟩ | ⟨hlen, -, hid, rfl⟩ := create_cases hr
    · cases hid
    · obtain rfl := Except.ok.inj hid
      exact ⟨room_freshId hlen, by simp [keys_added hlen]⟩
  | delegate parentId newOwner permissions expires budget =>
    simp only [step, bind_eq_ok, ok.injEq, Prod.mk.injEq, Answer.id.injEq] at h
    obtain ⟨⟨s1, r⟩, hr, rfl, rfl⟩ := h
    obtain ⟨-, _, hid⟩ | ⟨parent, -, -, -, hlen, -, hid, rfl⟩ := delegate_cases hr
    · cases hid
    obtain rfl := Except.ok.inj hid
    refine ⟨room_freshId hlen, ?_⟩
    rw [(pruned_setFirstChild _ _ _).mem_keys, keys_added hlen]
    simp
  | validate tokenId requiredPerm nonce | revoke tokenId =>
    simp [step, bind_eq_ok] at h
  | tick => simp [step] at h

lemma Wf.validate_returns (h : Wf c s) (t : UInt64) (requiredPerm : Perm) (nonce : UInt32) :
    ∃ r, s.validate c t requiredPerm nonce = .ok r := by
  cases hst : s.tokens.get t with
  | none => exact ⟨_, by rw [CapabilityStore.validate, hst]⟩
  | some st =>
    obtain ⟨s', r, hr, -⟩ := h.validate_live hst requiredPerm nonce
    exact ⟨_, hr⟩

/-- **The tables are large enough.**  The store holds at most `maxTokens` tokens and tracks
live tokens only.  Hence the inserts of `create` and `delegate`, whose results are ignored,
succeed, each token that is handed out is in the store, and no use aborts. -/
theorem capacity_suffices (h : Reachable c s) :
    s.tokens.len ≤ maxTokens ∧ s.nonceTracker.lastSeen.keys ⊆ s.tokens.keys ∧
      s.budgetTracker.usage.keys ⊆ s.tokens.keys ∧
      (∀ op s' id, step c s op = .ok (s', .id (.ok id)) →
        (∀ stored, (s.tokens.insert id stored).2 = true) ∧ ∃ st, s'.tokens.get id = some st) ∧
      ∀ t requiredPerm nonce, ∃ r, s.validate c t requiredPerm nonce = .ok r := by
  refine ⟨s.tokens.len_le, h.wf.nonces, h.wf.usage, ?_, h.wf.validate_returns⟩
  intro op s' id hop
  obtain ⟨hroom, hmem⟩ := step_inserts hop
  exact ⟨s.tokens.insert_snd hroom, s'.tokens.mem_keys.mp hmem⟩

theorem family_capacity_suffices :
    familyStore.tokens.len = 4 ∧ ∃ r, familyStore.validate Crypto.zero 3 ⟨0x2⟩ 1 = .ok r :=
  ⟨rfl, (capacity_suffices reachable_familyStore).2.2.2.2 3 ⟨0x2⟩ 1⟩

end CapabilityStore

end Fabric
