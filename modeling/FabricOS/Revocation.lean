/-
Revocation: what `unlink_child`, `collect_children` and `revoke` do to a store
whose links form a forest.

The store is seen through `links`, and the loops through the lists they follow.
`revoke` unlinks the token, which detaches it, and then removes detached tokens
until there are none; each removal takes one token off the set that hangs below
the stack (`SiblingForest.Forest.under_pop`), so the loop ends and its counter is
the size of that set.
-/
import FabricOS.CapabilityStore
import FabricOS.SiblingForest

open SiblingForest Finset Option

namespace Fabric

open Links

namespace CapabilityStore

/-- The parent a token names; 0 for a root and for an id that is not live. -/
def delegatedFromOf (s : CapabilityStore) (id : UInt64) : UInt64 :=
  ((s.tokens.get id).map (·.token.delegatedFrom)).getD 0

def links (s : CapabilityStore) : Links UInt64 where
  live := s.tokens.keys
  parent := s.delegatedFromOf
  first := s.firstChildOf
  next := s.nextSiblingOf

variable {s s' s1 s2 : CapabilityStore} {id t p a : UInt64} {l D : List UInt64}

lemma length_le_len (hnd : l.Nodup) (hl : ∀ x ∈ l, x ∈ s.tokens.keys) :
    l.length ≤ s.tokens.len := by
  rw [Slab.len_eq, ← List.toFinset_card_of_nodup hnd]
  exact card_le_card fun x hx => hl x (List.mem_toFinset.mp hx)

lemma exists_chain (h : Forest 0 s.links D) (p : UInt64) :
    ∃ l, Chain 0 s.nextSiblingOf (s.firstChildOf p) l ∧ l.length < s.tokens.len + 1 := by
  by_cases hp : p ∈ s.tokens.keys
  · obtain ⟨l, hl⟩ := h.children p hp
    exact ⟨l, hl.chain, Nat.lt_succ_of_le
      (length_le_len hl.nodup fun x hx => ((hl.mem_iff x).mp hx).1.1)⟩
  · exact ⟨[], by simp [firstChildOf, s.tokens.notMem_keys.mp hp, Chain], by simp⟩

/-! ### Collecting the children -/

lemma collectFrom_spec : ∀ {fuel : ℕ} {l : List UInt64} {a : UInt64},
    Chain 0 s.nextSiblingOf a l → l.length < fuel → s.collectFrom fuel a = .ok l := by
  intro fuel
  induction fuel with
  | zero => intro l a _ hlt; omega
  | succ fuel ih =>
    intro l a hchain hlt
    cases l with
    | nil =>
      have ha : a = 0 := hchain
      simp [collectFrom, ha]
    | cons x l =>
      obtain ⟨rfl, hne, hrest⟩ := hchain
      have hlen : l.length < fuel := by simpa using hlt
      simp [collectFrom, hne, ih hrest hlen]

lemma collectChildren_spec (hl : Lists 0 s.links D p l) : s.collectChildren p = .ok l :=
  collectFrom_spec hl.chain (Nat.lt_succ_of_le
    (length_le_len hl.nodup fun x hx => ((hl.mem_iff x).mp hx).1.1))

/-! ### Losing tokens -/

/-- `s'` is `s` without the tokens of `U` and their usage state.  The links of the
tokens that stay may differ. -/
structure Pruned (s : CapabilityStore) (U : Finset UInt64) (s' : CapabilityStore) : Prop where
  nextId : s'.nextId = s.nextId
  currentTick : s'.currentTick = s.currentTick
  data : ∀ k, (s'.tokens.get k).map StoredToken.toTokenData =
    if k ∈ U then none else (s.tokens.get k).map StoredToken.toTokenData
  nonces : ∀ k, s'.nonceTracker.lastSeen.get k =
    if k ∈ U then none else s.nonceTracker.lastSeen.get k
  usage : ∀ k, s'.budgetTracker.usage.get k =
    if k ∈ U then none else s.budgetTracker.usage.get k

lemma Pruned.refl (s : CapabilityStore) : Pruned s ∅ s where
  nextId := rfl
  currentTick := rfl
  data := by simp
  nonces := by simp
  usage := by simp

variable {U : Finset UInt64}

lemma Pruned.trans {V : Finset UInt64} (h1 : Pruned s U s1) (h2 : Pruned s1 V s2) :
    Pruned s (U ∪ V) s2 where
  nextId := h2.nextId.trans h1.nextId
  currentTick := h2.currentTick.trans h1.currentTick
  data := by
    intro k
    rw [h2.data, h1.data]
    by_cases hV : k ∈ V <;> by_cases hU : k ∈ U <;> simp [hU, hV]
  nonces := by
    intro k
    rw [h2.nonces, h1.nonces]
    by_cases hV : k ∈ V <;> by_cases hU : k ∈ U <;> simp [hU, hV]
  usage := by
    intro k
    rw [h2.usage, h1.usage]
    by_cases hV : k ∈ V <;> by_cases hU : k ∈ U <;> simp [hU, hV]

lemma pruned_removeToken (s : CapabilityStore) (t : UInt64) :
    Pruned s {t} (s.removeToken t) where
  nextId := rfl
  currentTick := rfl
  data := by
    intro k
    by_cases hk : k = t <;> simp [removeToken, hk]
  nonces := by
    intro k
    simp [removeToken, NonceTracker.remove]
  usage := by
    intro k
    simp [removeToken, BudgetTracker.remove]

lemma pruned_getMut (s : CapabilityStore) (k : UInt64) (write : StoredToken → StoredToken)
    (hw : ∀ t, (write t).toTokenData = t.toTokenData) :
    Pruned s ∅ { s with tokens := (s.tokens.getMut k write).1 } where
  nextId := rfl
  currentTick := rfl
  data := by
    intro k'
    by_cases hk : k' = k
    · subst hk
      cases hget : s.tokens.get k' <;> simp [hget, hw]
    · simp [hk]
  nonces := by simp
  usage := by simp

lemma Pruned.get (h : Pruned s U s') {st' : StoredToken} (hget : s'.tokens.get id = some st') :
    id ∉ U ∧ ∃ st, s.tokens.get id = some st ∧ st.toTokenData = st'.toTokenData := by
  have hdata := h.data id
  rw [hget] at hdata
  by_cases hU : id ∈ U
  · simp [hU] at hdata
  · simp only [hU, if_false, map_some] at hdata
    obtain ⟨st, hst, heq⟩ := map_eq_some_iff.mp hdata.symm
    exact ⟨hU, st, hst, heq⟩

lemma Pruned.mem_keys (h : Pruned s U s') : id ∈ s'.tokens.keys ↔ id ∈ s.tokens.keys ∧ id ∉ U := by
  rw [← not_iff_not, Slab.notMem_keys, ← map_eq_none_iff, h.data]
  by_cases hU : id ∈ U
  · simp [hU]
  · simp [hU, Slab.notMem_keys]

/-! ### Unlinking -/

/-- The store after a write to the `first_child` of a token. -/
def setFirstChild (s : CapabilityStore) (p v : UInt64) : CapabilityStore :=
  { s with tokens := (s.tokens.getMut p fun t => { t with firstChild := v }).1 }

def setNextSibling (s : CapabilityStore) (q v : UInt64) : CapabilityStore :=
  { s with tokens := (s.tokens.getMut q fun t => { t with nextSibling := v }).1 }

lemma pruned_setFirstChild (s : CapabilityStore) (p v : UInt64) :
    Pruned s ∅ (s.setFirstChild p v) := pruned_getMut s p _ fun _ => rfl

lemma agree_setFirstChild (hp : p ∈ s.tokens.keys) (v : UInt64) :
    Agree (s.links.setFirst p v) (s.setFirstChild p v).links := by
  obtain ⟨st, hst⟩ := s.tokens.mem_keys.mp hp
  constructor
  · simp [links, setFirst, setFirstChild]
  · intro x _
    by_cases hx : x = p <;> simp [links, setFirst, setFirstChild, delegatedFromOf, hx, hst]
  · intro x _
    by_cases hx : x = p <;> simp [links, setFirst, setFirstChild, firstChildOf, hx, hst]
  · intro x _
    by_cases hx : x = p <;> simp [links, setFirst, setFirstChild, nextSiblingOf, hx, hst]

lemma agree_setNextSibling (hq : p ∈ s.tokens.keys) (v : UInt64) :
    Agree (s.links.setNext p v) (s.setNextSibling p v).links := by
  obtain ⟨st, hst⟩ := s.tokens.mem_keys.mp hq
  constructor
  · simp [links, setNext, setNextSibling]
  · intro x _
    by_cases hx : x = p <;> simp [links, setNext, setNextSibling, delegatedFromOf, hx, hst]
  · intro x _
    by_cases hx : x = p <;> simp [links, setNext, setNextSibling, firstChildOf, hx, hst]
  · intro x _
    by_cases hx : x = p <;> simp [links, setNext, setNextSibling, nextSiblingOf, hx, hst]

lemma unlinkFrom_spec (next : UInt64) : ∀ {fuel : ℕ} {l : List UInt64} {a : UInt64},
    Chain 0 s.nextSiblingOf a l → l.length < fuel →
    (s.unlinkFrom t next fuel a = .ok s ∧ ∀ q ∈ l, s.nextSiblingOf q ≠ t) ∨
      ∃ q ∈ l, s.nextSiblingOf q = t ∧
        s.unlinkFrom t next fuel a = .ok (s.setNextSibling q next) := by
  intro fuel
  induction fuel with
  | zero => intro l a _ hlt; omega
  | succ fuel ih =>
    intro l a hchain hlt
    cases l with
    | nil =>
      have ha : a = 0 := hchain
      exact Or.inl ⟨by simp [unlinkFrom, ha], by simp⟩
    | cons x l =>
      obtain ⟨rfl, hne, hrest⟩ := hchain
      by_cases hx : s.nextSiblingOf a = t
      · exact Or.inr ⟨a, by simp, hx, by simp [unlinkFrom, hne, hx, setNextSibling]⟩
      have hlen : l.length < fuel := by simpa using hlt
      simp only [unlinkFrom, hne, hx, if_false]
      rcases ih hrest hlen with ⟨hr, hall⟩ | ⟨q, hq, hqt, hr⟩
      · exact Or.inl ⟨hr, by simpa [hx] using hall⟩
      · exact Or.inr ⟨q, by simp [hq], hqt, hr⟩

lemma unlinkChild_returns (h : Forest 0 s.links D) (p t : UInt64) :
    ∃ s', s.unlinkChild p t = .ok s' := by
  obtain ⟨l, hchain, hlt⟩ := exists_chain h p
  unfold unlinkChild
  by_cases hfirst : s.firstChildOf p = t
  · simp [hfirst]
  simp only [hfirst, if_false]
  rcases unlinkFrom_spec (s.nextSiblingOf t) hchain hlt with ⟨hr, -⟩ | ⟨q, -, -, hr⟩ <;>
    exact ⟨_, hr⟩

lemma unlinkChild_spec (h : Forest 0 s.links []) (ht : t ∈ s.tokens.keys)
    (hp : s.delegatedFromOf t ≠ 0) :
    (s.unlinkChild (s.delegatedFromOf t) t).Post fun s' =>
      Forest 0 s'.links [t] ∧ Pruned s ∅ s' := by
  have hplive : s.delegatedFromOf t ∈ s.tokens.keys := h.parent_live t ht (by simp) hp
  unfold unlinkChild
  by_cases hfirst : s.firstChildOf (s.delegatedFromOf t) = t
  · simp only [hfirst, if_true, Exec.post_ok]
    exact ⟨(h.detach_first ht hfirst).of_agree (agree_setFirstChild hplive _),
      pruned_setFirstChild s _ _⟩
  simp only [hfirst, if_false]
  obtain ⟨l, hl⟩ := h.children _ hplive
  have hlen : l.length < s.tokens.len + 1 := Nat.lt_succ_of_le
    (length_le_len hl.nodup fun x hx => ((hl.mem_iff x).mp hx).1.1)
  have htl : t ∈ l := (hl.mem_iff t).mpr ⟨⟨ht, rfl⟩, by simp⟩
  rcases unlinkFrom_spec (s.nextSiblingOf t) hl.chain hlen with
    ⟨-, hall⟩ | ⟨q, hq, hqt, hr⟩
  · -- a listed token other than the first has a predecessor in the list
    obtain ⟨q, hq, hqt⟩ := hl.chain.exists_pred htl hfirst
    exact absurd hqt (hall q hq)
  · obtain ⟨⟨hqlive, hqp⟩, -⟩ := (hl.mem_iff q).mp hq
    refine ⟨_, hr, ?_, pruned_getMut s _ _ fun _ => rfl⟩
    exact (h.detach_next ht hp hqlive hqp hqt).of_agree (agree_setNextSibling hqlive _)

/-! ### The cascade -/

lemma agree_removeToken (s : CapabilityStore) (t : UInt64) :
    Agree (s.links.remove t) (s.removeToken t).links := by
  constructor
  · simp [links, remove, removeToken]
  all_goals
    intro x hx
    have hne : x ≠ t := (mem_erase.mp hx).1
    simp [links, remove, removeToken, delegatedFromOf, firstChildOf, nextSiblingOf, hne]

lemma revokeLoop_spec : ∀ {fuel : ℕ} {s : CapabilityStore} {D : List UInt64} (count : ℕ),
    Forest 0 s.links D → (s.links.under D).card < fuel →
    (revokeLoop fuel s D count).Post fun r =>
      r.2 = count + (s.links.under D).card ∧ Forest 0 r.1.links [] ∧
        Pruned s (s.links.under D) r.1 := by
  -- induction on the fuel, of which every turn of the loop takes one, as it removes one token
  intro fuel
  induction fuel with
  | zero => intro s D count _ hlt; omega
  | succ fuel ih =>
    intro s D count h hlt
    cases D with
    | nil =>
      have hempty : s.links.under [] = ∅ := by
        ext k
        simp [mem_under]
      simpa [revokeLoop, hempty] using ⟨h, Pruned.refl s⟩
    | cons t D =>
      have htlive : t ∈ s.tokens.keys := h.detached_live t (by simp)
      obtain ⟨st, hst⟩ := s.tokens.mem_keys.mp htlive
      obtain ⟨l, hl⟩ := h.children t htlive
      -- the pop moves one token from the set to be removed into the removed ones
      have hagree := agree_removeToken s t
      have hforest := (h.pop hl).of_agree hagree
      have hunder := h.under_pop hl
      rw [← hagree.under_eq] at hunder
      have hnot : t ∉ (s.removeToken t).links.under (l.reverse ++ D) := by
        rw [hagree.under_eq]
        exact notMem_under_remove
      have hcard : (s.links.under (t :: D)).card =
          ((s.removeToken t).links.under (l.reverse ++ D)).card + 1 := by
        rw [hunder, card_insert_of_notMem hnot]
      obtain ⟨⟨s', n⟩, hr, hn, hforest', hpruned⟩ := ih (count + 1) hforest (by omega)
      refine ⟨(s', n), ?_, ?_, hforest', ?_⟩
      · simpa [revokeLoop, collectChildren_spec hl, hst] using hr
      · omega
      · rw [hunder, insert_eq]
        exact (pruned_removeToken s t).trans hpruned

lemma Pruned.under_eq (h : Pruned s ∅ s') (D : List UInt64) :
    s'.links.under D = s.links.under D := by
  refine under_congr ?_ (fun k _ => ?_) D
  · ext k
    have hk : k ∈ s'.tokens.keys ↔ k ∈ s.tokens.keys ∧ k ∉ ∅ := h.mem_keys
    simpa [links] using hk
  · have hdata := congrArg (Option.map fun d => d.token.delegatedFrom) (h.data k)
    simp only [notMem_empty, if_false, Option.map_map] at hdata
    exact congrArg (Option.getD · 0) hdata

lemma revoke_spec (h : Forest 0 s.links []) (ht : t ∈ s.tokens.keys) :
    (s.revoke t).Post fun r => r.2 = .ok (s.links.under [t]).card ∧ Forest 0 r.1.links [] ∧
      Pruned s (s.links.under [t]) r.1 := by
  obtain ⟨st, hst⟩ := s.tokens.mem_keys.mp ht
  have hparent : s.delegatedFromOf t = st.token.delegatedFrom := by simp [delegatedFromOf, hst]
  -- after the unlink step `t` is detached, and no data has changed
  have hunlink : (if st.token.delegatedFrom ≠ 0 then s.unlinkChild st.token.delegatedFrom t
      else .ok s : Exec CapabilityStore).Post fun s1 =>
        Forest 0 s1.links [t] ∧ Pruned s ∅ s1 := by
    by_cases hp : st.token.delegatedFrom = 0
    · simpa [hp] using ⟨h.detach_root ht (hparent.trans hp), Pruned.refl s⟩
    · rw [if_pos hp, ← hparent]
      exact unlinkChild_spec h ht (hparent ▸ hp)
  unfold revoke
  simp only [hst]
  refine hunlink.bind fun s1 hs1 => ?_
  obtain ⟨hforest, hpruned⟩ := hs1
  -- the loop removes live tokens only, so it turns at most `len` times
  have hfuel : (s1.links.under [t]).card < s1.tokens.len + 1 := by
    rw [Slab.len_eq]
    exact Nat.lt_succ_of_le (card_le_card fun k hk => (mem_under.mp hk).1)
  refine (revokeLoop_spec 0 hforest hfuel).bind fun r hr => ?_
  obtain ⟨hn, hforest', hpruned'⟩ := hr
  rw [hpruned.under_eq] at hn hpruned'
  refine Exec.post_ok.mpr ⟨by simp [hn], hforest', ?_⟩
  simpa using hpruned.trans hpruned'

lemma revoke_notFound (ht : t ∉ s.tokens.keys) : s.revoke t = .ok (s, .error .notFound) := by
  simp [revoke, s.tokens.notMem_keys.mp ht]

lemma revoke_pruned {r : Except CapabilityError ℕ} (h : Forest 0 s.links [])
    (hr : s.revoke t = .ok (s', r)) : ∃ gone, Forest 0 s'.links [] ∧ Pruned s gone s' := by
  by_cases ht : t ∈ s.tokens.keys
  · obtain ⟨_, hr', -, hforest, hpruned⟩ := revoke_spec h ht
    rw [hr] at hr'
    cases hr'
    exact ⟨_, hforest, hpruned⟩
  · rw [revoke_notFound ht] at hr
    cases hr
    exact ⟨_, h, .refl s⟩

lemma revoke_returns (h : Forest 0 s.links []) (t : UInt64) : ∃ r, s.revoke t = .ok r := by
  by_cases ht : t ∈ s.tokens.keys
  · exact (revoke_spec h ht).returns
  · exact ⟨_, revoke_notFound ht⟩

end CapabilityStore

end Fabric
