/-
What a delegated token can do, compared with the token it came from.

Both questions, how much a child may do and how long it lives, are about the pairs
of a live token and its live parent.  `Edges R` says that all these pairs are related
by `R`; `Edges.step` reduces its preservation to the one pair a delegation adds.
-/
import FabricOS.CapabilityInvariant

open Machine Option

namespace Fabric.CapabilityStore

variable {c : Crypto} {s s' : CapabilityStore} {R : TokenData → TokenData → Prop}

/-- Every live token is related to its parent, if that is live. -/
def Edges (R : TokenData → TokenData → Prop) (s : CapabilityStore) : Prop :=
  ∀ k st pst, s.tokens.get k = some st → s.tokens.get st.token.delegatedFrom = some pst →
    R st.toTokenData pst.toTokenData

lemma edges_new : Edges R new := by simp [Edges, new]

lemma Edges.pruned {U : Finset UInt64} (h : Edges R s) (hp : Pruned s U s') : Edges R s' := by
  intro k st' pst' hst' hpst'
  obtain ⟨-, st, hst, hdata⟩ := hp.get hst'
  obtain ⟨-, pst, hpst, hpdata⟩ := hp.get hpst'
  rw [← hdata] at hpst ⊢
  rw [← hpdata]
  exact h k st pst hst hpst

variable {st : StoredToken}

lemma Edges.added (h : Edges R s) (hwf : Wf c s)
    (hlen : s.tokens.len < maxTokens) (hself : st.token.delegatedFrom ≠ s.freshId)
    (hnew : ∀ pst, s.tokens.get st.token.delegatedFrom = some pst →
      R st.toTokenData pst.toTokenData) : Edges R (s.added st) := by
  intro k u pst hu hpst
  rw [get_added hlen] at hu hpst
  by_cases hk : k = s.freshId
  · simp only [hk, if_true, some.injEq] at hu
    subst hu
    simp only [hself, if_false] at hpst
    exact hnew pst hpst
  · simp only [hk, if_false] at hu
    -- an older token names a live parent or none, so not the new token
    have hparent : u.token.delegatedFrom ≠ s.freshId := by
      intro heq
      have hne : u.token.delegatedFrom ≠ 0 := heq ▸ hwf.freshId_ne_zero
      obtain ⟨hlive, -⟩ := (IsForest.of_links hwf.forest).parent k u hu hne
      exact hwf.freshId_notMem (heq ▸ s.tokens.mem_keys.mpr hlive)
    simp only [hparent, if_false] at hpst
    exact h k u pst hu hpst

lemma Edges.delegate {parentId : UInt64} {newOwner : ProcessId} {permissions : Perm}
    {expires : Option UInt32} {budget : Option Budget} {parent : StoredToken}
    (h : Edges R s) (hwf : Wf c s) (hparent : s.tokens.get parentId = some parent)
    (hlen : s.tokens.len < maxTokens)
    (hnew : R (s.childOf c parentId parent newOwner permissions expires budget).toTokenData
      parent.toTokenData) :
    Edges R ((s.added (s.childOf c parentId parent newOwner permissions expires
      budget)).setFirstChild parentId s.freshId) := by
  refine Edges.pruned (h.added hwf hlen ?_ ?_) (pruned_setFirstChild _ _ _)
  · intro heq
    exact hwf.freshId_notMem (heq ▸ s.tokens.mem_keys.mpr ⟨parent, hparent⟩)
  intro pst hpst
  have hpst : s.tokens.get parentId = some pst := hpst
  rw [hparent, some.injEq] at hpst
  exact hpst ▸ hnew

/-- **Step rule.**  A step keeps a relation on all pairs of child and parent if, in
case it is a delegation that passes its checks, the new pair is related. -/
theorem Edges.step {op : Op} {o : Answer} (h : Edges R s) (hwf : Wf c s)
    (hop : step c s op = .ok (s', o))
    (hnew : ∀ parentId newOwner permissions expires budget parent,
      op = .delegate parentId newOwner permissions expires budget →
      s.tokens.get parentId = some parent →
      parent.token.permissions.contains Perm.grant = true →
      permissions.isSubsetOf parent.token.permissions = true →
      R (s.childOf c parentId parent newOwner permissions expires budget).toTokenData
        parent.toTokenData) : Edges R s' := by
  obtain ⟨_, _, _, _, _, _, -, hr⟩ | ⟨_, _, _, _, _, _, heq, hr⟩ | ⟨_, _, _, _, -, hr⟩ |
    ⟨t, _, -, hr⟩ | ⟨-, rfl⟩ := step_cases hop
  · obtain ⟨rfl, -⟩ | ⟨hlen, -, -, rfl⟩ := create_cases hr
    · exact h
    -- a root names 0 as its parent, which is never live
    refine h.added hwf hlen (Ne.symm hwf.freshId_ne_zero) fun pst hpst => ?_
    have hpst : s.tokens.get 0 = some pst := hpst
    exact absurd hpst (by simp [hwf.get_zero])
  · obtain ⟨rfl, -⟩ | ⟨parent, hparent, hgrant, hsub, hlen, -, -, rfl⟩ := delegate_cases hr
    · exact h
    · exact h.delegate hwf hparent hlen (hnew _ _ _ _ _ parent heq hparent hgrant hsub)
  · obtain ⟨rfl, -⟩ | ⟨_, _, -, -, ⟨-, rfl, -⟩ | ⟨-, ⟨-, rfl, -⟩ | ⟨_, _, _, -, -, rfl, -⟩⟩⟩ :=
      validate_cases hr
    all_goals exact h
  · obtain ⟨_, -, hpruned⟩ := revoke_pruned hwf.forest hr
    exact h.pruned hpruned
  · exact h

/-! ### Permissions -/

/-- A child has permissions of its parent only, on the same resource, and its parent
may delegate. -/
structure Attenuated (child parent : TokenData) : Prop where
  subset : child.token.permissions.isSubsetOf parent.token.permissions = true
  grant : parent.token.permissions.contains Perm.grant = true
  resource : child.token.resource = parent.token.resource

lemma Reachable.attenuated (h : Reachable c s) : Edges Attenuated s := by
  refine h.inv_wf edges_new fun hwf hedges hop => hedges.step hwf hop ?_
  intro _ _ _ _ _ parent _ _ hgrant hsub
  exact ⟨hsub, hgrant, rfl⟩

lemma attenuated_of_descends (hforest : IsForest s) (hedges : Edges Attenuated s)
    {k a : UInt64} (hb : s.Descends k a) (ha : a ≠ 0)
    (hst : s.tokens.get k = some st) :
    ∃ ast, s.tokens.get a = some ast ∧
      st.token.permissions.isSubsetOf ast.token.permissions = true ∧
      st.token.resource = ast.token.resource ∧
      (a ≠ k → ast.token.permissions.contains Perm.grant = true) := by
  -- induction on the chain from its upper end; `a` is the parent the last token names
  induction hb with
  | refl => exact ⟨st, hst, Perm.isSubsetOf_refl _, rfl, fun hne => absurd rfl hne⟩
  | tail _ hlast ih =>
    obtain ⟨bst, hbst, rfl⟩ := hlast
    rename_i b _
    -- `b` has a parent below it in the order of the ids, so it is not 0 itself
    have hb0 : b ≠ 0 := by
      rintro rfl
      exact absurd ((hforest.parent 0 bst hbst ha).2) (UInt64.not_lt.mpr UInt64.zero_le)
    obtain ⟨bst', hbst', hsub, hres, -⟩ := ih hb0
    rw [hbst, some.injEq] at hbst'
    subst hbst'
    obtain ⟨⟨ast, hast⟩, -⟩ := hforest.parent b bst hbst ha
    have hpair := hedges b bst ast hbst hast
    exact ⟨ast, hast, Perm.isSubsetOf_trans hsub hpair.subset, hres.trans hpair.resource,
      fun _ => hpair.grant⟩

lemma exists_root (hforest : IsForest s) {k : UInt64} (hst : s.tokens.get k = some st) :
    ∃ root rst, s.Descends k root ∧ s.tokens.get root = some rst ∧
      rst.token.delegatedFrom = 0 := by
  induction hn : k.toNat using Nat.strong_induction_on generalizing k st with
  | _ n ih =>
    by_cases hp : st.token.delegatedFrom = 0
    · exact ⟨k, st, .refl, hst, hp⟩
    obtain ⟨⟨pst, hpst⟩, hlt⟩ := hforest.parent k st hst hp
    have hlt := UInt64.lt_iff_toNat_lt.mp hlt
    obtain ⟨root, rst, hb, hrst, hroot⟩ := ih _ (by omega) hpst rfl
    exact ⟨root, rst, .head ⟨st, hst, rfl⟩ hb, hrst, hroot⟩

/-- **Authority only shrinks.**  In a reachable store every token that a live token
was, directly or not, delegated from is live, may delegate, names the same resource
and has all its permissions; the chain ends in a root that has every permission bit
of the token and its resource. -/
theorem authority_attenuates (h : Reachable c s) {k : UInt64} {st : StoredToken}
    (hst : s.tokens.get k = some st) :
    (∀ a, s.Descends k a → a ≠ 0 → ∃ ast, s.tokens.get a = some ast ∧
      st.token.permissions.isSubsetOf ast.token.permissions = true ∧
      st.token.resource = ast.token.resource ∧
      (a ≠ k → ast.token.permissions.contains Perm.grant = true)) ∧
    ∃ root rst, s.Descends k root ∧ s.tokens.get root = some rst ∧
      rst.token.delegatedFrom = 0 ∧ st.token.resource = rst.token.resource ∧
      ∀ i, st.token.permissions.has i = true → rst.token.permissions.has i = true := by
  have hforest := IsForest.of_links h.wf.forest
  refine ⟨fun a hb ha => attenuated_of_descends hforest h.attenuated hb ha hst, ?_⟩
  obtain ⟨root, rst, hb, hrst, hroot⟩ := exists_root hforest hst
  have hne : root ≠ 0 := by
    rintro rfl
    exact absurd hrst (by simp [h.wf.get_zero])
  obtain ⟨rst', hrst', hsub, hres, -⟩ :=
    attenuated_of_descends hforest h.attenuated hb hne hst
  rw [hrst, some.injEq] at hrst'
  subst hrst'
  exact ⟨root, rst, hb, hrst, hroot, hres, Perm.isSubsetOf_iff.mp hsub⟩

/-- The grandchild of `familyStore` holds nothing that the root does not. -/
theorem family_authority_attenuates :
    ∃ st root rst, familyStore.tokens.get 4 = some st ∧ familyStore.Descends 4 root ∧
      familyStore.tokens.get root = some rst ∧ st.token.resource = rst.token.resource ∧
      ∀ i, st.token.permissions.has i = true → rst.token.permissions.has i = true := by
  obtain ⟨st, hst⟩ := isSome_iff_exists.mp
    (show (familyStore.tokens.get 4).isSome = true from rfl)
  obtain ⟨-, root, rst, hb, hrst, -, hres, hbits⟩ :=
    authority_attenuates reachable_familyStore hst
  exact ⟨st, root, rst, hst, hb, hrst, hres, hbits⟩

/-! ### Lifetimes -/

/-- From the current tick on, a token is expired whenever its parent is. -/
def LifetimesNested (s : CapabilityStore) : Prop :=
  ∀ k st pst, s.tokens.get k = some st → s.tokens.get st.token.delegatedFrom = some pst →
    ∀ T, s.currentTick ≤ T → pst.expiredAt T = true → st.expiredAt T = true

/-- The child ends by the deadline of its parent, if that has one. -/
def EndsBy (child parent : TokenData) : Prop :=
  parent.token.expires = 0 ∨ 0 < child.token.expires ∧
    child.createdAt + child.token.expires.toNat ≤ parent.createdAt + parent.token.expires.toNat

/-- The expiry a delegation arrives at ends by the parent's deadline, counted from
the current tick. -/
def ExpiryFits (s : CapabilityStore) : Op → Prop
  | .delegate parentId _ _ expires _ => ∀ parent, s.tokens.get parentId = some parent →
      parent.token.expires = 0 ∨ 0 < childExpires expires parent.token.expires ∧
        s.currentTick + (childExpires expires parent.token.expires).toNat ≤
          parent.createdAt + parent.token.expires.toNat
  | _ => True

lemma expiredAt_iff {d : TokenData} {T : ℕ} : d.expiredAt T = true ↔
    0 < d.token.expires ∧ d.createdAt + d.token.expires.toNat ≤ T := by
  simp [TokenData.expiredAt]

lemma EndsBy.expiredAt {child parent : TokenData} (h : EndsBy child parent) {T : ℕ}
    (hp : parent.expiredAt T = true) : child.expiredAt T = true := by
  rw [expiredAt_iff] at *
  rcases h with h0 | ⟨hpos, hle⟩
  · exact absurd hp.1 (by simp [h0])
  · exact ⟨hpos, hle.trans hp.2⟩

lemma endsBy_of_nested {child parent : TokenData}
    (h : ∀ T, child.createdAt ≤ T → parent.expiredAt T = true → child.expiredAt T = true) :
    EndsBy child parent := by
  by_cases h0 : parent.token.expires = 0
  · exact Or.inl h0
  -- the first tick from now on at which the parent is expired
  have hpos : 0 < parent.token.expires := UInt32.pos_iff_ne_zero.mpr h0
  have hT := expiredAt_iff.mp (h (max child.createdAt
    (parent.createdAt + parent.token.expires.toNat)) (le_max_left _ _)
    (expiredAt_iff.mpr ⟨hpos, le_max_right _ _⟩))
  have hchild : 0 < child.token.expires.toNat := UInt32.lt_iff_toNat_lt.mp hT.1
  refine Or.inr ⟨hT.1, ?_⟩
  rcases le_max_iff.mp hT.2 with hle | hle
  · omega
  · exact hle

lemma endsBy_of_expiry_fits (h : ReachableVia ExpiryFits (step c) new s) : Edges EndsBy s := by
  refine (ReachableVia.inv (P := fun s => Wf c s ∧ Edges EndsBy s) h
    ⟨wf_new, edges_new⟩ ?_).2
  intro s s' op o ⟨hwf, hedges⟩ hfits hop
  refine ⟨hwf.step hop, hedges.step hwf hop ?_⟩
  rintro parentId _ _ _ _ parent rfl hparent - -
  exact hfits parent hparent

lemma delegate_nested_iff {parentId : UInt64} {newOwner : ProcessId} {permissions : Perm}
    {expires : Option UInt32} {budget : Option Budget} {id : CapabilityId}
    (hwf : Wf c s) (hnested : LifetimesNested s)
    (hr : s.delegate c parentId newOwner permissions expires budget = .ok (s', .ok id)) :
    LifetimesNested s' ↔ ExpiryFits s (.delegate parentId newOwner permissions expires budget) := by
  obtain ⟨-, e, he⟩ | ⟨parent, hparent, -, -, hlen, -, -, rfl⟩ := delegate_cases hr
  · cases he
  have hlive := s.tokens.mem_keys.mpr ⟨parent, hparent⟩
  have hne : parentId ≠ s.freshId := fun heq => hwf.freshId_notMem (heq ▸ hlive)
  set child := s.childOf c parentId parent newOwner permissions expires budget
  have hfits_iff : ExpiryFits s (.delegate parentId newOwner permissions expires budget) ↔
      EndsBy child.toTokenData parent.toTokenData := by
    simp only [ExpiryFits, hparent, some.injEq, forall_eq']
    rfl
  rw [hfits_iff]
  constructor
  · intro hnested'
    -- read the new pair back from the store
    refine endsBy_of_nested fun T hT hexp => ?_
    have hchild : ((s.added child).setFirstChild parentId s.freshId).tokens.get s.freshId =
        some child := by
      simp [setFirstChild, get_added hlen, Ne.symm hne]
    have hpst : ((s.added child).setFirstChild parentId s.freshId).tokens.get parentId =
        some { parent with firstChild := s.freshId } := by
      simp [setFirstChild, get_added hlen, hne, hparent]
    exact hnested' s.freshId _ _ hchild hpst T hT hexp
  · intro hends
    have hedges : Edges (fun d p => ∀ T, s.currentTick ≤ T → p.expiredAt T = true →
        d.expiredAt T = true) s := hnested
    exact hedges.delegate hwf hparent hlen fun T _ hexp => hends.expiredAt hexp

/-- A token that expires at tick 2, and its child made at tick 1 with no expiry asked
for: the child takes over the number 2 and counts it from tick 1. -/
def lateOps : List Op := [.create 7 ⟨0xF⟩ 1 (some 2) none, .tick, .delegate 1 2 ⟨0x1⟩ none none]

def lateStore : CapabilityStore := final (step Crypto.zero) new lateOps

/-- At tick 2 the parent is expired and its child is not. -/
theorem delegate_outlives_parent :
    Reachable Crypto.zero lateStore ∧ lateStore.currentTick = 1 ∧
      (∃ st pst, lateStore.tokens.get 2 = some st ∧ st.token.delegatedFrom = 1 ∧
        lateStore.tokens.get 1 = some pst ∧ pst.expiredAt 2 = true ∧ st.expiredAt 2 = false) ∧
      ¬ LifetimesNested lateStore := by
  obtain ⟨st, hst⟩ := isSome_iff_exists.mp
    (show (lateStore.tokens.get 2).isSome = true from rfl)
  obtain ⟨pst, hpst⟩ := isSome_iff_exists.mp
    (show (lateStore.tokens.get 1).isSome = true from rfl)
  have hparent : (lateStore.tokens.get 2).map (·.token.delegatedFrom) = some 1 := rfl
  have hexp : (lateStore.tokens.get 1).map (·.expiredAt 2) = some true := rfl
  have hlive : (lateStore.tokens.get 2).map (·.expiredAt 2) = some false := rfl
  simp only [hst, hpst, map_some, some.injEq] at hparent hexp hlive
  refine ⟨Machine.Reachable.of_returns rfl, rfl, ⟨st, pst, hst, hparent, hpst, hexp, hlive⟩,
    fun hnested => ?_⟩
  have hchild := hnested 2 st pst hst (hparent ▸ hpst) 2 (by decide) hexp
  exact absurd hchild (by simp [hlive])

/-- **Lifetimes are nested as long as expiries fit.**  They are in every store that is
reached by steps whose delegations all end by the parent's deadline; and a delegation
that returns a token out of a store with nested lifetimes keeps them nested iff it
does. -/
theorem lifetimes_nested_of_expiry_fits (c : Crypto) :
    (∀ s, ReachableVia ExpiryFits (step c) new s → LifetimesNested s) ∧
    ∀ s s' parentId newOwner permissions expires budget id, Reachable c s →
      LifetimesNested s →
      s.delegate c parentId newOwner permissions expires budget = .ok (s', .ok id) →
      (LifetimesNested s' ↔
        ExpiryFits s (.delegate parentId newOwner permissions expires budget)) :=
  ⟨fun _ h k st pst hst hpst _ _ hp => (endsBy_of_expiry_fits h k st pst hst hpst).expiredAt hp,
    fun _ _ _ _ _ _ _ _ h hnested hr => delegate_nested_iff h.wf hnested hr⟩

/-- The run of `lateOps`, but asking for expiry 1, cut after `n` steps. -/
def fittingStore (n : ℕ) : CapabilityStore :=
  final (step Crypto.zero) new ([.create 7 ⟨0xF⟩ 1 (some 2) none, .tick,
    .delegate 1 2 ⟨0x1⟩ (some 1) none].take n)

theorem fitting_lifetimes_nested :
    ((fittingStore 3).tokens.get 2).isSome = true ∧ LifetimesNested (fittingStore 3) := by
  have hcreate : step Crypto.zero (fittingStore 0) (.create 7 ⟨0xF⟩ 1 (some 2) none) =
      .ok (fittingStore 1, .id (.ok 1)) := rfl
  have htick : step Crypto.zero (fittingStore 1) .tick = .ok (fittingStore 2, .ticked) := rfl
  have hdelegate : step Crypto.zero (fittingStore 2) (.delegate 1 2 ⟨0x1⟩ (some 1) none) =
      .ok (fittingStore 3, .id (.ok 2)) := rfl
  have hfits : ExpiryFits (fittingStore 2) (.delegate 1 2 ⟨0x1⟩ (some 1) none) := by
    have hdata : ((fittingStore 2).tokens.get 1).map (fun p => (p.token.expires, p.createdAt)) =
        some (2, 0) := rfl
    intro parent hparent
    simp only [hparent, map_some, some.injEq, Prod.mk.injEq] at hdata
    rw [hdata.1, hdata.2]
    exact Or.inr (by decide)
  refine ⟨rfl, (lifetimes_nested_of_expiry_fits Crypto.zero).1 _ ?_⟩
  exact ((ReachableVia.refl.tail trivial hcreate).tail trivial htick).tail hfits hdelegate

end Fabric.CapabilityStore
