/-
Budgets over whole runs of the capability store.

The budget of a token is a limiter with lazily restarted intervals (`WindowLimiter`), of which
the store keeps the entry.  Over a run the entry and the accepted uses of a live token are
those of the limiter on the ticks at which uses have asked the budget (`run_tracked`): other
operations leave the entry alone, and a token that is made has none, for ids are never given
out twice.  The bounds of the limiter are then bounds of the store.
-/
import FabricOS.UsageTracking
import FabricOS.WindowLimiter

open Machine List Option

namespace Fabric

open WindowLimiter BudgetTracker Exec

lemma BudgetTracker.current_eq (bt : BudgetTracker) (capId : UInt64) (budget : Budget)
    (tick : ℕ) : bt.current capId budget tick =
      WindowLimiter.current budget.intervalTicks tick (bt.usage.get capId) := rfl

namespace CapabilityStore

variable {c : Crypto} {s s' : CapabilityStore} {t : UInt64} {b : Budget}

/-! ### Uses of a token -/

/-- The tick of an event, if it is a use of the token with such a result. -/
def usedAt (results : Except CapabilityError Unit → Bool) (t : UInt64)
    (ev : Event CapabilityStore Op Answer) : Option ℕ :=
  match ev.input, ev.output with
  | .validate tokenId _ _, .checked r =>
    if tokenId = t ∧ results r = true then some ev.before.currentTick else none
  | _, _ => none

def isAccepted : Except CapabilityError Unit → Bool
  | .ok _ => true
  | .error _ => false

/-- The use of a token with a budget passed all checks before that of the budget. -/
def asksBudget : Except CapabilityError Unit → Bool
  | .ok _ => true
  | .error e => e = .budgetExhausted

/-- The ticks of the accepted uses of a token, in the order of the calls. -/
def acceptedTicks (evs : List (Event CapabilityStore Op Answer)) (t : UInt64) : List ℕ :=
  evs.filterMap (usedAt isAccepted t)

/-- The ticks of the uses that asked the budget of a token, in the order of the calls. -/
def budgetedTicks (evs : List (Event CapabilityStore Op Answer)) (t : UInt64) : List ℕ :=
  evs.filterMap (usedAt asksBudget t)

/-! ### The entry along a step -/

/-- The event is not a use of the token that got to the budget. -/
def Unused (t : UInt64) (ev : Event CapabilityStore Op Answer) : Prop :=
  usedAt asksBudget t ev = none ∧ usedAt isAccepted t ev = none

/-- The event is a use that found the entry `e`. -/
def Used (t : UInt64) (b : Budget) (e : ℕ × ℕ) (ev : Event CapabilityStore Op Answer) : Prop :=
  usedAt asksBudget t ev = some ev.before.currentTick ∧
    usedAt isAccepted t ev = if e.1 < b.maxUses then some ev.before.currentTick else none

/-- A token that is live after a step was made by it, and has no entry; or it was live before,
and its entry is the old one or was charged by a use. -/
inductive Charges (s : CapabilityStore) (ev : Event CapabilityStore Op Answer)
    (after : BudgetTracker) (t : UInt64) (b : Budget) : Prop
  | made (fresh : s.nextId ≤ t.toNat) (unused : Unused t ev)
      (entry : after.usage.get t = none)
  | kept (st : StoredToken) (live : s.tokens.get t = some st) (budget : st.budget = some b)
      (unused : Unused t ev) (entry : after.usage.get t = s.budgetTracker.usage.get t)
  | used (st : StoredToken) (live : s.tokens.get t = some st) (budget : st.budget = some b)
      (used : Used t b (s.budgetTracker.current t b s.currentTick) ev)
      (entry : after.usage.get t = some (WindowLimiter.charge b.maxUses
        (s.budgetTracker.current t b s.currentTick)))

variable {st : StoredToken}

lemma Pruned.charges {U : Finset UInt64} {ev : Event CapabilityStore Op Answer}
    (h : Pruned s U s') (hunused : Unused t ev)
    (hst : s'.tokens.get t = some st) (hb : st.budget = some b) :
    Charges s ev s'.budgetTracker t b := by
  obtain ⟨hU, old, hold, hdata⟩ := h.get hst
  refine .kept old hold ?_ hunused ?_
  · rw [congrArg TokenData.budget hdata]
    exact hb
  · rw [h.usage, if_neg hU]

lemma Wf.charges_added {new : StoredToken} {ev : Event CapabilityStore Op Answer} (h : Wf c s)
    (hlen : s.tokens.len < maxTokens) (hunused : Unused t ev)
    (hst : (s.added new).tokens.get t = some st) (hb : st.budget = some b) :
    Charges s ev (s.added new).budgetTracker t b := by
  rw [get_added hlen] at hst
  split_ifs at hst with ht
  · subst ht
    refine .made (le_of_eq h.toNat_freshId.symm) hunused ?_
    exact (Slab.notMem_keys _).mp fun hmem => h.freshId_notMem (h.usage hmem)
  · exact .kept st hst hb hunused rfl

lemma validate_charges {tokenId : UInt64} {requiredPerm : Perm} {nonce : UInt32}
    {r : Except CapabilityError Unit}
    (h : s.validate c tokenId requiredPerm nonce = .ok (s', r))
    (hst : s'.tokens.get t = some st) (hb : st.budget = some b) :
    Charges s ⟨s, .validate tokenId requiredPerm nonce, .checked r⟩ s'.budgetTracker t b := by
  by_cases ht : tokenId = t
  case neg =>
    have hunused : Unused t ⟨s, .validate tokenId requiredPerm nonce, .checked r⟩ := by
      simp [Unused, usedAt, ht]
    obtain ⟨rfl, -⟩ | ⟨st1, nt, -, -, hcases⟩ := validate_cases h
    · exact .kept st hst hb hunused rfl
    obtain ⟨-, rfl, -⟩ | ⟨-, ⟨-, rfl, -⟩ | ⟨b1, bt, ok, -, hbt, rfl, -⟩⟩ := hcases
    · exact .kept st hst hb hunused rfl
    · exact .kept st hst hb hunused rfl
    · refine .kept st hst hb hunused ?_
      rw [(checkAndConsume_cases hbt).2, if_neg (Ne.symm ht)]
  subst ht
  obtain ⟨rfl, ⟨e, rfl, he⟩, -⟩ | ⟨old, nt, hold, -, hcases⟩ := validate_cases h
  · exact .kept st hst hb (by simp [Unused, usedAt, asksBudget, isAccepted, he]) rfl
  obtain ⟨-, rfl, rfl⟩ | ⟨-, ⟨hnone, rfl, -⟩ | ⟨b', bt, ok, hsome, hbt, rfl, rfl⟩⟩ := hcases
  · exact .kept st hst hb (by simp [Unused, usedAt, asksBudget, isAccepted]) rfl
  · -- the token has a budget, so this case does not occur
    obtain rfl : old = st := some.inj (hold.symm.trans hst)
    cases hb.symm.trans hnone
  obtain rfl : old = st := some.inj (hold.symm.trans hst)
  obtain rfl : b' = b := some.inj (hsome.symm.trans hb)
  obtain ⟨hok, hget⟩ := checkAndConsume_cases hbt
  refine .used old hst hb ?_ ?_
  · subst hok
    by_cases hlt : (s.budgetTracker.current tokenId b' s.currentTick).1 < b'.maxUses <;>
      simp [Used, usedAt, asksBudget, isAccepted, hlt]
  · rw [hget, if_pos rfl]
    rfl

variable {op : Op} {o : Answer}

lemma step_usage (hwf : Wf c s) (h : step c s op = .ok (s', o)) (hst : s'.tokens.get t = some st)
    (hb : st.budget = some b) : Charges s ⟨s, op, o⟩ s'.budgetTracker t b := by
  cases op with
  | create resource permissions owner expires budget =>
    obtain ⟨⟨s1, r⟩, hr, hok⟩ := bind_eq_ok.mp h
    cases hok
    obtain ⟨rfl, -⟩ | ⟨hlen, -, -, rfl⟩ := create_cases hr
    · exact .kept st hst hb ⟨rfl, rfl⟩ rfl
    · exact hwf.charges_added hlen ⟨rfl, rfl⟩ hst hb
  | delegate parentId newOwner permissions expires budget =>
    obtain ⟨⟨s1, r⟩, hr, hok⟩ := bind_eq_ok.mp h
    cases hok
    obtain ⟨rfl, -⟩ | ⟨parent, -, -, -, hlen, -, -, rfl⟩ := delegate_cases hr
    · exact .kept st hst hb ⟨rfl, rfl⟩ rfl
    · -- linking the child into the list of its parent does not touch the budgets
      obtain ⟨-, st1, hst1, hdata⟩ := (pruned_setFirstChild _ _ _).get hst
      exact hwf.charges_added hlen ⟨rfl, rfl⟩ hst1 ((congrArg TokenData.budget hdata).trans hb)
  | validate tokenId requiredPerm nonce =>
    obtain ⟨⟨s1, r⟩, hr, hok⟩ := bind_eq_ok.mp h
    cases hok
    exact validate_charges hr hst hb
  | revoke tokenId =>
    -- the entries of the tokens that are left stay
    obtain ⟨⟨s1, r⟩, hr, hok⟩ := bind_eq_ok.mp h
    cases hok
    obtain ⟨_, -, hpruned⟩ := revoke_pruned hwf.forest hr
    exact hpruned.charges ⟨rfl, rfl⟩ hst hb
  | tick =>
    cases h
    exact .kept st hst hb ⟨rfl, rfl⟩ rfl

lemma unused_of_notMem (h : step c s op = .ok (s', o)) (ht : t ∉ s.tokens.keys) :
    Unused t ⟨s, op, o⟩ := by
  cases op with
  | validate tokenId requiredPerm nonce =>
    obtain ⟨⟨s1, r⟩, hr, hok⟩ := bind_eq_ok.mp h
    cases hok
    by_cases hid : tokenId = t
    · rw [validate, hid, (Slab.notMem_keys _).mp ht] at hr
      cases hr
      simp [Unused, usedAt, asksBudget, isAccepted]
    · simp [Unused, usedAt, hid]
  | _ => exact ⟨rfl, rfl⟩

lemma step_currentTick_le (hwf : Wf c s) (h : step c s op = .ok (s', o)) :
    s.currentTick ≤ s'.currentTick := by
  obtain ⟨_, _, _, _, _, _, -, hr⟩ | ⟨_, _, _, _, _, _, -, hr⟩ | ⟨_, _, _, _, -, hr⟩ |
    ⟨t, _, -, hr⟩ | ⟨-, rfl⟩ := step_cases h
  · obtain ⟨rfl, -⟩ | ⟨-, -, -, rfl⟩ := create_cases hr <;> exact le_rfl
  · obtain ⟨rfl, -⟩ | ⟨parent, -, -, -, -, -, -, rfl⟩ := delegate_cases hr <;> exact le_rfl
  · obtain ⟨rfl, -⟩ | ⟨st, nt, -, -, hcases⟩ := validate_cases hr
    · exact le_rfl
    · obtain ⟨-, rfl, -⟩ | ⟨-, ⟨-, rfl, -⟩ | ⟨b, bt, ok, -, -, rfl, -⟩⟩ := hcases <;> exact le_rfl
  · obtain ⟨_, -, hpruned⟩ := revoke_pruned hwf.forest hr
    exact le_of_eq hpruned.currentTick.symm
  · exact Nat.le_succ _

/-! ### The entry along a run -/

/-- The store follows the limiter on the ticks at which the budget was asked. -/
structure Tracked (evs : List (Event CapabilityStore Op Answer)) (s : CapabilityStore)
    (t : UInt64) (b : Budget) : Prop where
  sorted : (budgetedTicks evs t).Pairwise (· ≤ ·)
  past : ∀ x ∈ budgetedTicks evs t, x ≤ s.currentTick
  accepted : acceptedTicks evs t =
    WindowLimiter.accepted b.maxUses b.intervalTicks none (budgetedTicks evs t)
  entry : s.budgetTracker.usage.get t =
    WindowLimiter.after b.maxUses b.intervalTicks none (budgetedTicks evs t)

lemma tracked_of_unused {evs : List (Event CapabilityStore Op Answer)}
    (hbudgeted : budgetedTicks evs t = []) (haccepted : acceptedTicks evs t = [])
    (hentry : s.budgetTracker.usage.get t = none) : Tracked evs s t b where
  sorted := by rw [hbudgeted]; exact .nil
  past := by simp [hbudgeted]
  accepted := by rw [haccepted, hbudgeted]; rfl
  entry := by rw [hentry, hbudgeted]; rfl

section

variable {evs : List (Event CapabilityStore Op Answer)} {ev : Event CapabilityStore Op Answer}

variable (evs) in
lemma ticks_unused (h : Unused t ev) : budgetedTicks (evs ++ [ev]) t = budgetedTicks evs t ∧
    acceptedTicks (evs ++ [ev]) t = acceptedTicks evs t := by
  simp [budgetedTicks, acceptedTicks, h.1, h.2]

lemma Tracked.kept (h : Tracked evs s t b) (hunused : Unused t ev)
    (hentry : s'.budgetTracker.usage.get t = s.budgetTracker.usage.get t)
    (htick : s.currentTick ≤ s'.currentTick) : Tracked (evs ++ [ev]) s' t b := by
  obtain ⟨hbudgeted, haccepted⟩ := ticks_unused evs hunused
  refine ⟨?_, ?_, ?_, ?_⟩ <;> rw [hbudgeted]
  · exact h.sorted
  · exact fun x hx => (h.past x hx).trans htick
  · rw [haccepted, h.accepted]
  · rw [hentry, h.entry]

lemma Tracked.used (h : Tracked evs s t b) (hev : ev.before = s)
    (hused : Used t b (s.budgetTracker.current t b s.currentTick) ev)
    (hentry : s'.budgetTracker.usage.get t = some (WindowLimiter.charge b.maxUses
      (s.budgetTracker.current t b s.currentTick)))
    (htick : s.currentTick ≤ s'.currentTick) : Tracked (evs ++ [ev]) s' t b := by
  subst hev
  -- the use is one more tick for the limiter, which finds the entry that the store has
  have hbudgeted : budgetedTicks (evs ++ [ev]) t =
      budgetedTicks evs t ++ [ev.before.currentTick] := by
    rw [budgetedTicks, filterMap_append, filterMap_cons_some hused.1]
    rfl
  have hcurrent : ev.before.budgetTracker.current t b ev.before.currentTick =
      current b.intervalTicks ev.before.currentTick
        (after b.maxUses b.intervalTicks none (budgetedTicks evs t)) := by
    rw [current_eq, h.entry]
  constructor
  · rw [hbudgeted]
    refine pairwise_append.mpr ⟨h.sorted, pairwise_singleton _ _, ?_⟩
    rintro x hx y hy
    rw [mem_singleton.mp hy]
    exact h.past x hx
  · intro x hx
    rw [hbudgeted] at hx
    rcases mem_append.mp hx with hx | hx
    · exact (h.past x hx).trans htick
    · rw [mem_singleton.mp hx]
      exact htick
  · rw [hbudgeted, accepted_append, ← h.accepted, ← hcurrent, acceptedTicks,
      filterMap_append, ← acceptedTicks, filterMap_cons, hused.2]
    split_ifs <;> rfl
  · rw [hbudgeted, after_append, hentry, hcurrent]

end

lemma run_tracked {evs : List (Event CapabilityStore Op Answer)} (h : Run (step c) new evs s) :
    (∀ t : UInt64, s.nextId ≤ t.toNat → budgetedTicks evs t = [] ∧ acceptedTicks evs t = []) ∧
      ∀ t st b, s.tokens.get t = some st → st.budget = some b → Tracked evs s t b := by
  induction h with
  | nil => exact ⟨fun _ _ => ⟨rfl, rfl⟩, by simp [new]⟩
  | @snoc evs s s' op o hrun hstep ih =>
    obtain ⟨hfresh, htracked⟩ := ih
    have hwf : Wf c s := Reachable.wf hrun.reachable
    have hnext := (step_nonces hwf hstep).nextId
    have htick := step_currentTick_le hwf hstep
    constructor
    · -- an id that is not given out is not in the store, so it cannot be used
      intro t ht
      obtain ⟨hbudgeted, haccepted⟩ := hfresh t (hnext.trans ht)
      have hunused : Unused t ⟨s, op, o⟩ := unused_of_notMem hstep fun hmem =>
        absurd (hwf.fresh t hmem) (not_lt.mpr (hnext.trans ht))
      exact ⟨(ticks_unused _ hunused).1.trans hbudgeted, (ticks_unused _ hunused).2.trans haccepted⟩
    · intro t st b hst hb
      cases step_usage hwf hstep hst hb with
      | made fresh unused entry =>
        obtain ⟨hbudgeted, haccepted⟩ := hfresh t fresh
        exact tracked_of_unused ((ticks_unused _ unused).1.trans hbudgeted)
          ((ticks_unused _ unused).2.trans haccepted) entry
      | kept old live budget unused entry =>
        exact (htracked t old b live budget).kept unused entry htick
      | used old live budget used entry =>
        exact (htracked t old b live budget).used rfl used entry htick

lemma limit_reached {requiredPerm : Perm} {nonce : UInt32}
    (h : s.validate c t requiredPerm nonce = .ok (s', .error .budgetExhausted))
    (hst : s.tokens.get t = some st) (hb : st.budget = some b) :
    b.maxUses ≤ (s.budgetTracker.current t b s.currentTick).1 := by
  obtain ⟨-, ⟨e, he, hne⟩, -⟩ | ⟨old, nt, hold, -, hcases⟩ := validate_cases h
  · exact absurd (Except.error.inj he).symm hne
  obtain ⟨-, -, he⟩ | ⟨-, ⟨-, -, he⟩ | ⟨b', bt, ok, hsome, hbt, -, hr⟩⟩ := hcases
  · cases he
  · cases he
  obtain rfl : old = st := some.inj (hold.symm.trans hst)
  obtain rfl : b' = b := some.inj (hsome.symm.trans hb)
  by_contra hlt
  have hok : ok = true :=
    (checkAndConsume_cases hbt).1.trans (decide_eq_true (not_le.mp hlt))
  simp [hok] at hr

/-- **Budget rate bound.**  In a run that leaves a token with a budget of `m` uses per `w`
ticks live, at most `m * ((b - a) / w + 2)` of its uses were accepted from tick `a` to tick
`b`, and at most `m * ((b - t₀) / w + 1)` from the tick `t₀` of the first use that asked the
budget.  If the next use is refused as exhausted, then `m` uses have been accepted since the
start of the current interval. -/
theorem budget_rate_bounded {evs : List (Event CapabilityStore Op Answer)} {st : StoredToken}
    {budget : Budget} (hrun : Run (step c) new evs s) (hlive : s.tokens.get t = some st)
    (hbudget : st.budget = some budget) (hw : 0 < budget.intervalTicks) :
    (∀ a b, a ≤ b → (acceptedTicks evs t).countP (fun x => a ≤ x ∧ x ≤ b) ≤
        budget.maxUses * ((b - a) / budget.intervalTicks + 2)) ∧
      (∀ t₀ ticks b, budgetedTicks evs t = t₀ :: ticks → t₀ ≤ b →
        (acceptedTicks evs t).countP (fun x => t₀ ≤ x ∧ x ≤ b) ≤
          budget.maxUses * ((b - t₀) / budget.intervalTicks + 1)) ∧
      ∀ requiredPerm nonce s',
        s.validate c t requiredPerm nonce = .ok (s', .error .budgetExhausted) →
        let start := (s.budgetTracker.current t budget s.currentTick).2
        start ≤ s.currentTick ∧ s.currentTick < start + budget.intervalTicks ∧
          (acceptedTicks evs t).countP (start ≤ ·) = budget.maxUses := by
  have htracked := (run_tracked hrun).2 t st budget hlive hbudget
  have hsorted := htracked.sorted
  refine ⟨fun a b _ => ?_, fun t₀ ticks b hfirst _ => ?_, fun requiredPerm nonce s' hrefused => ?_⟩
  · rw [htracked.accepted]
    exact countP_accepted_between_le hw a b hsorted (by simp)
  · rw [htracked.accepted, hfirst]
    rw [hfirst] at hsorted
    refine le_trans (countP_mono_left fun x _ hx => ?_)
      (countP_accepted_first_le hw b hsorted)
    exact decide_eq_true (of_decide_eq_true hx).2
  · have hspec := current_spec (m := budget.maxUses) hw hsorted htracked.past
    rw [← htracked.entry, ← htracked.accepted, ← current_eq] at hspec
    obtain ⟨hused, hstart, hend, hcount⟩ := hspec
    -- the budget has refused the use, so the entry is at the limit
    have hfull := limit_reached hrefused hlive hbudget
    omega

/-- A token with two uses per three ticks: two uses, and four ticks later two more. -/
def limitedOps : List Op :=
  [.create 7 ⟨0xF⟩ 1 none (some ⟨2, 3⟩), .validate 1 ⟨0x1⟩ 1, .validate 1 ⟨0x1⟩ 2,
    .validate 1 ⟨0x1⟩ 3, .tick, .tick, .tick, .tick, .validate 1 ⟨0x1⟩ 4, .tick,
    .validate 1 ⟨0x1⟩ 5]

theorem limited_uses_bounded : ∃ evs,
    Run (step Crypto.zero) new evs (final (step Crypto.zero) new limitedOps) ∧
      evs.map (·.input) = limitedOps ∧
      (acceptedTicks evs 1).countP (fun x => 0 ≤ x ∧ x ≤ 5) ≤ 2 * ((5 - 0) / 3 + 2) ∧
      (acceptedTicks evs 1).countP (4 ≤ ·) = 2 := by
  have hreturns : (run (step Crypto.zero) new limitedOps).returns = true := rfl
  obtain ⟨evs, hrun, hin⟩ := Run.of_returns hreturns
  have hbudget : ((final (step Crypto.zero) new limitedOps).tokens.get 1).map (·.budget) =
      some (some ⟨2, 3⟩) := rfl
  obtain ⟨st, hst, hb⟩ := map_eq_some_iff.mp hbudget
  obtain ⟨hbetween, -, hrefused⟩ := budget_rate_bounded hrun hst hb (by decide)
  exact ⟨evs, hrun, hin, hbetween 0 5 (by decide), (hrefused ⟨0x1⟩ 6 _ rfl).2.2⟩

end CapabilityStore

end Fabric
