/-
Forests kept by intrusive links.

Every node knows its parent, its first child and its next sibling; a reserved
value `z` stands for "none".  The parent relation is thereby stored twice, and
`Forest` says that the two agree: following `first` and then `next` from a live
node lists exactly its live children, without repetition.

During a deletion some nodes are already cut off from their parent's list but not
yet removed.  They are the list `D` of *detached* nodes in `Forest z L D`; the
forest at rest is `Forest z L []`.

* `Chain.unlink`, `Chain.exists_pred` — taking one node out of a chain;
* `Forest.addRoot`, `Forest.addChild`, `Forest.detach_*` — the changes of links.
-/
import Mathlib.Data.Finset.Card

open Function List

namespace SiblingForest

variable {α : Type}

/-! ### Chains -/

/-- Following `next` from `a` until `z` runs through the list. -/
def Chain (z : α) (next : α → α) : α → List α → Prop
  | a, [] => a = z
  | a, x :: l => a = x ∧ x ≠ z ∧ Chain z next (next x) l

section

variable {z a t p : α} {next next' : α → α} {l : List α}

lemma Chain.congr : ∀ {l : List α} {a : α}, Chain z next a l →
    (∀ x ∈ l, next' x = next x) → Chain z next' a l
  | [], _, h, _ => h
  | x :: l, _, ⟨ha, hx, h⟩, heq => by
    refine ⟨ha, hx, ?_⟩
    rw [heq x (by simp)]
    exact h.congr fun y hy => heq y (by simp [hy])

lemma Chain.ne_of_mem : ∀ {l : List α} {a : α}, Chain z next a l → ∀ x ∈ l, x ≠ z
  | x :: l, _, ⟨_, hx, h⟩, y, hy => by
    rcases List.mem_cons.mp hy with rfl | hy
    · exact hx
    · exact h.ne_of_mem y hy

lemma Chain.start_mem (h : Chain z next a l) (ha : a ≠ z) : a ∈ l := by
  cases l with
  | nil => exact absurd h ha
  | cons x l => simp [h.1]

lemma Chain.next_mem : ∀ {l : List α} {a : α}, Chain z next a l → ∀ x ∈ l,
    next x ≠ z → next x ∈ l
  | x :: l, _, ⟨_, _, h⟩, y, hy, hne => by
    rcases List.mem_cons.mp hy with rfl | hy
    · exact List.mem_cons_of_mem _ (h.start_mem hne)
    · exact List.mem_cons_of_mem _ (h.next_mem y hy hne)

lemma Chain.exists_pred : ∀ {l : List α} {a : α}, Chain z next a l → t ∈ l → a ≠ t →
    ∃ p ∈ l, next p = t
  | x :: l, _, ⟨rfl, _, h⟩, ht, hne => by
    have htl : t ∈ l := by
      rcases mem_cons.mp ht with rfl | htl
      · exact absurd rfl hne
      · exact htl
    by_cases hx : next x = t
    · exact ⟨x, by simp, hx⟩
    · obtain ⟨p, hp, hpt⟩ := h.exists_pred htl hx
      exact ⟨p, by simp [hp], hpt⟩

lemma Chain.unlink [DecidableEq α] : ∀ {l : List α} {a : α}, Chain z next a l → l.Nodup → p ∈ l →
    next p = t → t ≠ z → Chain z (update next p (next t)) a (l.erase t)
  | x :: l, _, ⟨rfl, hx, h⟩, hnd, hp, hpt, ht => by
    obtain ⟨hxl, hnd⟩ := List.nodup_cons.mp hnd
    -- the successor of `p` is in the tail in either case, so `x` is not `t`
    have htl : t ∈ l := by
      rcases mem_cons.mp hp with rfl | hpl
      · rw [hpt] at h
        exact h.start_mem ht
      · exact hpt ▸ h.next_mem p hpl (hpt ▸ ht)
    have hxt : x ≠ t := fun heq => hxl (heq ▸ htl)
    rw [erase_cons_tail (by simpa using hxt)]
    refine ⟨rfl, hx, ?_⟩
    by_cases hpx : p = x
    · subst hpx
      rw [hpt] at h
      cases l with
      | nil => exact absurd h ht
      | cons y l =>
        obtain ⟨rfl, -, hrest⟩ := h
        rw [update_self, erase_cons_head]
        refine hrest.congr fun w hw => update_of_ne ?_ _ _
        rintro rfl
        exact hxl (by simp [hw])
    · have hpl : p ∈ l := (mem_cons.mp hp).resolve_left hpx
      rw [update_of_ne (Ne.symm hpx)]
      exact h.unlink hnd hpl hpt ht

end

/-! ### Forests -/

structure Links (α : Type) where
  live : Finset α
  parent : α → α
  first : α → α
  next : α → α

/-- `l` lists the attached live children of `p`, as its links do. -/
structure Lists (z : α) (L : Links α) (D : List α) (p : α) (l : List α) : Prop where
  chain : Chain z L.next (L.first p) l
  nodup : l.Nodup
  mem_iff : ∀ c, c ∈ l ↔ (c ∈ L.live ∧ L.parent c = p) ∧ c ∉ D

/-- The links form a forest, apart from the detached nodes `D`. -/
structure Forest [LT α] (z : α) (L : Links α) (D : List α) : Prop where
  none_free : z ∉ L.live
  detached_live : ∀ x ∈ D, x ∈ L.live
  detached_nodup : D.Nodup
  parent_live : ∀ c ∈ L.live, c ∉ D → L.parent c ≠ z → L.parent c ∈ L.live
  parent_lt : ∀ c ∈ L.live, L.parent c ≠ z → L.parent c < c
  root_next : ∀ c ∈ L.live, L.parent c = z → L.next c = z
  children : ∀ p ∈ L.live, ∃ l, Lists z L D p l

/-- Two sets of links agree on the live nodes. -/
structure Agree (L L' : Links α) : Prop where
  live : L'.live = L.live
  parent : ∀ x ∈ L.live, L'.parent x = L.parent x
  first : ∀ x ∈ L.live, L'.first x = L.first x
  next : ∀ x ∈ L.live, L'.next x = L.next x

section

variable [LT α] {z t p c : α} {L L' : Links α} {D l : List α}

lemma Forest.ne_none (h : Forest z L D) (hc : c ∈ L.live) : c ≠ z := by
  rintro rfl
  exact h.none_free hc

lemma Forest.of_agree (h : Forest z L D) (ha : Agree L L') : Forest z L' D where
  none_free := by rw [ha.live]; exact h.none_free
  detached_live := by rw [ha.live]; exact h.detached_live
  detached_nodup := h.detached_nodup
  parent_live := by
    rw [ha.live]
    intro c hc hD hne
    rw [ha.parent c hc] at hne ⊢
    exact h.parent_live c hc hD hne
  parent_lt := by
    rw [ha.live]
    intro c hc hne
    rw [ha.parent c hc] at hne ⊢
    exact h.parent_lt c hc hne
  root_next := by
    rw [ha.live]
    intro c hc hz
    rw [ha.parent c hc] at hz
    rw [ha.next c hc]
    exact h.root_next c hc hz
  children := by
    rw [ha.live]
    intro p hp
    obtain ⟨l, hl⟩ := h.children p hp
    refine ⟨l, ?_, hl.nodup, fun c => ?_⟩
    · rw [ha.first p hp]
      exact hl.chain.congr fun x hx => ha.next x ((hl.mem_iff x).mp hx).1.1
    · rw [hl.mem_iff, ha.live]
      refine and_congr_left fun _ => and_congr_right fun hc => ?_
      rw [ha.parent c hc]

lemma Forest.next_live (h : Forest z L []) (hc : c ∈ L.live) (hne : L.next c ≠ z) :
    L.next c ∈ L.live := by
  have hp : L.parent c ≠ z := fun hz => hne (h.root_next c hc hz)
  obtain ⟨l, hl⟩ := h.children _ (h.parent_live c hc (by simp) hp)
  have hcl : c ∈ l := (hl.mem_iff c).mpr ⟨⟨hc, rfl⟩, by simp⟩
  exact ((hl.mem_iff _).mp (hl.chain.next_mem c hcl hne)).1.1

lemma Forest.first_live (h : Forest z L D) (hp : p ∈ L.live) (hne : L.first p ≠ z) :
    L.first p ∈ L.live := by
  obtain ⟨l, hl⟩ := h.children p hp
  exact ((hl.mem_iff _).mp (hl.chain.start_mem hne)).1.1

end

/-! ### Changing the links -/

section

variable [DecidableEq α]

def Links.add (L : Links α) (c parent next none : α) : Links α where
  live := insert c L.live
  parent := update L.parent c parent
  first := update L.first c none
  next := update L.next c next

def Links.setFirst (L : Links α) (p c : α) : Links α :=
  { L with first := update L.first p c }

def Links.setNext (L : Links α) (x c : α) : Links α :=
  { L with next := update L.next x c }

def Links.remove (L : Links α) (c : α) : Links α := { L with live := L.live.erase c }

variable [LT α] {z t p q c : α} {L : Links α} {D l : List α}

variable {L' : Links α}

omit [LT α] in
lemma Agree.setFirst (h : Agree L L') (p c : α) : Agree (L.setFirst p c) (L'.setFirst p c) := by
  refine ⟨h.live, h.parent, fun x hx => ?_, h.next⟩
  by_cases hxp : x = p
  · simp [Links.setFirst, hxp]
  · simpa [Links.setFirst, update_of_ne hxp] using h.first x hx

omit [LT α] in
lemma Lists.add (hl : Lists z L [] q l) (hc : c ∉ L.live) (n : α) (hq : q ∈ L.live)
    (hqp : q ≠ p) : Lists z (L.add c p n z) [] q l := by
  have hne : ∀ x ∈ L.live, x ≠ c := fun x hx heq => hc (heq ▸ hx)
  refine ⟨?_, hl.nodup, fun x => ?_⟩
  · simp only [Links.add, update_of_ne (hne q hq)]
    exact hl.chain.congr fun x hx =>
      update_of_ne (hne x ((hl.mem_iff x).mp hx).1.1) _ _
  rw [hl.mem_iff]
  by_cases hx : x = c
  · subst hx
    simp [Links.add, hc, Ne.symm hqp]
  · simp [Links.add, hx]

lemma Forest.lists_add_self (h : Forest z L []) (hc : c ∉ L.live) (hz : c ≠ z) (hpc : p ≠ c)
    (n : α) : Lists z (L.add c p n z) [] c [] := by
  refine ⟨by simp [Links.add, Chain], nodup_nil, fun x => ?_⟩
  by_cases hx : x = c
  · subst hx
    simp [Links.add, hpc]
  · simp only [Links.add, Finset.mem_insert, hx, false_or, update_of_ne hx,
      not_mem_nil, not_false_eq_true, and_true, false_iff, not_and]
    rintro hlive rfl
    exact hc (h.parent_live x hlive (by simp) hz)

lemma Forest.of_add {n : α} (h : Forest z L []) (hz : c ≠ z) (hp : p ≠ z → p ∈ L.live ∧ p < c)
    (hn : p = z → n = z) (hlive : L'.live = insert c L.live)
    (hparent : L'.parent = update L.parent c p) (hnext : L'.next = update L.next c n)
    (hchildren : ∀ q ∈ L'.live, ∃ l, Lists z L' [] q l) : Forest z L' [] where
  none_free := by simp [hlive, Ne.symm hz, h.none_free]
  detached_live := by simp
  detached_nodup := nodup_nil
  parent_live := by
    intro x hx _ hne
    rw [hlive] at hx ⊢
    rw [hparent] at hne ⊢
    by_cases hxc : x = c
    · simp only [hxc, update_self] at hne ⊢
      exact Finset.mem_insert_of_mem (hp hne).1
    · simp only [update_of_ne hxc] at hne ⊢
      have hx := (Finset.mem_insert.mp hx).resolve_left hxc
      exact Finset.mem_insert_of_mem (h.parent_live x hx (by simp) hne)
  parent_lt := by
    intro x hx hne
    rw [hlive] at hx
    rw [hparent] at hne ⊢
    by_cases hxc : x = c
    · simp only [hxc, update_self] at hne ⊢
      exact (hp hne).2
    · simp only [update_of_ne hxc] at hne ⊢
      exact h.parent_lt x ((Finset.mem_insert.mp hx).resolve_left hxc) hne
  root_next := by
    intro x hx hpz
    rw [hlive] at hx
    rw [hparent] at hpz
    rw [hnext]
    by_cases hxc : x = c
    · simp only [hxc, update_self] at hpz ⊢
      exact hn hpz
    · simp only [update_of_ne hxc] at hpz ⊢
      exact h.root_next x ((Finset.mem_insert.mp hx).resolve_left hxc) hpz
  children := hchildren

lemma Forest.addRoot (h : Forest z L []) (hc : c ∉ L.live) (hz : c ≠ z) :
    Forest z (L.add c z z z) [] := by
  refine h.of_add hz (fun hne => absurd rfl hne) (fun _ => rfl) rfl rfl rfl fun q hq => ?_
  rcases Finset.mem_insert.mp hq with rfl | hq
  · exact ⟨[], h.lists_add_self hc hz (Ne.symm hz) z⟩
  · obtain ⟨l, hl⟩ := h.children q hq
    exact ⟨l, hl.add hc z hq (h.ne_none hq)⟩

lemma Forest.addChild (h : Forest z L []) (hc : c ∉ L.live) (hz : c ≠ z) (hp : p ∈ L.live)
    (hlt : p < c) : Forest z ((L.add c p (L.first p) z).setFirst p c) [] := by
  have hpc : p ≠ c := fun heq => hc (heq ▸ hp)
  refine h.of_add hz (fun _ => ⟨hp, hlt⟩) (fun hpz => absurd hpz (h.ne_none hp)) rfl rfl rfl
    fun q hq => ?_
  by_cases hqp : q = p
  · -- the parent: its list grows by `c` at the head
    subst hqp
    obtain ⟨l, hl⟩ := h.children q hp
    have hcl : c ∉ l := fun hmem => hc ((hl.mem_iff c).mp hmem).1.1
    refine ⟨c :: l, ⟨?_, hz, ?_⟩, nodup_cons.mpr ⟨hcl, hl.nodup⟩, fun x => ?_⟩
    · simp [Links.setFirst]
    · simp only [Links.add, Links.setFirst, update_self]
      refine hl.chain.congr fun x hx => update_of_ne ?_ _ _
      rintro rfl
      exact hcl hx
    · by_cases hxc : x = c
      · simp [Links.add, Links.setFirst, hxc]
      · simp [Links.add, Links.setFirst, hxc, hl.mem_iff]
  · have key : ∃ l, Lists z (L.add c p (L.first p) z) [] q l := by
      rcases Finset.mem_insert.mp hq with rfl | hq
      · exact ⟨[], h.lists_add_self hc hz hpc _⟩
      · obtain ⟨l, hl⟩ := h.children q hq
        exact ⟨l, hl.add hc _ hq hqp⟩
    obtain ⟨l, hl⟩ := key
    refine ⟨l, ?_, hl.nodup, hl.mem_iff⟩
    simpa [Links.setFirst, update_of_ne hqp] using hl.chain

/-! ### Detaching and removing -/

omit [DecidableEq α] in
lemma Forest.detach_root (h : Forest z L []) (ht : t ∈ L.live) (hr : L.parent t = z) :
    Forest z L [t] where
  none_free := h.none_free
  detached_live := by simpa using ht
  detached_nodup := nodup_singleton t
  parent_live := fun c hc _ => h.parent_live c hc (by simp)
  parent_lt := h.parent_lt
  root_next := h.root_next
  children := by
    intro p hp
    obtain ⟨l, hl⟩ := h.children p hp
    refine ⟨l, hl.chain, hl.nodup, fun c => ?_⟩
    rw [hl.mem_iff]
    simp only [not_mem_nil, not_false_eq_true, and_true, mem_singleton]
    refine ⟨fun hc => ⟨hc, ?_⟩, And.left⟩
    rintro rfl
    exact h.ne_none hp (hc.2.symm.trans hr)

lemma Forest.detach (h : Forest z L []) (ht : t ∈ L.live) (hlive : L'.live = L.live)
    (hparent : L'.parent = L.parent) (hroot : ∀ c ∈ L.live, L.parent c = z → L'.next c = L.next c)
    (hsame : ∀ q ∈ L.live, q ≠ L.parent t → ∀ l, Lists z L [] q l →
      Chain z L'.next (L'.first q) l) (htaken : ∀ l, Lists z L [] (L.parent t) l →
      Chain z L'.next (L'.first (L.parent t)) (l.erase t)) : Forest z L' [t] where
  none_free := hlive ▸ h.none_free
  detached_live := by simpa [hlive] using ht
  detached_nodup := nodup_singleton t
  parent_live := by
    rw [hlive, hparent]
    exact fun c hc _ => h.parent_live c hc (by simp)
  parent_lt := by
    rw [hlive, hparent]
    exact h.parent_lt
  root_next := by
    rw [hlive, hparent]
    intro c hc hz
    exact (hroot c hc hz).trans (h.root_next c hc hz)
  children := by
    rw [hlive]
    intro q hq
    obtain ⟨l, hl⟩ := h.children q hq
    by_cases hqp : q = L.parent t
    · -- the parent's list loses exactly `t`
      subst hqp
      refine ⟨l.erase t, htaken l hl, hl.nodup.erase t, fun c => ?_⟩
      rw [hl.nodup.mem_erase_iff, hl.mem_iff, hlive, hparent]
      simp [and_comm]
    · refine ⟨l, hsame q hq hqp l hl, hl.nodup, fun c => ?_⟩
      rw [hl.mem_iff, hlive, hparent]
      simp only [not_mem_nil, not_false_eq_true, and_true, mem_singleton]
      refine ⟨fun hc => ⟨hc, ?_⟩, And.left⟩
      rintro rfl
      exact hqp hc.2.symm

lemma Forest.detach_first (h : Forest z L []) (ht : t ∈ L.live)
    (hfirst : L.first (L.parent t) = t) : Forest z (L.setFirst (L.parent t) (L.next t)) [t] := by
  refine h.detach ht rfl rfl (fun _ _ _ => rfl) ?_ ?_
  · intro q _ hqp l hl
    simpa [Links.setFirst, update_of_ne hqp] using hl.chain
  intro l hl
  have hchain := hl.chain
  rw [hfirst] at hchain
  cases l with
  | nil => exact absurd hchain (h.ne_none ht)
  | cons x l =>
    obtain ⟨rfl, -, hrest⟩ := hchain
    simpa [Links.setFirst] using hrest

lemma Forest.detach_next (h : Forest z L []) (ht : t ∈ L.live) (hp : L.parent t ≠ z)
    (hq : q ∈ L.live) (hqp : L.parent q = L.parent t) (hqt : L.next q = t) :
    Forest z (L.setNext q (L.next t)) [t] := by
  refine h.detach ht rfl rfl ?_ ?_ ?_
  · -- the written node `q` is a sibling of `t`, so it is no root and in no other list
    intro c _ hz
    refine update_of_ne ?_ _ _
    rintro rfl
    exact hp (hqp.symm.trans hz)
  · intro r _ hrp l hl
    refine hl.chain.congr fun x hx => update_of_ne ?_ _ _
    rintro rfl
    exact hrp (((hl.mem_iff x).mp hx).1.2.symm.trans hqp)
  · intro l hl
    have hql : q ∈ l := (hl.mem_iff q).mpr ⟨⟨hq, hqp⟩, by simp⟩
    exact hl.chain.unlink hl.nodup hql hqt (h.ne_none ht)

lemma Forest.pop (h : Forest z L (t :: D)) (hl : Lists z L (t :: D) t l) :
    Forest z (L.remove t) (l.reverse ++ D) where
  none_free := by simp [Links.remove, h.none_free]
  detached_live := by
    obtain ⟨htD, -⟩ := nodup_cons.mp h.detached_nodup
    intro x hx
    rcases mem_append.mp hx with hx | hx
    · have hmem := (hl.mem_iff x).mp (mem_reverse.mp hx)
      exact Finset.mem_erase.mpr ⟨fun heq => hmem.2 (by simp [heq]), hmem.1.1⟩
    · exact Finset.mem_erase.mpr ⟨fun heq => htD (heq ▸ hx), h.detached_live x (by simp [hx])⟩
  detached_nodup := by
    refine List.Nodup.append (nodup_reverse.mpr hl.nodup)
      (nodup_cons.mp h.detached_nodup).2 fun x hx hD => ?_
    exact ((hl.mem_iff x).mp (mem_reverse.mp hx)).2 (by simp [hD])
  parent_live := by
    intro c hc hD hne
    obtain ⟨hct, hc⟩ := Finset.mem_erase.mp hc
    simp only [mem_append, mem_reverse, not_or] at hD
    -- an orphan of the removal is a child of `t`, and those are on the new list
    have hD' : c ∉ t :: D := by simp [hct, hD.2]
    refine Finset.mem_erase.mpr ⟨fun hpt => hD.1 ?_, h.parent_live c hc hD' hne⟩
    exact (hl.mem_iff c).mpr ⟨⟨hc, hpt⟩, hD'⟩
  parent_lt := fun c hc => h.parent_lt c (Finset.mem_of_mem_erase hc)
  root_next := fun c hc => h.root_next c (Finset.mem_of_mem_erase hc)
  children := by
    intro p hp
    obtain ⟨hpt, hp⟩ := Finset.mem_erase.mp hp
    obtain ⟨m, hm⟩ := h.children p hp
    refine ⟨m, hm.chain, hm.nodup, fun c => ?_⟩
    rw [hm.mem_iff]
    simp only [Links.remove, Finset.mem_erase, mem_append, mem_reverse, hl.mem_iff,
      mem_cons, not_or]
    -- a child of `p` is no child of `t`
    constructor
    · rintro ⟨⟨hc, rfl⟩, hct, hcD⟩
      exact ⟨⟨⟨hct, hc⟩, rfl⟩, fun hx => hpt hx.1.2, hcD⟩
    · rintro ⟨⟨⟨hct, hc⟩, rfl⟩, -, hcD⟩
      exact ⟨⟨hc, rfl⟩, hct, hcD⟩

/-! ### Descendants -/

/-- `c` is live and its parent is `p`. -/
def Links.Edge (L : Links α) (c p : α) : Prop := c ∈ L.live ∧ L.parent c = p

/-- Going up from `c` through live nodes one meets `t`. -/
def Links.Below (L : Links α) : α → α → Prop := Relation.ReflTransGen L.Edge

open Classical in
/-- The live nodes at or below a node of the list. -/
noncomputable def Links.under (L : Links α) (D : List α) : Finset α :=
  L.live.filter fun c => ∃ x ∈ D, L.Below c x

omit [LT α] [DecidableEq α] in
lemma Links.mem_under : c ∈ L.under D ↔ c ∈ L.live ∧ ∃ x ∈ D, L.Below c x := by
  simp [Links.under]

omit [LT α] [DecidableEq α] in
lemma Links.under_congr (hlive : L'.live = L.live)
    (hparent : ∀ x ∈ L.live, L'.parent x = L.parent x) (D : List α) : L'.under D = L.under D := by
  have hedge : L'.Edge = L.Edge := by
    funext x y
    unfold Links.Edge
    rw [hlive]
    exact propext (and_congr_right fun hx => by rw [hparent x hx])
  ext c
  rw [Links.mem_under, Links.mem_under, hlive, Links.Below, Links.Below, hedge]

omit [LT α] [DecidableEq α] in
lemma Agree.under_eq (h : Agree L L') (D : List α) : L'.under D = L.under D :=
  Links.under_congr h.live h.parent D

lemma Forest.below_pop (h : Forest z L (t :: D)) (hl : Lists z L (t :: D) t l) {x : α}
    (hx : x ∈ t :: D) (hb : L.Below c x) (hct : c ≠ t) :
    ∃ y ∈ l.reverse ++ D, (L.remove t).Below c y := by
  -- induction up the path: it stops at the first detached node it meets
  induction hb using Relation.ReflTransGen.head_induction_on with
  | refl =>
    exact ⟨x, mem_append_right _ ((mem_cons.mp hx).resolve_left hct), .refl⟩
  | head hedge hrest ih =>
    rename_i c p
    obtain ⟨hc, hcp⟩ := hedge
    by_cases hcD : c ∈ l.reverse ++ D
    · exact ⟨c, hcD, .refl⟩
    simp only [mem_append, mem_reverse, not_or] at hcD
    have hpt : p ≠ t := by
      rintro rfl
      exact hcD.1 ((hl.mem_iff c).mpr ⟨⟨hc, hcp⟩, by simp [hct, hcD.2]⟩)
    obtain ⟨y, hy, hb⟩ := ih hpt
    exact ⟨y, hy, .head ⟨Finset.mem_erase.mpr ⟨hct, hc⟩, hcp⟩ hb⟩

lemma Forest.under_pop (h : Forest z L (t :: D)) (hl : Lists z L (t :: D) t l) :
    L.under (t :: D) = insert t ((L.remove t).under (l.reverse ++ D)) := by
  ext c
  rw [Finset.mem_insert, Links.mem_under, Links.mem_under]
  constructor
  · rintro ⟨hc, x, hx, hb⟩
    refine or_iff_not_imp_left.mpr fun hct => ⟨Finset.mem_erase.mpr ⟨hct, hc⟩, ?_⟩
    exact h.below_pop hl hx hb hct
  · rintro (rfl | ⟨hc, y, hy, hb⟩)
    · exact ⟨h.detached_live c (by simp), c, by simp, .refl⟩
    -- a path that avoids `t` is a path of the old forest
    have hb' : L.Below c y := hb.lift id fun _ _ he =>
      ⟨Finset.mem_of_mem_erase he.1, he.2⟩
    refine ⟨Finset.mem_of_mem_erase hc, ?_⟩
    rcases mem_append.mp hy with hy | hy
    · have hyt := ((hl.mem_iff y).mp (mem_reverse.mp hy)).1
      exact ⟨t, by simp, hb'.tail hyt⟩
    · exact ⟨y, by simp [hy], hb'⟩

omit [LT α] in
lemma Links.notMem_under_remove : t ∉ (L.remove t).under D := by
  simp [Links.mem_under, Links.remove]

end

end SiblingForest
