/-
The operations of the frame allocator keep bitmap and free lists in agreement.

`Ready s U L` says that the allocator is at rest: the free lists `L` hold the maximal blocks
of `U`, and the bitmap and the counter agree on `U`.
-/
import FabricOS.FreeLists

open Function Finset Nat

namespace Fabric

open Buddy FreeBlockPtr DyadicBlocks

namespace FrameState

variable {s s' : FrameState} {U V : Finset ℕ} {L : ℕ → List ℕ} {k j f g n order : ℕ}

/-- The allocator is at rest, with the free frames `U` on the lists `L`. -/
structure Ready (s : FrameState) (U : Finset ℕ) (L : ℕ → List ℕ) : Prop where
  lists : Lists s U L
  marks : s.alloc.Marks U
  count : s.alloc.freeFrames = U.card
  initialized : s.alloc.initialized = true

/-! ### Allocating -/

lemma Lists.head_eq_null_iff (h : Lists s U L) (hk : k ≤ maxOrder) :
    s.alloc.freeLists k = null ↔ L k = [] := by
  have hchain := h.chain k hk
  rw [FreeList] at hchain
  constructor
  · intro hhead
    cases hL : L k with
    | nil => rfl
    | cons f rest =>
      rw [hL] at hchain
      exact absurd (hchain.1.symm.trans hhead) hchain.2.1
  · intro hL
    rw [hL] at hchain
    exact hchain

lemma Lists.availOrder_spec (h : Lists s U L) : ∀ n order : ℕ, order + n = maxOrder + 1 →
    order ≤ s.availOrder n order ∧ s.availOrder n order ≤ maxOrder + 1 ∧
      (∀ k, order ≤ k → k < s.availOrder n order → L k = []) ∧
      (s.availOrder n order ≤ maxOrder → L (s.availOrder n order) ≠ [])
  | 0, order, hn => by
    refine ⟨le_rfl, by simp only [availOrder]; omega, fun k hle hlt => ?_, fun hle => ?_⟩
    · simp only [availOrder] at hlt
      omega
    · simp only [availOrder] at hle
      omega
  | n + 1, order, hn => by
    have hk : order ≤ maxOrder := by omega
    rw [availOrder]
    by_cases hempty : L order = []
    · rw [if_neg (not_not.mpr ((h.head_eq_null_iff hk).mpr hempty))]
      obtain ⟨hle, hmax, hbelow, hfound⟩ := h.availOrder_spec n (order + 1) (by omega)
      refine ⟨by omega, hmax, fun k hk hlt => ?_, hfound⟩
      obtain rfl | hlt' := hk.eq_or_lt
      · exact hempty
      · exact hbelow k hlt' hlt
    · rw [if_pos fun hhead => hempty ((h.head_eq_null_iff hk).mp hhead)]
      exact ⟨le_rfl, by omega, fun k hle hlt => absurd hlt (by omega), fun _ => hempty⟩

def splitLists (L : ℕ → List ℕ) (f order n : ℕ) (k : ℕ) : List ℕ :=
  if order ≤ k ∧ k < order + n then (f + 2 ^ k) :: L k else L k

lemma Lists.split (order f : ℕ) : ∀ (n : ℕ) {s : FrameState} {U : Finset ℕ}
    {L : ℕ → List ℕ}, Lists s U L → order + n ≤ maxOrder → 2 ^ (order + n) ∣ f →
    Disjoint U (block (order + n) f) → (∀ x ∈ block (order + n) f, 0 < x ∧ x < maxFrames) →
    ∃ s', s.split f order n = .ok s' ∧
      Lists s' (U ∪ (block (order + n) f \ block order f)) (splitLists L f order n) ∧
      s.SameButLists s'
  | 0, s, U, L, h, _, _, _, _ => by
    refine ⟨s, rfl, ?_, .refl s⟩
    have hlists : splitLists L f order 0 = L := by
      funext k
      exact if_neg (by omega)
    rw [hlists, add_zero, sdiff_self, bot_eq_empty, union_empty]
    exact h
  | n + 1, s, U, L, h, hmax, hdvd, hdisj, hrange => by
    have hhalf : f ^^^ 2 ^ (order + n) = f + 2 ^ (order + n) := buddy_eq_add hdvd
    have hdvd' : 2 ^ (order + n) ∣ f := (pow_dvd_pow 2 (le_succ _)).trans hdvd
    have hwhole : block (order + (n + 1)) f =
        block (order + n) f ∪ block (order + n) (f + 2 ^ (order + n)) := by
      rw [← hhalf]
      exact block_succ
    have hapart : Disjoint (block (order + n) f) (block (order + n) (f + 2 ^ (order + n))) := by
      rw [← hhalf]
      exact disjoint_buddy
    rw [hwhole, disjoint_union_right] at hdisj
    rw [hwhole] at hrange
    -- the upper half goes to its list: its buddy is still in hand
    obtain ⟨s1, hpush, hlists1, hsame1⟩ := h.push (k := order + n) (f := f + 2 ^ (order + n))
      (Nat.dvd_add hdvd' (dvd_refl _)) (by omega) hdisj.2
      (fun _ hsub => by
        rw [← hhalf, xor_xor_cancel_right] at hsub
        exact disjoint_left.mp hdisj.1 (hsub self_mem_block) self_mem_block)
      (fun x hx => hrange x (mem_union_right _ hx))
    obtain ⟨s2, hsplit, hlists2, hsame2⟩ := Lists.split order f n hlists1 (by omega) hdvd'
      (disjoint_union_left.mpr ⟨hdisj.1, hapart.symm⟩)
      (fun x hx => hrange x (mem_union_left _ hx))
    refine ⟨s2, by simp [FrameState.split, hpush, hsplit], ?_, hsame1.trans hsame2⟩
    have hset : U ∪ (block (order + (n + 1)) f \ block order f) =
        U ∪ block (order + n) (f + 2 ^ (order + n)) ∪ (block (order + n) f \ block order f) := by
      have hbelow : Disjoint (block (order + n) (f + 2 ^ (order + n))) (block order f) :=
        hapart.symm.mono_right (block_subset (le_add_right order n))
      rw [hwhole, union_sdiff_distrib, hbelow.sdiff_eq_left, union_assoc,
        union_comm (block (order + n) f \ block order f)]
    have hlists : splitLists L f order (n + 1) = splitLists (update L (order + n)
        ((f + 2 ^ (order + n)) :: L (order + n))) f order n := by
      funext k
      unfold splitLists
      by_cases hk : k = order + n
      · subst hk
        rw [if_pos (by omega), if_neg (by omega), update_self]
      · have hiff : (order ≤ k ∧ k < order + (n + 1)) ↔ (order ≤ k ∧ k < order + n) := by omega
        simp only [hiff, update_of_ne hk]
    rw [hset, hlists]
    exact hlists2

/-! The links are written to the blocks that are on the lists. -/

lemma popFreeList_mem {out : Option ℕ} (h : s.popFreeList k = .ok (s', out)) : s'.mem = s.mem := by
  unfold popFreeList at h
  simp only [] at h
  split_ifs at h <;> cases h <;> rfl

lemma pushFreeList_mem (h : s.pushFreeList f k = .ok s') {x : ℕ} (hx : x / pageSize ≠ f) :
    s'.mem x = s.mem x := by
  unfold pushFreeList at h
  split_ifs at h
  cases h
  exact setNext_mem_of_ne hx

lemma split_mem (h : s.split f order n = .ok s') (hdvd : 2 ^ (order + n) ∣ f) {x : ℕ}
    (hx : x / pageSize ∉ block (order + n) f) : s'.mem x = s.mem x := by
  induction n generalizing s with
  | zero =>
    cases h
    rfl
  | succ n ih =>
    obtain ⟨s1, hpush, hsplit⟩ := Exec.bind_eq_ok.mp h
    have hpos := Nat.two_pow_pos (order + n)
    rw [mem_block_of_dvd hdvd] at hx
    have hdvd' : 2 ^ (order + n) ∣ f := (pow_dvd_pow 2 (le_succ _)).trans hdvd
    have hdouble : 2 ^ (order + (n + 1)) = 2 ^ (order + n) * 2 := pow_succ 2 (order + n)
    have hrest : s'.mem x = s1.mem x := by
      refine ih hsplit hdvd' ?_
      rw [mem_block_of_dvd hdvd']
      omega
    rw [hrest]
    refine pushFreeList_mem hpush ?_
    omega

lemma Lists.congr (h : Lists s U L) (hheads : s'.alloc.freeLists = s.alloc.freeLists)
    (hmem : s'.mem = s.mem) : Lists s' U L :=
  ⟨fun k hk => (h.chain k hk).congr (by rw [hheads]) (fun g _ => by rw [hmem]),
    h.nodup, h.mem, h.range⟩

lemma Lists.eq_nil (h : Lists s U L) (hk : maxOrder < k) : L k = [] :=
  List.eq_nil_iff_forall_not_mem.mpr fun f hf => (hk.trans_le ((h.mem k f).mp hf).le).false

/-- What an allocation takes: the first block of the smallest order that has one. -/
structure Taken (L L' : ℕ → List ℕ) (order avail f : ℕ) : Prop where
  le : order ≤ avail
  max : avail ≤ maxOrder
  below : ∀ k, order ≤ k → k < avail → L k = []
  head : ∃ rest, L avail = f :: rest ∧
    L' = splitLists (update L avail rest) f order (avail - order)

lemma Ready.allocate (h : Ready s U L) (order : ℕ) :
    (∃ s' f avail L', s.allocate order = .ok (s', some (fromFrame f)) ∧ 2 ^ order ∣ f ∧
      block order f ⊆ U ∧ Ready s' (U \ block order f) L' ∧ Taken L L' order avail f ∧
      ∀ x, x / pageSize ∉ U → s'.mem x = s.mem x) ∨
    s.allocate order = .ok (s, none) ∧ ∀ k, order ≤ k → L k = [] := by
  unfold FrameState.allocate
  by_cases horder : order > maxOrder
  · exact .inr ⟨if_pos (.inr horder), fun k hk => h.lists.eq_nil (lt_of_lt_of_le horder hk)⟩
  rw [if_neg (by simp [h.initialized, horder])]
  obtain ⟨hle, -, hbelow, hfound⟩ := h.lists.availOrder_spec (maxOrder + 1 - order) order (by omega)
  simp only []
  generalize s.availOrder (maxOrder + 1 - order) order = avail at hle hbelow hfound ⊢
  by_cases havail : avail > maxOrder
  · refine .inr ⟨if_pos havail, fun k hk => ?_⟩
    obtain hlt | hge := lt_or_ge k avail
    · exact hbelow k hk hlt
    · exact h.lists.eq_nil (lt_of_lt_of_le havail hge)
  rw [if_neg havail]
  rw [not_lt] at havail
  left
  obtain ⟨s1, f, rest, hL, hpop, hlists1, hsame1⟩ := h.lists.pop havail (hfound havail)
  have htop : Top maxOrder U avail f := (h.lists.mem avail f).mp (hL ▸ List.mem_cons_self)
  have hdvd : 2 ^ order ∣ f := (pow_dvd_pow 2 hle).trans htop.dvd
  have hsub : block order f ⊆ U := (block_subset hle).trans htop.subset
  -- the rest of the block goes back to the lists
  have havail' : order + (avail - order) = avail := by omega
  obtain ⟨s2, hsplit, hlists2, hsame2⟩ := Lists.split order f (avail - order)
    hlists1 (by omega) (by rw [havail']; exact htop.dvd)
    (by rw [havail']; exact sdiff_disjoint)
    (fun x hx => h.lists.range x (htop.subset (havail' ▸ hx)))
  rw [havail', sdiff_union_sdiff_cancel htop.subset (block_subset hle)] at hlists2
  obtain ⟨a, hset, hmarks, hsame⟩ := BuddyAllocator.exists_setBits f (2 ^ order)
    ((hsame1.trans hsame2).marks h.marks)
    (add_le_of_block_lt hdvd fun x hx => (h.lists.range x (hsub hx)).2)
  rw [← block_eq_Ico hdvd] at hmarks
  obtain ⟨-, hfree2, hinit2⟩ := (hsame1.trans hsame2).fields
  obtain ⟨hheads, -, hfree, hinit⟩ := hsame.fields
  refine ⟨⟨{ a with freeFrames := a.freeFrames - 2 ^ order }, s2.mem⟩, f, avail, _, ?_, hdvd, hsub,
    ⟨hlists2.congr hheads rfl, hmarks, ?_, ?_⟩, ⟨hle, havail, hbelow, rest, hL, rfl⟩,
    fun x hx => ?_⟩
  · simp only [hpop, hsplit, hset, Exec.ok_bind]
  · show a.freeFrames - 2 ^ order = _
    rw [hfree, hfree2, h.count, card_sdiff_of_subset hsub, card_block]
  · exact hinit.trans (hinit2.trans h.initialized)
  · rw [← popFreeList_mem hpop]
    refine split_mem hsplit (havail'.symm ▸ htop.dvd) fun hx' => hx (htop.subset ?_)
    rwa [havail'] at hx'

lemma Ready.takeFrame (h : Ready s U L) :
    (∃ s' f L', s.allocate 0 = .ok (s', some (fromFrame f)) ∧ f ∈ U ∧ Ready s' (U.erase f) L' ∧
      ∀ x, x / pageSize ∉ U → s'.mem x = s.mem x) ∨ s.allocate 0 = .ok (s, none) := by
  obtain ⟨s', f, avail, L', halloc, -, hsub, hready, -, hmem⟩ | ⟨hnone, -⟩ := h.allocate 0
  · rw [block_zero, sdiff_singleton_eq_erase] at hready
    exact .inl ⟨s', f, L', halloc, hsub self_mem_block, hready, hmem⟩
  · exact .inr hnone

lemma Ready.setMem (h : Ready s U L) {mem : ByteMemory}
    (hmem : ∀ x, x / pageSize ∈ U → mem x = s.mem x) : Ready ⟨s.alloc, mem⟩ U L := by
  have hlists : Lists ⟨s.alloc, mem⟩ U L := by
    refine ⟨fun k hk => (h.lists.chain k hk).congr rfl fun g hg => ?_, h.lists.nodup,
      h.lists.mem, h.lists.range⟩
    refine ByteMemory.read_congr fun x hle hlt => hmem x ?_
    have hframe : x / pageSize = g := by
      rw [fromFrame, pageSize] at hle hlt
      rw [pageSize]
      omega
    exact hframe ▸ h.lists.frame_mem hg
  exact ⟨hlists, h.marks, h.count, h.initialized⟩

/-! ### Giving back -/

/-- **Merging** a block in hand with its buddies, as long as these are free.  The bitmap marks
the block in hand as free already, so a buddy that it marks as free is free as a whole; and
then it is a maximal block, so it is found on the list. -/
theorem Lists.merge : ∀ (n : ℕ) {s : FrameState} {U : Finset ℕ} {L : ℕ → List ℕ} {k f : ℕ},
    Lists s U L → s.alloc.Marks (U ∪ block k f) → 2 ^ k ∣ f → k + n = maxOrder →
    Disjoint U (block k f) → (∀ x ∈ block k f, 0 < x ∧ x < maxFrames) →
    ∃ s' U' L' f' k', s.merge n f k = .ok (s', f', k') ∧ Lists s' U' L' ∧ s.SameButLists s' ∧
      U' ∪ block k' f' = U ∪ block k f ∧ 2 ^ k' ∣ f' ∧ k' ≤ maxOrder ∧
      Disjoint U' (block k' f') ∧ (k' < maxOrder → ¬ block k' (f' ^^^ 2 ^ k') ⊆ U') ∧
      ∀ x, x / pageSize ∉ U → s'.mem x = s.mem x
  | 0, s, U, L, k, f, h, _, hdvd, hk, hdisj, _ =>
    ⟨s, U, L, f, k, rfl, h, .refl s, rfl, hdvd, by omega, hdisj, by omega, fun _ _ => rfl⟩
  | n + 1, s, U, L, k, f, h, hmarks, hdvd, hk, hdisj, hrange => by
    have hlt : k < maxOrder := by omega
    have hbounded : ∀ x ∈ U ∪ block k f, x < maxFrames := by
      intro x hx
      obtain hU | hblock := mem_union.mp hx
      · exact (h.range x hU).2
      · exact (hrange x hblock).2
    have hfree : s.alloc.allFree (f ^^^ 2 ^ k) (2 ^ k) = true ↔ block k (f ^^^ 2 ^ k) ⊆ U := by
      rw [hmarks.allFree_iff hbounded, ← block_eq_Ico (dvd_buddy hdvd)]
      refine ⟨fun hsub x hx => (mem_union.mp (hsub hx)).resolve_right fun hx' => ?_,
        fun hsub => hsub.trans subset_union_left⟩
      exact disjoint_left.mp disjoint_buddy hx' hx
    rw [FrameState.merge]
    simp only []
    by_cases hbuddy : block k (f ^^^ 2 ^ k) ⊆ U
    · rw [if_neg (not_not.mpr (hfree.mpr hbuddy))]
      have htop : Top maxOrder U k (f ^^^ 2 ^ k) := top_buddy hdvd hlt hdisj hbuddy
      obtain ⟨s1, hremove, hlists1, hsame1, hmem1⟩ := h.remove ((h.mem k _).mpr htop)
      have hwhole : block (k + 1) (min f (f ^^^ 2 ^ k)) = block k f ∪ block k (f ^^^ 2 ^ k) := by
        rw [block_eq min_buddy_mem, block_succ]
      have hset : U \ block k (f ^^^ 2 ^ k) ∪ (block k f ∪ block k (f ^^^ 2 ^ k)) =
          U ∪ block k f := by
        rw [union_comm (block k f), ← union_assoc, sdiff_union_of_subset hbuddy]
      have hmarks1 : s1.alloc.Marks (U \ block k (f ^^^ 2 ^ k) ∪
          block (k + 1) (min f (f ^^^ 2 ^ k))) := by
        rw [hwhole, hset]
        exact hsame1.marks hmarks
      have hdisj1 : Disjoint (U \ block k (f ^^^ 2 ^ k)) (block (k + 1) (min f (f ^^^ 2 ^ k))) := by
        rw [hwhole, disjoint_union_right]
        exact ⟨hdisj.mono_left sdiff_subset, sdiff_disjoint⟩
      have hrange1 : ∀ x ∈ block (k + 1) (min f (f ^^^ 2 ^ k)), 0 < x ∧ x < maxFrames := by
        intro x hx
        rw [hwhole] at hx
        obtain hx | hx := mem_union.mp hx
        · exact hrange x hx
        · exact h.range x (hbuddy hx)
      obtain ⟨s2, U2, L2, f2, k2, hmerge, hlists2, hsame2, hunion, hdvd2, hk2, hdisj2, hbuddy2,
        hmem2⟩ := Lists.merge n hlists1 hmarks1 (dvd_min_buddy hdvd) (by omega) hdisj1 hrange1
      refine ⟨s2, U2, L2, f2, k2, ?_, hlists2, hsame1.trans hsame2, ?_, hdvd2, hk2, hdisj2, hbuddy2,
        fun x hx => ?_⟩
      · simp [hremove, hmerge]
      · rw [hunion, hwhole, hset]
      · rw [hmem2 x fun hx' => hx (mem_sdiff.mp hx').1, hmem1 x hx]
    · rw [if_pos fun hall => hbuddy (hfree.mp hall)]
      exact ⟨s, U, L, f, k, rfl, h, .refl s, rfl, hdvd, hlt.le, hdisj, fun _ => hbuddy,
        fun _ _ => rfl⟩

lemma Ready.deallocate (h : Ready s U L) (hdvd : 2 ^ k ∣ f) (hk : k ≤ maxOrder)
    (hdisj : Disjoint U (block k f)) (hrange : ∀ x ∈ block k f, 0 < x ∧ x < maxFrames) :
    ∃ s' L', s.deallocate (fromFrame f) k = .ok s' ∧ Ready s' (U ∪ block k f) L' ∧
      ∀ x, x / pageSize ∉ U ∪ block k f → s'.mem x = s.mem x := by
  have hcount : shiftedOne k = 2 ^ k := by
    rw [shiftedOne, mod_eq_of_lt (lt_of_le_of_lt hk (by decide))]
  have hend : f + 2 ^ k ≤ maxFrames := add_le_of_block_lt hdvd fun x hx => (hrange x hx).2
  obtain ⟨a, hclear, hmarks, hsame⟩ := BuddyAllocator.exists_clearBits f (2 ^ k) h.marks hend
  rw [← block_eq_Ico hdvd] at hmarks
  obtain ⟨hheads, -, hfree, hinit⟩ := hsame.fields
  let s1 : FrameState := { s with alloc := { a with freeFrames := a.freeFrames + 2 ^ k } }
  have hlists1 : Lists s1 U L := h.lists.congr hheads rfl
  obtain ⟨s2, U2, L2, f2, k2, hmerge, hlists2, hsame2, hunion, hdvd2, hk2, hdisj2, hbuddy2,
    hmem2⟩ := Lists.merge (maxOrder - k) hlists1 hmarks hdvd (by omega) hdisj hrange
  have hrange2 : ∀ x ∈ block k2 f2, 0 < x ∧ x < maxFrames := by
    intro x hx
    have hx' : x ∈ U ∪ block k f := hunion ▸ mem_union_right _ hx
    obtain hU | hblock := mem_union.mp hx'
    · exact h.lists.range x hU
    · exact hrange x hblock
  obtain ⟨s3, hpush, hlists3, hsame3⟩ := hlists2.push hdvd2 hk2 hdisj2 hbuddy2 hrange2
  rw [hunion] at hlists3
  obtain ⟨-, hfree3, hinit3⟩ := (hsame2.trans hsame3).fields
  refine ⟨s3, _, ?_, ⟨hlists3, (hsame2.trans hsame3).marks hmarks, ?_, ?_⟩, fun x hx => ?_⟩
  · simp only [FrameState.deallocate, fromFrame_div, hcount, hclear, Exec.ok_bind]
    rw [hmerge]
    exact hpush
  · rw [hfree3, card_union_of_disjoint hdisj, card_block]
    show a.freeFrames + 2 ^ k = _
    rw [hfree, h.count]
  · exact hinit3.trans (hinit.trans h.initialized)
  have hpush' : x / pageSize ≠ f2 := by
    rintro rfl
    exact hx (hunion ▸ mem_union_right _ self_mem_block)
  rw [pushFreeList_mem hpush hpush']
  exact hmem2 x fun hU => hx (mem_union_left _ hU)

end FrameState

/-! ### Initialisation -/

namespace BuddyAllocator

variable {a a' : BuddyAllocator} {U V : Finset ℕ} {f : ℕ}

def Region.frames (r : Region) : Finset ℕ := Finset.Ico r.startFrame (min r.endFrame maxFrames)

def usable : List Region → Finset ℕ
  | [] => ∅
  | r :: regions => r.frames ∪ usable regions

/-- The allocator has so many more frames than before, and no other change than in the bitmap. -/
structure Grown (a a' : BuddyAllocator) (n : ℕ) : Prop where
  freeLists : a'.freeLists = a.freeLists
  totalFrames : a'.totalFrames = a.totalFrames + n
  freeFrames : a'.freeFrames = a.freeFrames + n

lemma Grown.trans {a'' : BuddyAllocator} {m n : ℕ} (h : a.Grown a' m) (h' : a'.Grown a'' n) :
    a.Grown a'' (m + n) :=
  ⟨h'.freeLists.trans h.freeLists, by rw [h'.totalFrames, h.totalFrames, add_assoc],
    by rw [h'.freeFrames, h.freeFrames, add_assoc]⟩

lemma exists_markFrames (start n : ℕ) (hmarks : a.Marks V) :
    ∃ a', a.markFrames start n = .ok a' ∧
      a'.Marks (V ∪ Finset.Ico start (min (start + n) maxFrames)) ∧
      a.Grown a' (Finset.Ico start (min (start + n) maxFrames)).card := by
  induction n with
  | zero =>
    have hempty : Finset.Ico start (min (start + 0) maxFrames) = ∅ :=
      Finset.Ico_eq_empty (by omega)
    rw [hempty, union_empty, card_empty]
    exact ⟨a, rfl, hmarks, rfl, rfl, rfl⟩
  | succ n ih =>
    obtain ⟨a1, hmark1, hmarks1, hgrown1⟩ := ih
    by_cases hlt : start + n < maxFrames
    · obtain ⟨a2, hclear, hsame⟩ := exists_clearBit (a := a1) hlt
      obtain ⟨hheads, htotal, hfree, -⟩ := hsame.fields
      have hend : min (start + (n + 1)) maxFrames = min (start + n) maxFrames + 1 := by omega
      have hle : start ≤ min (start + n) maxFrames := by omega
      refine ⟨{ a2 with totalFrames := a2.totalFrames + 1, freeFrames := a2.freeFrames + 1 },
        ?_, ?_, ?_⟩
      · simp [markFrames, hmark1, markFrame, hlt, hclear]
      · intro x
        refine (isFree_clearBit hclear hlt).trans ?_
        rw [hmarks1, hend, mem_union, mem_union, mem_Ico, mem_Ico, or_assoc]
        refine or_congr_right ?_
        omega
      · rw [hend, card_Ico, show min (start + n) maxFrames + 1 - start =
          min (start + n) maxFrames - start + 1 by omega, ← card_Ico]
        refine hgrown1.trans ⟨hheads, ?_, ?_⟩
        · show a2.totalFrames + 1 = _
          rw [htotal]
        · show a2.freeFrames + 1 = _
          rw [hfree]
    · have hend : min (start + (n + 1)) maxFrames = min (start + n) maxFrames := by omega
      rw [hend]
      exact ⟨a1, by simp [markFrames, hmark1, markFrame, hlt], hmarks1, hgrown1⟩

lemma disjoint_usable {r : Region} {regions : List Region}
    (h : ∀ r' ∈ regions, Disjoint r.frames r'.frames) : Disjoint r.frames (usable regions) := by
  induction regions with
  | nil => exact disjoint_empty_right _
  | cons r' regions ih =>
    rw [usable, disjoint_union_right]
    exact ⟨h r' List.mem_cons_self, ih fun q hq => h q (List.mem_cons_of_mem _ hq)⟩

lemma exists_markRegions (regions : List Region) (hmarks : a.Marks V)
    (hdisj : regions.Pairwise fun r r' => Disjoint r.frames r'.frames) :
    ∃ a', a.markRegions regions = .ok a' ∧ a'.Marks (V ∪ usable regions) ∧
      a.Grown a' (usable regions).card := by
  induction regions generalizing a V with
  | nil => exact ⟨a, rfl, by simpa [usable] using hmarks, rfl, rfl, rfl⟩
  | cons r regions ih =>
    obtain ⟨hr, hrest⟩ := List.pairwise_cons.mp hdisj
    obtain ⟨a1, hmark1, hmarks1, hgrown1⟩ :=
      exists_markFrames r.startFrame (r.endFrame - r.startFrame) hmarks
    have hframes : Finset.Ico r.startFrame
        (min (r.startFrame + (r.endFrame - r.startFrame)) maxFrames) = r.frames := by
      obtain hlt | hle := lt_or_ge r.endFrame r.startFrame
      · rw [Region.frames, Finset.Ico_eq_empty (by omega), Finset.Ico_eq_empty (by omega)]
      · rw [Region.frames, Nat.add_sub_cancel' hle]
    rw [hframes] at hmarks1 hgrown1
    obtain ⟨a2, hmark2, hmarks2, hgrown2⟩ := ih hmarks1 hrest
    refine ⟨a2, by simp [markRegions, hmark1, hmark2], ?_, ?_⟩
    · rw [usable, ← union_assoc]
      exact hmarks2
    · rw [usable, card_union_of_disjoint (disjoint_usable hr)]
      exact hgrown1.trans hgrown2

lemma lt_of_mem_usable {regions : List Region} {x : ℕ} (h : x ∈ usable regions) :
    x < maxFrames := by
  induction regions with
  | nil => simp [usable] at h
  | cons r regions ih =>
    obtain hx | hx := mem_union.mp h
    · rw [Region.frames, mem_Ico] at hx
      omega
    · exact ih hx

lemma Marks.maxBlockOrderFrom_spec (h : a.Marks U) (hU : ∀ x ∈ U, x < maxFrames) :
    ∀ n order : ℕ, order + n = Buddy.maxOrder → 2 ^ order ∣ f → block order f ⊆ U →
    a.maxBlockOrderFrom f n order ≤ Buddy.maxOrder ∧ 2 ^ a.maxBlockOrderFrom f n order ∣ f ∧
      block (a.maxBlockOrderFrom f n order) f ⊆ U ∧
      (a.maxBlockOrderFrom f n order < Buddy.maxOrder →
        2 ^ (a.maxBlockOrderFrom f n order + 1) ∣ f →
        ¬ block (a.maxBlockOrderFrom f n order + 1) f ⊆ U)
  | 0, order, hn, hdvd, hsub => by
    rw [maxBlockOrderFrom]
    exact ⟨by omega, hdvd, hsub, fun hlt => absurd hlt (by omega)⟩
  | n + 1, order, hn, hdvd, hsub => by
    rw [maxBlockOrderFrom]
    by_cases hnext : 2 ^ (order + 1) ∣ f
    · rw [if_neg (not_not.mpr (Nat.mod_eq_zero_of_dvd hnext))]
      have hhalf : f ^^^ 2 ^ order = f + 2 ^ order := buddy_eq_add hnext
      have hupper : a.allFree (f + 2 ^ order) (2 ^ (order + 1) - 2 ^ order) = true ↔
          block (order + 1) f ⊆ U := by
        have hlen : 2 ^ (order + 1) - 2 ^ order = 2 ^ order := by omega
        rw [h.allFree_iff hU, hlen, ← hhalf, ← block_eq_Ico (dvd_buddy hdvd), block_succ]
        exact ⟨union_subset hsub, subset_union_right.trans⟩
      by_cases hfree : block (order + 1) f ⊆ U
      · rw [if_pos (hupper.mpr hfree)]
        exact h.maxBlockOrderFrom_spec hU n (order + 1) (by omega) hnext hfree
      · rw [if_neg fun hall => hfree (hupper.mp hall)]
        exact ⟨by omega, hdvd, hsub, fun _ _ => hfree⟩
    · rw [if_pos fun hmod => hnext (dvd_of_mod_eq_zero hmod)]
      exact ⟨by omega, hdvd, hsub, fun _ hnext' => absurd hnext' hnext⟩

end BuddyAllocator

namespace FrameState

variable {s s' : FrameState} {U : Finset ℕ} {L : ℕ → List ℕ}

/-- The bitmap and the counters are the same. -/
structure SameFrames (s s' : FrameState) : Prop where
  bitmap : s'.alloc.bitmap = s.alloc.bitmap
  totalFrames : s'.alloc.totalFrames = s.alloc.totalFrames
  freeFrames : s'.alloc.freeFrames = s.alloc.freeFrames

lemma SameFrames.refl (s : FrameState) : s.SameFrames s := ⟨rfl, rfl, rfl⟩

lemma SameFrames.trans {s'' : FrameState} (h : s.SameFrames s') (h' : s'.SameFrames s'') :
    s.SameFrames s'' :=
  ⟨h'.bitmap.trans h.bitmap, h'.totalFrames.trans h.totalFrames,
    h'.freeFrames.trans h.freeFrames⟩

lemma SameFrames.marks (h : s.SameFrames s') (hmarks : s.alloc.Marks U) : s'.alloc.Marks U := by
  intro x
  rw [← hmarks x, BuddyAllocator.isFree_iff, BuddyAllocator.isFree_iff, h.bitmap]

lemma SameButLists.sameFrames (h : s.SameButLists s') : s.SameFrames s' := by
  unfold SameButLists at h
  constructor <;> rw [h]

lemma Lists.pushNext {k frame : ℕ} (h : Lists s (U.filter (· < frame)) L)
    (htop : Top Buddy.maxOrder U k frame) (hrange : ∀ x ∈ U, 0 < x ∧ x < maxFrames) :
    ∃ s' L', s.pushFreeList frame k = .ok s' ∧ Lists s' (U.filter (· < frame + 2 ^ k)) L' ∧
      s.SameFrames s' := by
  have hdisj : Disjoint (U.filter (· < frame)) (block k frame) := by
    rw [disjoint_left]
    intro x hx hx'
    have hge := ((mem_block_of_dvd htop.dvd).mp hx').1
    have hlt := (mem_filter.mp hx).2
    omega
  have hbuddy : k < Buddy.maxOrder → ¬ block k (frame ^^^ 2 ^ k) ⊆ U.filter (· < frame) := by
    intro hlt hsub
    refine htop.maximal hlt ?_
    rw [block_succ]
    exact union_subset htop.subset (hsub.trans (filter_subset _ _))
  obtain ⟨s', hpush, hlists, hsame⟩ :=
    h.push htop.dvd htop.le hdisj hbuddy fun x hx => hrange x (htop.subset hx)
  have hset : U.filter (· < frame) ∪ block k frame = U.filter (· < frame + 2 ^ k) := by
    ext x
    rw [mem_union, mem_filter, mem_filter, mem_block_of_dvd htop.dvd]
    have hin : frame ≤ x → x < frame + 2 ^ k → x ∈ U := fun hle hlt =>
      htop.subset ((mem_block_of_dvd htop.dvd).mpr ⟨hle, hlt⟩)
    grind
  exact ⟨s', _, hpush, hset ▸ hlists, hsame.sameFrames⟩

lemma Lists.buildFrom (hrange : ∀ x ∈ U, 0 < x ∧ x < maxFrames) :
    ∀ (n frame : ℕ) {s : FrameState} {L : ℕ → List ℕ}, Lists s (U.filter (· < frame)) L →
    Clear Buddy.maxOrder U frame → s.alloc.Marks U → maxFrames ≤ frame + n →
    ∃ s' L', s.buildFrom n frame = .ok s' ∧ Lists s' U L' ∧ s.SameFrames s' := by
  -- when every frame has been visited, the lists are complete
  have hdone : ∀ (frame : ℕ) {s : FrameState} {L : ℕ → List ℕ}, maxFrames ≤ frame →
      Lists s (U.filter (· < frame)) L → Lists s U L := by
    intro frame s L hle h
    rwa [filter_true_of_mem fun x hx => lt_of_lt_of_le (hrange x hx).2 hle] at h
  intro n
  induction n with
  | zero =>
    intro frame s L h _ _ hfuel
    have hle : maxFrames ≤ frame := hfuel
    exact ⟨s, L, if_neg (not_lt.mpr hle), hdone frame hle h, .refl s⟩
  | succ n ih =>
    intro frame s L h hclear hmarks hfuel
    rw [FrameState.buildFrom]
    by_cases hlt : frame < maxFrames
    · rw [if_pos hlt]
      by_cases hfree : frame ∈ U
      · rw [if_neg (not_not.mpr ((hmarks frame).mpr hfree))]
        obtain ⟨hk, hdvd, hsub, hlargest⟩ := hmarks.maxBlockOrderFrom_spec (f := frame)
          (fun x hx => (hrange x hx).2) Buddy.maxOrder 0 (zero_add _) (one_dvd _)
          (by rwa [block_zero, singleton_subset_iff])
        have horder : s.alloc.maxBlockOrder frame =
          s.alloc.maxBlockOrderFrom frame Buddy.maxOrder 0 := rfl
        rw [← horder] at hk hdvd hsub hlargest
        simp only []
        generalize s.alloc.maxBlockOrder frame = k at hk hdvd hsub hlargest ⊢
        have htop : Top Buddy.maxOrder U k frame := hclear.top hk hdvd hsub hlargest
        let s1 : FrameState := { s with alloc := { s.alloc with
          maxOrder := if k > s.alloc.maxOrder then k else s.alloc.maxOrder } }
        have hlists1 : Lists s1 (U.filter (· < frame)) L := h.congr rfl rfl
        have hsame1 : s.SameFrames s1 := ⟨rfl, rfl, rfl⟩
        obtain ⟨s2, L2, hpush, hlists2, hsame2⟩ := hlists1.pushNext htop hrange
        have hpos := Nat.two_pow_pos k
        obtain ⟨s3, L3, hbuild, hlists3, hsame3⟩ := ih (frame + 2 ^ k) hlists2
          (hclear.advance htop) ((hsame1.trans hsame2).marks hmarks) (by omega)
        refine ⟨s3, L3, ?_, hlists3, (hsame1.trans hsame2).trans hsame3⟩
        rw [hpush]
        exact hbuild
      · rw [if_pos fun hmark => hfree ((hmarks frame).mp hmark)]
        have hsame : U.filter (· < frame + 1) = U.filter (· < frame) := by
          refine filter_congr fun x hx => ?_
          have hne : x ≠ frame := fun heq => hfree (heq ▸ hx)
          omega
        exact ih (frame + 1) (hsame ▸ h) (hclear.skip hfree) hmarks (by omega)
    · rw [if_neg hlt]
      exact ⟨s, L, rfl, hdone frame (not_lt.mp hlt) h, .refl s⟩

lemma marks_new : BuddyAllocator.new.Marks ∅ := by
  intro x
  have hbit : ∀ i < 8, (0xFF#8).getLsbD i = true := by decide
  rw [BuddyAllocator.isFree_iff]
  simp [BuddyAllocator.new, hbit (x % 8) (mod_lt x (by decide))]

lemma lists_new (alloc : BuddyAllocator) (mem : ByteMemory)
    (h : alloc.freeLists = BuddyAllocator.new.freeLists) : Lists ⟨alloc, mem⟩ ∅ fun _ => [] := by
  refine ⟨fun k _ => ?_, fun _ => List.nodup_nil, fun k f => ?_, by simp⟩
  · rw [FreeList, h]
    rfl
  · refine iff_of_false (by simp) fun htop => ?_
    exact absurd htop.start_mem (by simp)

lemma exists_initFromRegions (mem : ByteMemory) (regions : List BuddyAllocator.Region)
    (hdisj : regions.Pairwise fun r r' => Disjoint r.frames r'.frames)
    (hzero : 0 ∉ BuddyAllocator.usable regions) :
    ∃ s L, initFromRegions ⟨.new, mem⟩ regions = .ok s ∧
      Ready s (BuddyAllocator.usable regions) L := by
  obtain ⟨a, hmark, hmarks, hgrown⟩ :=
    BuddyAllocator.exists_markRegions regions marks_new hdisj
  rw [empty_union] at hmarks
  have hrange : ∀ x ∈ BuddyAllocator.usable regions, 0 < x ∧ x < maxFrames := fun x hx =>
    ⟨pos_of_ne_zero fun heq => hzero (heq ▸ hx), BuddyAllocator.lt_of_mem_usable hx⟩
  have hstart : Lists ⟨a, mem⟩ ((BuddyAllocator.usable regions).filter (· < 0)) fun _ => [] := by
    rw [filter_false_of_mem fun x _ => not_lt_zero x]
    exact lists_new a mem hgrown.freeLists
  obtain ⟨s, L, hbuild, hlists, hsame⟩ := Lists.buildFrom hrange maxFrames 0 hstart clear_zero
    hmarks (by omega)
  refine ⟨{ s with alloc := { s.alloc with initialized := true } }, L, ?_,
    hlists.congr rfl rfl, hsame.marks hmarks, ?_, rfl⟩
  · simp only [initFromRegions, hmark, Exec.ok_bind, buildFreeLists, hbuild]
  · exact hsame.freeFrames.trans (hgrown.freeFrames.trans (zero_add _))

end FrameState

end Fabric
