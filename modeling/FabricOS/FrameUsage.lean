/-
The frame allocator in use.

`FrameUsage` is the allocator together with the blocks that it has handed out and that have
not been given back.  Its clients keep to a discipline: they give back only such a block, with
the order that it was allocated with, and write only to frames that are not free.
-/
import FabricOS.BuddyAllocator
import FabricOS.Machine

open Machine Function Finset

namespace Fabric

open Buddy FreeBlockPtr DyadicBlocks FrameState
open BuddyAllocator (Region usable)

/-! ### Blocks in use -/

/-- A block that has been handed out, with its address and its order. -/
structure FrameBlock where
  addr : ℕ
  order : ℕ
  deriving DecidableEq

namespace FrameBlock

def frames (b : FrameBlock) : Finset ℕ :=
  Finset.Ico (b.addr / pageSize) (b.addr / pageSize + 2 ^ b.order)

/-- The block is aligned to its size and lies in `V`. -/
structure Within (b : FrameBlock) (V : Finset ℕ) : Prop where
  aligned : 2 ^ b.order * pageSize ∣ b.addr
  order_le : b.order ≤ maxOrder
  subset : b.frames ⊆ V

variable {b : FrameBlock} {V : Finset ℕ} {f k : ℕ}

lemma frames_fromFrame (h : 2 ^ k ∣ f) : (FrameBlock.mk (fromFrame f) k).frames = block k f := by
  rw [frames, fromFrame_div, block_eq_Ico h]

lemma Within.exists_frame (h : b.Within V) : ∃ f, b = ⟨fromFrame f, b.order⟩ ∧ 2 ^ b.order ∣ f := by
  obtain ⟨q, hq⟩ := h.aligned
  refine ⟨2 ^ b.order * q, ?_, Nat.dvd_mul_right _ _⟩
  obtain ⟨addr, order⟩ := b
  simp only [mk.injEq, and_true] at hq ⊢
  rw [hq, fromFrame, Nat.mul_right_comm]

lemma within_fromFrame (hdvd : 2 ^ k ∣ f) (hk : k ≤ maxOrder) (hsub : block k f ⊆ V) :
    (FrameBlock.mk (fromFrame f) k).Within V :=
  ⟨Nat.mul_dvd_mul_right hdvd pageSize, hk, by rwa [frames_fromFrame hdvd]⟩

end FrameBlock

/-- The allocator, and the blocks that are in use. -/
structure FrameUsage where
  state : FrameState
  live : Finset FrameBlock

namespace FrameUsage

inductive Op
  | allocate (order : ℕ)
  | deallocate (addr order : ℕ)
  /-- A client writes to memory. -/
  | store (addr : ℕ) (byte : UInt8)

def step (s : FrameUsage) : Op → Exec (FrameUsage × Option ℕ)
  | .allocate order => do
    let (state, addr) ← s.state.allocate order
    match addr with
    | none => .ok (⟨state, s.live⟩, none)
    | some addr => .ok (⟨state, insert ⟨addr, order⟩ s.live⟩, some addr)
  | .deallocate addr order => do
    let state ← s.state.deallocate addr order
    .ok (⟨state, s.live.erase ⟨addr, order⟩⟩, none)
  | .store addr byte =>
    .ok (⟨⟨s.state.alloc, update s.state.mem addr byte⟩, s.live⟩, none)

def covered (s : FrameUsage) : Finset ℕ := s.live.biUnion FrameBlock.frames

def free (regions : List Region) (s : FrameUsage) : Finset ℕ := usable regions \ s.covered

def Disciplined (regions : List Region) (s : FrameUsage) : Op → Prop
  | .allocate _ => True
  | .deallocate addr order => ⟨addr, order⟩ ∈ s.live
  | .store addr _ => addr / pageSize ∉ s.free regions

/-! ### The invariant -/

/-- The allocator is at rest with the frames that are not in use, and the blocks in use are
aligned, usable and disjoint. -/
structure Balanced (regions : List Region) (s : FrameUsage) : Prop where
  ready : ∃ L, s.state.Ready (s.free regions) L
  within : ∀ b ∈ s.live, b.Within (usable regions)
  apart : (s.live : Set FrameBlock).PairwiseDisjoint FrameBlock.frames

variable {regions : List Region} {s s' : FrameUsage} {b : FrameBlock}

lemma subset_covered (h : b ∈ s.live) : b.frames ⊆ s.covered :=
  subset_biUnion_of_mem FrameBlock.frames h

lemma free_insert {state : FrameState} :
    free regions ⟨state, insert b s.live⟩ = s.free regions \ b.frames := by
  rw [free, free, covered, covered, biUnion_insert, union_comm, sdiff_sdiff_left]
  rfl

lemma Balanced.free_erase {state : FrameState} (h : Balanced regions s) (hb : b ∈ s.live) :
    free regions ⟨state, s.live.erase b⟩ = s.free regions ∪ b.frames := by
  have hcovered : s.covered = b.frames ∪ (s.live.erase b).biUnion FrameBlock.frames := by
    rw [covered, ← biUnion_insert, insert_erase hb]
  have hapart : Disjoint b.frames ((s.live.erase b).biUnion FrameBlock.frames) := by
    rw [disjoint_biUnion_right]
    intro c hc
    obtain ⟨hne, hc⟩ := mem_erase.mp hc
    exact h.apart hb hc hne.symm
  have hsub := (h.within b hb).subset
  rw [free, free, hcovered]
  ext x
  have hx : x ∈ b.frames → x ∈ usable regions ∧
      x ∉ (s.live.erase b).biUnion FrameBlock.frames := fun hx =>
    ⟨hsub hx, disjoint_left.mp hapart hx⟩
  simp only [covered, mem_union, mem_sdiff]
  grind

lemma Balanced.range (h : Balanced regions s) (hzero : 0 ∉ usable regions) (hb : b ∈ s.live) :
    ∀ x ∈ b.frames, 0 < x ∧ x < maxFrames := fun x hx =>
  have hx' : x ∈ usable regions := (h.within b hb).subset hx
  ⟨Nat.pos_of_ne_zero fun heq => hzero (heq ▸ hx'), BuddyAllocator.lt_of_mem_usable hx'⟩

lemma Balanced.allocate (h : Balanced regions s) (order : ℕ) :
    (∃ state addr, s.state.allocate order = .ok (state, some addr) ∧
      (FrameBlock.mk addr order).Within (usable regions) ∧
      (∀ b ∈ s.live, Disjoint (FrameBlock.mk addr order).frames b.frames) ∧
      Balanced regions ⟨state, insert ⟨addr, order⟩ s.live⟩) ∨
    s.state.allocate order = .ok (s.state, none) := by
  obtain ⟨L, hready⟩ := h.ready
  obtain ⟨state, f, avail, L', halloc, hdvd, hsub, hready', htaken, -⟩ | ⟨hnone, -⟩ :=
    hready.allocate order
  · have hframes := FrameBlock.frames_fromFrame hdvd
    have hwithin : (FrameBlock.mk (fromFrame f) order).Within (usable regions) :=
      FrameBlock.within_fromFrame hdvd (htaken.le.trans htaken.max)
        (hsub.trans sdiff_subset)
    have hapart : ∀ b ∈ s.live, Disjoint (FrameBlock.mk (fromFrame f) order).frames b.frames := by
      intro b hb
      rw [hframes]
      exact (disjoint_of_subset_left hsub sdiff_disjoint).mono_right
        (subset_covered hb)
    refine .inl ⟨state, fromFrame f, halloc, hwithin, hapart, ⟨⟨L', ?_⟩, ?_, ?_⟩⟩
    · rw [free_insert, hframes]
      exact hready'
    · exact forall_mem_insert .. |>.mpr ⟨hwithin, h.within⟩
    · rw [coe_insert]
      exact h.apart.insert fun b hb _ => hapart b hb
  · exact .inr hnone

lemma Balanced.deallocate (h : Balanced regions s) (hzero : 0 ∉ usable regions)
    (hb : b ∈ s.live) : ∃ state, s.state.deallocate b.addr b.order = .ok state ∧
      Balanced regions ⟨state, s.live.erase b⟩ := by
  obtain ⟨L, hready⟩ := h.ready
  have hwithin := h.within b hb
  obtain ⟨f, hf, hdvd⟩ := hwithin.exists_frame
  have hframes : b.frames = block b.order f := by
    rw [← FrameBlock.frames_fromFrame hdvd, ← hf]
  have hdisj : Disjoint (s.free regions) (block b.order f) := by
    rw [← hframes]
    exact sdiff_disjoint.mono_right (subset_covered hb)
  obtain ⟨state, L', hdealloc, hready', -⟩ := hready.deallocate hdvd hwithin.order_le hdisj
    (hframes ▸ h.range hzero hb)
  have haddr : b.addr = fromFrame f := congrArg FrameBlock.addr hf
  refine ⟨state, by rw [haddr, hdealloc], ⟨⟨L', ?_⟩, fun c hc => ?_, ?_⟩⟩
  · rw [h.free_erase hb, hframes]
    exact hready'
  · exact h.within c (mem_of_mem_erase hc)
  · exact h.apart.subset (coe_subset.mpr (erase_subset b s.live))

lemma Balanced.store (h : Balanced regions s) {addr : ℕ} {byte : UInt8}
    (hfree : addr / pageSize ∉ s.free regions) :
    Balanced regions ⟨⟨s.state.alloc, update s.state.mem addr byte⟩, s.live⟩ := by
  obtain ⟨L, hready⟩ := h.ready
  refine ⟨⟨L, hready.setMem fun x hx => update_of_ne ?_ _ _⟩, h.within, h.apart⟩
  rintro rfl
  exact hfree hx

lemma Balanced.exists_step (h : Balanced regions s) (hzero : 0 ∉ usable regions) {op : Op}
    (hop : Disciplined regions s op) :
    ∃ s' out, step s op = .ok (s', out) ∧ Balanced regions s' := by
  cases op with
  | allocate order =>
    obtain ⟨state, addr, halloc, -, -, hbalanced⟩ | hnone := h.allocate order
    · exact ⟨_, some addr, by simp [step, halloc], hbalanced⟩
    · exact ⟨s, none, by simp [step, hnone], h⟩
  | deallocate addr order =>
    obtain ⟨state, hdealloc, hbalanced⟩ := h.deallocate hzero hop
    exact ⟨_, none, by simp [step, hdealloc], hbalanced⟩
  | store addr byte => exact ⟨_, none, rfl, h.store hop⟩

lemma Balanced.step {op : Op} {out : Option ℕ} (h : Balanced regions s)
    (hzero : 0 ∉ usable regions) (hop : Disciplined regions s op)
    (hstep : s.step op = .ok (s', out)) : Balanced regions s' := by
  obtain ⟨s1, out1, hstep1, hbalanced⟩ := h.exists_step hzero hop
  obtain ⟨rfl, -⟩ := Prod.mk.inj (Exec.ok.inj (hstep1.symm.trans hstep))
  exact hbalanced

lemma balanced_init {s0 : FrameState} {L : ℕ → List ℕ} (h : s0.Ready (usable regions) L) :
    Balanced regions ⟨s0, ∅⟩ := by
  refine ⟨⟨L, ?_⟩, by simp, by simp [Set.PairwiseDisjoint, Set.Pairwise]⟩
  rw [free, covered, biUnion_empty, sdiff_empty]
  exact h

lemma Balanced.reachable {s0 : FrameUsage} (h0 : Balanced regions s0) (hzero : 0 ∉ usable regions)
    (h : ReachableVia (Disciplined regions) FrameUsage.step s0 s) : Balanced regions s :=
  h.inv h0 fun hs hop hstep => hs.step hzero hop hstep

/-! ### What the allocator stores -/

/-- The free lists `L`, the bitmap and the counter describe the frames that are not in use. -/
structure Exact (regions : List Region) (s : FrameUsage) (L : ℕ → List ℕ) : Prop where
  chain : ∀ k ≤ maxOrder, s.state.FreeList k (L k)
  order_le : ∀ k, L k ≠ [] → k ≤ maxOrder
  aligned : ∀ k, ∀ f ∈ L k, 2 ^ k ∣ f
  nodup : ∀ k, (L k).Nodup
  apart : ∀ k, ∀ f ∈ L k, ∀ j, ∀ g ∈ L j, (k, f) ≠ (j, g) →
    Disjoint (Finset.Ico f (f + 2 ^ k)) (Finset.Ico g (g + 2 ^ j))
  union : ∀ x, (∃ k, ∃ f ∈ L k, x ∈ Finset.Ico f (f + 2 ^ k)) ↔ x ∈ s.free regions
  bitmap : ∀ x, s.state.alloc.isFree x = true ↔ x ∈ s.free regions
  count : s.state.alloc.freeFrames = (s.free regions).card

lemma exact_of_ready {L : ℕ → List ℕ} (h : s.state.Ready (s.free regions) L) :
    Exact regions s L where
  chain := h.lists.chain
  order_le k hne := by
    obtain ⟨f, hf⟩ := List.exists_mem_of_ne_nil _ hne
    exact ((h.lists.mem k f).mp hf).le
  aligned k f hf := ((h.lists.mem k f).mp hf).dvd
  nodup := h.lists.nodup
  apart k f hf j g hg hne := by
    have htop := (h.lists.mem k f).mp hf
    have htop' := (h.lists.mem j g).mp hg
    rw [← block_eq_Ico htop.dvd, ← block_eq_Ico htop'.dvd, disjoint_left]
    intro x hx hx'
    obtain ⟨rfl, rfl⟩ := htop.unique htop' hx hx'
    exact hne rfl
  union x := by
    constructor
    · rintro ⟨k, f, hf, hx⟩
      have htop := (h.lists.mem k f).mp hf
      exact htop.subset (by rwa [block_eq_Ico htop.dvd])
    · intro hx
      obtain ⟨k, f, htop, hmem⟩ := exists_top (M := maxOrder) hx
      refine ⟨k, f, (h.lists.mem k f).mpr htop, ?_⟩
      rwa [← block_eq_Ico htop.dvd]
  bitmap := h.marks
  count := h.count

/-- **The allocator is exact.**  After initialisation from disjoint regions without frame 0,
in every state that disciplined calls lead to: the free lists partition the usable frames that
are not in use into aligned blocks, bitmap and counter agree with them, an allocation returns
an aligned block of usable frames none of which is in use, and no disciplined call aborts. -/
theorem allocator_exact (mem : ByteMemory) (regions : List Region)
    (hdisj : regions.Pairwise fun r r' => Disjoint r.frames r'.frames)
    (hzero : 0 ∉ usable regions) :
    ∃ s₀, initFromRegions ⟨.new, mem⟩ regions = .ok s₀ ∧
      ∀ s, ReachableVia (Disciplined regions) step ⟨s₀, ∅⟩ s →
        (∃ L, Exact regions s L) ∧
        (∀ order state addr, s.state.allocate order = .ok (state, some addr) →
          (FrameBlock.mk addr order).Within (usable regions) ∧
          ∀ b ∈ s.live, Disjoint (FrameBlock.mk addr order).frames b.frames) ∧
        ∀ op, Disciplined regions s op → (step s op).returns = true := by
  obtain ⟨s₀, L0, hinit, hready0⟩ := exists_initFromRegions mem regions hdisj hzero
  refine ⟨s₀, hinit, fun s hs => ?_⟩
  have hbalanced := (balanced_init hready0).reachable hzero hs
  obtain ⟨L, hready⟩ := hbalanced.ready
  refine ⟨⟨L, exact_of_ready hready⟩, fun order state addr halloc => ?_, fun op hop => ?_⟩
  · obtain ⟨state', addr', halloc', hwithin, hapart, -⟩ | hnone := hbalanced.allocate order
    · obtain ⟨-, haddr⟩ := Prod.mk.inj (Exec.ok.inj (halloc'.symm.trans halloc))
      cases haddr
      exact ⟨hwithin, hapart⟩
    · obtain ⟨-, haddr⟩ := Prod.mk.inj (Exec.ok.inj (hnone.symm.trans halloc))
      cases haddr
  · obtain ⟨s', out, hstep, -⟩ := hbalanced.exists_step hzero hop
    exact Exec.returns_iff.mpr ⟨_, hstep⟩

def twoRegions : List Region := [⟨0x1000, 0x3000⟩, ⟨0x8000, 0x10000⟩]

theorem twoRegions_exact : ∃ s₀ s out L,
    initFromRegions ⟨.new, fun _ => 0⟩ twoRegions = .ok s₀ ∧
      step ⟨s₀, ∅⟩ (.allocate 1) = .ok (s, out) ∧ Exact twoRegions s L := by
  obtain ⟨s₀, hinit, h⟩ := allocator_exact (fun _ => 0) twoRegions (by decide) (by decide)
  obtain ⟨-, -, hreturns⟩ := h _ .refl
  obtain ⟨⟨s, out⟩, hstep⟩ := Exec.returns_iff.mp (hreturns (.allocate 1) trivial)
  obtain ⟨⟨L, hexact⟩, -⟩ := h s (.tail (i := .allocate 1) .refl trivial hstep)
  exact ⟨s₀, s, out, L, hinit, hstep, hexact⟩

end FrameUsage

/-! ### Fragmentation -/

namespace FrameState

variable {s t : FrameState} {U V : Finset ℕ} {L L' : ℕ → List ℕ}

/-- An allocation, of which only the success is recorded. -/
def tryAllocate (s : FrameState) (order : ℕ) : Exec (FrameState × Bool) := do
  let (s, addr) ← s.allocate order
  .ok (s, addr.isSome)

lemma length_splitLists {f order n k : ℕ} : (splitLists L f order n k).length =
    (L k).length + if order ≤ k ∧ k < order + n then 1 else 0 := by
  unfold splitLists
  split_ifs <;> rfl

def SameLengths (s t : FrameState) : Prop :=
  ∃ U V L L', s.Ready U L ∧ t.Ready V L' ∧ ∀ k, (L k).length = (L' k).length

lemma Taken.avail_eq {L1 L1' : ℕ → List ℕ} {order avail avail' f f' : ℕ}
    (h : Taken L L1 order avail f) (h' : Taken L' L1' order avail' f')
    (hlen : ∀ k, (L k).length = (L' k).length) : avail = avail' := by
  have hle : ∀ {L L1 L' L1' : ℕ → List ℕ} {avail avail' f f' : ℕ}, Taken L L1 order avail f →
      Taken L' L1' order avail' f' → (∀ k, (L k).length = (L' k).length) → avail ≤ avail' := by
    intro L L1 L' L1' avail avail' f f' h h' hlen
    by_contra hlt
    obtain ⟨rest, hrest, -⟩ := h'.head
    have hnil := h.below avail' h'.le (not_le.mp hlt)
    have := hlen avail'
    rw [hrest, hnil] at this
    cases this
  exact le_antisymm (hle h h' hlen) (hle h' h fun k => (hlen k).symm)

lemma Taken.length_eq {L1 L1' : ℕ → List ℕ} {order avail avail' f f' : ℕ}
    (h : Taken L L1 order avail f) (h' : Taken L' L1' order avail' f')
    (hlen : ∀ k, (L k).length = (L' k).length) (k : ℕ) : (L1 k).length = (L1' k).length := by
  obtain rfl := h.avail_eq h' hlen
  obtain ⟨rest, hrest, rfl⟩ := h.head
  obtain ⟨rest', hrest', rfl⟩ := h'.head
  have hrests : rest.length = rest'.length := by
    have := hlen avail
    rw [hrest, hrest'] at this
    exact Nat.succ.inj this
  rw [length_splitLists, length_splitLists]
  obtain rfl | hne := eq_or_ne k avail
  · rw [update_self, update_self, hrests]
  · rw [update_of_ne hne, update_of_ne hne, hlen]

lemma SameLengths.tryAllocate (h : SameLengths s t) (order : ℕ) :
    ∃ s' t' success, s.tryAllocate order = .ok (s', success) ∧
      t.tryAllocate order = .ok (t', success) ∧ SameLengths s' t' := by
  obtain ⟨U, V, L, L', hs, ht, hlen⟩ := h
  have hnil : ∀ k, L k = [] ↔ L' k = [] := fun k => by
    rw [← List.length_eq_zero_iff, ← List.length_eq_zero_iff, hlen]
  obtain ⟨s', f, avail, L1, halloc, -, -, hs', htaken, -⟩ | ⟨hnone, hempty⟩ :=
      hs.allocate order <;>
    obtain ⟨t', f', avail', L1', halloc', -, -, ht', htaken', -⟩ | ⟨hnone', hempty'⟩ :=
      ht.allocate order
  · exact ⟨s', t', true, by simp [FrameState.tryAllocate, halloc],
      by simp [FrameState.tryAllocate, halloc'],
      _, _, L1, L1', hs', ht', htaken.length_eq htaken' hlen⟩
  · obtain ⟨rest, hrest, -⟩ := htaken.head
    rw [(hnil avail).mpr (hempty' avail htaken.le)] at hrest
    cases hrest
  · obtain ⟨rest, hrest, -⟩ := htaken'.head
    rw [(hnil avail').mp (hempty avail' htaken'.le)] at hrest
    cases hrest
  · exact ⟨s, t, false, by simp [FrameState.tryAllocate, hnone],
      by simp [FrameState.tryAllocate, hnone'], U, V, L, L', hs, ht, hlen⟩

lemma SameLengths.outputs (orders : List ℕ) : ∀ {s t : FrameState}, SameLengths s t →
    ∃ results, outputs FrameState.tryAllocate s orders = .ok results ∧
      outputs FrameState.tryAllocate t orders = .ok results := by
  induction orders with
  | nil => exact fun _ => ⟨[], rfl, rfl⟩
  | cons order orders ih =>
    intro s t h
    obtain ⟨s', t', success, hs, ht, h'⟩ := h.tryAllocate order
    obtain ⟨results, hresults, hresults'⟩ := ih h'
    refine ⟨success :: results, ?_, ?_⟩
    · exact outputs_cons hs hresults
    · exact outputs_cons ht hresults'

end FrameState

namespace FrameUsage

/-- **Fragmentation does not last.**  After initialisation from disjoint regions without frame
0, in every state that disciplined calls lead to: no two blocks on a list below the highest
order are buddies; and when no block is in use, each list holds the blocks that it held
initially, and every sequence of allocations succeeds as far as it did initially. -/
theorem no_lasting_fragmentation (mem : ByteMemory) (regions : List Region)
    (hdisj : regions.Pairwise fun r r' => Disjoint r.frames r'.frames)
    (hzero : 0 ∉ usable regions) :
    ∃ (s₀ : FrameState) (L₀ : ℕ → List ℕ), initFromRegions ⟨.new, mem⟩ regions = .ok s₀ ∧
      (∀ k ≤ maxOrder, s₀.FreeList k (L₀ k)) ∧
      ∀ s, ReachableVia (Disciplined regions) step ⟨s₀, ∅⟩ s →
        ∃ L : ℕ → List ℕ, (∀ k ≤ maxOrder, s.state.FreeList k (L k)) ∧
          (∀ k < maxOrder, ∀ f ∈ L k, f ^^^ 2 ^ k ∉ L k) ∧
          (s.live = ∅ → (∀ k f, f ∈ L k ↔ f ∈ L₀ k) ∧
            ∀ orders, ∃ results, outputs tryAllocate s₀ orders = .ok results ∧
              outputs tryAllocate s.state orders = .ok results) := by
  obtain ⟨s₀, L₀, hinit, hready0⟩ := exists_initFromRegions mem regions hdisj hzero
  refine ⟨s₀, L₀, hinit, hready0.lists.chain, fun s hs => ?_⟩
  obtain ⟨L, hready⟩ := ((balanced_init hready0).reachable hzero hs).ready
  refine ⟨L, hready.lists.chain, fun k hk f hf hbuddy => ?_, fun hlive => ?_⟩
  · exact ((hready.lists.mem k f).mp hf).not_buddy hk ((hready.lists.mem k _).mp hbuddy)
  have hfree : s.free regions = usable regions := by
    rw [free, covered, hlive, biUnion_empty, sdiff_empty]
  rw [hfree] at hready
  have hsame : ∀ k f, f ∈ L k ↔ f ∈ L₀ k := fun k f => by
    rw [hready.lists.mem, hready0.lists.mem]
  refine ⟨hsame, fun orders => ?_⟩
  have hlen : ∀ k, (L₀ k).length = (L k).length := fun k =>
    ((List.perm_ext_iff_of_nodup (hready0.lists.nodup k) (hready.lists.nodup k)).mpr
      fun f => (hsame k f).symm).length_eq
  exact SameLengths.outputs orders ⟨_, _, L₀, L, hready0, hready, hlen⟩

theorem twoRegions_merged : ∃ (s₀ : FrameState) (L : ℕ → List ℕ), initFromRegions ⟨.new, fun _ => 0⟩
    twoRegions = .ok s₀ ∧ (∀ k ≤ maxOrder, s₀.FreeList k (L k)) ∧
      ∀ k < maxOrder, ∀ f ∈ L k, f ^^^ 2 ^ k ∉ L k := by
  obtain ⟨s₀, L0, hinit, -, h⟩ :=
    no_lasting_fragmentation (fun _ => 0) twoRegions (by decide) (by decide)
  obtain ⟨L, hchain, hbuddies, -⟩ := h _ .refl
  exact ⟨s₀, L, hinit, hchain, hbuddies⟩

end FrameUsage

end Fabric
