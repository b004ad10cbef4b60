/-
User mappings and the kernel half.

`map_user_page` and `unmap_user_page` refuse addresses from `0xFFFF_8000_0000_0000` on, and
then use bits 39 to 47 of the address as the index into the PML4.  The guard rules out the
canonical addresses of the upper half, but not the others whose index is 256 or more.
-/
import FabricOS.KernelHalf
import FabricOS.Machine
import FabricOS.UserMappings

open Machine Function List

namespace Fabric

open Buddy FreeBlockPtr PageTable FrameState Exec AddressSpace

/-- The address spaces, and the frames that clients hold for the contents of pages. -/
structure PagingSystem where
  frames : FrameState
  kernelCr3 : UInt64
  spaces : List AddressSpace
  held : Finset ℕ

namespace PagingSystem

/-- The PML4s: that of the kernel and those of the address spaces. -/
def roots (s : PagingSystem) : List ℕ :=
  AddressSpace.readCr3 s.kernelCr3 :: s.spaces.map (·.pml4Phys)

inductive Op
  /-- Create an address space, while `cr3` is in the register. -/
  | create (cr3 : UInt64)
  | mapUserPage (k : ℕ) (virt phys : UInt64) (flags : PageTableFlags)
  | unmapUserPage (k : ℕ) (virt : UInt64)
  | loadElf (k : ℕ) (data : Elf.Slice)
  /-- A client allocates a frame for the contents of a page. -/
  | allocateFrame
  /-- A client writes to a frame that it holds. -/
  | store (addr : ℕ) (byte : UInt8)

def step (s : PagingSystem) : Op → Exec (PagingSystem × Bool)
  | .create cr3 =>
    -- the register holds one of the PML4s
    if AddressSpace.readCr3 cr3 ∈ s.roots then do
      let (frames, result) ← AddressSpace.create s.frames cr3
      match result with
      | .error _ => .ok ({ s with frames := frames }, false)
      | .ok space => .ok ({ s with frames := frames, spaces := s.spaces ++ [space] }, true)
    else .ok (s, false)
  | .mapUserPage k virt phys flags =>
    match s.spaces[k]? with
    | none => .ok (s, false)
    | some space => do
      let (frames, space, result) ← space.mapUserPage s.frames virt phys flags
      .ok ({ s with frames := frames, spaces := s.spaces.set k space }, result.isOk)
  | .unmapUserPage k virt =>
    match s.spaces[k]? with
    | none => .ok (s, false)
    | some space =>
      let (frames, space, result) := space.unmapUserPage s.frames virt
      .ok ({ s with frames := frames, spaces := s.spaces.set k space }, result.isOk)
  | .loadElf k data =>
    match s.spaces[k]? with
    | none => .ok (s, false)
    | some space => do
      let (st, result) ← Elf.loadElf data s.frames space
      let pages := (st.mappedPages.map fun page => page.2 / pageSize).toFinset
      .ok ({ s with frames := st.frames, spaces := s.spaces.set k st.space,
                    held := s.held ∪ pages }, result.isOk)
  | .allocateFrame => do
    let (frames, addr) ← s.frames.allocate 0
    match addr with
    | none => .ok ({ s with frames := frames }, false)
    | some addr => .ok ({ s with frames := frames, held := insert (addr / pageSize) s.held }, true)
  | .store addr byte =>
    if addr / pageSize ∈ s.held then
      let mem := update s.frames.mem addr byte
      .ok ({ s with frames := ⟨s.frames.alloc, mem⟩ }, true)
    else .ok (s, false)

/-- The addresses of the call have a PML4 index below 256. -/
def LowerHalf : Op → Prop
  | .mapUserPage _ virt _ _ => pml4Index virt < 256
  | .unmapUserPage _ virt => pml4Index virt < 256
  | .loadElf _ data => ∀ va ∈ Elf.loadAddresses data, pml4Index va < 256
  | _ => True

/-- The allocator is at rest, the kernel's tables are not in its free frames, and there is no
address space yet. -/
structure Booted (s : PagingSystem) : Prop where
  ready : ∃ U L, s.frames.Ready U L ∧ AddressSpace.readCr3 s.kernelCr3 / pageSize ∉ U ∧
    ∀ n t, KernelTable s.frames.mem (AddressSpace.readCr3 s.kernelCr3) n t → t / pageSize ∉ U
  spaces : s.spaces = []
  held : s.held = ∅

/-- The frames have a layout in which the address spaces and the held frames have their
place. -/
structure Isolated (s : PagingSystem) (U : Finset ℕ) (kind : ℕ → FrameKind) : Prop where
  layout : Layout s.frames U kind s.roots
  pml4 : ∀ p ∈ s.spaces.map (·.pml4Phys), kind (p / pageSize) = .table 4
  held : ∀ f ∈ s.held, kind f = .data

variable {s s' : PagingSystem} {U U' : Finset ℕ} {kind kind' : ℕ → FrameKind}

lemma Booted.isolated (h : s.Booted) : ∃ U kind, s.Isolated U kind := by
  obtain ⟨U, L, hready, hroot, hkernel⟩ := h.ready
  have hroots : s.roots = [readCr3 s.kernelCr3] := by
    rw [roots, h.spaces, map_nil]
  refine ⟨U, fun _ => .other, ⟨⟨L, hready⟩, fun _ _ => rfl, (fun _ _ _ hkind => by cases hkind),
    fun r hr => ?_, fun r hr n t ht => ?_⟩, by simp [h.spaces], by simp [h.held]⟩
  · rw [hroots, mem_singleton] at hr
    subst hr
    have hdvd : pageSize ∣ (PageTableEntry.mk s.kernelCr3).addr := PageTableEntry.dvd_addr
    exact ⟨hdvd, hroot, .inr rfl⟩
  · rw [hroots, mem_singleton] at hr
    subst hr
    exact ⟨hkernel n t ht, rfl⟩

lemma Isolated.advance (h : s.Isolated U kind)
    (hadvance : Advance s.roots s.frames U kind s'.frames U' kind')
    (hlayout : Layout s'.frames U' kind' s'.roots)
    (hpml4 : ∀ p ∈ s'.spaces.map (·.pml4Phys), p ∈ s.spaces.map (·.pml4Phys) ∨
      kind' (p / pageSize) = .table 4)
    (hheld : ∀ f ∈ s'.held, f ∈ s.held ∨ kind' f = .data) : s'.Isolated U' kind' := by
  refine ⟨hlayout, fun p hp => ?_, fun f hf => ?_⟩
  · obtain hold | hnew := hpml4 p hp
    · exact hadvance.keeps h.layout (by simp) (h.pml4 p hold)
    · exact hnew
  · obtain hold | hnew := hheld f hf
    · exact hadvance.keeps h.layout (by simp) (h.held f hold)
    · exact hnew

lemma map_set_pml4Phys {spaces : List AddressSpace} {k : ℕ} {space space' : AddressSpace}
    (hk : spaces[k]? = some space) (h : space'.pml4Phys = space.pml4Phys) :
    (spaces.set k space').map (·.pml4Phys) = spaces.map (·.pml4Phys) := by
  refine ext_getElem? fun j => ?_
  rw [getElem?_map, getElem?_map, getElem?_set]
  split_ifs with hj hlt
  · subst hj
    rw [hk, Option.map_some, Option.map_some, h]
  · subst hj
    rw [getElem?_eq_none (not_lt.mp hlt)]
  · rfl

lemma Isolated.set (h : s.Isolated U kind) {frames : FrameState} {k : ℕ}
    {space space' : AddressSpace} {held : Finset ℕ} (hk : s.spaces[k]? = some space)
    (hspace : space'.pml4Phys = space.pml4Phys)
    (hadvance : Advance s.roots s.frames U kind frames U' kind')
    (hheld : ∀ f ∈ held, f ∈ s.held ∨ kind' f = .data) :
    Isolated ⟨frames, s.kernelCr3, s.spaces.set k space', held⟩ U' kind' := by
  have hroots : roots ⟨frames, s.kernelCr3, s.spaces.set k space', held⟩ = s.roots := by
    rw [roots, roots, map_set_pml4Phys hk hspace]
  refine h.advance hadvance ?_ (fun p hp => .inl ?_) hheld
  · rw [hroots]
    exact hadvance.layout
  · rwa [map_set_pml4Phys hk hspace] at hp

lemma Isolated.space (h : s.Isolated U kind) {k : ℕ} {space : AddressSpace}
    (hk : s.spaces[k]? = some space) : space.pml4Phys ∈ s.roots ∧ pageSize ∣ space.pml4Phys ∧
      kind (space.pml4Phys / pageSize) = .table 4 := by
  have hmem : space.pml4Phys ∈ s.spaces.map (·.pml4Phys) :=
    mem_map_of_mem (mem_of_getElem? hk)
  have hroot : space.pml4Phys ∈ s.roots := mem_cons_of_mem _ hmem
  exact ⟨hroot, (h.layout.root _ hroot).1, h.pml4 _ hmem⟩

lemma Isolated.loadElf (h : s.Isolated U kind) {k : ℕ} {space : AddressSpace}
    {data : Elf.Slice} (hk : s.spaces[k]? = some space)
    (hlow : ∀ va ∈ Elf.loadAddresses data, pml4Index va < 256) :
    ∃ st out U' kind', Elf.loadElf data s.frames space = .ok (st, out) ∧
      st.space.pml4Phys = space.pml4Phys ∧ st.Fits U' kind' s.roots ∧
      Advance s.roots s.frames U kind st.frames U' kind' := by
  obtain ⟨-, hdvd, hkind⟩ := h.space hk
  exact Elf.loadElf_fits ⟨h.layout, ⟨hdvd, hkind⟩, fun _ hpage => by cases hpage⟩ hlow

lemma Isolated.refused (h : s.Isolated U kind) {op : Op} (hstep : s.step op = .ok (s, false)) :
    ∃ s' out U' kind', s.step op = .ok (s', out) ∧ s'.Isolated U' kind' ∧
      Confined U kind s.frames.mem s'.frames.mem :=
  ⟨s, false, U, kind, hstep, h, (Advance.refl h.layout).confined⟩

lemma Isolated.exists_step (h : s.Isolated U kind) {op : Op} (hop : LowerHalf op) :
    ∃ s' out U' kind', s.step op = .ok (s', out) ∧ s'.Isolated U' kind' ∧
      Confined U kind s.frames.mem s'.frames.mem := by
  cases op with
  | create cr3 =>
    by_cases hcr3 : readCr3 cr3 ∈ s.roots
    · obtain ⟨frames, out, U', kind', hcreate, hadvance, hnew⟩ := h.layout.create hcr3
      cases out with
      | error e =>
        refine ⟨⟨frames, s.kernelCr3, s.spaces, s.held⟩, false, U', kind', ?_, ?_,
          hadvance.confined⟩
        · simp only [step, if_pos hcr3, hcreate, ok_bind]
        · exact h.advance hadvance hadvance.layout (fun _ => .inl) fun _ => .inl
      | ok space =>
        obtain ⟨hlayout, hkind⟩ := hnew space rfl
        refine ⟨⟨frames, s.kernelCr3, s.spaces ++ [space], s.held⟩, true, U', kind', ?_, ?_,
          hadvance.confined⟩
        · simp only [step, if_pos hcr3, hcreate, ok_bind]
        refine h.advance hadvance ?_ (fun p hp => ?_) fun _ => .inl
        · rw [roots, map_append]
          exact hlayout
        rw [map_append, mem_append] at hp
        refine hp.imp_right fun hp => ?_
        rw [mem_singleton.mp hp]
        exact hkind
    · exact h.refused (if_neg hcr3)
  | mapUserPage k virt phys flags =>
    cases hk : s.spaces[k]? with
    | none => exact h.refused (by simp only [step, hk])
    | some space =>
      obtain ⟨-, hdvd, hkind⟩ := h.space hk
      obtain ⟨frames, space', out, U', kind', hmap, hspace, hadvance⟩ :=
        h.layout.mapUserPage phys flags hdvd hkind hop
      refine ⟨_, out.isOk, U', kind', ?_, h.set hk hspace hadvance fun _ => .inl,
        hadvance.confined⟩
      simp only [step, hk, hmap, ok_bind]
  | unmapUserPage k virt =>
    cases hk : s.spaces[k]? with
    | none => exact h.refused (by simp only [step, hk])
    | some space =>
      obtain ⟨-, hdvd, hkind⟩ := h.space hk
      obtain ⟨frames, space', out, hunmap, hspace, hadvance⟩ :=
        h.layout.unmapUserPage hdvd hkind hop
      refine ⟨_, out.isOk, U, kind, ?_, h.set hk hspace hadvance fun _ => .inl,
        hadvance.confined⟩
      simp only [step, hk, hunmap]
  | loadElf k data =>
    cases hk : s.spaces[k]? with
    | none => exact h.refused (by simp only [step, hk])
    | some space =>
      obtain ⟨st, out, U', kind', hload, hspace, hfits, hadvance⟩ := h.loadElf hk hop
      have hpages : ∀ f ∈ s.held ∪ (st.mappedPages.map fun page => page.2 / pageSize).toFinset,
          f ∈ s.held ∨ kind' f = .data := by
        intro f hf
        rw [Finset.mem_union, mem_toFinset, mem_map] at hf
        refine hf.imp_right ?_
        rintro ⟨page, hpage, rfl⟩
        exact (hfits.backed page hpage).2
      refine ⟨_, out.isOk, U', kind', ?_, h.set hk hspace hadvance hpages, hadvance.confined⟩
      simp only [step, hk, hload, ok_bind]
  | allocateFrame =>
    obtain ⟨L, hready⟩ := h.layout.ready
    obtain ⟨frames, f, L', halloc, hf, hready', hmem⟩ | hnone := hready.takeFrame
    · have hfresh : Advance s.roots s.frames U kind frames (U.erase f)
          (update kind f .data) :=
        h.layout.fresh hf ⟨L', hready'⟩ hmem fun n i hk => by cases hk
      refine ⟨⟨frames, s.kernelCr3, s.spaces, insert f s.held⟩, true, _, _, ?_,
        h.advance hfresh hfresh.layout (fun _ => .inl) fun g hg => ?_, hfresh.confined⟩
      · simp only [step, halloc, ok_bind, fromFrame_div]
      · obtain rfl | hg := Finset.mem_insert.mp hg
        · exact .inr (update_self ..)
        · exact .inl hg
    · exact h.refused (by simp only [step, hnone, ok_bind])
  | store addr byte =>
    by_cases hheld : addr / pageSize ∈ s.held
    · have hwrite : Advance s.roots s.frames U kind
          ⟨s.frames.alloc, update s.frames.mem addr byte⟩ U kind := by
        refine h.layout.writeData fun x hx => update_of_ne ?_ _ _
        rintro rfl
        exact hx (h.held _ hheld)
      exact ⟨⟨⟨s.frames.alloc, update s.frames.mem addr byte⟩, s.kernelCr3, s.spaces,
        s.held⟩, true, U, kind, if_pos hheld,
        h.advance hwrite hwrite.layout (fun _ => .inl) fun _ => .inl, hwrite.confined⟩
    · exact h.refused (if_neg hheld)

lemma Isolated.step {op : Op} {out : Bool} (h : s.Isolated U kind) (hop : LowerHalf op)
    (hstep : s.step op = .ok (s', out)) : ∃ U' kind', s'.Isolated U' kind' := by
  obtain ⟨s1, out1, U', kind', hstep1, hisolated, -⟩ := h.exists_step hop
  obtain ⟨rfl, -⟩ := Prod.mk.inj (ok.inj (hstep1.symm.trans hstep))
  exact ⟨U', kind', hisolated⟩

lemma isolated_of_reachable {s0 : PagingSystem} (h0 : s0.Booted)
    (h : ReachableVia (fun _ => LowerHalf) PagingSystem.step s0 s) : ∃ U kind, s.Isolated U kind :=
  h.inv (P := fun s => ∃ U kind, s.Isolated U kind) h0.isolated fun hs hop hstep => by
    obtain ⟨U, kind, hs⟩ := hs
    exact hs.step hop hstep

/-- **User mappings and the kernel half.**  In every state that calls in the lower half lead
to, and for every address space: a page that is mapped or unmapped at an address whose PML4
index is below 256 leaves the kernel half of all address spaces alone; one at another address
does not leave it alone, unless the walk comes to the entry of a large page; and an image that
is loaded at addresses with an index below 256 leaves it alone. -/
theorem kernel_half_unchanged {s₀ s : PagingSystem} (h₀ : s₀.Booted)
    (h : ReachableVia (fun _ => LowerHalf) step s₀ s) {k : ℕ} {space : AddressSpace}
    (hk : s.spaces[k]? = some space) :
    (∀ virt phys flags frames space',
      space.mapUserPage s.frames virt phys flags = .ok (frames, space', .ok ()) →
      (pml4Index virt < 256 → ∀ root ∈ s.roots, KernelUnchanged root s.frames.mem frames.mem) ∧
      (¬ HugeOnPath s.frames.mem space.pml4Phys virt →
        KernelUnchanged space.pml4Phys s.frames.mem frames.mem → pml4Index virt < 256)) ∧
    (∀ virt frames space' phys, space.unmapUserPage s.frames virt = (frames, space', .ok phys) →
      (pml4Index virt < 256 → ∀ root ∈ s.roots, KernelUnchanged root s.frames.mem frames.mem) ∧
      (¬ HugeOnPath s.frames.mem space.pml4Phys virt →
        KernelUnchanged space.pml4Phys s.frames.mem frames.mem → pml4Index virt < 256)) ∧
    ∀ data st entry, Elf.loadElf data s.frames space = .ok (st, .ok entry) →
      (∀ va ∈ Elf.loadAddresses data, pml4Index va < 256) →
      ∀ root ∈ s.roots, KernelUnchanged root s.frames.mem st.frames.mem := by
  obtain ⟨U, kind, hs⟩ := isolated_of_reachable h₀ h
  obtain ⟨hroot, hdvd, hkind⟩ := hs.space hk
  refine ⟨fun virt phys flags frames space' hmap => ⟨fun hlow root hr => ?_, fun hhuge hsame => ?_⟩,
    fun virt frames space' phys hunmap => ⟨fun hlow root hr => ?_, fun hhuge hsame => ?_⟩,
    fun data st entry hload hlow root hr => ?_⟩
  · obtain ⟨frames1, space1, out1, U', kind', hmap1, -, hadvance⟩ :=
      hs.layout.mapUserPage phys flags hdvd hkind hlow
    obtain ⟨rfl, -⟩ := Prod.mk.inj (ok.inj (hmap1.symm.trans hmap))
    exact hs.layout.kernelUnchanged hr hadvance.confined
  · by_contra hhigh
    exact hs.layout.not_kernelUnchanged_map hroot (not_lt.mp hhigh) hhuge hmap hsame
  · obtain ⟨frames1, space1, out1, hunmap1, -, hadvance⟩ :=
      hs.layout.unmapUserPage hdvd hkind hlow
    obtain ⟨rfl, -⟩ := Prod.mk.inj (hunmap1.symm.trans hunmap)
    exact hs.layout.kernelUnchanged hr hadvance.confined
  · by_contra hhigh
    exact not_kernelUnchanged_unmap (not_lt.mp hhigh) hhuge hunmap hsame
  · obtain ⟨st1, out1, U', kind', hload1, -, -, hadvance⟩ := hs.loadElf hk hlow
    obtain ⟨rfl, -⟩ := Prod.mk.inj (ok.inj (hload1.symm.trans hload))
    exact hs.layout.kernelUnchanged hr hadvance.confined

/-! ### A table that is shared -/

def kernelAlloc : BuddyAllocator :=
  { BuddyAllocator.new with
    bitmap := fun byte => if byte = 1 then 0x00#8 else 0xFF#8
    totalFrames := 8, freeFrames := 8, maxOrder := 3, initialized := true }

/-- The kernel's PML4 is in frame 16; its entry 256 leads to an empty PDPT in frame 17. -/
def kernelMem : ByteMemory := PageTable.setEntry (fun _ => 0) 0x10000 256 ⟨0x11007⟩

def kernelFrames : FrameState :=
  (FrameState.setNext ⟨kernelAlloc, kernelMem⟩ (fromFrame 8) null).setHead 3 (fromFrame 8)

def booted : PagingSystem := ⟨kernelFrames, 0x10000, [], ∅⟩

lemma kernelFrames_ready : ∃ L, kernelFrames.Ready (∅ ∪ DyadicBlocks.block 3 8) L := by
  obtain ⟨s', hpush, hlists, -⟩ := (lists_new kernelAlloc kernelMem rfl).push (k := 3) (f := 8)
    (by decide) (by decide) (Finset.disjoint_empty_left _) (by decide) (by decide)
  obtain rfl : kernelFrames = s' := ok.inj hpush
  refine ⟨_, hlists, fun x => ?_, by decide, rfl⟩
  have hzero : ∀ i, (0x00#8).getLsbD i = false := fun i => BitVec.getLsbD_zero
  have hone : ∀ i < 8, (0xFF#8).getLsbD i = true := by decide
  have hx : kernelFrames.alloc.bitmap (x / 8) = if x / 8 = 1 then 0x00#8 else 0xFF#8 := rfl
  have hmax : 16 ≤ maxFrames := by decide
  rw [BuddyAllocator.isFree_iff, Finset.empty_union, DyadicBlocks.mem_block, hx]
  split_ifs with hbyte
  · simp only [hzero, and_true]
    omega
  · simp only [hone _ (Nat.mod_lt x (by decide)), Bool.true_eq_false, and_false, false_iff]
    omega

lemma entry_kernelFrames {t i : ℕ} (ht : pageSize ∣ t) (hpage : t / pageSize ≠ 8)
    (hi : i < 512) : entry kernelFrames.mem t i =
      if t = 0x10000 ∧ i = 256 then ⟨0x11007⟩ else .empty := by
  have hnext : entry kernelFrames.mem t i = entry kernelMem t i := by
    refine entry_congr ht hi fun x hx _ => ByteMemory.write_apply_of_not_mem ?_
    rw [← hx, pageSize] at hpage
    rw [fromFrame, pageSize]
    omega
  have hzero : ∀ a, ByteMemory.read (fun _ => 0) a 8 = 0 := fun a => by simp [ByteMemory.read]
  rw [hnext, kernelMem]
  split_ifs with hentry
  · obtain ⟨rfl, rfl⟩ := hentry
    exact entry_setEntry_self
  · rw [entry_setEntry_of_ne (by decide) ht (by decide) hi fun heq hne => hentry ⟨heq, hne⟩,
      entry, hzero]
    rfl

lemma kernelTable_booted {n t : ℕ} (h : KernelTable kernelFrames.mem 0x10000 n t) :
    t = 0x11000 := by
  induction h with
  | pdpt _ hi hpresent =>
    rw [entry_kernelFrames (by decide) (by decide) hi] at hpresent ⊢
    split_ifs at hpresent ⊢
    · decide
    · cases hpresent
  | next _ hi hpresent _ ih =>
    rw [ih, entry_kernelFrames (by decide) (by decide) hi,
      if_neg fun h => absurd h.1 (by decide)] at hpresent
    cases hpresent

lemma booted_booted : booted.Booted := by
  obtain ⟨L, hready⟩ := kernelFrames_ready
  refine ⟨⟨_, L, hready, by decide, fun n t ht => ?_⟩, rfl, rfl⟩
  rw [kernelTable_booted ht]
  decide

def oneSpace : PagingSystem := final step booted [.create 0x10000]

theorem ordinary_page_mapped : ∃ frames space',
    AddressSpace.mapUserPage ⟨0x8000, 0, true⟩ oneSpace.frames 0x400000 0x5000 0 =
      .ok (frames, space', .ok ()) ∧
    KernelUnchanged 0x10000 oneSpace.frames.mem frames.mem := by
  have hreach : ReachableVia (fun _ => LowerHalf) step booted oneSpace :=
    .of_returns (by decide +kernel) fun op hop => by
      rw [mem_singleton.mp hop]
      trivial
  have hspace : oneSpace.spaces[0]? = some ⟨0x8000, 0, true⟩ := by decide +kernel
  have hresult : (mapUserPage ⟨0x8000, 0, true⟩ oneSpace.frames 0x400000 0x5000 0 >>=
      fun r => ok r.2.2.isOk) = .ok true := by decide +kernel
  obtain ⟨⟨frames, space', out⟩, hmap, hout⟩ := bind_eq_ok.mp hresult
  cases out with
  | error e => cases hout
  | ok =>
    obtain ⟨hmapped, -⟩ := kernel_half_unchanged booted_booted hreach hspace
    exact ⟨frames, space', hmap, (hmapped _ _ _ _ _ hmap).1 (by decide) _ mem_cons_self⟩

/-- An executable with one segment, at the first address whose PML4 index is 256. -/
def image : Elf.Slice where
  bytes i := [0x7F, 0x45, 0x4C, 0x46, 2, 1, 1, 0, 0, 0, 0, 0, 0, 0, 0, 0,
    2, 0, 0x3E, 0, 1, 0, 0, 0, 0, 0, 0, 0, 0, 0x80, 0, 0,
    0x40, 0, 0, 0, 0, 0, 0, 0, 0, 0, 0, 0, 0, 0, 0, 0,
    0, 0, 0, 0, 0x40, 0, 0x38, 0, 1, 0, 0, 0, 0, 0, 0, 0,
    1, 0, 0, 0, 5, 0, 0, 0, 0, 0, 0, 0, 0, 0, 0, 0,
    0, 0, 0, 0, 0, 0x80, 0, 0, 0, 0, 0, 0, 0, 0x80, 0, 0,
    120, 0, 0, 0, 0, 0, 0, 0, 120, 0, 0, 0, 0, 0, 0, 0, 0, 0x10, 0, 0, 0, 0, 0, 0].getD i.toNat 0
  len := 120

/-- **A mapping in a shared table.**  The address is accepted, and its index is 256: the page is
entered below the PDPT that all address spaces share, by `map_user_page` and by the loader. -/
theorem shared_table_mapped :
    booted.Booted ∧ pml4Index 0x800000000000 = 256 ∧
    outputs step booted [.create 0x10000, .mapUserPage 0 0x800000000000 0x5000 0] =
      .ok [true, true] ∧
    ¬ KernelUnchanged 0x10000 oneSpace.frames.mem
      (final step booted [.create 0x10000,
        .mapUserPage 0 0x800000000000 0x5000 0]).frames.mem ∧
    outputs step booted [.create 0x10000, .loadElf 0 image] = .ok [true, true] ∧
    ¬ KernelUnchanged 0x10000 oneSpace.frames.mem
      (final step booted [.create 0x10000, .loadElf 0 image]).frames.mem := by
  have haddr : (entry oneSpace.frames.mem 0x10000 256).addr = 0x11000 := by decide +kernel
  have htable : KernelTable oneSpace.frames.mem 0x10000 3 0x11000 :=
    haddr ▸ .pdpt le_rfl (by decide) (by decide +kernel)
  refine ⟨booted_booted, by decide, by decide +kernel, fun h => ?_, by decide +kernel, fun h => ?_⟩
  · exact absurd (h.tables 3 0x11000 htable 0 (by decide)) (by decide +kernel)
  · exact absurd (h.tables 3 0x11000 htable 0 (by decide)) (by decide +kernel)

end PagingSystem

end Fabric
