/-
Mapping, unmapping and loading keep to the lower half.

The calls are followed through the layout of the frames.  As long as the walk starts in the
lower half of the PML4, it stays in the tables of the layout, and what it adds to them comes
from the free frames.
-/
import FabricOS.ElfLoader
import FabricOS.FrameLayout

open Function List UInt64 Nat

namespace Fabric

open Buddy FreeBlockPtr PageTable FrameState PageTableEntry Exec ByteMemory AddressSpace

variable {s s' : FrameState} {U U' : Finset ℕ} {kind kind' : ℕ → FrameKind} {roots : List ℕ}
  {n t i : ℕ}

/-! ### Walking -/

lemma Layout.cleared (h : Layout s U kind roots) {s1 : FrameState} {f : ℕ} {L : ℕ → List ℕ}
    (k : FrameKind) (hf : f ∈ U) (hready : s1.Ready (U.erase f) L)
    (hmem : ∀ x, x / pageSize ∉ U → s1.mem x = s.mem x) :
    Advance roots s U kind ⟨s1.alloc, zero s1.mem (fromFrame f)⟩ (U.erase f)
      (update kind f k) := by
  have hzero : ∀ x, x / pageSize ≠ f → zero s1.mem (fromFrame f) x = s1.mem x := fun x hx =>
    zero_apply_of_ne dvd_fromFrame (by rwa [fromFrame_div])
  refine h.fresh hf ⟨L, hready.setMem fun x hx => ?_⟩ (fun x hx => ?_) fun n i _ hi => ?_
  · exact hzero x (Finset.mem_erase.mp hx).1
  · rw [← hmem x hx]
    refine hzero x ?_
    rintro rfl
    exact hx hf
  · rw [entry_zero (hi.trans_le width_le)]
    exact not_isPresent_empty

/-- From a table of a layout an entry that is present leads to a table of the next level; where
there is none, a free frame becomes the table and is linked, unless no frame is left. -/
lemma Layout.nextOrCreate_cases (h : Layout s U kind roots) (ht : pageSize ∣ t)
    (hkind : kind (t / pageSize) = .table (n + 2)) (hi : i < width (n + 2)) :
    ((entry s.mem t i).isPresent = true ∧
      s.nextOrCreate t i = .ok (s, .ok (entry s.mem t i).addr) ∧
      kind ((entry s.mem t i).addr / pageSize) = .table (n + 1)) ∨
    ((entry s.mem t i).isPresent = false ∧
      s.nextOrCreate t i = .ok (s, .error .allocationFailed)) ∨
    ∃ s' f, (entry s.mem t i).isPresent = false ∧ f ∈ U ∧ f < maxFrames ∧
      s.nextOrCreate t i = .ok (s', .ok (fromFrame f)) ∧
      Advance roots s U kind s' (U.erase f) (update kind f (.table (n + 1))) ∧
      entry s'.mem t i = link f ∧
      (∀ j < 512, (entry s'.mem (fromFrame f) j).isPresent = false) ∧
      ∀ u j, pageSize ∣ u → u / pageSize ∉ U → j < 512 → (u = t → j ≠ i) →
        entry s'.mem u j = entry s.mem u j := by
  obtain ⟨L, hready⟩ := h.ready
  obtain ⟨hpresent, hnext⟩ | ⟨habsent, hfull | ⟨s1, f, L', hf, hready1, hmem, hnext⟩⟩ :=
    hready.nextOrCreate_cases t i
  · refine .inl ⟨hpresent, hnext, ?_⟩
    have hbelow := h.below (t / pageSize) n i hkind hi
    rw [fromFrame, Nat.div_mul_cancel ht] at hbelow
    exact hbelow hpresent
  · exact .inr (.inl ⟨habsent, hfull⟩)
  · have htU : t / pageSize ∉ U := h.table_used (by simp [hkind])
    have hi' : i < 512 := hi.trans_le width_le
    have hrange : f < maxFrames := (hready.lists.range f hf).2
    -- first the frame becomes a table, then the table is linked
    have hfresh := h.cleared (.table (n + 1)) hf hready1 hmem
    have hlink : Advance roots ⟨s1.alloc, zero s1.mem (fromFrame f)⟩ (U.erase f)
        (update kind f (.table (n + 1)))
        ⟨s1.alloc, PageTable.setEntry (zero s1.mem (fromFrame f)) t i (link f)⟩ (U.erase f)
        (update kind f (.table (n + 1))) := by
      refine hfresh.layout.setEntry ht (n := n + 2) ?_ hi fun k hk _ => ?_
      · rw [hfresh.kept _ htU, hkind]
      · obtain rfl : n = k := add_right_cancel hk
        rw [addr_link hrange, fromFrame_div, update_self]
    exact .inr (.inr ⟨_, f, habsent, hf, hrange, hnext, hfresh.trans hlink, entry_setEntry_self,
      (hready1.create hf ht htU hi').2.2,
      fun u j hu huU hj hne => entry_create hmem hf ht hu huU hi' hj hne⟩)

lemma Layout.nextOrCreate (h : Layout s U kind roots) (ht : pageSize ∣ t)
    (hkind : kind (t / pageSize) = .table (n + 2)) (hi : i < width (n + 2)) :
    ∃ s' out U' kind', s.nextOrCreate t i = .ok (s', out) ∧ Advance roots s U kind s' U' kind' ∧
      ∀ u, out = .ok u → pageSize ∣ u ∧ kind' (u / pageSize) = .table (n + 1) := by
  obtain ⟨-, hnext, hbelow⟩ | ⟨-, hfull⟩ | ⟨s', f, -, hf, -, hnext, hadvance, -⟩ :=
    h.nextOrCreate_cases ht hkind hi
  · refine ⟨s, _, U, kind, hnext, .refl h, fun u hu => ?_⟩
    cases hu
    exact ⟨dvd_addr, hbelow⟩
  · exact ⟨s, _, U, kind, hfull, .refl h, fun u hu => by cases hu⟩
  refine ⟨s', _, _, _, hnext, hadvance, fun u hu => ?_⟩
  cases hu
  refine ⟨dvd_fromFrame, ?_⟩
  rw [fromFrame, Nat.mul_div_cancel f (by decide), update_self]

def Lower : List ℕ → Prop
  | [] => True
  | i :: path => i < width (path.length + 2) ∧ Lower path

lemma lower_tablePath {virt : UInt64} (h : pml4Index virt < 256) : Lower (tablePath virt) :=
  ⟨h, and_0x1FF_lt _, and_0x1FF_lt _, trivial⟩

lemma Layout.walkOrCreate : ∀ (path : List ℕ) {s : FrameState} {U : Finset ℕ}
    {kind : ℕ → FrameKind} {t : ℕ}, Layout s U kind roots → pageSize ∣ t →
    kind (t / pageSize) = .table (path.length + 1) → Lower path →
    ∃ s' out U' kind', s.walkOrCreate t path = .ok (s', out) ∧
      Advance roots s U kind s' U' kind' ∧
      ∀ u, out = .ok u → pageSize ∣ u ∧ kind' (u / pageSize) = .table 1 := by
  intro path
  induction path with
  | nil =>
    intro s U kind t h ht hkind _
    refine ⟨s, _, U, kind, rfl, .refl h, fun u hu => ?_⟩
    cases hu
    exact ⟨ht, hkind⟩
  | cons i path ih =>
    intro s U kind t h ht hkind hlower
    obtain ⟨s1, out1, U1, kind1, hnext, hadvance1, htable⟩ := h.nextOrCreate ht hkind hlower.1
    cases out1 with
    | error e =>
      refine ⟨s1, .error e, U1, kind1, ?_, hadvance1, fun u hu => by cases hu⟩
      simp only [FrameState.walkOrCreate, hnext, ok_bind]
    | ok u1 =>
      obtain ⟨hu1, hkind1⟩ := htable u1 rfl
      obtain ⟨s2, out2, U2, kind2, hwalk, hadvance2, htable2⟩ :=
        ih hadvance1.layout hu1 hkind1 hlower.2
      refine ⟨s2, out2, U2, kind2, ?_, hadvance1.trans hadvance2, htable2⟩
      simp only [FrameState.walkOrCreate, hnext, ok_bind, hwalk]

lemma Layout.walk (h : Layout s U kind roots) : ∀ (path : List ℕ) {t u : ℕ}, pageSize ∣ t →
    kind (t / pageSize) = .table (path.length + 1) → Lower path →
    walk s.mem t path = some u → pageSize ∣ u ∧ kind (u / pageSize) = .table 1 := by
  intro path
  induction path with
  | nil =>
    intro t u ht hkind _ hwalk
    cases hwalk
    exact ⟨ht, hkind⟩
  | cons i path ih =>
    intro t u ht hkind hlower hwalk
    simp only [Fabric.walk] at hwalk
    split_ifs at hwalk with hpresent
    refine ih dvd_addr ?_ hlower.2 hwalk
    have hbelow := h.below (t / pageSize) path.length i hkind hlower.1
    rw [fromFrame, Nat.div_mul_cancel ht] at hbelow
    exact hbelow hpresent

/-! ### The calls -/

lemma Layout.addRoot (h : Layout s U kind roots) {r p : ℕ} (hr : r ∈ roots)
    (hp : pageSize ∣ p) (hkind : kind (p / pageSize) = .table 4)
    (hupper : ∀ i, 256 ≤ i → i < 512 → entry s.mem r i = entry s.mem p i) :
    Layout s U kind (roots ++ [p]) := by
  refine ⟨h.ready, h.unused, h.below, fun r' hr' => ?_, fun r' hr' n t ht => ?_⟩
  · obtain hr' | hr' := mem_append.mp hr'
    · exact h.root r' hr'
    · rw [mem_singleton.mp hr']
      exact ⟨hp, h.table_used (by simp [hkind]), .inl hkind⟩
  · obtain hr' | hr' := mem_append.mp hr'
    · exact h.kernel r' hr' n t ht
    · rw [mem_singleton.mp hr'] at ht
      exact h.kernel r hr n t (ht.of_upper_eq hupper)

lemma Layout.create_cases (h : Layout s U kind roots) (cr3 : UInt64) :
    AddressSpace.create s cr3 = .ok (s, .error .allocationFailed) ∨
    ∃ s' f, f ∈ U ∧ AddressSpace.create s cr3 = .ok (s', .ok ⟨fromFrame f, 0, true⟩) ∧
      Advance roots s U kind s' (U.erase f) (update kind f (.table 4)) ∧
      (∀ i < 256, (entry s'.mem (fromFrame f) i).isPresent = false) ∧
      (AddressSpace.readCr3 cr3 / pageSize ≠ f → ∀ i, 256 ≤ i → i < 512 →
        entry s'.mem (AddressSpace.readCr3 cr3) i = entry s'.mem (fromFrame f) i) := by
  obtain ⟨L, hready⟩ := h.ready
  have hdvd : pageSize ∣ readCr3 cr3 := (PageTableEntry.mk cr3).dvd_addr
  unfold create
  generalize readCr3 cr3 = r at *
  obtain ⟨s1, f, L', halloc, hf, hready1, hmem⟩ | hnone := hready.takeFrame
  · have hzero : ∀ x, x / pageSize ≠ f → zero s1.mem (fromFrame f) x = s1.mem x := fun x hx =>
      zero_apply_of_ne dvd_fromFrame (by rwa [fromFrame_div])
    simp only [halloc, ok_bind]
    generalize hclone : (zero s1.mem (fromFrame f)).copy (fromFrame f + 8 * 256) (r + 8 * 256)
      (8 * 256) = mem
    -- the copy goes to the second half of the page
    have hcopy : ∀ x, (x / pageSize = f → x % pageSize / 8 < 256) →
        mem x = zero s1.mem (fromFrame f) x := by
      intro x hx
      rw [← hclone]
      refine blit_apply_of_not_mem ?_
      rw [fromFrame]
      rw [pageSize] at hx ⊢
      omega
    have hother : ∀ x, x / pageSize ≠ f → mem x = s1.mem x := fun x hx =>
      (hcopy x fun heq => absurd heq hx).trans (hzero x hx)
    have hlower : ∀ i < 256, (entry mem (fromFrame f) i).isPresent = false := by
      intro i hi
      have hcleared : entry mem (fromFrame f) i =
          entry (zero s1.mem (fromFrame f)) (fromFrame f) i :=
        entry_congr dvd_fromFrame (by omega) fun x _ hindex => hcopy x fun _ => hindex ▸ hi
      rw [hcleared, entry_zero (by omega)]
      exact not_isPresent_empty
    have hfresh : Advance roots s U kind ⟨s1.alloc, mem⟩ (U.erase f)
        (update kind f (.table 4)) := by
      refine h.fresh hf ⟨L', hready1.setMem fun x hx => ?_⟩ (fun x hx => ?_) fun n i hn hi => ?_
      · exact hother x (Finset.mem_erase.mp hx).1
      · rw [← hmem x hx]
        refine hother x ?_
        rintro rfl
        exact hx hf
      · cases hn
        exact hlower i hi
    refine .inr ⟨_, f, hf, rfl, hfresh, hlower, fun hr i hle hlt => ?_⟩
    obtain ⟨j, rfl⟩ := Nat.exists_eq_add_of_le hle
    have hcloned : entry mem (fromFrame f) (256 + j) =
        entry (zero s1.mem (fromFrame f)) r (256 + j) := by
      unfold entry
      rw [← hclone, mul_add, ← add_assoc, read_copy (by omega), ← add_assoc]
    rw [hcloned]
    refine entry_congr hdvd hlt fun x hpage _ => hcopy x fun heq => ?_
    rw [hpage] at heq
    exact absurd heq hr
  · simp only [hnone, ok_bind]
    exact .inl trivial

lemma Layout.create (h : Layout s U kind roots) {cr3 : UInt64}
    (hcr3 : AddressSpace.readCr3 cr3 ∈ roots) :
    ∃ s' out U' kind', AddressSpace.create s cr3 = .ok (s', out) ∧
      Advance roots s U kind s' U' kind' ∧ ∀ space, out = .ok space →
        Layout s' U' kind' (roots ++ [space.pml4Phys]) ∧
        kind' (space.pml4Phys / pageSize) = .table 4 := by
  obtain hnone | ⟨s', f, hf, hcreate, hadvance, -, hupper⟩ := h.create_cases cr3
  · exact ⟨s, _, U, kind, hnone, .refl h, fun space hspace => by cases hspace⟩
  refine ⟨s', _, _, _, hcreate, hadvance, fun space hspace => ?_⟩
  cases hspace
  have hkind : update kind f (.table 4) (fromFrame f / pageSize) = .table 4 := by
    rw [fromFrame_div, update_self]
  have hne : readCr3 cr3 / pageSize ≠ f := by
    rintro rfl
    exact (h.root _ hcr3).2.1 hf
  exact ⟨hadvance.layout.addRoot hcr3 dvd_fromFrame hkind (hupper hne), hkind⟩

section

variable {space : AddressSpace} {virt : UInt64}

lemma Layout.mapUserPage (phys : UInt64) (flags : PageTableFlags) (h : Layout s U kind roots)
    (hroot : pageSize ∣ space.pml4Phys) (hkind : kind (space.pml4Phys / pageSize) = .table 4)
    (hlow : pml4Index virt < 256) :
    ∃ s' space' out U' kind', space.mapUserPage s virt phys flags = .ok (s', space', out) ∧
      space'.pml4Phys = space.pml4Phys ∧ Advance roots s U kind s' U' kind' := by
  unfold AddressSpace.mapUserPage
  split_ifs with hguard
  · exact ⟨s, space, _, U, kind, rfl, rfl, .refl h⟩
  obtain ⟨s1, out1, U1, kind1, hwalk, hadvance1, htable⟩ :=
    h.walkOrCreate (tablePath virt) hroot hkind (lower_tablePath hlow)
  simp only [walkOrCreateAndMap, hwalk, ok_bind]
  cases out1 with
  | error e => exact ⟨s1, space, .error e, U1, kind1, rfl, rfl, hadvance1⟩
  | ok pt =>
    obtain ⟨hpt, hkind1⟩ := htable pt rfl
    simp only []
    split_ifs with hpresent
    · exact ⟨s1, space, _, U1, kind1, rfl, rfl, hadvance1⟩
    · refine ⟨_, _, _, U1, kind1, rfl, rfl, hadvance1.trans ?_⟩
      refine hadvance1.layout.setEntry hpt hkind1 ptIndex_lt fun k hk => ?_
      omega

lemma Layout.unmapUserPage (h : Layout s U kind roots) (hroot : pageSize ∣ space.pml4Phys)
    (hkind : kind (space.pml4Phys / pageSize) = .table 4) (hlow : pml4Index virt < 256) :
    ∃ s' space' out, space.unmapUserPage s virt = (s', space', out) ∧
      space'.pml4Phys = space.pml4Phys ∧ Advance roots s U kind s' U kind := by
  unfold AddressSpace.unmapUserPage
  split_ifs with hguard
  · exact ⟨s, space, _, rfl, rfl, .refl h⟩
  cases hwalk : Fabric.walk s.mem space.pml4Phys (tablePath virt) with
  | none => exact ⟨s, space, _, rfl, rfl, .refl h⟩
  | some pt =>
    obtain ⟨hpt, hkind1⟩ := h.walk (tablePath virt) hroot hkind (lower_tablePath hlow) hwalk
    simp only []
    split_ifs with hpresent
    · refine ⟨_, _, _, rfl, rfl, h.setEntry hpt hkind1 ptIndex_lt fun k hk => ?_⟩
      omega
    · exact ⟨s, space, _, rfl, rfl, .refl h⟩

end

/-! ### Loading -/

namespace Elf

variable {data : Slice} {phdr : Elf64Phdr} {mem : ByteMemory} {pageVa : UInt64} {f x : ℕ}

lemma toNat_le_max (a b : UInt64) : a.toNat ≤ (max a b).toNat := by
  show a.toNat ≤ (if a ≤ b then b else a).toNat
  split_ifs with h
  · exact le_iff_toNat_le.mp h
  · exact le_rfl

lemma toNat_min_le (a b : UInt64) : (min a b).toNat ≤ a.toNat := by
  show (if a ≤ b then a else b).toNat ≤ a.toNat
  split_ifs with h
  · exact le_rfl
  · exact (not_le.mp fun hle => h (le_iff_toNat_le.mpr hle)).le

lemma copySegment_apply_of_ne (h : x / pageSize ≠ f) :
    copySegment data phdr mem pageVa (fromFrame f) x = mem x := by
  unfold copySegment
  simp only []
  split_ifs with hlt hlen
  · refine blit_apply_of_not_mem ?_
    -- what is copied begins and ends in the page, also if its end wraps around
    have hstart := toNat_le_max pageVa phdr.pVaddr
    have hend := toNat_min_le (pageVa + 4096) (phdr.pVaddr + phdr.pFilesz)
    generalize max pageVa phdr.pVaddr = a at *
    generalize min (pageVa + 4096) (phdr.pVaddr + phdr.pFilesz) = b at *
    have hlast : (pageVa + 4096).toNat ≤ pageVa.toNat + 4096 := by
      exact mod_le _ _
    have hoffset : (a - pageVa).toNat = a.toNat - pageVa.toNat :=
      UInt64.toNat_sub_of_le _ _ (le_iff_toNat_le.mpr hstart)
    have hlength : (b - a).toNat = b.toNat - a.toNat :=
      UInt64.toNat_sub_of_le _ _ (le_iff_toNat_le.mpr hlt.le)
    rw [hoffset, hlength, fromFrame]
    rw [pageSize] at h ⊢
    omega
  · rfl
  · rfl

-- the contents go to the frame of the page, not to a table
lemma copySegment_apply_of_ne_data {frame : ℕ}
    (hframe : pageSize ∣ frame ∧ kind (frame / pageSize) = .data)
    (hx : kind (x / pageSize) ≠ .data) :
    copySegment data phdr mem pageVa frame x = mem x := by
  obtain ⟨⟨f, rfl⟩, hdata⟩ := hframe
  rw [Nat.mul_comm] at hdata ⊢
  refine copySegment_apply_of_ne fun heq => hx ?_
  rwa [heq, ← fromFrame_div (f := f)]

variable {st : Loader}

/-- The loader works on an address space of the layout, and the frames of the pages that it
has mapped hold their contents. -/
structure Loader.Fits (st : Loader) (U : Finset ℕ) (kind : ℕ → FrameKind) (roots : List ℕ) :
    Prop where
  layout : Layout st.frames U kind roots
  root : pageSize ∣ st.space.pml4Phys ∧ kind (st.space.pml4Phys / pageSize) = .table 4
  backed : ∀ page ∈ st.mappedPages, pageSize ∣ page.2 ∧ kind (page.2 / pageSize) = .data

lemma Loader.Fits.advance {st' : Loader} (h : st.Fits U kind roots)
    (hadvance : Advance roots st.frames U kind st'.frames U' kind')
    (hspace : st'.space.pml4Phys = st.space.pml4Phys)
    (hmapped : st'.mappedPages = st.mappedPages) : st'.Fits U' kind' roots := by
  refine ⟨hadvance.layout, ?_, fun page hpage => ?_⟩
  · rw [hspace]
    exact ⟨h.root.1, hadvance.keeps h.layout (by simp) h.root.2⟩
  · rw [hmapped] at hpage
    obtain ⟨hdvd, hdata⟩ := h.backed page hpage
    exact ⟨hdvd, hadvance.keeps h.layout (by simp) hdata⟩

lemma Loader.Fits.pageFrame (perms : PagePerms) (h : st.Fits U kind roots)
    (hlow : pml4Index pageVa < 256) :
    ∃ st' out U' kind', st.pageFrame perms pageVa = .ok (st', out) ∧
      st'.space.pml4Phys = st.space.pml4Phys ∧ st'.Fits U' kind' roots ∧
      Advance roots st.frames U kind st'.frames U' kind' ∧
      ∀ frame, out = .ok frame → pageSize ∣ frame ∧ kind' (frame / pageSize) = .data := by
  unfold Loader.pageFrame
  cases hlookup : st.mappedPages.lookup pageVa with
  | some frame =>
    refine ⟨st, _, U, kind, rfl, rfl, h, .refl h.layout, fun frame' hframe => ?_⟩
    cases hframe
    obtain ⟨before, after, hpages, -⟩ := lookup_eq_some_iff.mp hlookup
    exact h.backed (pageVa, frame) (by rw [hpages]; simp)
  | none =>
    obtain ⟨L, hready⟩ := h.layout.ready
    obtain ⟨s1, f, L', halloc, hf, hready1, hmem⟩ | hnone := hready.takeFrame
    · have hfresh : Advance roots st.frames U kind
          ⟨s1.alloc, s1.mem.fill (fromFrame f) pageSize 0⟩ (U.erase f)
          (update kind f .data) := h.layout.cleared .data hf hready1 hmem
      let st1 : Loader :=
        ⟨⟨s1.alloc, s1.mem.fill (fromFrame f) pageSize 0⟩, st.space, st.mappedPages⟩
      have hfits1 : st1.Fits _ _ roots := h.advance hfresh rfl rfl
      obtain ⟨s2, space, out, U2, kind2, hmap, hspace, hadvance⟩ :=
        hfits1.layout.mapUserPage _ _ hfits1.root.1 hfits1.root.2 hlow
      have hfits2 : Loader.Fits ⟨s2, space, st.mappedPages⟩ U2 kind2 roots :=
        hfits1.advance hadvance hspace rfl
      have hdata : pageSize ∣ fromFrame f ∧ kind2 (fromFrame f / pageSize) = .data := by
        refine ⟨dvd_fromFrame, ?_⟩
        rw [fromFrame_div, hadvance.kept f (Finset.notMem_erase f U), update_self]
      simp only [halloc, ok_bind]
      rw [hmap]
      cases out with
      | error e =>
        exact ⟨⟨s2, space, st.mappedPages⟩, .error .mapFailed, U2, kind2, rfl, hspace, hfits2,
          hfresh.trans hadvance, fun _ hframe => by cases hframe⟩
      | ok =>
        refine ⟨⟨s2, space, (pageVa, fromFrame f) :: st.mappedPages⟩, .ok (fromFrame f), U2, kind2,
          rfl, hspace, ⟨hfits2.layout, hfits2.root, ?_⟩, hfresh.trans hadvance, ?_⟩
        · exact forall_mem_cons.mpr ⟨hdata, hfits2.backed⟩
        · intro frame hframe
          cases hframe
          exact hdata
    · simp only [hnone, ok_bind]
      exact ⟨st, _, U, kind, rfl, rfl, h, .refl h.layout, fun _ hframe => by cases hframe⟩

lemma Loader.Fits.load (data : Slice) (perms : PagePerms) :
    ∀ {pages : List (Elf64Phdr × UInt64)} {st : Loader} {U : Finset ℕ} {kind : ℕ → FrameKind},
    st.Fits U kind roots → (∀ page ∈ pages, pml4Index page.2 < 256) →
    ∃ st' out U' kind', Loader.load data perms pages st = .ok (st', out) ∧
      st'.space.pml4Phys = st.space.pml4Phys ∧ st'.Fits U' kind' roots ∧
      Advance roots st.frames U kind st'.frames U' kind' := by
  intro pages
  induction pages with
  | nil =>
    intro st U kind h _
    exact ⟨st, _, U, kind, rfl, rfl, h, .refl h.layout⟩
  | cons page pages ih =>
    intro st U kind h hlow
    obtain ⟨phdr, pageVa⟩ := page
    obtain ⟨st1, out1, U1, kind1, hpage, hspace1, hfits1, hadvance1, hdata⟩ :=
      h.pageFrame perms (hlow (phdr, pageVa) mem_cons_self)
    simp only [Loader.load, hpage, ok_bind]
    cases out1 with
    | error e => exact ⟨st1, .error e, U1, kind1, rfl, hspace1, hfits1, hadvance1⟩
    | ok frame =>
      have hcopy : Advance roots st1.frames U1 kind1
          ⟨st1.frames.alloc, copySegment data phdr st1.frames.mem pageVa frame⟩ U1 kind1 :=
        hfits1.layout.writeData fun x => copySegment_apply_of_ne_data (hdata frame rfl)
      have hfits2 : Loader.Fits ⟨⟨st1.frames.alloc, copySegment data phdr st1.frames.mem pageVa
          frame⟩, st1.space, st1.mappedPages⟩ U1 kind1 roots := hfits1.advance hcopy rfl rfl
      obtain ⟨st3, out3, U3, kind3, hload, hspace3, hfits3, hadvance3⟩ :=
        ih hfits2 fun page hpage => hlow page (mem_cons_of_mem _ hpage)
      exact ⟨st3, out3, U3, kind3, hload, hspace3.trans hspace1, hfits3,
        (hadvance1.trans hcopy).trans hadvance3⟩

def loadAddresses (data : Slice) : List UInt64 :=
  match segments data with
  | .error _ => []
  | .ok (_, phdrs) => (loadSequence phdrs).map (·.2)

lemma loadElf_fits {space : AddressSpace} (h : Loader.Fits ⟨s, space, []⟩ U kind roots)
    (hlow : ∀ va ∈ loadAddresses data, pml4Index va < 256) :
    ∃ st' out U' kind', loadElf data s space = .ok (st', out) ∧
      st'.space.pml4Phys = space.pml4Phys ∧ st'.Fits U' kind' roots ∧
      Advance roots s U kind st'.frames U' kind' := by
  unfold loadElf
  unfold loadAddresses at hlow
  cases hsegments : segments data with
  | error e => exact ⟨_, _, U, kind, rfl, rfl, h, .refl h.layout⟩
  | ok result =>
    obtain ⟨entry, phdrs⟩ := result
    rw [hsegments] at hlow
    obtain ⟨st', out, U', kind', hload, hspace, hfits, hadvance⟩ :=
      h.load data (pagePerms phdrs) fun page hpage =>
        hlow page.2 (mem_map_of_mem hpage)
    simp only [hload, ok_bind]
    exact ⟨st', _, U', kind', rfl, hspace, hfits, hadvance⟩

end Elf

end Fabric
