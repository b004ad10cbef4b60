/-
The permissions of loaded pages.

`load_elf` collects for every page whether one of its segments is to be written to or executed,
and hands this to `map_user_page`, which adds the bit for writing in any case.  So the pages
of an image are executable as asked for, and all writable.

The pages of a segment are computed with 64-bit numbers, and user pages end at `2 ^ 47`.  A
segment that goes beyond gets other pages than its own, or none.
-/
import FabricOS.PageAccess
import FabricOS.PagingSystem

open Function List

namespace Fabric

open Buddy FreeBlockPtr PageTable FrameState RadixTree PageTableEntry Exec PageTableFlags

/-! ### Addresses of pages -/

def PageAddr (va : UInt64) : Prop := va.toNat % pageSize = 0 ∧ va.toNat < 2 ^ 47

lemma PageAddr.pml4Index_lt {va : UInt64} (h : PageAddr va) : pml4Index va < 256 :=
  Fabric.pml4Index_lt h.2

lemma PageAddr.pagePath_inj {a b : UInt64} (ha : PageAddr a) (hb : PageAddr b) :
    pagePath a = pagePath b ↔ a = b := by
  obtain ⟨ha1, ha2⟩ := ha
  obtain ⟨hb1, hb2⟩ := hb
  rw [Fabric.pagePath_inj ha2 hb2, ← UInt64.toNat_inj]
  rw [pageSize] at *
  omega

lemma and_not_0xFFF (x : UInt64) : (x &&& ~~~0xFFF).toNat = x.toNat / pageSize * pageSize := by
  have hmask : ∀ i < 64, (~~~(0xFFF : UInt64)).toNat.testBit i = decide (12 ≤ i) := by decide
  rw [UInt64.toNat_and, pageSize, show 4096 = 2 ^ 12 from rfl]
  refine Nat.eq_of_testBit_eq fun i => ?_
  rw [Nat.testBit_and, Nat.testBit_mul_two_pow, Nat.testBit_div_two_pow]
  by_cases hi : i < 64
  · rw [hmask i hi]
    by_cases hlow : 12 ≤ i
    · simp [hlow]
    · simp [hlow]
  · have hx : x.toNat.testBit i = false :=
      Nat.testBit_lt_two_pow (lt_of_lt_of_le x.toNat_lt (Nat.pow_le_pow_right two_pos (by omega)))
    rw [Nat.sub_add_cancel (by omega), hx]
    simp

namespace Elf

/-! ### The pages of segments -/

def Elf64Phdr.Overlaps (phdr : Elf64Phdr) (n : ℕ) : Prop :=
  phdr.pType = ptLoad ∧ ∃ a, a / pageSize = n ∧ phdr.pVaddr.toNat ≤ a ∧
    a < phdr.pVaddr.toNat + phdr.pMemsz.toNat

/-- The memory of the segment, if it has any, is in the lower half. -/
def Elf64Phdr.InLowerHalf (phdr : Elf64Phdr) : Prop :=
  phdr.pType = ptLoad → phdr.pMemsz ≠ 0 → phdr.pVaddr.toNat + phdr.pMemsz.toNat ≤ 2 ^ 47

variable {phdr : Elf64Phdr} {phdrs : List Elf64Phdr} {va : UInt64} {n : ℕ}

lemma ne_zero_iff_toNat_pos {x : UInt64} : x ≠ 0 ↔ 0 < x.toNat := by
  rw [ne_eq, ← UInt64.toNat_inj, Nat.pos_iff_ne_zero]
  rfl

lemma Elf64Phdr.overlaps_iff : phdr.Overlaps n ↔ phdr.pType = ptLoad ∧ phdr.pMemsz ≠ 0 ∧
    phdr.pVaddr.toNat / pageSize ≤ n ∧
    n * pageSize < phdr.pVaddr.toNat + phdr.pMemsz.toNat := by
  rw [Overlaps, ne_zero_iff_toNat_pos]
  refine and_congr_right fun _ => ⟨?_, fun ⟨hpos, hle, hlt⟩ => ?_⟩
  · rintro ⟨a, rfl, hle, hlt⟩
    rw [pageSize]
    omega
  refine ⟨max (n * pageSize) phdr.pVaddr.toNat, ?_, le_max_right _ _, ?_⟩
  · rw [pageSize] at hle hlt ⊢
    omega
  · omega

lemma Elf64Phdr.mem_pages (h : phdr.InLowerHalf) :
    va ∈ phdr.pages ↔ PageAddr va ∧ phdr.Overlaps (va.toNat / pageSize) := by
  rw [pages, overlaps_iff]
  split_ifs with hskip
  · simp only [not_mem_nil, false_iff]
    rintro ⟨-, htype, hmemsz, -⟩
    exact hskip.elim (fun hne => hne htype) hmemsz
  obtain ⟨htype, hmemsz⟩ := not_or.mp hskip
  rw [not_not] at htype
  have hend := h htype hmemsz
  have hstart : phdr.vaddrStart.toNat = phdr.pVaddr.toNat / pageSize * pageSize :=
    and_not_0xFFF _
  have hlast : phdr.vaddrEnd.toNat =
      (phdr.pVaddr.toNat + phdr.pMemsz.toNat + 4095) / pageSize * pageSize := by
    have hsum : ((phdr.pVaddr.toNat + phdr.pMemsz.toNat) % 2 ^ 64 + 4095) % 2 ^ 64 =
        phdr.pVaddr.toNat + phdr.pMemsz.toNat + 4095 := by omega
    rw [vaddrEnd, and_not_0xFFF, UInt64.toNat_add, UInt64.toNat_add,
      show (0xFFF : UInt64).toNat = 4095 from rfl, hsum]
  have haddr : ∀ i, i < (phdr.vaddrEnd.toNat - phdr.vaddrStart.toNat) / pageSize →
      (phdr.vaddrStart + .ofNat (i * pageSize)).toNat = phdr.vaddrStart.toNat + i * pageSize := by
    intro i hi
    rw [hstart, hlast, pageSize] at hi
    rw [UInt64.toNat_add, UInt64.toNat_ofNat', hstart, pageSize]
    omega
  rw [mem_map]
  constructor
  · rintro ⟨i, hi, rfl⟩
    rw [mem_range] at hi
    have hva := haddr i hi
    rw [PageAddr, hva]
    rw [hstart, hlast, pageSize] at hi
    rw [hstart, pageSize]
    refine ⟨⟨?_, ?_⟩, htype, hmemsz, ?_, ?_⟩ <;> omega
  · rintro ⟨⟨haligned, -⟩, -, -, hle, hlt⟩
    rw [pageSize] at haligned hle hlt
    have hi : va.toNat / 4096 - phdr.pVaddr.toNat / 4096 <
        (phdr.vaddrEnd.toNat - phdr.vaddrStart.toNat) / pageSize := by
      rw [hstart, hlast, pageSize]
      omega
    refine ⟨_, mem_range.mpr hi, ?_⟩
    rw [← UInt64.toNat_inj, haddr _ hi, hstart, pageSize]
    omega

lemma Elf64Phdr.Overlaps.lt (h : phdr.Overlaps n) (hlower : phdr.InLowerHalf) : n < 2 ^ 35 := by
  obtain ⟨htype, hmemsz, -, hlt⟩ := overlaps_iff.mp h
  have hend := hlower htype hmemsz
  rw [pageSize] at hlt
  omega

lemma mem_loadSequence {page : Elf64Phdr × UInt64} :
    page ∈ loadSequence phdrs ↔ page.1 ∈ phdrs ∧ page.2 ∈ page.1.pages := by
  obtain ⟨phdr, va⟩ := page
  simp only [loadSequence, mem_flatMap, mem_map, Prod.mk.injEq]
  constructor
  · rintro ⟨_, hphdr, _, hva, rfl, rfl⟩
    exact ⟨hphdr, hva⟩
  · rintro ⟨hphdr, hva⟩
    exact ⟨phdr, hphdr, va, hva, rfl, rfl⟩

lemma foldl_perms (va : UInt64) (pages : List (Elf64Phdr × UInt64)) : ∀ perms : PagePerms,
    let perms' : PagePerms := pages.foldl (fun perms page => update perms page.2
      ((perms page.2).1 || page.1.pFlags &&& pfW != 0,
        (perms page.2).2 || page.1.pFlags &&& pfX != 0)) perms
    ((perms' va).1 = true ↔ (perms va).1 = true ∨
      ∃ page ∈ pages, page.2 = va ∧ page.1.pFlags &&& pfW ≠ 0) ∧
    ((perms' va).2 = true ↔ (perms va).2 = true ∨
      ∃ page ∈ pages, page.2 = va ∧ page.1.pFlags &&& pfX ≠ 0) := by
  induction pages with
  | nil => simp
  | cons page pages ih =>
    intro perms
    obtain ⟨hw, hx⟩ := ih (update perms page.2
      ((perms page.2).1 || page.1.pFlags &&& pfW != 0,
        (perms page.2).2 || page.1.pFlags &&& pfX != 0))
    refine ⟨hw.trans ?_, hx.trans ?_⟩
    all_goals
      by_cases hva : page.2 = va
      · subst hva
        simp [or_assoc]
      · simp [update_of_ne (Ne.symm hva), hva]

lemma pagePerms_eq (phdrs : List Elf64Phdr) (va : UInt64) : ((pagePerms phdrs va).1 = true ↔
      ∃ phdr ∈ phdrs, va ∈ phdr.pages ∧ phdr.pFlags &&& pfW ≠ 0) ∧
    ((pagePerms phdrs va).2 = true ↔
      ∃ phdr ∈ phdrs, va ∈ phdr.pages ∧ phdr.pFlags &&& pfX ≠ 0) := by
  obtain ⟨hw, hx⟩ := foldl_perms va (loadSequence phdrs) fun _ => (false, false)
  have hmem : ∀ p : Elf64Phdr → Prop,
      (∃ page ∈ loadSequence phdrs, page.2 = va ∧ p page.1) ↔
        ∃ phdr ∈ phdrs, va ∈ phdr.pages ∧ p phdr := by
    intro p
    constructor
    · rintro ⟨⟨phdr, _⟩, hpage, rfl, hp⟩
      obtain ⟨hphdr, hva⟩ := mem_loadSequence.mp hpage
      exact ⟨phdr, hphdr, hva, hp⟩
    · rintro ⟨phdr, hphdr, hva, hp⟩
      exact ⟨(phdr, va), mem_loadSequence.mpr ⟨hphdr, hva⟩, rfl, hp⟩
  refine ⟨hw.trans ?_, hx.trans ?_⟩
  · rw [hmem fun phdr => phdr.pFlags &&& pfW ≠ 0]
    simp
  · rw [hmem fun phdr => phdr.pFlags &&& pfX ≠ 0]
    simp

/-! ### The second pass -/

def pageFlags (perms : Bool × Bool) : PageTableFlags :=
  PageTableFlags.empty ||| (if perms.1 then PageTableFlags.writable else 0) |||
    (if ¬ perms.2 then PageTableFlags.noExecute else 0)

variable {st st' : Loader} {perms : PagePerms} {U U' : Finset ℕ} {kind kind' : ℕ → FrameKind}
  {roots : List ℕ} {pageVa : UInt64}

/-- The address space maps the pages that the loader has entered, and no others, with the
permissions of the first pass. -/
structure Loader.Maps (st : Loader) (perms : PagePerms) (U : Finset ℕ) (kind : ℕ → FrameKind)
    (roots : List ℕ) : Prop where
  tree : PageTree st.frames U kind roots st.space.pml4Phys
  backed : ∀ page ∈ st.mappedPages, pageSize ∣ page.2 ∧ kind (page.2 / pageSize) = .data
  pages : ∀ va, PageAddr va → pageAt st.frames.mem st.space.pml4Phys (pagePath va) =
    (st.mappedPages.lookup va).map fun frame =>
      .set (.ofNat frame) (userFlags (pageFlags (perms va)))

lemma Loader.Maps.pageFrame (h : st.Maps perms U kind roots) (hva : PageAddr pageVa) {frame : ℕ}
    (hpage : st.pageFrame perms pageVa = .ok (st', .ok frame)) :
    ∃ U' kind', st'.Maps perms U' kind' roots ∧ st'.space.pml4Phys = st.space.pml4Phys ∧
      (pageSize ∣ frame ∧ kind' (frame / pageSize) = .data) ∧
      ∀ va, (st'.mappedPages.lookup va).isSome ↔
        va = pageVa ∨ (st.mappedPages.lookup va).isSome := by
  unfold Loader.pageFrame at hpage
  cases hlookup : st.mappedPages.lookup pageVa with
  | some existing =>
    rw [hlookup] at hpage
    cases hpage
    obtain ⟨before, after, hpages, -⟩ := lookup_eq_some_iff.mp hlookup
    refine ⟨U, kind, h, rfl, h.backed (pageVa, frame) (by rw [hpages]; simp), fun va => ?_⟩
    refine ⟨.inr, ?_⟩
    rintro (rfl | hsome)
    · rw [hlookup]
      rfl
    · exact hsome
  | none =>
    rw [hlookup] at hpage
    obtain ⟨L, hready⟩ := h.tree.layout.ready
    obtain ⟨s1, f, L', halloc, hf, hready1, hmem⟩ | hnone := hready.takeFrame
    · simp only [halloc, ok_bind] at hpage
      have hfresh := h.tree.layout.cleared .data hf hready1 hmem
      -- taking the frame maps nothing
      obtain ⟨htree1, hpages1, -⟩ := h.tree.congr_data hfresh fun x n hx _ => by
        refine (zero_apply_of_ne dvd_fromFrame ?_).trans (hmem x hx)
        rw [fromFrame_div]
        rintro rfl
        exact hx hf
      obtain ⟨⟨s2, space, out⟩, hmap, hresult⟩ := bind_eq_ok.mp hpage
      cases out with
      | error e => cases hresult
      | ok =>
        cases hresult
        obtain ⟨U2, kind2, htree2, hadvance, hspace, hpages2⟩ :=
          htree1.mapUserPage hva.pml4Index_lt hmap
        have hdata : pageSize ∣ fromFrame f ∧ kind2 (fromFrame f / pageSize) = .data := by
          refine ⟨dvd_fromFrame, ?_⟩
          rw [fromFrame_div, hadvance.kept f (Finset.notMem_erase f U), update_self]
        refine ⟨U2, kind2, ⟨?_, ?_, fun va hva' => ?_⟩, hspace, hdata, fun va => ?_⟩
        · rw [hspace]
          exact htree2
        · refine forall_mem_cons.mpr ⟨hdata, fun page hpage => ?_⟩
          obtain ⟨hdvd, hkind⟩ := h.backed page hpage
          refine ⟨hdvd, ?_⟩
          rw [(hfresh.trans hadvance).kept _ (h.tree.layout.table_used (by simp [hkind])), hkind]
        · rw [hspace, hpages2, List.lookup_cons]
          by_cases hsame : va = pageVa
          · subst hsame
            rw [update_self, beq_self_eq_true]
            rfl
          · rw [update_of_ne (fun heq => hsame ((hva'.pagePath_inj hva).mp heq)), hpages1,
              h.pages va hva', beq_eq_false_iff_ne.mpr hsame]
        · by_cases hsame : va = pageVa
          · simp [hsame]
          · simp [hsame]
    · simp only [hnone, ok_bind] at hpage
      cases hpage

lemma Loader.Maps.load (data : Slice) : ∀ {pages : List (Elf64Phdr × UInt64)} {st : Loader}
    {U : Finset ℕ} {kind : ℕ → FrameKind}, st.Maps perms U kind roots →
    (∀ page ∈ pages, PageAddr page.2) → Loader.load data perms pages st = .ok (st', .ok ()) →
    ∃ U' kind', st'.Maps perms U' kind' roots ∧ st'.space.pml4Phys = st.space.pml4Phys ∧
      ∀ va, (st'.mappedPages.lookup va).isSome ↔
        (∃ page ∈ pages, page.2 = va) ∨ (st.mappedPages.lookup va).isSome := by
  intro pages
  induction pages with
  | nil =>
    intro st U kind h _ hload
    cases hload
    exact ⟨U, kind, h, rfl, by simp⟩
  | cons page pages ih =>
    intro st U kind h haddr hload
    obtain ⟨phdr, pageVa⟩ := page
    obtain ⟨⟨st1, out1⟩, hpage, hrest⟩ := bind_eq_ok.mp hload
    cases out1 with
    | error e => cases hrest
    | ok frame =>
      obtain ⟨U1, kind1, h1, hspace1, hdata, hmapped1⟩ :=
        h.pageFrame (haddr (phdr, pageVa) mem_cons_self) hpage
      have hcopy : ∀ x, kind1 (x / pageSize) ≠ .data →
          copySegment data phdr st1.frames.mem pageVa frame x = st1.frames.mem x :=
        fun x => copySegment_apply_of_ne_data hdata
      simp only at hrest
      generalize copySegment data phdr st1.frames.mem pageVa frame = mem at hcopy hrest
      obtain ⟨htree2, hpages2, -⟩ := h1.tree.congr_data (h1.tree.layout.writeData hcopy)
        fun x n _ hx => hcopy x (by simp [hx])
      have h2 : Loader.Maps ⟨⟨st1.frames.alloc, mem⟩, st1.space, st1.mappedPages⟩ perms U1 kind1
          roots := ⟨htree2, h1.backed, fun va hva => (hpages2 _).trans (h1.pages va hva)⟩
      obtain ⟨U3, kind3, h3, hspace3, hmapped3⟩ :=
        ih h2 (fun page hpage => haddr page (mem_cons_of_mem _ hpage)) hrest
      refine ⟨U3, kind3, h3, hspace3.trans hspace1, fun va => ?_⟩
      rw [hmapped3, hmapped1]
      simp only [mem_cons, exists_eq_or_imp, @eq_comm _ pageVa, or_assoc, or_left_comm]

/-! ### Loading into a new address space -/

def imageSegments (data : Slice) : List Elf64Phdr :=
  match segments data with
  | .error _ => []
  | .ok (_, phdrs) => phdrs

/-- The user pages are the pages that the segments overlap, each of them writable if and only if
one of its segments is, and likewise executable. -/
structure PermissionsMatch (mem : ByteMemory) (pml4 : ℕ) (phdrs : List Elf64Phdr) : Prop where
  mapped : ∀ n, UserMapped mem pml4 n ↔ ∃ phdr ∈ phdrs, phdr.Overlaps n
  writable : ∀ n access, pageAccess mem pml4 n = some access → access.user = true →
    (access.writable = true ↔ ∃ phdr ∈ phdrs, phdr.Overlaps n ∧ phdr.pFlags &&& pfW ≠ 0)
  executable : ∀ n access, pageAccess mem pml4 n = some access → access.user = true →
    (access.executable = true ↔ ∃ phdr ∈ phdrs, phdr.Overlaps n ∧ phdr.pFlags &&& pfX ≠ 0)

lemma access_userFlags (phys : UInt64) (w x : Bool) :
    PageAccess.ofEntries [.set phys (userFlags (pageFlags (w, x)))] = ⟨true, true, x⟩ := by
  have hbits : ∀ w x, (userFlags (pageFlags (w, x))).toNat.testBit 2 = true ∧
      (userFlags (pageFlags (w, x))).toNat.testBit 1 = true ∧
      (userFlags (pageFlags (w, x))).toNat.testBit 63 = ! x := by decide
  obtain ⟨huser, hwritable, hexecutable⟩ := hbits w x
  generalize userFlags (pageFlags (w, x)) = flags at *
  have huser' : (set phys flags).has user = true :=
    (has_set (k := 2) rfl (by decide)).trans huser
  have hwritable' : (set phys flags).has writable = true :=
    (has_set (k := 1) rfl (by decide)).trans hwritable
  have hexecutable' : (set phys flags).has noExecute = ! x :=
    (has_set (k := 63) rfl (by decide)).trans hexecutable
  simp [PageAccess.ofEntries, huser', hwritable', hexecutable']

/-- **When all pages of an image in the lower half have been entered**, they are mapped,
writable, and executable as asked for; no other page is mapped. -/
theorem Loader.Maps.pageAccess (h : st.Maps (pagePerms phdrs) U kind roots)
    (hmapped : ∀ va, (st.mappedPages.lookup va).isSome ↔ ∃ page ∈ loadSequence phdrs, page.2 = va)
    (hlower : ∀ phdr ∈ phdrs, phdr.InLowerHalf) (n : ℕ) :
    ((∃ phdr ∈ phdrs, phdr.Overlaps n) → ∃ x : Bool,
      Fabric.pageAccess st.frames.mem st.space.pml4Phys n = some ⟨true, true, x⟩ ∧
      (x = true ↔ ∃ phdr ∈ phdrs, phdr.Overlaps n ∧ phdr.pFlags &&& pfX ≠ 0)) ∧
    ((¬ ∃ phdr ∈ phdrs, phdr.Overlaps n) →
      Fabric.pageAccess st.frames.mem st.space.pml4Phys n = none) := by
  by_cases hn : n < 2 ^ 35
  · have htoNat : (UInt64.ofNat (n * pageSize)).toNat = n * pageSize := by
      rw [UInt64.toNat_ofNat', pageSize]
      omega
    have hva : PageAddr (.ofNat (n * pageSize)) := by
      rw [PageAddr, htoNat, pageSize]
      omega
    have haccess := h.tree.pageAccess hn hva.pml4Index_lt
    rw [h.pages _ hva] at haccess
    generalize UInt64.ofNat (n * pageSize) = va at *
    have hpages : ∀ phdr ∈ phdrs, va ∈ phdr.pages ↔ phdr.Overlaps n := by
      intro phdr hphdr
      rw [Elf64Phdr.mem_pages (hlower phdr hphdr), htoNat, Nat.mul_div_cancel n (by decide)]
      exact and_iff_right hva
    have hsome : (st.mappedPages.lookup va).isSome ↔ ∃ phdr ∈ phdrs, phdr.Overlaps n := by
      rw [hmapped]
      constructor
      · rintro ⟨page, hpage, rfl⟩
        obtain ⟨hphdr, hva⟩ := mem_loadSequence.mp hpage
        exact ⟨page.1, hphdr, (hpages _ hphdr).mp hva⟩
      · rintro ⟨phdr, hphdr, hoverlaps⟩
        exact ⟨(phdr, va), mem_loadSequence.mpr ⟨hphdr, (hpages _ hphdr).mpr hoverlaps⟩, rfl⟩
    refine ⟨fun hoverlaps => ?_, fun hnone => ?_⟩
    · obtain ⟨frame, hframe⟩ := Option.isSome_iff_exists.mp (hsome.mpr hoverlaps)
      refine ⟨(pagePerms phdrs va).2, ?_, (pagePerms_eq phdrs va).2.trans ?_⟩
      · rw [haccess, hframe, Option.map_some, Option.map_some]
        exact congrArg some (access_userFlags _ _ _)
      · exact exists_congr fun phdr => and_congr_right fun hphdr => by rw [hpages phdr hphdr]
    · rw [← hsome, Option.not_isSome_iff_eq_none] at hnone
      rw [haccess, hnone]
      rfl
  · refine ⟨?_, fun _ => if_neg hn⟩
    rintro ⟨phdr, hphdr, hoverlaps⟩
    exact absurd (hoverlaps.lt (hlower phdr hphdr)) hn

section

variable {s frames : FrameState} {L : ℕ → List ℕ} {cr3 entry : UInt64} {space : AddressSpace}
  {data : Slice}

lemma maps_create (perms : PagePerms) (h : s.Ready U L)
    (hcreate : AddressSpace.create s cr3 = .ok (frames, .ok space)) :
    ∃ U kind, Loader.Maps ⟨frames, space, []⟩ perms U kind [] := by
  obtain ⟨f, -, rfl, htree, hpages, -⟩ := exists_created (layout_of_ready h) hcreate
  exact ⟨_, _, htree, (fun _ hpage => by cases hpage), fun va _ => hpages _⟩

lemma pageAccess_loadElf (h : s.Ready U L)
    (hcreate : AddressSpace.create s cr3 = .ok (frames, .ok space))
    (hload : loadElf data frames space = .ok (st, .ok entry))
    (hlower : ∀ phdr ∈ imageSegments data, phdr.InLowerHalf) (n : ℕ) :
    ((∃ phdr ∈ imageSegments data, phdr.Overlaps n) → ∃ x : Bool,
      pageAccess st.frames.mem space.pml4Phys n = some ⟨true, true, x⟩ ∧
      (x = true ↔ ∃ phdr ∈ imageSegments data, phdr.Overlaps n ∧ phdr.pFlags &&& pfX ≠ 0)) ∧
    ((¬ ∃ phdr ∈ imageSegments data, phdr.Overlaps n) →
      pageAccess st.frames.mem space.pml4Phys n = none) := by
  unfold loadElf at hload
  unfold imageSegments at *
  cases hsegments : segments data with
  | error e =>
    rw [hsegments] at hload
    cases hload
  | ok result =>
    obtain ⟨entry', phdrs⟩ := result
    rw [hsegments] at hload
    simp only [hsegments] at hlower ⊢
    obtain ⟨⟨st1, out⟩, hpass, hresult⟩ := bind_eq_ok.mp hload
    cases out with
    | error e => cases hresult
    | ok =>
      cases hresult
      have hpages : ∀ page ∈ loadSequence phdrs, PageAddr page.2 := by
        intro page hpage
        obtain ⟨hphdr, hva⟩ := mem_loadSequence.mp hpage
        exact ((Elf64Phdr.mem_pages (hlower _ hphdr)).mp hva).1
      obtain ⟨U0, kind0, hmaps0⟩ := maps_create (pagePerms phdrs) h hcreate
      obtain ⟨U1, kind1, hmaps, hspace, hmapped⟩ := hmaps0.load data hpages hpass
      rw [← hspace]
      refine hmaps.pageAccess (fun va => ?_) hlower n
      rw [hmapped]
      simp

/-- **The permissions of loaded pages.**  For every image that is loaded into a new address
space, from any state in which the frame allocator is at rest: the user pages and their
permissions are those of the segments if and only if every segment is in the lower half, and
every page that is overlapped is overlapped by a segment that is to be written to. -/
theorem permissionsMatch_iff (h : s.Ready U L)
    (hcreate : AddressSpace.create s cr3 = .ok (frames, .ok space))
    (hload : loadElf data frames space = .ok (st, .ok entry)) :
    PermissionsMatch st.frames.mem space.pml4Phys (imageSegments data) ↔
      (∀ phdr ∈ imageSegments data, phdr.InLowerHalf) ∧
      ∀ n, (∃ phdr ∈ imageSegments data, phdr.Overlaps n) →
        ∃ phdr ∈ imageSegments data, phdr.Overlaps n ∧ phdr.pFlags &&& pfW ≠ 0 := by
  constructor
  · intro hmatch
    have hlower : ∀ phdr ∈ imageSegments data, phdr.InLowerHalf := by
      intro phdr hphdr htype hmemsz
      by_contra hend
      have hpos := ne_zero_iff_toNat_pos.mp hmemsz
      -- the last page of the segment is not a page of the lower half
      have hoverlaps : phdr.Overlaps ((phdr.pVaddr.toNat + phdr.pMemsz.toNat - 1) / pageSize) :=
        ⟨htype, _, rfl, by omega, by omega⟩
      obtain ⟨access, haccess, -⟩ := (hmatch.mapped _).mpr ⟨phdr, hphdr, hoverlaps⟩
      unfold pageAccess at haccess
      rw [if_neg] at haccess
      · cases haccess
      · rw [pageSize]
        omega
    refine ⟨hlower, fun n hoverlaps => ?_⟩
    obtain ⟨x, haccess, -⟩ := (pageAccess_loadElf h hcreate hload hlower n).1 hoverlaps
    exact (hmatch.writable n _ haccess rfl).mp rfl
  · rintro ⟨hlower, hwritable⟩
    have hpages := pageAccess_loadElf h hcreate hload hlower
    -- what is mapped is overlapped
    have hmapped : ∀ {n access}, pageAccess st.frames.mem space.pml4Phys n = some access →
        ∃ phdr ∈ imageSegments data, phdr.Overlaps n := by
      intro n access haccess
      by_contra hnone
      rw [(hpages n).2 hnone] at haccess
      cases haccess
    refine ⟨fun n => ⟨?_, fun hoverlaps => ?_⟩, fun n access haccess _ => ?_,
      fun n access haccess _ => ?_⟩
    · rintro ⟨access, haccess, -⟩
      exact hmapped haccess
    · obtain ⟨x, haccess, -⟩ := (hpages n).1 hoverlaps
      exact ⟨_, haccess, rfl⟩
    · obtain ⟨x, haccess', -⟩ := (hpages n).1 (hmapped haccess)
      cases haccess'.symm.trans haccess
      exact ⟨fun _ => hwritable n (hmapped haccess), fun _ => rfl⟩
    · obtain ⟨x, haccess', hx⟩ := (hpages n).1 (hmapped haccess)
      cases haccess'.symm.trans haccess
      exact hx

end

/-! ### Code and data -/

/-- An executable with one segment of one page at `0x400000`. -/
def smallImage (pFlags : UInt8) : Slice where
  bytes i := [0x7F, 0x45, 0x4C, 0x46, 2, 1, 1, 0, 0, 0, 0, 0, 0, 0, 0, 0,
    2, 0, 0x3E, 0, 1, 0, 0, 0, 0, 0, 0x40, 0, 0, 0, 0, 0,
    0x40, 0, 0, 0, 0, 0, 0, 0, 0, 0, 0, 0, 0, 0, 0, 0,
    0, 0, 0, 0, 0x40, 0, 0x38, 0, 1, 0, 0, 0, 0, 0, 0, 0,
    1, 0, 0, 0, pFlags, 0, 0, 0, 0, 0, 0, 0, 0, 0, 0, 0,
    0, 0, 0x40, 0, 0, 0, 0, 0, 0, 0, 0x40, 0, 0, 0, 0, 0,
    120, 0, 0, 0, 0, 0, 0, 0, 120, 0, 0, 0, 0, 0, 0, 0, 0, 0x10, 0, 0, 0, 0, 0, 0].getD i.toNat 0
  len := 120

open PagingSystem (kernelFrames kernelFrames_ready)

/-- Load an image into a new address space, and look at page `0x400`. -/
def loadSmall (pFlags : UInt8) : Exec (Bool × Option PageAccess) := do
  let (frames, space) ← AddressSpace.create kernelFrames 0x10000
  match space with
  | .error _ => .ok (false, none)
  | .ok space =>
    let (st, result) ← loadElf (smallImage pFlags) frames space
    .ok (result.isOk, pageAccess st.frames.mem space.pml4Phys 0x400)

lemma loadSmall_eq_ok {pFlags : UInt8} {access : Option PageAccess}
    (h : loadSmall pFlags = .ok (true, access)) : ∃ frames space st entry,
    AddressSpace.create kernelFrames 0x10000 = .ok (frames, .ok space) ∧
    loadElf (smallImage pFlags) frames space = .ok (st, .ok entry) ∧
    pageAccess st.frames.mem space.pml4Phys 0x400 = access := by
  obtain ⟨⟨frames, out⟩, hcreate, hrest⟩ := bind_eq_ok.mp h
  cases out with
  | error e => cases hrest
  | ok space =>
    obtain ⟨⟨st, result⟩, hload, hresult⟩ := bind_eq_ok.mp hrest
    cases result with
    | error e => cases hresult
    | ok entry =>
      cases hresult
      exact ⟨frames, space, st, entry, hcreate, hload, rfl⟩

/-- A page that is to be read, written to and executed is so. -/
theorem data_page_permissions : ∃ frames space st entry,
    AddressSpace.create kernelFrames 0x10000 = .ok (frames, .ok space) ∧
    loadElf (smallImage 7) frames space = .ok (st, .ok entry) ∧
    PermissionsMatch st.frames.mem space.pml4Phys (imageSegments (smallImage 7)) := by
  obtain ⟨L, hready⟩ := kernelFrames_ready
  have hloaded : loadSmall 7 = .ok (true, some ⟨true, true, true⟩) := by decide +kernel
  obtain ⟨frames, space, st, entry, hcreate, hload, -⟩ := loadSmall_eq_ok hloaded
  have hsegments : (imageSegments (smallImage 7)).all (fun phdr =>
      decide (phdr.pVaddr.toNat + phdr.pMemsz.toNat ≤ 2 ^ 47) && phdr.pFlags &&& pfW != 0) =
      true := by decide +kernel
  rw [all_eq_true] at hsegments
  refine ⟨frames, space, st, entry, hcreate, hload,
    (permissionsMatch_iff hready hcreate hload).mpr ⟨fun phdr hphdr _ _ => ?_, fun n => ?_⟩⟩
  · have hphdr := hsegments phdr hphdr
    rw [Bool.and_eq_true, decide_eq_true_eq] at hphdr
    exact hphdr.1
  rintro ⟨phdr, hphdr, hoverlaps⟩
  have hw := hsegments phdr hphdr
  rw [Bool.and_eq_true, bne_iff_ne] at hw
  exact ⟨phdr, hphdr, hoverlaps, hw.2⟩

/-- **A page of code that can be written to.**  The image has one segment, which is to be read
and executed; after loading, its page is open to user code for writing. -/
theorem code_page_writable : (∃ U L, kernelFrames.Ready U L) ∧ ∃ frames space st entry,
    AddressSpace.create kernelFrames 0x10000 = .ok (frames, .ok space) ∧
    loadElf (smallImage 5) frames space = .ok (st, .ok entry) ∧
    pageAccess st.frames.mem space.pml4Phys 0x400 = some ⟨true, true, true⟩ ∧
    (∀ phdr ∈ imageSegments (smallImage 5), phdr.pFlags &&& pfW = 0) ∧
    ¬ PermissionsMatch st.frames.mem space.pml4Phys (imageSegments (smallImage 5)) := by
  have hloaded : loadSmall 5 = .ok (true, some ⟨true, true, true⟩) := by decide +kernel
  obtain ⟨frames, space, st, entry, hcreate, hload, haccess⟩ := loadSmall_eq_ok hloaded
  have hsegments : (imageSegments (smallImage 5)).all (fun phdr => phdr.pFlags &&& pfW == 0) =
      true := by decide +kernel
  have hreadOnly : ∀ phdr ∈ imageSegments (smallImage 5), phdr.pFlags &&& pfW = 0 := by
    intro phdr hphdr
    exact eq_of_beq (all_eq_true.mp hsegments phdr hphdr)
  refine ⟨⟨_, kernelFrames_ready⟩, frames, space, st, entry, hcreate, hload, haccess, hreadOnly,
    fun hmatch => ?_⟩
  obtain ⟨phdr, hphdr, -, hw⟩ := (hmatch.writable _ _ haccess rfl).mp rfl
  exact hw (hreadOnly phdr hphdr)

end Elf

end Fabric
