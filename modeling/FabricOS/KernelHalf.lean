/-
Calls that get into the kernel half.

A walk whose first index is 256 or more goes to the tables of the kernel half, unless it comes
to the entry of a large page: the walk does not know these and takes the page for a table.
What such a call changes is then part of the kernel half.
-/
import FabricOS.FrameLayout

open List

namespace Fabric

open Buddy FreeBlockPtr PageTable FrameState PageTableFlags

/-! ### Walks in the kernel half -/

/-- The walk along the indices comes to the entry of a large page. -/
def HugeOn (mem : ByteMemory) (table : ℕ) : List ℕ → Prop
  | [] => False
  | i :: path =>
    (entry mem table i).isPresent = true ∧
      ((entry mem table i).isHuge = true ∨ HugeOn mem (entry mem table i).addr path)

/-- The walk to the address comes to the entry of a large page. -/
def HugeOnPath (mem : ByteMemory) (root : ℕ) (virt : UInt64) : Prop :=
  (entry mem root (pml4Index virt)).isPresent = true ∧
    HugeOn mem (entry mem root (pml4Index virt)).addr [pdptIndex virt, pdIndex virt]

variable {s s' : FrameState} {U : Finset ℕ} {L : ℕ → List ℕ} {kind : ℕ → FrameKind}
  {roots : List ℕ} {m m' : ByteMemory} {root t i u : ℕ}

lemma walk_kernel : ∀ (path : List ℕ) {t : ℕ}, KernelTable m root (path.length + 1) t →
    ¬ HugeOn m t path → (∀ i ∈ path, i < 512) → walk m t path = some u →
    KernelTable m root 1 u := by
  intro path
  induction path with
  | nil =>
    intro t ht _ _ hwalk
    cases hwalk
    exact ht
  | cons i path ih =>
    intro t ht hhuge hpath hwalk
    simp only [walk] at hwalk
    split_ifs at hwalk with hpresent
    have hsmall : (entry m t i).isHuge = false :=
      Bool.eq_false_iff.mpr fun h => hhuge ⟨hpresent, .inl h⟩
    refine ih (.next ht (hpath i mem_cons_self) hpresent hsmall)
      (fun h => hhuge ⟨hpresent, .inr h⟩) (fun j hj => hpath j (mem_cons_of_mem _ hj)) hwalk

lemma FrameState.Ready.walkOrCreate_absent {path : List ℕ} (h : Ready s U L)
    (ht : pageSize ∣ t) (htU : t / pageSize ∉ U) (hi : i < 512) (hpath : ∀ j ∈ path, j < 512)
    (habsent : (entry s.mem t i).isPresent = false)
    (hwalk : s.walkOrCreate t (i :: path) = .ok (s', .ok u)) :
    (entry s'.mem t i).isPresent = true ∧ pageSize ∣ u := by
  rw [walkOrCreate] at hwalk
  obtain ⟨hpresent, -⟩ | ⟨-, hfull | ⟨s1, f, L', hf, hready, hmem, hnext⟩⟩ :=
    h.nextOrCreate_cases t i
  · rw [habsent] at hpresent
    cases hpresent
  · rw [hfull] at hwalk
    cases hwalk
  rw [hnext] at hwalk
  obtain ⟨hready1, hblank⟩ := hready.create hf ht htU hi
  obtain ⟨hkeeps, hdvd⟩ := hready1.walkOrCreate_blank hblank hpath hwalk
  refine ⟨?_, hdvd u rfl⟩
  have hlink : entry (setEntry (zero s1.mem (fromFrame f)) t i (link f)) t i = link f :=
    entry_setEntry_self
  rw [hkeeps t i ht (fun hU => htU (Finset.mem_of_mem_erase hU)) hi, hlink]
  · exact isPresent_link
  · rw [hlink]
    exact isPresent_link

lemma walkOrCreate_kernel : ∀ (path : List ℕ) {t : ℕ}, Ready s U L →
    (∀ n t, KernelTable s.mem root n t → t / pageSize ∉ U) →
    KernelTable s.mem root (path.length + 1) t → ¬ HugeOn s.mem t path →
    (∀ i ∈ path, i < 512) → s.walkOrCreate t path = .ok (s', .ok u) →
    s' = s ∧ KernelTable s.mem root 1 u ∨
    pageSize ∣ u ∧ ∃ n t' j, KernelTable s.mem root n t' ∧ j < 512 ∧
      (entry s.mem t' j).isPresent = false ∧ (entry s'.mem t' j).isPresent = true := by
  intro path
  induction path with
  | nil =>
    intro t _ _ ht _ _ hwalk
    cases hwalk
    exact .inl ⟨rfl, ht⟩
  | cons i path ih =>
    intro t h hK ht hhuge hpath hwalk
    have hi := hpath i mem_cons_self
    have hpath' : ∀ j ∈ path, j < 512 := fun j hj => hpath j (mem_cons_of_mem _ hj)
    cases hpresent : (entry s.mem t i).isPresent with
    | true =>
      have hsmall : (entry s.mem t i).isHuge = false :=
        Bool.eq_false_iff.mpr fun h => hhuge ⟨hpresent, .inl h⟩
      have hnext : s.nextOrCreate t i = .ok (s, .ok (entry s.mem t i).addr) := by
        simp only [nextOrCreate, hpresent, if_true]
      rw [walkOrCreate, hnext] at hwalk
      exact ih h hK (.next ht hi hpresent hsmall) (fun h => hhuge ⟨hpresent, .inr h⟩) hpath' hwalk
    | false =>
      obtain ⟨hnow, hdvd⟩ := h.walkOrCreate_absent ht.dvd (hK _ t ht) hi hpath' hpresent hwalk
      exact .inr ⟨hdvd, _, t, i, ht, hi, hpresent, hnow⟩

section

variable {space space' : AddressSpace} {virt phys : UInt64} {flags : PageTableFlags}

lemma mapUserPage_eq_ok (h : space.mapUserPage s virt phys flags = .ok (s', space', .ok ())) :
    ∃ s1 pt, s.walkOrCreate space.pml4Phys (tablePath virt) = .ok (s1, .ok pt) ∧
      (entry s1.mem pt (ptIndex virt)).isPresent = false ∧
      s'.mem = setEntry s1.mem pt (ptIndex virt) (.set phys (PageTableFlags.present |||
        PageTableFlags.writable ||| PageTableFlags.user ||| flags)) := by
  unfold AddressSpace.mapUserPage at h
  split_ifs at h
  · cases h
  obtain ⟨⟨s2, result⟩, hwalk, hresult⟩ := Exec.bind_eq_ok.mp h
  obtain ⟨⟨s1, out⟩, hwalk1, hset⟩ := Exec.bind_eq_ok.mp hwalk
  cases out with
  | error e =>
    cases hset
    cases hresult
  | ok pt =>
    simp only [] at hset
    split_ifs at hset with hpresent
    · cases hset
      cases hresult
    · cases hset
      cases hresult
      exact ⟨s1, pt, hwalk1, by simpa using hpresent, rfl⟩

lemma testBit_userFlags : (PageTableFlags.present ||| PageTableFlags.writable |||
    PageTableFlags.user ||| flags).toNat.testBit 0 = true := by
  rw [UInt64.toNat_or, Nat.testBit_or]
  have hpresent : (present ||| writable |||
      user).toNat.testBit 0 = true := by decide
  rw [hpresent, Bool.true_or]

lemma Layout.not_kernelUnchanged_map (h : Layout s U kind roots)
    (hroot : space.pml4Phys ∈ roots) (hhigh : 256 ≤ pml4Index virt)
    (hhuge : ¬ HugeOnPath s.mem space.pml4Phys virt)
    (hmap : space.mapUserPage s virt phys flags = .ok (s', space', .ok ())) :
    ¬ KernelUnchanged space.pml4Phys s.mem s'.mem := by
  intro hsame
  obtain ⟨L, hready⟩ := h.ready
  obtain ⟨hdvd, hfree, -⟩ := h.root _ hroot
  have hK : ∀ n t, KernelTable s.mem space.pml4Phys n t → t / pageSize ∉ U := fun n t ht =>
    (h.kernel _ hroot n t ht).1
  obtain ⟨s1, pt, hwalk, habsent, hmem⟩ := mapUserPage_eq_ok hmap
  -- the last entry is stored where none was present, so no other that is present changes
  have hlast : ∀ {u j}, pageSize ∣ pt → pageSize ∣ u → j < 512 →
      (entry s1.mem u j).isPresent = true → (entry s'.mem u j).isPresent = true := by
    intro u j hpt hu hj hpresent
    have hkeeps : KeepsPresent ∅ s1.mem s'.mem := by
      rw [hmem]
      exact keepsPresent_setEntry hpt ptIndex_lt habsent
    rw [hkeeps u j hu (Finset.notMem_empty _) hj hpresent]
    exact hpresent
  have hpath : ∀ j ∈ [pdptIndex virt, pdIndex virt], j < 512 := fun j hj =>
    lt_of_mem_tablePath (mem_cons_of_mem _ hj)
  have hindex : pml4Index virt < 512 := and_0x1FF_lt _
  cases hpresent : (entry s.mem space.pml4Phys (pml4Index virt)).isPresent with
  | false =>
    obtain ⟨hnow, hpt⟩ :=
      hready.walkOrCreate_absent hdvd hfree hindex hpath hpresent hwalk
    have hafter := hlast hpt hdvd hindex hnow
    rw [hsame.upper _ hhigh hindex, hpresent] at hafter
    cases hafter
  | true =>
    have hnext : s.nextOrCreate space.pml4Phys (pml4Index virt) =
        .ok (s, .ok (entry s.mem space.pml4Phys (pml4Index virt)).addr) := by
      simp only [nextOrCreate, hpresent, if_true]
    rw [tablePath, walkOrCreate, hnext] at hwalk
    obtain ⟨rfl, ht⟩ | ⟨hpt, n, t, j, ht, hj, hbefore, hnow⟩ :=
      walkOrCreate_kernel [pdptIndex virt, pdIndex virt] hready hK (.pdpt hhigh hindex hpresent)
        (fun hpath => hhuge ⟨hpresent, hpath⟩) hpath hwalk
    · have hstored := hsame.tables 1 pt ht (ptIndex virt) ptIndex_lt
      rw [hmem, entry_setEntry_self] at hstored
      rw [← hstored, PageTableEntry.isPresent_set testBit_userFlags] at habsent
      cases habsent
    · have hafter := hlast hpt ht.dvd hj hnow
      rw [hsame.tables n t ht j hj, hbefore] at hafter
      cases hafter

lemma not_kernelUnchanged_unmap {frame : ℕ} (hhigh : 256 ≤ pml4Index virt)
    (hhuge : ¬ HugeOnPath s.mem space.pml4Phys virt)
    (hunmap : space.unmapUserPage s virt = (s', space', .ok frame)) :
    ¬ KernelUnchanged space.pml4Phys s.mem s'.mem := by
  intro hsame
  unfold AddressSpace.unmapUserPage at hunmap
  split_ifs at hunmap
  · cases hunmap
  cases hwalk : walk s.mem space.pml4Phys (tablePath virt) with
  | none =>
    rw [hwalk] at hunmap
    cases hunmap
  | some pt =>
    simp only [hwalk] at hunmap
    split_ifs at hunmap with hmapped
    · cases hunmap
      rw [tablePath, walk] at hwalk
      split_ifs at hwalk with hpresent
      have hindex : pml4Index virt < 512 := and_0x1FF_lt _
      have hpath : ∀ j ∈ [pdptIndex virt, pdIndex virt], j < 512 := fun j hj =>
        lt_of_mem_tablePath (mem_cons_of_mem _ hj)
      have ht : KernelTable s.mem space.pml4Phys 1 pt :=
        walk_kernel [pdptIndex virt, pdIndex virt] (.pdpt hhigh hindex hpresent)
          (fun hpath => hhuge ⟨hpresent, hpath⟩) hpath hwalk
      have hcleared := hsame.tables 1 pt ht (ptIndex virt) ptIndex_lt
      simp only [entry_setEntry_self] at hcleared
      rw [← hcleared, PageTableEntry.not_isPresent_empty] at hmapped
      cases hmapped
    · cases hunmap

end

end Fabric
