/-
What the frames are used for.

`Layout s U kind roots` gives every frame that is not free its use: a page table of some
level below a PML4 of the list `roots`, the contents of a page, or something else, such as
the tables of the kernel.  In the lower halves the tables of each level lead to those of the
next; the tables that the upper halves lead to are among the frames of other use.
-/
import FabricOS.PageTables

open Function

namespace Fabric

open Buddy FreeBlockPtr PageTable FrameState

/-! ### The kernel half -/

def PageTableEntry.isHuge (e : PageTableEntry) : Bool := e.bits &&& PageTableFlags.hugePage != 0

/-- The tables that entries 256 to 511 of a PML4 lead to, with their levels: 3 for a PDPT, 2
for a PD, 1 for a PT. -/
inductive KernelTable (mem : ByteMemory) (root : ℕ) : ℕ → ℕ → Prop
  | pdpt {i : ℕ} : 256 ≤ i → i < 512 → (entry mem root i).isPresent = true →
      KernelTable mem root 3 (entry mem root i).addr
  | next {n t i : ℕ} : KernelTable mem root (n + 2) t → i < 512 →
      (entry mem t i).isPresent = true → (entry mem t i).isHuge = false →
      KernelTable mem root (n + 1) (entry mem t i).addr

/-- No entry from 256 to 511 of the PML4 has changed, and no entry of a table that these lead
to. -/
structure KernelUnchanged (root : ℕ) (m m' : ByteMemory) : Prop where
  upper : ∀ i, 256 ≤ i → i < 512 → entry m' root i = entry m root i
  tables : ∀ n t, KernelTable m root n t → ∀ i < 512, entry m' t i = entry m t i

variable {m m' m'' : ByteMemory} {root root' n t i : ℕ}

lemma KernelTable.dvd (h : KernelTable m root n t) : pageSize ∣ t := by
  cases h with
  | pdpt | next => exact PageTableEntry.dvd_addr

lemma KernelTable.of_upper_eq (h : KernelTable m root n t)
    (hupper : ∀ i, 256 ≤ i → i < 512 → entry m root' i = entry m root i) :
    KernelTable m root' n t := by
  induction h with
  | pdpt hle hlt hpresent =>
    rw [← hupper _ hle hlt] at hpresent ⊢
    exact .pdpt hle hlt hpresent
  | next _ hlt hpresent hhuge ih => exact .next ih hlt hpresent hhuge

lemma KernelUnchanged.table (h : KernelUnchanged root m m') (ht : KernelTable m' root n t) :
    KernelTable m root n t := by
  induction ht with
  | pdpt hle hlt hpresent =>
    rw [h.upper _ hle hlt] at hpresent ⊢
    exact .pdpt hle hlt hpresent
  | next _ hlt hpresent hhuge ih =>
    rw [h.tables _ _ ih _ hlt] at hpresent hhuge ⊢
    exact .next ih hlt hpresent hhuge

/-! ### Layouts -/

inductive FrameKind
  | other
  /-- The contents of a page. -/
  | data
  /-- A table: 4 for a PML4 down to 1 for a PT. -/
  | table (level : ℕ)
  deriving DecidableEq

def width (level : ℕ) : ℕ := if level = 4 then 256 else 512

lemma width_le : width n ≤ 512 := by
  unfold width
  split_ifs <;> omega

structure Layout (s : FrameState) (U : Finset ℕ) (kind : ℕ → FrameKind) (roots : List ℕ) :
    Prop where
  ready : ∃ L, s.Ready U L
  unused : ∀ f ∈ U, kind f = .other
  /-- A table leads to tables of the next level. -/
  below : ∀ f n i, kind f = .table (n + 2) → i < width (n + 2) →
    (entry s.mem (fromFrame f) i).isPresent = true →
    kind ((entry s.mem (fromFrame f) i).addr / pageSize) = .table (n + 1)
  root : ∀ r ∈ roots, pageSize ∣ r ∧ r / pageSize ∉ U ∧
    (kind (r / pageSize) = .table 4 ∨ kind (r / pageSize) = .other)
  kernel : ∀ r ∈ roots, ∀ n t, KernelTable s.mem r n t →
    t / pageSize ∉ U ∧ kind (t / pageSize) = .other

/-- Frames of other use are left alone, and so are the upper halves of the PML4s. -/
structure Confined (U : Finset ℕ) (kind : ℕ → FrameKind) (m m' : ByteMemory) : Prop where
  other : ∀ x, x / pageSize ∉ U → kind (x / pageSize) = .other → m' x = m x
  upper : ∀ x, x / pageSize ∉ U → kind (x / pageSize) = .table 4 → 256 ≤ x % pageSize / 8 →
    m' x = m x

/-- A confined change to another layout, in which frames that were free may be in use. -/
structure Advance (roots : List ℕ) (s : FrameState) (U : Finset ℕ) (kind : ℕ → FrameKind)
    (s' : FrameState) (U' : Finset ℕ) (kind' : ℕ → FrameKind) : Prop where
  layout : Layout s' U' kind' roots
  subset : U' ⊆ U
  kept : ∀ f ∉ U, kind' f = kind f
  confined : Confined U kind s.mem s'.mem

variable {s s' s'' : FrameState} {U U' U'' : Finset ℕ} {kind kind' kind'' : ℕ → FrameKind}
  {roots : List ℕ}

lemma Confined.trans (h : Confined U kind m m') (h' : Confined U' kind' m' m'')
    (hsub : U' ⊆ U) (hkept : ∀ f ∉ U, kind' f = kind f) : Confined U kind m m'' where
  other x hx hkind := by
    rw [h'.other x (fun hU => hx (hsub hU)) ((hkept _ hx).trans hkind), h.other x hx hkind]
  upper x hx hkind hle := by
    rw [h'.upper x (fun hU => hx (hsub hU)) ((hkept _ hx).trans hkind) hle, h.upper x hx hkind hle]

lemma Advance.refl (h : Layout s U kind roots) : Advance roots s U kind s U kind :=
  ⟨h, subset_rfl, fun _ _ => rfl, fun _ _ _ => rfl, fun _ _ _ _ => rfl⟩

lemma Advance.trans (h : Advance roots s U kind s' U' kind')
    (h' : Advance roots s' U' kind' s'' U'' kind'') : Advance roots s U kind s'' U'' kind'' where
  layout := h'.layout
  subset := h'.subset.trans h.subset
  kept f hf := (h'.kept f fun hU => hf (h.subset hU)).trans (h.kept f hf)
  confined := h.confined.trans h'.confined h.subset h.kept

lemma Layout.kernelUnchanged (h : Layout s U kind roots) (hr : root ∈ roots)
    (hc : Confined U kind s.mem m') : KernelUnchanged root s.mem m' where
  upper i hle hlt := by
    obtain ⟨hdvd, hfree, hkind⟩ := h.root root hr
    refine entry_congr hdvd hlt fun x hpage hindex => ?_
    rw [← hpage] at hfree hkind
    obtain htable | hother := hkind
    · exact hc.upper x hfree htable (hindex ▸ hle)
    · exact hc.other x hfree hother
  tables n t ht i hi := by
    obtain ⟨hfree, hkind⟩ := h.kernel root hr n t ht
    refine entry_congr ht.dvd hi fun x hpage _ => ?_
    rw [← hpage] at hfree hkind
    exact hc.other x hfree hkind

lemma Layout.advance (h : Layout s U kind roots) (hready : ∃ L, s'.Ready U' L)
    (hsub : U' ⊆ U) (hkept : ∀ f ∉ U, kind' f = kind f) (hunused : ∀ f ∈ U', kind' f = .other)
    (hc : Confined U kind s.mem s'.mem)
    (hbelow : ∀ f n i, kind' f = .table (n + 2) → i < width (n + 2) →
      (entry s'.mem (fromFrame f) i).isPresent = true →
      kind' ((entry s'.mem (fromFrame f) i).addr / pageSize) = .table (n + 1)) :
    Advance roots s U kind s' U' kind' := by
  refine ⟨⟨hready, hunused, hbelow, fun r hr => ?_, fun r hr n t ht => ?_⟩, hsub, hkept, hc⟩
  · obtain ⟨hdvd, hfree, hkind⟩ := h.root r hr
    rw [hkept _ hfree]
    exact ⟨hdvd, fun hU => hfree (hsub hU), hkind⟩
  · obtain ⟨hfree, hkind⟩ := h.kernel r hr n t ((h.kernelUnchanged hr hc).table ht)
    rw [hkept _ hfree]
    exact ⟨fun hU => hfree (hsub hU), hkind⟩

lemma Layout.table_used (h : Layout s U kind roots) {f : ℕ} (hf : kind f ≠ .other) : f ∉ U :=
  fun hU => hf (h.unused f hU)

lemma Advance.keeps (h : Advance roots s U kind s' U' kind') (hlayout : Layout s U kind roots)
    {f : ℕ} {k : FrameKind} (hk : k ≠ .other) (hf : kind f = k) : kind' f = k :=
  (h.kept _ (hlayout.table_used (hf ▸ hk))).trans hf

/-! ### Changes -/

lemma Layout.fresh (h : Layout s U kind roots) {f : ℕ} {k : FrameKind} (hf : f ∈ U)
    (hready : ∃ L, s'.Ready (U.erase f) L) (hmem : ∀ x, x / pageSize ∉ U → s'.mem x = s.mem x)
    (hblank : ∀ n i, k = .table (n + 2) → i < width (n + 2) →
      (entry s'.mem (fromFrame f) i).isPresent = false) :
    Advance roots s U kind s' (U.erase f) (update kind f k) := by
  have hother : kind f = .other := h.unused f hf
  refine h.advance hready (Finset.erase_subset f U) (fun g hg => ?_) (fun g hg => ?_)
    ⟨fun x hx _ => hmem x hx, fun x hx _ _ => hmem x hx⟩ fun g n i hg hi hpresent => ?_
  · refine update_of_ne ?_ k kind
    rintro rfl
    exact hg hf
  · obtain ⟨hne, hU⟩ := Finset.mem_erase.mp hg
    rw [update_of_ne hne, h.unused g hU]
  by_cases hgf : g = f
  · subst hgf
    rw [update_self] at hg
    rw [hblank n i hg hi] at hpresent
    cases hpresent
  · rw [update_of_ne hgf] at hg
    have hkeep : entry s'.mem (fromFrame g) i = entry s.mem (fromFrame g) i := by
      refine entry_congr dvd_fromFrame (hi.trans_le width_le) fun x hpage _ => hmem x ?_
      rw [hpage, fromFrame_div]
      exact h.table_used (by simp [hg])
    rw [hkeep] at hpresent ⊢
    have hnext := h.below g n i hg hi hpresent
    rw [update_of_ne ?_, hnext]
    rintro heq
    rw [heq, hother] at hnext
    cases hnext

lemma Layout.setEntry (h : Layout s U kind roots) {e : PageTableEntry} (ht : pageSize ∣ t)
    (hkind : kind (t / pageSize) = .table n) (hi : i < width n)
    (hnext : ∀ k, n = k + 2 → e.isPresent = true → kind (e.addr / pageSize) = .table (k + 1)) :
    Advance roots s U kind ⟨s.alloc, PageTable.setEntry s.mem t i e⟩ U kind := by
  have hi' : i < 512 := hi.trans_le width_le
  have htU : t / pageSize ∉ U := h.table_used (by simp [hkind])
  obtain ⟨L, hready⟩ := h.ready
  refine h.advance ⟨L, hready.setMem fun x hx => ?_⟩ subset_rfl (fun _ _ => rfl) h.unused
    ⟨fun x _ hx => ?_, fun x _ hx hle => ?_⟩ fun g k j hg hj hpresent => ?_
  · refine setEntry_apply_of_ne ht hi' fun hpage => ?_
    exact absurd (hpage ▸ hx) htU
  · refine setEntry_apply_of_ne ht hi' fun hpage => ?_
    rw [hpage, hkind] at hx
    cases hx
  · refine setEntry_apply_of_ne ht hi' fun hpage => ?_
    rw [hpage, hkind] at hx
    cases hx
    exact (lt_of_lt_of_le hi hle).ne'
  · by_cases hsame : fromFrame g = t ∧ j = i
    · obtain ⟨rfl, rfl⟩ := hsame
      rw [fromFrame_div, hg] at hkind
      cases hkind
      simp only [entry_setEntry_self] at hpresent ⊢
      exact hnext k rfl hpresent
    · have hkeep : entry (PageTable.setEntry s.mem t i e) (fromFrame g) j =
          entry s.mem (fromFrame g) j :=
        entry_setEntry_of_ne ht dvd_fromFrame hi' (hj.trans_le width_le)
          fun heq hji => hsame ⟨heq, hji⟩
      simp only [hkeep] at hpresent ⊢
      exact h.below g k j hg hj hpresent

lemma Layout.writeData (h : Layout s U kind roots) {mem : ByteMemory}
    (hmem : ∀ x, kind (x / pageSize) ≠ .data → mem x = s.mem x) :
    Advance roots s U kind ⟨s.alloc, mem⟩ U kind := by
  obtain ⟨L, hready⟩ := h.ready
  refine h.advance ⟨L, hready.setMem fun x hx => hmem x ?_⟩ subset_rfl (fun _ _ => rfl) h.unused
    ⟨fun x _ hx => hmem x (by simp [hx]), fun x _ hx _ => hmem x (by simp [hx])⟩
    fun g n i hg hi hpresent => ?_
  · simp [h.unused _ hx]
  have hkeep : entry mem (fromFrame g) i = entry s.mem (fromFrame g) i := by
    refine entry_congr dvd_fromFrame (hi.trans_le width_le) fun x hpage _ => hmem x ?_
    rw [hpage, fromFrame_div, hg]
    simp
  simp only [hkeep] at hpresent ⊢
  exact h.below g n i hg hi hpresent

end Fabric
