/-
Destroying an address space.

`destroy` walks through the tables of the lower half and gives their frames back, those below
first, and then the frame of the PML4.  The allocator does not check what it is given, and it
writes to the frames that it gets, so the walk must come to every table once, and must not read
a table that it has given back.
-/
import FabricOS.UserPages

open Function List

namespace Fabric

open Buddy FreeBlockPtr PageTable FrameState RadixTree DyadicBlocks AddressSpace

/-! ### Giving back a list of frames -/

/-- Give back the frames at these addresses, one after the other. -/
def FrameState.deallocateFrames (s : FrameState) (addrs : List ℕ) : Exec FrameState :=
  addrs.foldlM (fun s addr => s.deallocate addr 0) s

/-- The free frames after these addresses have been given back. -/
def freed (F : Finset ℕ) (addrs : List ℕ) : Finset ℕ :=
  addrs.foldl (fun F addr => insert (addr / pageSize) F) F

/-- Each of these addresses is that of a frame that is not free when it is given back. -/
def Freeable (F : Finset ℕ) : List ℕ → Prop
  | [] => True
  | addr :: addrs => pageSize ∣ addr ∧ addr / pageSize ∉ F ∧
      (0 < addr / pageSize ∧ addr / pageSize < maxFrames) ∧
      Freeable (insert (addr / pageSize) F) addrs

variable {s s' : FrameState} {F U U₀ : Finset ℕ} {L : ℕ → List ℕ} {addrs addrs' : List ℕ}
  {mem : ByteMemory} {n t pml4 : ℕ} {kind kind' : ℕ → FrameKind} {roots : List ℕ}

lemma deallocateFrames_append : s.deallocateFrames (addrs ++ addrs') =
    s.deallocateFrames addrs >>= fun s => s.deallocateFrames addrs' := by
  rw [deallocateFrames, foldlM_append]
  rfl

lemma freed_cons {addr : ℕ} :
    freed F (addr :: addrs) = freed (insert (addr / pageSize) F) addrs := rfl

lemma mem_freed {f : ℕ} : f ∈ freed F addrs ↔ f ∈ F ∨ ∃ addr ∈ addrs, addr / pageSize = f := by
  induction addrs generalizing F with
  | nil => simp [freed]
  | cons addr addrs ih =>
    rw [freed_cons, ih, Finset.mem_insert, exists_mem_cons_iff, @eq_comm _ f, or_assoc,
      or_left_comm]

lemma freeable_append : Freeable F (addrs ++ addrs') ↔
    Freeable F addrs ∧ Freeable (freed F addrs) addrs' := by
  induction addrs generalizing F with
  | nil => simp [Freeable, freed]
  | cons addr addrs ih =>
    simp only [cons_append, Freeable, ih, freed_cons, and_assoc]

lemma freeable_of_nodup (hnodup : addrs.Nodup) (hdvd : ∀ addr ∈ addrs, pageSize ∣ addr)
    (hused : ∀ addr ∈ addrs, addr / pageSize ∉ F)
    (hrange : ∀ addr ∈ addrs, 0 < addr / pageSize ∧ addr / pageSize < maxFrames) :
    Freeable F addrs := by
  induction addrs generalizing F with
  | nil => trivial
  | cons addr addrs ih =>
    rw [nodup_cons] at hnodup
    rw [forall_mem_cons] at hdvd hused hrange
    refine ⟨hdvd.1, hused.1, hrange.1, ih hnodup.2 hdvd.2 (fun addr' haddr' => ?_) hrange.2⟩
    rw [Finset.mem_insert, not_or]
    refine ⟨fun heq => hnodup.1 ?_, hused.2 addr' haddr'⟩
    rwa [← Nat.div_mul_cancel hdvd.1, ← heq, Nat.div_mul_cancel (hdvd.2 addr' haddr')]

lemma FrameState.Ready.deallocateFrames (h : s.Ready F L) (hfreeable : Freeable F addrs) :
    ∃ s' L', s.deallocateFrames addrs = .ok s' ∧ s'.Ready (freed F addrs) L' ∧
      ∀ x, x / pageSize ∉ freed F addrs → s'.mem x = s.mem x := by
  induction addrs generalizing s F L with
  | nil => exact ⟨s, L, rfl, h, fun _ _ => rfl⟩
  | cons addr addrs ih =>
    obtain ⟨hdvd, hused, hrange, hrest⟩ := hfreeable
    obtain ⟨s1, L1, hdealloc, hready1, hmem1⟩ := h.deallocate (k := 0) (f := addr / pageSize)
      (one_dvd _) (Nat.zero_le _) (by rwa [block_zero, Finset.disjoint_singleton_right])
      (fun x hx => by
        rw [block_zero, Finset.mem_singleton] at hx
        rwa [hx])
    rw [block_zero, Finset.union_comm, ← Finset.insert_eq] at hready1 hmem1
    rw [fromFrame, Nat.div_mul_cancel hdvd] at hdealloc
    obtain ⟨s2, L2, hdealloc2, hready2, hmem2⟩ := ih hready1 hrest
    refine ⟨s2, L2, ?_, hready2, fun x hx => ?_⟩
    · rw [FrameState.deallocateFrames, foldlM_cons, hdealloc]
      exact hdealloc2
    · rw [freed_cons] at hx
      rw [hmem2 x hx]
      exact hmem1 x fun hx' => hx (mem_freed.mpr (.inl hx'))

/-! ### The walk -/

/-- Give back a table of level `n + 1` and all tables below it. -/
def freeTable : ℕ → FrameState → ℕ → Exec FrameState
  | 0, s, t => s.deallocate t 0
  | n + 1, s, t => do
    let s ← AddressSpace.forPresent s t (width (n + 2)) (freeTable n)
    s.deallocate t 0

lemma destroy_eq_freeTable {space : AddressSpace} (h : space.active = true) :
    space.destroy s = freeTable 3 s space.pml4Phys >>= fun s =>
      .ok (s, { space with active := false }) := by
  rw [destroy, if_neg (by simp [h]), freeTable, bind_assoc]
  rfl

/-- The addresses of a table of level `n + 1` and of those below it, in the order in which they
are given back. -/
def tablesBelow (mem : ByteMemory) : ℕ → ℕ → List ℕ
  | 0, t => [t]
  | n + 1, t =>
    ((List.range (width (n + 2))).flatMap fun i =>
      if (entry mem t i).isPresent then tablesBelow mem n (entry mem t i).addr else []) ++ [t]

lemma freeTable_eq : ∀ (n : ℕ) {s : FrameState} {F : Finset ℕ} {L : ℕ → List ℕ} {t : ℕ},
    s.Ready F L → (∀ x, x / pageSize ∉ F → s.mem x = mem x) →
    Freeable F (tablesBelow mem n t) →
    freeTable n s t = s.deallocateFrames (tablesBelow mem n t) := by
  intro n
  induction n with
  | zero =>
    intro s F L t _ _ _
    exact (bind_pure _).symm
  | succ n ih =>
    intro s F L t hready hmem hfreeable
    -- the loop over the entries, from any of them on
    have hloop : ∀ (is : List ℕ) {s : FrameState} {F : Finset ℕ} {L : ℕ → List ℕ},
        (∀ i ∈ is, i < 512) → s.Ready F L → (∀ x, x / pageSize ∉ F → s.mem x = mem x) →
        Freeable F ((is.flatMap fun i =>
          if (entry mem t i).isPresent then tablesBelow mem n (entry mem t i).addr else []) ++
            [t]) →
        is.foldlM (fun s i => if (entry s.mem t i).isPresent then
            freeTable n s (entry s.mem t i).addr else .ok s) s =
          s.deallocateFrames (is.flatMap fun i =>
            if (entry mem t i).isPresent then tablesBelow mem n (entry mem t i).addr else []) := by
      intro is
      induction is with
      | nil => exact fun _ _ _ _ => rfl
      | cons i is ihs =>
        intro s F L his hready hmem hfreeable
        obtain ⟨hi, his⟩ := forall_mem_cons.mp his
        -- the table itself is given back last
        obtain ⟨hbefore, hdvd, hused, -⟩ := freeable_append.mp hfreeable
        have hentry : entry s.mem t i = entry mem t i := by
          refine entry_congr hdvd hi fun x hpage _ => hmem x fun hx => hused ?_
          rw [← hpage]
          exact mem_freed.mpr (.inl hx)
        rw [foldlM_cons, hentry]
        rw [flatMap_cons] at hfreeable hbefore ⊢
        cases hpresent : (entry mem t i).isPresent with
        | false =>
          rw [if_neg (by simp [hpresent]), nil_append] at hfreeable
          exact ihs his hready hmem hfreeable
        | true =>
          rw [if_pos hpresent, append_assoc] at hfreeable
          obtain ⟨hchild, hrest⟩ := freeable_append.mp hfreeable
          obtain ⟨s1, L1, hdealloc, hready1, hmem1⟩ := hready.deallocateFrames hchild
          simp only [if_true]
          rw [ih hready hmem hchild, deallocateFrames_append, hdealloc, Exec.ok_bind, Exec.ok_bind]
          refine ihs his hready1 (fun x hx => ?_) hrest
          rw [hmem1 x hx]
          exact hmem x fun hx' => hx (mem_freed.mpr (.inl hx'))
    rw [tablesBelow] at hfreeable ⊢
    rw [freeTable, deallocateFrames_append, forPresent]
    rw [hloop (List.range (width (n + 2))) (fun i hi => (mem_range.mp hi).trans_le width_le)
      hready hmem hfreeable]
    congr 1
    funext s'
    exact (bind_pure _).symm

lemma tablesBelow_eq_postorder : tablesBelow mem n t =
    (postorder (childTable mem) (fun v => List.range (width v.1)) n (n + 1, t)).map Prod.snd := by
  induction n generalizing t with
  | zero => rfl
  | succ n ih =>
    rw [tablesBelow, postorder, map_append, map_flatMap]
    congr 1
    refine flatMap_congr fun i hi => ?_
    have hi' : i < width (n + 2) := mem_range.mp hi
    cases hpresent : (entry mem t i).isPresent with
    | false => rw [if_neg (by simp), childTable_eq_none hpresent]; rfl
    | true =>
      have hchild : childTable mem (n + 2, t) i = some (n + 1, (entry mem t i).addr) :=
        childTable_eq_some.mpr ⟨n, rfl, hi', hpresent, rfl⟩
      rw [if_pos rfl, hchild, ih]
      rfl

/-! ### The tree -/

lemma level_add_length {path : List ℕ} {k u : ℕ}
    (h : tableAt mem pml4 path = some (k, u)) : k + path.length = 4 ∧ 0 < k := by
  induction path generalizing k u with
  | nil =>
    cases h
    exact ⟨rfl, by decide⟩
  | cons i path ih =>
    obtain ⟨⟨m, w⟩, hw, hchild⟩ := Option.bind_eq_some_iff.mp h
    obtain ⟨k', rfl, -, -, hv⟩ := childTable_eq_some.mp hchild
    cases hv
    obtain ⟨hsum, -⟩ := ih hw
    rw [length_cons]
    omega

lemma mem_range_of_childTable (v : ℕ × ℕ) (i : ℕ) (w : ℕ × ℕ)
    (h : childTable mem v i = some w) : i ∈ List.range (width v.1) := by
  obtain ⟨-, -, hi, -⟩ := childTable_eq_some.mp h
  exact mem_range.mpr hi

lemma mem_tablesBelow {addr : ℕ} : addr ∈ tablesBelow mem 3 pml4 ↔
    ∃ path k, tableAt mem pml4 path = some (k, addr) := by
  rw [tablesBelow_eq_postorder, mem_map]
  constructor
  · rintro ⟨⟨k, u⟩, hu, rfl⟩
    obtain ⟨path, -, hpath⟩ := (mem_postorder mem_range_of_childTable).mp hu
    exact ⟨path, k, hpath⟩
  · rintro ⟨path, k, hpath⟩
    refine ⟨(k, addr), (mem_postorder mem_range_of_childTable).mpr ⟨path, ?_, hpath⟩, rfl⟩
    have hlevel := level_add_length hpath
    omega

lemma PageTree.nodup_tablesBelow (h : PageTree s U kind roots pml4) :
    (tablesBelow s.mem 3 pml4).Nodup := by
  rw [tablesBelow_eq_postorder]
  refine (nodup_postorder mem_range_of_childTable (fun _ => nodup_range)
    h.unshared).map_on ?_
  rintro ⟨k, u⟩ hu ⟨k', u'⟩ hu' heq
  obtain rfl : u = u' := heq
  obtain ⟨path, -, hpath⟩ := (mem_postorder mem_range_of_childTable).mp hu
  obtain ⟨path', -, hpath'⟩ := (mem_postorder mem_range_of_childTable).mp hu'
  rw [h.level_eq hpath hpath']

lemma PageTree.freeTable (h : PageTree s U kind roots pml4) (hready : s.Ready U L)
    (hrange : ∀ f k, kind f = .table k → 0 < f ∧ f < maxFrames) :
    ∃ s' L', Fabric.freeTable 3 s pml4 = s.deallocateFrames (tablesBelow s.mem 3 pml4) ∧
      s.deallocateFrames (tablesBelow s.mem 3 pml4) = .ok s' ∧
      s'.Ready (freed U (tablesBelow s.mem 3 pml4)) L' := by
  have hfreeable : Freeable U (tablesBelow s.mem 3 pml4) := by
    refine freeable_of_nodup h.nodup_tablesBelow (fun addr haddr => ?_) (fun addr haddr => ?_)
      fun addr haddr => ?_
    · obtain ⟨path, k, hpath⟩ := mem_tablesBelow.mp haddr
      exact (h.table hpath).1
    · obtain ⟨path, k, hpath⟩ := mem_tablesBelow.mp haddr
      exact h.used hpath
    · obtain ⟨path, k, hpath⟩ := mem_tablesBelow.mp haddr
      exact hrange _ k (h.table hpath).2
  obtain ⟨s', L', hdealloc, hready', -⟩ := hready.deallocateFrames hfreeable
  exact ⟨s', L', freeTable_eq 3 hready (fun _ _ => rfl) hfreeable, hdealloc, hready'⟩

/-! ### Who has the frames -/

namespace PagedSpace

variable {s s' : PagedSpace} {U' held : Finset ℕ}

def hold (held : Finset ℕ) : Op × Result → Finset ℕ
  | (.allocateFrame, .ok (some addr)) => insert (addr / pageSize) held
  | _ => held

/-- The frames that clients have taken, such as for the contents of pages. -/
def heldFrames (history : List (Op × Result)) : Finset ℕ := history.foldl hold ∅

/-- Of the frames `U₀` that were free once, those that are not free now are tables of the address
space or held by clients. -/
structure Accounts (s : PagedSpace) (roots : List ℕ) (U₀ U : Finset ℕ) (kind : ℕ → FrameKind)
    (held : Finset ℕ) : Prop where
  tree : PageTree s.frames U kind roots s.space.pml4Phys
  whole : Whole s.frames.mem s.space.pml4Phys kind
  root : s.space.pml4Phys ∈ roots
  active : s.space.active = true
  subset : U ⊆ U₀
  tables : ∀ f n, kind f = .table n → f ∈ U₀
  taken : ∀ f ∈ U₀, f ∉ U → f ∈ held ∨ ∃ n, kind f = .table n
  held : ∀ f ∈ held, kind f = .data ∧ f ∈ U₀

lemma Accounts.grows (h : s.Accounts roots U₀ U kind held)
    (hgrows : Grows roots s.space.pml4Phys s.frames U kind s'.frames U' kind')
    (hpml4 : s'.space.pml4Phys = s.space.pml4Phys)
    (hactive : s'.space.active = s.space.active) : s'.Accounts roots U₀ U' kind' held := by
  refine ⟨?_, ?_, hpml4 ▸ h.root, hactive.trans h.active, hgrows.advance.subset.trans h.subset,
    fun f n hf => ?_, fun f hf hf' => ?_, fun f hf => ?_⟩
  · rw [hpml4]
    exact hgrows.tree
  · rw [hpml4]
    exact hgrows.whole h.whole
  · by_cases hU : f ∈ U
    · exact h.subset hU
    · rw [hgrows.advance.kept f hU] at hf
      exact h.tables f n hf
  · by_cases hU : f ∈ U
    · exact .inr (hgrows.taken f hU hf')
    · rw [hgrows.advance.kept f hU]
      exact h.taken f hf hU
  · obtain ⟨hdata, hU0⟩ := h.held f hf
    exact ⟨hgrows.advance.keeps h.tree.layout (by simp) hdata, hU0⟩

lemma Accounts.allocateFrame (h : s.Accounts roots U₀ U kind held) :
    ∃ s' result U' kind', s.step .allocateFrame = .ok (s', result) ∧
      s'.Accounts roots U₀ U' kind' (hold held (.allocateFrame, result)) := by
  obtain ⟨frames, f, hf, halloc, hfresh, htree, -, htables⟩ | hnone := h.tree.takeFrame
  · refine ⟨⟨frames, s.space⟩, .ok (some (fromFrame f)), _, _, by simp [step, halloc], htree,
      fun g n hg => ?_, h.root, h.active, (Finset.erase_subset f U).trans h.subset,
      fun g n hg => ?_, fun g hg hg' => ?_, fun g hg => ?_⟩
    · by_cases hgf : g = f
      · rw [hgf, update_self] at hg
        cases hg
      · rw [update_of_ne hgf] at hg
        obtain ⟨path, hpath⟩ := h.whole g n hg
        exact ⟨path, (htables path).trans hpath⟩
    · by_cases hgf : g = f
      · rw [hgf]
        exact h.subset hf
      · rw [update_of_ne hgf] at hg
        exact h.tables g n hg
    · simp only [hold, fromFrame_div, Finset.mem_insert]
      by_cases hgf : g = f
      · exact .inl (.inl hgf)
      · rw [update_of_ne hgf, or_assoc]
        exact .inr (h.taken g hg fun hU => hg' (Finset.mem_erase.mpr ⟨hgf, hU⟩))
    · simp only [hold, fromFrame_div, Finset.mem_insert] at hg
      obtain rfl | hg := hg
      · exact ⟨update_self .., h.subset hf⟩
      · obtain ⟨hdata, hU0⟩ := h.held g hg
        exact ⟨hfresh.keeps h.tree.layout (by simp) hdata, hU0⟩
  · exact ⟨s, .error .allocationFailed, U, kind, by simp [step, hnone], h⟩

lemma Accounts.step (h : s.Accounts roots U₀ U kind held) {op : Op} (hop : LowerHalf op) :
    ∃ s' result U' kind', s.step op = .ok (s', result) ∧
      s'.Accounts roots U₀ U' kind' (hold held (op, result)) := by
  cases op with
  | mapUserPage virt phys flags =>
    obtain ⟨frames, U', kind', hgrows, ⟨-, hmap, -⟩ | ⟨e, hmap, -⟩⟩ :=
      h.tree.mapUserPage_cases (pml4Index_lt hop.1.lt) phys flags
    · exact ⟨_, _, U', kind', step_mapUserPage hmap, h.grows hgrows rfl rfl⟩
    · exact ⟨_, _, U', kind', step_mapUserPage hmap, h.grows hgrows rfl rfl⟩
  | unmapUserPage virt =>
    obtain ⟨-, hunmap⟩ | ⟨frames, e, -, hunmap, hgrows, -⟩ :=
      h.tree.unmapUserPage_cases (pml4Index_lt (Canonical.lt hop))
    · exact ⟨_, _, U, kind, step_unmapUserPage hunmap, h⟩
    · exact ⟨_, _, U, kind, step_unmapUserPage hunmap, h.grows hgrows rfl rfl⟩
  | allocateFrame => exact h.allocateFrame

lemma Accounts.mem_tables (h : s.Accounts roots U₀ U kind held) {addr : ℕ} :
    addr ∈ tablesBelow s.frames.mem 3 s.space.pml4Phys ↔
      ∃ f, addr = fromFrame f ∧ f ∈ U₀ ∧ f ∉ U ∧ f ∉ held := by
  rw [mem_tablesBelow]
  constructor
  · rintro ⟨path, k, hpath⟩
    obtain ⟨hdvd, hkind⟩ := h.tree.table hpath
    refine ⟨addr / pageSize, (Nat.div_mul_cancel hdvd).symm, h.tables _ k hkind, h.tree.used hpath,
      fun hheld => ?_⟩
    rw [(h.held _ hheld).1] at hkind
    cases hkind
  · rintro ⟨f, rfl, hU0, hU, hheld⟩
    obtain hf | ⟨k, hk⟩ := h.taken f hU0 hU
    · exact absurd hf hheld
    · obtain ⟨path, hpath⟩ := h.whole f k hk
      exact ⟨path, k, hpath⟩

lemma Accounts.freed_eq (h : s.Accounts roots U₀ U kind held) :
    freed U (tablesBelow s.frames.mem 3 s.space.pml4Phys) = U₀ \ held := by
  ext f
  rw [mem_freed, Finset.mem_sdiff]
  constructor
  · rintro (hU | ⟨addr, haddr, rfl⟩)
    · refine ⟨h.subset hU, fun hheld => ?_⟩
      exact h.tree.layout.table_used (by simp [(h.held f hheld).1]) hU
    · obtain ⟨f, rfl, hU0, -, hheld⟩ := h.mem_tables.mp haddr
      rw [fromFrame_div]
      exact ⟨hU0, hheld⟩
  · rintro ⟨hU0, hheld⟩
    by_cases hU : f ∈ U
    · exact .inl hU
    · exact .inr ⟨fromFrame f, h.mem_tables.mpr ⟨f, rfl, hU0, hU, hheld⟩, fromFrame_div⟩

lemma accounts_created {s0 s1 : FrameState} {cr3 : UInt64} {space : AddressSpace}
    (h : s0.Ready U₀ L) (hroot : AddressSpace.readCr3 cr3 / pageSize ∉ U₀)
    (hkernel : ∀ n t, KernelTable s0.mem (AddressSpace.readCr3 cr3) n t → t / pageSize ∉ U₀)
    (hcreate : AddressSpace.create s0 cr3 = .ok (s1, .ok space)) :
    ∃ U kind, Accounts ⟨s1, space⟩ [AddressSpace.readCr3 cr3, space.pml4Phys] U₀ U kind ∅ := by
  have hlayout : Layout s0 U₀ (fun _ => .other) [readCr3 cr3] := by
    refine ⟨⟨L, h⟩, fun _ _ => rfl, (fun _ _ _ hkind => by cases hkind), fun r hr => ?_,
      fun r hr n t ht => ?_⟩
    · rw [mem_singleton.mp hr]
      exact ⟨(PageTableEntry.mk cr3).dvd_addr, hroot, .inr rfl⟩
    · rw [mem_singleton.mp hr] at ht
      exact ⟨hkernel n t ht, rfl⟩
  obtain ⟨f, hf, rfl, htree, -, hupper⟩ := exists_created hlayout hcreate
  have hne : readCr3 cr3 / pageSize ≠ f := by
    rintro rfl
    exact hroot hf
  have htable : ∀ g n, update (fun _ => FrameKind.other) f (.table 4) g = .table n →
      g = f ∧ n = 4 := by
    intro g n hg
    by_cases hgf : g = f
    · rw [hgf, update_self] at hg
      cases hg
      exact ⟨hgf, rfl⟩
    · rw [update_of_ne hgf] at hg
      cases hg
  refine ⟨U₀.erase f, _, ⟨?_, htree.root, htree.unshared, htree.linked⟩, fun g n hg => ?_,
    mem_cons_of_mem _ mem_cons_self, rfl, Finset.erase_subset f U₀, fun g n hg => ?_,
    fun g hg hg' => ?_, fun g hg => ?_⟩
  · exact htree.layout.addRoot mem_cons_self htree.root.1 htree.root.2 (hupper hne)
  · obtain ⟨rfl, rfl⟩ := htable g n hg
    exact ⟨[], rfl⟩
  · rw [(htable g n hg).1]
    exact hf
  · obtain rfl : g = f := by
      by_contra hgf
      exact hg' (Finset.mem_erase.mpr ⟨hgf, hg⟩)
    exact .inr ⟨4, update_self ..⟩
  · exact absurd hg (Finset.notMem_empty g)

/-- **Destroying an address space.**  From a new address space, whatever calls are made at
canonical addresses of the lower half, and whatever frames clients take between them, `destroy`
gives back a list of frames, each once, which are those that the address space has taken from
the allocator: they were free when it was created, and are neither free when it is destroyed
nor held by a client.  No table of the kernel half is among them.  Then all frames are free
that were so at the beginning, but for those that are held.  Whatever is destroyed or dropped
once more changes nothing. -/
theorem destroy_frees_tables {s₀ s₁ : FrameState} {cr3 : UInt64} {space : AddressSpace}
    (h : s₀.Ready U₀ L) (hroot : AddressSpace.readCr3 cr3 / pageSize ∉ U₀)
    (hkernel : ∀ n t, KernelTable s₀.mem (AddressSpace.readCr3 cr3) n t → t / pageSize ∉ U₀)
    (hcreate : AddressSpace.create s₀ cr3 = .ok (s₁, .ok space)) (ops : List Op)
    (hops : ∀ op ∈ ops, LowerHalf op) :
    ∃ s results U L', Machine.run step ⟨s₁, space⟩ ops = .ok (s, results) ∧
      s.frames.Ready U L' ∧
      ∃ tables frames L'',
        (s.space.destroy s.frames = s.frames.deallocateFrames tables >>= fun frames =>
          .ok (frames, { s.space with active := false })) ∧
        s.space.drop s.frames = s.space.destroy s.frames ∧
        s.frames.deallocateFrames tables = .ok frames ∧ tables.Nodup ∧
        (∀ addr, addr ∈ tables ↔ ∃ f, addr = fromFrame f ∧ f ∈ U₀ ∧ f ∉ U ∧
          f ∉ heldFrames (ops.zip results)) ∧
        (∀ n t, KernelTable s.frames.mem s.space.pml4Phys n t → t ∉ tables) ∧
        frames.Ready (U₀ \ heldFrames (ops.zip results)) L'' ∧
        ∀ frames' : FrameState,
          destroy { s.space with active := false } frames' =
            .ok (frames', { s.space with active := false }) ∧
          drop { s.space with active := false } frames' =
            .ok (frames', { s.space with active := false }) := by
  obtain ⟨s, results, hrun, U, kind, hs⟩ := Machine.run_ghost LowerHalf
    (fun (s : PagedSpace) held => ∃ U kind,
      s.Accounts [readCr3 cr3, space.pml4Phys] U₀ U kind held) hold
    (fun {s held op} ⟨U, kind, hs⟩ hop => by
      obtain ⟨s', result, U', kind', hstep, hs'⟩ := hs.step hop
      exact ⟨s', result, hstep, U', kind', hs'⟩)
    ops (accounts_created h hroot hkernel hcreate) hops
  obtain ⟨L', hready⟩ := hs.tree.layout.ready
  obtain ⟨frames, L'', hwalk, hdealloc, hfreed⟩ := hs.tree.freeTable hready
    fun f k hf => h.lists.range f (hs.tables f k hf)
  rw [hs.freed_eq] at hfreed
  refine ⟨s, results, U, L', hrun, hready, _, frames, L'', ?_, if_pos hs.active, hdealloc,
    hs.tree.nodup_tablesBelow, fun addr => hs.mem_tables, fun n t ht hmem => ?_, hfreed,
    fun frames' => ⟨if_pos (by simp), if_neg (by simp)⟩⟩
  · rw [destroy_eq_freeTable hs.active, hwalk]
  obtain ⟨path, k, hpath⟩ := mem_tablesBelow.mp hmem
  have hother := (hs.tree.layout.kernel _ hs.root n t ht).2
  rw [(hs.tree.table hpath).2] at hother
  cases hother

/-- Frames 8 to 11 are tables when a page has been mapped and unmapped; frame 12 is held. -/
theorem empty_tables_returned : ∃ s results frames L, Machine.run step newSpace
      [.mapUserPage 0x400000 0x5000 0, .allocateFrame, .unmapUserPage 0x400000] =
        .ok (s, results) ∧
    results = [.ok none, .ok (some 0xC000), .ok (some 0x5000)] ∧
    s.space.destroy s.frames = .ok (frames, { s.space with active := false }) ∧
    frames.Ready ((∅ ∪ block 3 8) \ {12}) L := by
  obtain ⟨L, hready⟩ := PagingSystem.kernelFrames_ready
  have houtputs : Machine.outputs step newSpace
      [.mapUserPage 0x400000 0x5000 0, .allocateFrame, .unmapUserPage 0x400000] =
      .ok [.ok none, .ok (some 0xC000), .ok (some 0x5000)] := by decide +kernel
  obtain ⟨s, results, U, L', hrun, -, tables, frames, L'', hdestroy, -, hdealloc, -, -, -, hfree,
    -⟩ := destroy_frees_tables hready (by decide)
      (fun n t ht => by rw [PagingSystem.kernelTable_booted ht]; decide) create_newSpace
      [.mapUserPage 0x400000 0x5000 0, .allocateFrame, .unmapUserPage 0x400000] (by decide)
  rw [Machine.outputs, hrun, Exec.ok_bind] at houtputs
  cases houtputs
  rw [hdealloc, Exec.ok_bind] at hdestroy
  exact ⟨s, _, frames, L'', hrun, rfl, hdestroy, hfree⟩

end PagedSpace

end Fabric
