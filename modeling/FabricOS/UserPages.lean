/-
The page tables of an address space are a partial map.

`map_user_page` makes the tables that it needs on the way, and may find itself without a frame
when some are made already; `unmap_user_page` leaves empty tables behind.  None of this shows
when pages are looked up: what a page is mapped to is what the last successful call for this
page says.
-/
import FabricOS.PageMap
import FabricOS.PagingSystem
import FabricOS.PartialMap

open Function Option UInt64

namespace Fabric

open Buddy FreeBlockPtr PageTable FrameState PageTableFlags PartialMap AddressSpace

/-! ### Looking up a page -/

namespace AddressSpace

/-- Walk the tables to find the entry of a page, without creation. -/
def walkToEntry (space : AddressSpace) (mem : ByteMemory) (virt : UInt64) : Option PageTableEntry :=
  (walk mem space.pml4Phys (tablePath virt)).map fun pt => entry mem pt (ptIndex virt)

/-- The frame and the flags that a page is mapped with. -/
def lookup (space : AddressSpace) (mem : ByteMemory) (virt : UInt64) :
    Option (ℕ × PageTableFlags) :=
  ((space.walkToEntry mem virt).filter (·.isPresent)).map fun e => (e.addr, e.flags)

end AddressSpace

variable {space : AddressSpace} {virt : UInt64}

lemma lookup_eq_pageAt {mem : ByteMemory} (hlow : pml4Index virt < 256) : space.lookup mem virt =
      (pageAt mem space.pml4Phys (pagePath virt)).map fun e => (e.addr, e.flags) := by
  have hstart : tableAt mem space.pml4Phys [] =
      some ((tablePath virt).length + 1, space.pml4Phys) := rfl
  have hwalk := tableAt_walk (tablePath virt) hstart (lower_tablePath hlow)
  rw [List.append_nil] at hwalk
  rw [lookup, walkToEntry, pagePath]
  cases hpt : walk mem space.pml4Phys (tablePath virt) with
  | none =>
    rw [hpt] at hwalk
    rw [pageAt_of_none hwalk]
    rfl
  | some pt =>
    rw [hpt] at hwalk
    rw [pageAt_cons hwalk ptIndex_lt, map_some, filter_some]

namespace PageTableEntry

variable {addr : UInt64} {flags : PageTableFlags}

lemma set_and_mask (h : flags &&& addrMask = 0) :
    (addr &&& addrMask ||| flags) &&& addrMask = addr &&& addrMask ∧
      (addr &&& addrMask ||| flags) &&& ~~~addrMask = flags := by
  have hbit : ∀ i, (flags.toBitVec.getLsbD i && addrMask.toBitVec.getLsbD i) = false := by
    intro i
    have hi := congrArg (fun x : UInt64 => x.toBitVec.getLsbD i) h
    simpa using hi
  have haddr : ∀ a f m : Bool, (f && m) = false → ((a && m || f) && m) = (a && m) := by decide
  have hflags : ∀ a f m : Bool, (f && m) = false → ((a && m || f) && !m) = f := by decide
  constructor
  · refine UInt64.eq_of_toBitVec_eq (BitVec.eq_of_getLsbD_eq fun i _ => ?_)
    simp only [UInt64.toBitVec_and, UInt64.toBitVec_or, BitVec.getLsbD_and, BitVec.getLsbD_or]
    exact haddr _ _ _ (hbit i)
  · refine UInt64.eq_of_toBitVec_eq (BitVec.eq_of_getLsbD_eq fun i hi => ?_)
    simp only [UInt64.toBitVec_and, UInt64.toBitVec_or, UInt64.toBitVec_not, BitVec.getLsbD_and,
      BitVec.getLsbD_or, BitVec.getLsbD_not, hi, decide_true, Bool.true_and]
    exact hflags _ _ _ (hbit i)

end PageTableEntry

variable {flags : PageTableFlags}

lemma userFlags_and_addrMask (h : flags &&& addrMask = 0) : userFlags flags &&& addrMask = 0 := by
  have hconst : (present ||| writable ||| user) &&&
      addrMask = 0 := by decide
  rw [← UInt64.toNat_inj, UInt64.toNat_and] at *
  rw [userFlags, UInt64.toNat_or, Nat.and_or_distrib_right, hconst, h]
  rfl

/-! ### Calls on an address space -/

/-- An address space, and the frames that it takes its tables from. -/
structure PagedSpace where
  frames : FrameState
  space : AddressSpace

namespace PagedSpace

inductive Op
  | mapUserPage (virt phys : UInt64) (flags : PageTableFlags)
  | unmapUserPage (virt : UInt64)
  /-- A client takes a frame, such as for the contents of a page. -/
  | allocateFrame
  deriving DecidableEq

/-- An error, or success, with the frame that the call returns, if it does. -/
abbrev Result := Except AddressSpaceError (Option ℕ)

def step (s : PagedSpace) : Op → Exec (PagedSpace × Result)
  | .mapUserPage virt phys flags => do
    let (frames, space, result) ← s.space.mapUserPage s.frames virt phys flags
    .ok (⟨frames, space⟩, result.map fun _ => none)
  | .unmapUserPage virt =>
    let (frames, space, result) := s.space.unmapUserPage s.frames virt
    .ok (⟨frames, space⟩, result.map some)
  | .allocateFrame => do
    let (frames, addr) ← s.frames.allocate 0
    match addr with
    | none => .ok (⟨frames, s.space⟩, .error .allocationFailed)
    | some addr => .ok (⟨frames, s.space⟩, .ok (some addr))

lemma step_mapUserPage {s : PagedSpace} {virt phys : UInt64}
    {frames : FrameState} {result : Except AddressSpaceError Unit}
    (h : s.space.mapUserPage s.frames virt phys flags = .ok (frames, space, result)) :
    s.step (.mapUserPage virt phys flags) = .ok (⟨frames, space⟩, result.map fun _ => none) := by
  simp only [step, h, Exec.ok_bind]

lemma step_unmapUserPage {s : PagedSpace} {frames : FrameState}
    {result : Except AddressSpaceError ℕ}
    (h : s.space.unmapUserPage s.frames virt = (frames, space, result)) :
    s.step (.unmapUserPage virt) = .ok (⟨frames, space⟩, result.map some) := by
  simp only [step, h]

def Canonical (virt : UInt64) : Prop := virt < 0x0000800000000000

instance (virt : UInt64) : Decidable (Canonical virt) := inferInstanceAs (Decidable (_ < _))

/-- The address is a canonical one of the lower half.  Flags are made of the constants of
`PageTableFlags` only, all of which are outside of the address of an entry. -/
def LowerHalf : Op → Prop
  | .mapUserPage virt _ flags => Canonical virt ∧ flags &&& addrMask = 0
  | .unmapUserPage virt => Canonical virt
  | .allocateFrame => True

instance : DecidablePred LowerHalf := fun op => by
  cases op <;> unfold LowerHalf <;> infer_instance

lemma Canonical.lt (h : Canonical virt) : virt.toNat < 2 ^ 47 :=
  lt_iff_toNat_lt.mp h

def page (virt : UInt64) : ℕ := virt.toNat / pageSize

lemma page_lt (h : Canonical virt) : page virt < 2 ^ 35 := by
  have hlt := h.lt
  rw [page, pageSize]
  omega

lemma exists_page {p : ℕ} (hp : p < 2 ^ 35) : ∃ virt, Canonical virt ∧ page virt = p := by
  have hvirt : (ofNat (p * pageSize)).toNat = p * pageSize := by
    rw [toNat_ofNat', pageSize]
    omega
  refine ⟨.ofNat (p * pageSize), ?_, ?_⟩
  · rw [Canonical, lt_iff_toNat_lt, hvirt, pageSize]
    show p * 4096 < 0x0000800000000000
    omega
  · rw [page, hvirt, Nat.mul_div_cancel p (by decide)]

def lookup (s : PagedSpace) (virt : UInt64) : Option (ℕ × PageTableFlags) :=
  s.space.lookup s.frames.mem virt

def mappedPages (s : PagedSpace) : Set ℕ :=
  {p | ∃ virt, Canonical virt ∧ page virt = p ∧ (s.lookup virt).isSome}

/-! ### The partial map -/

/-- What the pages are mapped to, as frames and flags. -/
abbrev Mapping := ℕ → Option (ℕ × PageTableFlags)

/-- The map after a call with its result.  A page is mapped to the frame of the address that is
given, with the flags for user pages and those that are given. -/
def record (m : Mapping) : Op × Result → Mapping
  | (.mapUserPage virt phys flags, .ok _) =>
    Function.update m (page virt) (some ((phys &&& addrMask).toNat, userFlags flags))
  | (.unmapUserPage virt, .ok _) => Function.update m (page virt) none
  | _ => m

/-- The last successful mapping of each page that is not yet unmapped. -/
def mappings (history : List (Op × Result)) : Mapping := history.foldl record fun _ => none

/-- The address space stands for the map. -/
structure Refines (s : PagedSpace) (U : Finset ℕ) (kind : ℕ → FrameKind) (m : Mapping) :
    Prop where
  tree : PageTree s.frames U kind [] s.space.pml4Phys
  pages : ∀ virt, Canonical virt → s.lookup virt = m (page virt)
  range : ∀ p, (m p).isSome → p < 2 ^ 35
  count : s.space.userPageCount = (PartialMap.support m).ncard

variable {s s' : PagedSpace} {U U' : Finset ℕ} {kind kind' : ℕ → FrameKind} {m : Mapping}
  {virt : UInt64}

lemma lookup_eq (h : Canonical virt) : s.lookup virt =
    (pageAt s.frames.mem s.space.pml4Phys (pagePath virt)).map fun e => (e.addr, e.flags) :=
  lookup_eq_pageAt (pml4Index_lt h.lt)

lemma Refines.mappedPages (h : s.Refines U kind m) : s.mappedPages = PartialMap.support m := by
  ext p
  constructor
  · rintro ⟨virt, hvirt, rfl, hsome⟩
    rwa [h.pages virt hvirt] at hsome
  · intro hp
    obtain ⟨virt, hvirt, rfl⟩ := exists_page (h.range p hp)
    refine ⟨virt, hvirt, rfl, ?_⟩
    rwa [h.pages virt hvirt]

lemma Refines.congr (h : s.Refines U kind m)
    (htree : PageTree s'.frames U' kind' [] s.space.pml4Phys) (hspace : s'.space = s.space)
    (hpages : ∀ q, pageAt s'.frames.mem s.space.pml4Phys q =
      pageAt s.frames.mem s.space.pml4Phys q) : s'.Refines U' kind' m := by
  refine ⟨?_, fun virt hvirt => ?_, h.range, ?_⟩
  · rwa [hspace]
  · rw [lookup_eq hvirt, hspace, hpages, ← lookup_eq hvirt, h.pages virt hvirt]
  · rw [hspace, h.count]

lemma Refines.update (h : s.Refines U kind m) (hvirt : Canonical virt)
    {e : Option PageTableEntry} (htree : PageTree s'.frames U' kind' [] s.space.pml4Phys)
    (hspace : s'.space.pml4Phys = s.space.pml4Phys)
    (hpages : pageAt s'.frames.mem s.space.pml4Phys =
      update (pageAt s.frames.mem s.space.pml4Phys) (pagePath virt) e)
    (hcount : s'.space.userPageCount = (PartialMap.support (update m (page virt)
      (e.map fun e => (e.addr, e.flags)))).ncard) :
    s'.Refines U' kind' (update m (page virt) (e.map fun e => (e.addr, e.flags))) := by
  refine ⟨?_, fun virt' hvirt' => ?_, fun p hp => ?_, hcount⟩
  · rwa [hspace]
  · rw [lookup_eq hvirt', hspace, hpages]
    by_cases hpage : page virt' = page virt
    · have hpath : pagePath virt' = pagePath virt := (pagePath_inj hvirt'.lt hvirt.lt).mpr hpage
      rw [hpath, hpage, update_self, update_self]
    · have hpath : pagePath virt' ≠ pagePath virt := fun heq =>
        hpage ((pagePath_inj hvirt'.lt hvirt.lt).mp heq)
      rw [update_of_ne hpath, update_of_ne hpage, ← lookup_eq hvirt', h.pages virt' hvirt']
  · by_cases hpage : p = page virt
    · rw [hpage]
      exact page_lt hvirt
    · rw [update_of_ne hpage] at hp
      exact h.range p hp

lemma Refines.isSome_pageAt (h : s.Refines U kind m) (hvirt : Canonical virt) :
    (pageAt s.frames.mem s.space.pml4Phys (pagePath virt)).isSome = (m (page virt)).isSome := by
  rw [← h.pages virt hvirt, lookup_eq hvirt, isSome_map]

lemma Refines.mapUserPage (h : s.Refines U kind m) (hvirt : Canonical virt) (phys : UInt64)
    (hflags : flags &&& addrMask = 0) :
    ∃ s' result U' kind', s.step (.mapUserPage virt phys flags) = .ok (s', result) ∧
      s'.Refines U' kind' (record m (.mapUserPage virt phys flags, result)) ∧
      (result = .error .alreadyMapped ↔ (m (page virt)).isSome) := by
  have hsome := h.isSome_pageAt hvirt
  obtain ⟨frames, U', kind', hgrows, ⟨hnone, hmap, hpages⟩ | ⟨e, hmap, hpages, herror⟩⟩ :=
    h.tree.mapUserPage_cases (pml4Index_lt hvirt.lt) phys flags
  · have hnew : m (page virt) = none := by
      rw [hnone] at hsome
      exact isNone_iff_eq_none.mp (isSome_eq_false_iff.mp hsome.symm)
    have huser := userFlags_and_addrMask hflags
    refine ⟨_, .ok none, U', kind', step_mapUserPage hmap, ?_, by simp [hnew]⟩
    have hvalue : some ((phys &&& addrMask).toNat, userFlags flags) =
        (some (PageTableEntry.set phys (userFlags flags))).map fun e => (e.addr, e.flags) := by
      simp only [map_some, PageTableEntry.addr, PageTableEntry.flags, PageTableEntry.set,
        PageTableEntry.set_and_mask huser]
    rw [record, hvalue]
    refine h.update hvirt hgrows.tree rfl hpages ?_
    rw [map_some, ncard_support_insert ((Set.finite_lt_nat (2 ^ 35)).subset h.range) hnew,
      ← h.count]
  · refine ⟨_, .error e, U', kind', step_mapUserPage hmap,
      h.congr hgrows.tree rfl (congrFun hpages), ?_⟩
    obtain ⟨rfl, hmapped⟩ | ⟨rfl, hnone⟩ := herror
    · rw [← hsome, hmapped]
      simp
    · rw [← hsome, hnone]
      simp

lemma Refines.unmapUserPage (h : s.Refines U kind m) (hvirt : Canonical virt) :
    ∃ s' result, s.step (.unmapUserPage virt) = .ok (s', result) ∧
      s'.Refines U kind (record m (.unmapUserPage virt, result)) := by
  have hsome := h.isSome_pageAt hvirt
  obtain ⟨-, hunmap⟩ | ⟨frames, e, hpage, hunmap, hgrows, hpages⟩ :=
    h.tree.unmapUserPage_cases (pml4Index_lt hvirt.lt)
  · exact ⟨s, .error .notMapped, step_unmapUserPage hunmap, h⟩
  refine ⟨_, .ok (some e.addr), step_unmapUserPage hunmap, ?_⟩
  rw [hpage] at hsome
  refine h.update hvirt hgrows.tree rfl hpages (e := none) ?_
  rw [map_none, ncard_support_erase hsome.symm, ← h.count]

lemma Refines.allocateFrame (h : s.Refines U kind m) :
    ∃ s' result U' kind', s.step .allocateFrame = .ok (s', result) ∧
      s'.Refines U' kind' (record m (.allocateFrame, result)) := by
  obtain ⟨frames, f, -, halloc, -, htree, hpages, -⟩ | hnone := h.tree.takeFrame
  · exact ⟨⟨frames, s.space⟩, .ok (some (fromFrame f)), _, _, by simp [step, halloc],
      h.congr htree rfl hpages⟩
  · exact ⟨s, .error .allocationFailed, U, kind, by simp [step, hnone], h⟩

lemma Refines.step (h : s.Refines U kind m) {op : Op} (hop : LowerHalf op) :
    ∃ s' result U' kind', s.step op = .ok (s', result) ∧
      s'.Refines U' kind' (record m (op, result)) ∧
      ∀ virt phys flags, op = .mapUserPage virt phys flags →
        (result = .error .alreadyMapped ↔ (m (page virt)).isSome) := by
  cases op with
  | mapUserPage virt phys flags =>
    obtain ⟨s', result, U', kind', hstep, h', hresult⟩ := h.mapUserPage hop.1 phys hop.2
    refine ⟨s', result, U', kind', hstep, h', fun virt' phys' flags' heq => ?_⟩
    cases heq
    exact hresult
  | unmapUserPage virt =>
    obtain ⟨s', result, hstep, h'⟩ := h.unmapUserPage hop
    exact ⟨s', result, U, kind, hstep, h', fun _ _ _ heq => by cases heq⟩
  | allocateFrame =>
    obtain ⟨s', result, U', kind', hstep, h'⟩ := h.allocateFrame
    exact ⟨s', result, U', kind', hstep, h', fun _ _ _ heq => by cases heq⟩

/-! ### Sequences of calls -/

lemma refines_created {s0 s1 : FrameState} {L : ℕ → List ℕ} {cr3 : UInt64} (h : s0.Ready U L)
    (hcreate : AddressSpace.create s0 cr3 = .ok (s1, .ok space)) :
    ∃ U' kind', Refines ⟨s1, space⟩ U' kind' fun _ => none := by
  obtain ⟨f, -, rfl, htree, hpages, -⟩ := exists_created (layout_of_ready h) hcreate
  refine ⟨_, _, htree, fun virt hvirt => ?_, (fun p hp => by cases hp), ?_⟩
  · rw [lookup_eq hvirt]
    rw [hpages, map_none]
  · rw [support_none, Set.ncard_empty]

def Op.page? : Op → Option ℕ
  | .mapUserPage virt _ _ => some (page virt)
  | .unmapUserPage virt => some (page virt)
  | .allocateFrame => none

lemma record_apply_of_ne {op : Op} {result : Result} {p : ℕ}
    (h : result.isOk = false ∨ op.page? ≠ some p) : record m (op, result) p = m p := by
  obtain hfailed | hother := h
  · cases result with
    | error e => cases op <;> rfl
    | ok => cases hfailed
  cases result with
  | error e => cases op <;> rfl
  | ok =>
    cases op with
    | allocateFrame => rfl
    | mapUserPage virt phys flags | unmapUserPage virt =>
      exact update_of_ne (fun heq => hother (congrArg some heq.symm)) _ _

/-- **The page tables are a partial map.**  From a new address space, whatever calls are made at
canonical addresses of the lower half, and whatever frames are taken between them: looking up
a page yields the frame and the flags of the last successful mapping of this page that is not
yet unmapped, and the counter is the number of mapped pages.  The next call finds a page
mapped already just when it can be looked up; if it fails, even when some tables have been
made, nothing that is mapped changes, and if it succeeds, nothing else does. -/
theorem page_tables_are_a_map {s₀ s₁ : FrameState} {L : ℕ → List ℕ} {cr3 : UInt64}
    {space : AddressSpace} (h : s₀.Ready U L)
    (hcreate : AddressSpace.create s₀ cr3 = .ok (s₁, .ok space)) (ops : List Op)
    (hops : ∀ op ∈ ops, LowerHalf op) :
    ∃ s results, Machine.run step ⟨s₁, space⟩ ops = .ok (s, results) ∧
      (∀ virt, Canonical virt → s.lookup virt = mappings (ops.zip results) (page virt)) ∧
      s.space.userPageCount = s.mappedPages.ncard ∧
      ∀ op, LowerHalf op → ∃ s' result, s.step op = .ok (s', result) ∧
        (∀ virt phys flags, op = .mapUserPage virt phys flags →
          (result = .error .alreadyMapped ↔ (s.lookup virt).isSome)) ∧
        ∀ virt, Canonical virt → result.isOk = false ∨ op.page? ≠ some (page virt) →
          s'.lookup virt = s.lookup virt := by
  obtain ⟨s, results, hrun, U', kind', hs⟩ := Machine.run_ghost LowerHalf
    (fun (s : PagedSpace) m => ∃ U kind, s.Refines U kind m) record
    (fun {s m op} ⟨U, kind, hs⟩ hop => by
      obtain ⟨s', result, U', kind', hstep, hs', -⟩ := hs.step hop
      exact ⟨s', result, hstep, U', kind', hs'⟩) ops (refines_created h hcreate) hops
  refine ⟨s, results, hrun, hs.pages, ?_, fun op hop => ?_⟩
  · rw [hs.mappedPages, hs.count]
  obtain ⟨s', result, U'', kind'', hstep, hs', hresult⟩ := hs.step hop
  refine ⟨s', result, hstep, fun virt phys flags heq => ?_, fun virt hvirt hsame => ?_⟩
  · subst heq
    rw [hs.pages virt hop.1]
    exact hresult virt phys flags rfl
  · rw [hs'.pages virt hvirt, hs.pages virt hvirt, record_apply_of_ne hsame]

def newSpace : PagedSpace :=
  match AddressSpace.create PagingSystem.kernelFrames 0x10000 with
  | .ok (frames, .ok space) => ⟨frames, space⟩
  | _ => ⟨PagingSystem.kernelFrames, 0, 0, false⟩

lemma create_newSpace : AddressSpace.create PagingSystem.kernelFrames 0x10000 =
    .ok (newSpace.frames, .ok newSpace.space) := by
  have hresult : (create PagingSystem.kernelFrames 0x10000 >>=
      fun r => Exec.ok r.2.isOk) = .ok true := by decide +kernel
  obtain ⟨⟨frames, out⟩, hcreate, hout⟩ := Exec.bind_eq_ok.mp hresult
  cases out with
  | error e => cases hout
  | ok space => rw [newSpace, hcreate]

/-- A page is mapped, mapped again in vain, unmapped and mapped to another frame. -/
theorem last_mapping_found : ∃ s results, Machine.run step newSpace
      [.mapUserPage 0x400000 0x5000 0, .mapUserPage 0x400000 0x6000 0, .unmapUserPage 0x400000,
        .mapUserPage 0x400123 0x7000 PageTableFlags.noExecute] = .ok (s, results) ∧
    results = [.ok none, .error .alreadyMapped, .ok (some 0x5000), .ok none] ∧
    s.lookup 0x400000 = some (0x7000, 0x8000000000000007) ∧
    s.space.userPageCount = s.mappedPages.ncard := by
  obtain ⟨L, hready⟩ := PagingSystem.kernelFrames_ready
  have houtputs : Machine.outputs step newSpace
      [.mapUserPage 0x400000 0x5000 0, .mapUserPage 0x400000 0x6000 0, .unmapUserPage 0x400000,
        .mapUserPage 0x400123 0x7000 noExecute] =
      .ok [.ok none, .error .alreadyMapped, .ok (some 0x5000), .ok none] := by decide +kernel
  obtain ⟨s, results, hrun, hlookup, hcount, -⟩ :=
    page_tables_are_a_map hready create_newSpace
      [.mapUserPage 0x400000 0x5000 0, .mapUserPage 0x400000 0x6000 0, .unmapUserPage 0x400000,
        .mapUserPage 0x400123 0x7000 noExecute] (by decide)
  rw [Machine.outputs, hrun, Exec.ok_bind] at houtputs
  cases houtputs
  refine ⟨s, _, hrun, rfl, (hlookup 0x400000 (by decide)).trans ?_, hcount⟩
  decide

end PagedSpace

end Fabric
