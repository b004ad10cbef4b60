/-
What the operations on page tables do to memory.

A byte belongs to one entry of the table in its page.  So an entry is kept by whatever keeps
its bytes (`entry_congr`), and storing an entry changes only its own bytes
(`setEntry_apply_of_ne`).
-/
import FabricOS.AddressSpace
import FabricOS.BuddyAllocator

open Nat

namespace Fabric

open Buddy FreeBlockPtr DyadicBlocks PageTable ByteMemory PageTableEntry

/-! ### Entries -/

namespace PageTableEntry

variable {e : PageTableEntry} {flags : PageTableFlags} {f : ℕ}

lemma isPresent_iff : e.isPresent = true ↔ e.bits.toNat.testBit 0 = true := by
  have hand : (e.bits &&& PageTableFlags.present).toNat = e.bits.toNat % 2 := by
    rw [UInt64.toNat_and, PageTableFlags.present, UInt64.toNat_one, and_one_is_mod]
  rw [isPresent, bne_iff_ne, ne_eq, ← UInt64.toNat_inj, hand, testBit_zero]
  simp

lemma not_isPresent_empty : empty.isPresent = false := by decide

lemma dvd_addr : pageSize ∣ e.addr := by
  rw [addr, UInt64.toNat_and]
  apply dvd_of_mod_eq_zero
  rw [pageSize, show 4096 = 2 ^ 12 from rfl, and_mod_two_pow]
  have hmask : addrMask.toNat % 2 ^ 12 = 0 := by decide
  rw [hmask, and_zero]

lemma isPresent_set {addr : UInt64} (h : flags.toNat.testBit 0 = true) :
    (set addr flags).isPresent = true := by
  rw [isPresent_iff, set, UInt64.toNat_or, testBit_or, h, Bool.or_true]

lemma testBit_addrMask (i : ℕ) : addrMask.toNat.testBit i = decide (12 ≤ i ∧ i < 52) := by
  by_cases hi : i < 64
  · have hall : ∀ i < 64, addrMask.toNat.testBit i = decide (12 ≤ i ∧ i < 52) := by decide
    exact hall i hi
  have hlt : addrMask.toNat < 2 ^ i :=
    lt_of_lt_of_le (by decide) (Nat.pow_le_pow_right two_pos (not_lt.mp hi))
  rw [testBit_lt_two_pow hlt]
  exact (decide_eq_false (by omega)).symm

lemma addr_set (hf : f < maxFrames) (hflags : flags.toNat < 2 ^ 12) :
    (set (.ofNat (fromFrame f)) flags).addr = fromFrame f := by
  have hlt : fromFrame f < 2 ^ 52 :=
    lt_of_lt_of_le (mul_lt_mul_of_pos_right hf (by decide)) (by decide)
  have haddr : (UInt64.ofNat (fromFrame f)).toNat = fromFrame f := by
    rw [UInt64.toNat_ofNat', mod_eq_of_lt (lt_trans hlt (by decide))]
  rw [addr, set, UInt64.toNat_and, UInt64.toNat_or, UInt64.toNat_and, haddr]
  refine eq_of_testBit_eq fun i => ?_
  rw [testBit_and, testBit_or, testBit_and, testBit_addrMask]
  by_cases hlow : i < 12
  · have hzero : (fromFrame f).testBit i = false := by
      rw [fromFrame, pageSize, show 4096 = 2 ^ 12 from rfl, testBit_mul_two_pow]
      simp [hlow]
    simp [hzero, hlow]
  · have hflag : flags.toNat.testBit i = false :=
      testBit_lt_two_pow (lt_of_lt_of_le hflags (Nat.pow_le_pow_right two_pos (by omega)))
    by_cases hhigh : i < 52
    · simp [hflag, hhigh, not_lt.mp hlow]
    · have hzero : (fromFrame f).testBit i = false :=
        testBit_lt_two_pow (lt_of_lt_of_le hlt (Nat.pow_le_pow_right two_pos (by omega)))
      simp [hzero, hhigh]

end PageTableEntry

lemma and_0x1FF_lt (x : UInt64) : (x &&& 0x1FF).toNat < 512 := by
  exact and_lt_two_pow _ (by decide : (0x1FF : UInt64).toNat < 2 ^ 9)

lemma index_eq (x k : UInt64) (hk : k.toNat < 64) :
    ((x >>> k) &&& 0x1FF).toNat = x.toNat / 2 ^ k.toNat % 512 := by
  rw [UInt64.toNat_and, UInt64.toNat_shiftRight, mod_eq_of_lt hk, shiftRight_eq_div_pow]
  exact and_two_pow_sub_one_eq_mod _ 9

lemma lt_of_mem_tablePath {virt : UInt64} {i : ℕ} (h : i ∈ tablePath virt) : i < 512 := by
  simp only [tablePath, List.mem_cons, List.not_mem_nil, or_false] at h
  obtain rfl | rfl | rfl := h <;> exact and_0x1FF_lt _

lemma ptIndex_lt {virt : UInt64} : ptIndex virt < 512 := and_0x1FF_lt _

/-! ### Bytes -/

namespace PageTable

variable {m m' : ByteMemory} {t u i j x : ℕ} {e : PageTableEntry}

lemma entry_congr (ht : pageSize ∣ t) (hi : i < 512)
    (h : ∀ x, x / pageSize = t / pageSize → x % pageSize / 8 = i → m' x = m x) :
    entry m' t i = entry m t i := by
  obtain ⟨f, rfl⟩ := ht
  unfold entry
  rw [read_congr fun x hle hlt => h x ?_ ?_]
  · rw [pageSize] at hle hlt ⊢
    omega
  · rw [pageSize] at hle hlt ⊢
    omega

lemma setEntry_apply_of_ne (ht : pageSize ∣ t) (hi : i < 512)
    (h : x / pageSize = t / pageSize → x % pageSize / 8 ≠ i) : setEntry m t i e x = m x := by
  obtain ⟨f, rfl⟩ := ht
  refine write_apply_of_not_mem ?_
  rintro ⟨hle, hlt⟩
  rw [pageSize] at h hle hlt
  exact h (by omega) (by omega)

@[simp] lemma entry_setEntry_self : entry (setEntry m t i e) t i = e := by
  unfold entry setEntry
  rw [read_write_self, mod_eq_of_lt (lt_of_lt_of_le e.bits.toNat_lt (by decide)),
    UInt64.ofNat_toNat]

lemma entry_setEntry_of_ne (ht : pageSize ∣ t) (hu : pageSize ∣ u) (hi : i < 512) (hj : j < 512)
    (h : u = t → j ≠ i) : entry (setEntry m t i e) u j = entry m u j := by
  refine entry_congr hu hj fun x hpage hindex => setEntry_apply_of_ne ht hi fun hpage' => ?_
  rw [hindex]
  refine h ?_
  rw [← Nat.div_mul_cancel hu, ← Nat.div_mul_cancel ht, ← hpage, hpage']

lemma entry_zero (hi : i < 512) : entry (zero m t) t i = .empty := by
  unfold entry zero
  rw [read_fill_zero (le_add_right _ _) (by rw [pageSize]; omega)]
  rfl

lemma zero_apply_of_ne (ht : pageSize ∣ t) (h : x / pageSize ≠ t / pageSize) :
    zero m t x = m x := by
  obtain ⟨f, rfl⟩ := ht
  unfold zero
  refine blit_apply_of_not_mem ?_
  rw [pageSize] at h ⊢
  omega

end PageTable

/-! ### Following and creating tables -/

lemma dvd_fromFrame {f : ℕ} : pageSize ∣ fromFrame f := dvd_mul_left pageSize f

namespace FrameState

variable {s s' : FrameState} {U : Finset ℕ} {L : ℕ → List ℕ} {t i : ℕ}

/-- The entry that leads to a table in frame `f`. -/
def link (f : ℕ) : PageTableEntry :=
  .set (.ofNat (fromFrame f))
    (PageTableFlags.present ||| PageTableFlags.writable ||| PageTableFlags.user)

lemma isPresent_link {f : ℕ} : (link f).isPresent = true :=
  isPresent_set (by decide)

lemma addr_link {f : ℕ} (hf : f < maxFrames) : (link f).addr = fromFrame f :=
  addr_set hf (by decide)

lemma Ready.nextOrCreate_cases (h : Ready s U L) (t i : ℕ) : ((entry s.mem t i).isPresent = true ∧
      s.nextOrCreate t i = .ok (s, .ok (entry s.mem t i).addr)) ∨
    (entry s.mem t i).isPresent = false ∧
      (s.nextOrCreate t i = .ok (s, .error .allocationFailed) ∨
      ∃ s1 f L', f ∈ U ∧ Ready s1 (U.erase f) L' ∧
        (∀ x, x / pageSize ∉ U → s1.mem x = s.mem x) ∧
        s.nextOrCreate t i = .ok (⟨s1.alloc, setEntry (zero s1.mem (fromFrame f)) t i (link f)⟩,
          .ok (fromFrame f))) := by
  unfold nextOrCreate
  cases hpresent : (entry s.mem t i).isPresent with
  | true =>
    refine .inl ⟨rfl, ?_⟩
    simp only [hpresent, if_true]
  | false =>
    refine .inr ⟨rfl, ?_⟩
    simp only [hpresent, Bool.false_eq_true, if_false]
    obtain ⟨s1, f, L', halloc, hf, hready, hmem⟩ | hnone := h.takeFrame
    · rw [halloc]
      exact .inr ⟨s1, f, L', hf, hready, hmem, rfl⟩
    · rw [hnone]
      exact .inl rfl

end FrameState

/-- The entries that are present, in frames outside of `U`, are kept. -/
def KeepsPresent (U : Finset ℕ) (m m' : ByteMemory) : Prop :=
  ∀ u j, pageSize ∣ u → u / pageSize ∉ U → j < 512 → (entry m u j).isPresent = true →
    entry m' u j = entry m u j

lemma KeepsPresent.trans {U U' : Finset ℕ} {m m' m'' : ByteMemory} (h : KeepsPresent U m m')
    (h' : KeepsPresent U' m' m'') (hsub : U' ⊆ U) : KeepsPresent U m m'' := by
  intro u j hu hU hj hpresent
  have hfirst := h u j hu hU hj hpresent
  have hpresent' : (entry m' u j).isPresent = true := by rw [hfirst, hpresent]
  exact (h' u j hu (fun hU' => hU (hsub hU')) hj hpresent').trans hfirst

lemma keepsPresent_setEntry {U : Finset ℕ} {m : ByteMemory} {t i : ℕ} {e : PageTableEntry}
    (ht : pageSize ∣ t) (hi : i < 512) (habsent : (entry m t i).isPresent = false) :
    KeepsPresent U m (setEntry m t i e) := by
  intro u j hu _ hj hpresent
  refine entry_setEntry_of_ne ht hu hi hj ?_
  rintro rfl rfl
  rw [habsent] at hpresent
  cases hpresent

namespace FrameState

variable {s s' : FrameState} {U : Finset ℕ} {L : ℕ → List ℕ} {t i : ℕ}

lemma entry_create {s1 : FrameState} {f u j : ℕ} {e : PageTableEntry}
    (hmem : ∀ x, x / pageSize ∉ U → s1.mem x = s.mem x) (hf : f ∈ U) (ht : pageSize ∣ t)
    (hu : pageSize ∣ u) (huU : u / pageSize ∉ U) (hi : i < 512) (hj : j < 512)
    (h : u = t → j ≠ i) :
    entry (setEntry (zero s1.mem (fromFrame f)) t i e) u j = entry s.mem u j := by
  rw [entry_setEntry_of_ne ht hu hi hj h]
  refine entry_congr hu hj fun x hpage _ => ?_
  have hne : x / pageSize ≠ fromFrame f / pageSize := by
    rw [hpage, fromFrame_div]
    rintro rfl
    exact huU hf
  rw [zero_apply_of_ne dvd_fromFrame hne]
  refine hmem x ?_
  rwa [hpage]

/-- The table is outside of the free frames and has no entry. -/
def Blank (s : FrameState) (U : Finset ℕ) (f : ℕ) : Prop :=
  f ∉ U ∧ ∀ j < 512, (entry s.mem (fromFrame f) j).isPresent = false

lemma Ready.create {s1 : FrameState} {L' : ℕ → List ℕ} {f : ℕ} (h : Ready s1 (U.erase f) L')
    (hf : f ∈ U) (ht : pageSize ∣ t) (htU : t / pageSize ∉ U) (hi : i < 512) :
    Ready ⟨s1.alloc, setEntry (zero s1.mem (fromFrame f)) t i (link f)⟩ (U.erase f) L' ∧
      Blank ⟨s1.alloc, setEntry (zero s1.mem (fromFrame f)) t i (link f)⟩ (U.erase f) f := by
  have hne : f ≠ t / pageSize := by
    rintro rfl
    exact htU hf
  refine ⟨h.setMem fun x hx => ?_, Finset.notMem_erase f U, fun j hj => ?_⟩
  · obtain ⟨hxf, hxU⟩ := Finset.mem_erase.mp hx
    rw [setEntry_apply_of_ne ht hi, zero_apply_of_ne dvd_fromFrame (by rwa [fromFrame_div])]
    intro hpage
    exact absurd (hpage ▸ hxU) htU
  · have hother : fromFrame f ≠ t := by
      rintro rfl
      exact hne fromFrame_div.symm
    rw [entry_setEntry_of_ne ht dvd_fromFrame hi hj fun heq => absurd heq hother, entry_zero hj]
    exact not_isPresent_empty

lemma Ready.walkOrCreate_blank : ∀ {path : List ℕ} {s : FrameState} {U : Finset ℕ}
    {L : ℕ → List ℕ} {f : ℕ} {out : Except AddressSpaceError ℕ}, Ready s U L → Blank s U f →
    (∀ i ∈ path, i < 512) → s.walkOrCreate (fromFrame f) path = .ok (s', out) →
    KeepsPresent U s.mem s'.mem ∧ ∀ u, out = .ok u → pageSize ∣ u := by
  intro path
  induction path with
  | nil =>
    intro s U L f out _ _ _ hwalk
    cases hwalk
    refine ⟨fun _ _ _ _ _ _ => rfl, fun u hu => ?_⟩
    cases hu
    exact dvd_fromFrame
  | cons i path ih =>
    intro s U L f out h hblank hpath hwalk
    have hi : i < 512 := hpath i List.mem_cons_self
    have hfU : fromFrame f / pageSize ∉ U := by
      rw [fromFrame_div]
      exact hblank.1
    rw [walkOrCreate] at hwalk
    obtain ⟨hpresent, -⟩ | ⟨habsent, hfull | ⟨s1, g, L', hg, hready, hmem, hnext⟩⟩ :=
      h.nextOrCreate_cases (fromFrame f) i
    · rw [hblank.2 i hi] at hpresent
      cases hpresent
    · rw [hfull] at hwalk
      cases hwalk
      exact ⟨fun _ _ _ _ _ _ => rfl, fun u hu => by cases hu⟩
    rw [hnext] at hwalk
    obtain ⟨hready1, hblank1⟩ := hready.create hg dvd_fromFrame hfU hi
    obtain ⟨hkeeps, hout⟩ := ih hready1 hblank1
      (fun i hi => hpath i (List.mem_cons_of_mem _ hi)) hwalk
    have hfirst : KeepsPresent U s.mem
        (setEntry (zero s1.mem (fromFrame g)) (fromFrame f) i (link g)) := by
      intro u j hu huU hj hpresent
      refine entry_create hmem hg dvd_fromFrame hu huU hi hj ?_
      rintro rfl rfl
      rw [habsent] at hpresent
      cases hpresent
    exact ⟨hfirst.trans hkeeps (Finset.erase_subset g U), hout⟩

end FrameState

end Fabric
