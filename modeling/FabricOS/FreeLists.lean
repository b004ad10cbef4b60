/-
The bitmap and the free lists of the frame allocator.

`Marks a V` says that the bitmap marks exactly the frames of `V` as free.  `Lists s U L` says
that following the links through memory gives the lists `L`, and that these hold exactly the
maximal blocks of `U`, so that `U` alone determines what is on the lists.

Each operation on a list takes a block away from `U` or adds one.
-/
import FabricOS.DyadicBlocks
import FabricOS.FrameAllocator
import FabricOS.SiblingForest

open Function List Nat

namespace Fabric

open Buddy FreeBlockPtr DyadicBlocks ByteMemory

/-! ### The bitmap -/

namespace BuddyAllocator

variable {a a' : BuddyAllocator} {V : Finset ℕ} {frame n x : ℕ}

/-- The bitmap marks exactly the frames of `V` as free. -/
def Marks (a : BuddyAllocator) (V : Finset ℕ) : Prop := ∀ x, a.isFree x = true ↔ x ∈ V

def SameButBitmap (a a' : BuddyAllocator) : Prop := a' = { a with bitmap := a'.bitmap }

lemma isFree_iff : a.isFree x = true ↔
    x < maxFrames ∧ (a.bitmap (x / 8)).getLsbD (x % 8) = false := by
  have hx : x % 8 < 8 := mod_lt x (by decide)
  have hbit : ∀ (b : BitVec 8) (i : ℕ), i < 8 →
      (b &&& 1#8 <<< i = 0#8 ↔ b.getLsbD i = false) := by
    intro b i hi
    constructor
    · intro h
      have hi' := congrArg (·.getLsbD i) h
      simpa [hi] using hi'
    · intro h
      apply BitVec.eq_of_getLsbD_eq
      intro j hj
      by_cases hij : j = i
      · subst hij
        simp [h]
      · simp [BitVec.getLsbD_one]
        omega
  simp only [isFree, Bool.and_eq_true, decide_eq_true_eq, beq_iff_eq, hbit _ _ hx]

lemma getLsbD_one_shiftLeft {i j : ℕ} (hj : j < 8) : (1#8 <<< i).getLsbD j = decide (j = i) := by
  simp only [BitVec.getLsbD_shiftLeft, BitVec.getLsbD_one, hj]
  by_cases h : j = i
  · simp [h]
  · simp [h]
    omega

lemma isFree_setBit (h : a.setBit frame = .ok a') :
    a'.isFree x = true ↔ a.isFree x = true ∧ x ≠ frame := by
  unfold setBit at h
  split_ifs at h
  cases h
  have hx : x % 8 < 8 := mod_lt x (by decide)
  rw [isFree_iff, isFree_iff, and_assoc]
  simp only [update_apply]
  split_ifs with hbyte
  · have heq : x = frame ↔ x % 8 = frame % 8 := by omega
    simp [getLsbD_one_shiftLeft hx, hbyte, heq]
  · have hne : x ≠ frame := fun heq => hbyte (by rw [heq])
    simp [hne]

lemma isFree_clearBit (h : a.clearBit frame = .ok a') (hframe : frame < maxFrames) :
    a'.isFree x = true ↔ a.isFree x = true ∨ x = frame := by
  unfold clearBit at h
  split_ifs at h
  cases h
  have hx : x % 8 < 8 := mod_lt x (by decide)
  rw [isFree_iff, isFree_iff]
  simp only [update_apply]
  split_ifs with hbyte
  · have heq : x % 8 = frame % 8 ↔ x = frame := by omega
    have hlt : x = frame → x < maxFrames := fun heq => heq ▸ hframe
    simp only [BitVec.getLsbD_and, BitVec.getLsbD_not, getLsbD_one_shiftLeft hx, hx, hbyte,
      decide_true, Bool.true_and, Bool.and_eq_false_iff, Bool.not_eq_false', decide_eq_true_eq, heq]
    tauto
  · have hne : x ≠ frame := fun heq => hbyte (by rw [heq])
    simp [hne]

lemma exists_setBit (h : frame < maxFrames) :
    ∃ a', a.setBit frame = .ok a' ∧ a.SameButBitmap a' := by
  have hbyte : frame / 8 < bitmapSize := Nat.div_lt_of_lt_mul h
  exact ⟨_, if_pos hbyte, rfl⟩

lemma exists_clearBit (h : frame < maxFrames) :
    ∃ a', a.clearBit frame = .ok a' ∧ a.SameButBitmap a' := by
  have hbyte : frame / 8 < bitmapSize := Nat.div_lt_of_lt_mul h
  exact ⟨_, if_pos hbyte, rfl⟩

lemma SameButBitmap.fields (h : a.SameButBitmap a') : a'.freeLists = a.freeLists ∧
    a'.totalFrames = a.totalFrames ∧ a'.freeFrames = a.freeFrames ∧
      a'.initialized = a.initialized := by
  rw [h]
  exact ⟨rfl, rfl, rfl, rfl⟩

lemma SameButBitmap.trans {a'' : BuddyAllocator} (h : a.SameButBitmap a')
    (h' : a'.SameButBitmap a'') : a.SameButBitmap a'' := by
  unfold SameButBitmap at *
  rw [h', h]

lemma mem_Ico_succ : x ∈ Finset.Ico frame (frame + (n + 1)) ↔
    x ∈ Finset.Ico frame (frame + n) ∨ x = frame + n := by
  simp only [Finset.mem_Ico]
  omega

lemma exists_setBits (frame n : ℕ) (hmarks : a.Marks V) (h : frame + n ≤ maxFrames) :
    ∃ a', a.setBits frame n = .ok a' ∧ a'.Marks (V \ Finset.Ico frame (frame + n)) ∧
      a.SameButBitmap a' := by
  induction n with
  | zero => exact ⟨a, rfl, by simpa using hmarks, rfl⟩
  | succ n ih =>
    obtain ⟨a1, hset1, hmarks1, hsame1⟩ := ih (by omega)
    obtain ⟨a2, hset2, hsame2⟩ := exists_setBit (a := a1) (show frame + n < maxFrames by omega)
    refine ⟨a2, by simp [setBits, hset1, hset2], fun x => ?_, hsame1.trans hsame2⟩
    rw [isFree_setBit hset2, hmarks1, Finset.mem_sdiff, Finset.mem_sdiff, mem_Ico_succ]
    tauto

lemma exists_clearBits (frame n : ℕ) (hmarks : a.Marks V) (h : frame + n ≤ maxFrames) :
    ∃ a', a.clearBits frame n = .ok a' ∧ a'.Marks (V ∪ Finset.Ico frame (frame + n)) ∧
      a.SameButBitmap a' := by
  induction n with
  | zero => exact ⟨a, rfl, by simpa using hmarks, rfl⟩
  | succ n ih =>
    obtain ⟨a1, hclear1, hmarks1, hsame1⟩ := ih (by omega)
    have hlt : frame + n < maxFrames := by omega
    obtain ⟨a2, hclear2, hsame2⟩ := exists_clearBit (a := a1) hlt
    refine ⟨a2, by simp [clearBits, hclear1, hclear2], fun x => ?_, hsame1.trans hsame2⟩
    rw [isFree_clearBit hclear2 hlt, hmarks1, Finset.mem_union, Finset.mem_union, mem_Ico_succ]
    tauto

lemma Marks.allFree_iff (h : a.Marks V) (hV : ∀ x ∈ V, x < maxFrames) :
    a.allFree frame n = true ↔ Finset.Ico frame (frame + n) ⊆ V := by
  simp only [allFree, all_eq_true, mem_range, Bool.and_eq_true, decide_eq_true_eq, h _]
  constructor
  · intro hall x hx
    rw [Finset.mem_Ico] at hx
    have hmem := (hall (x - frame) (by omega)).2
    rwa [show frame + (x - frame) = x by omega] at hmem
  · intro hsub i hi
    have hmem : frame + i ∈ V := hsub (Finset.mem_Ico.mpr ⟨by omega, by omega⟩)
    exact ⟨hV _ hmem, hmem⟩

end BuddyAllocator

/-! ### Lists in memory -/

namespace FreeBlockPtr

variable {mem : ByteMemory} {f g : ℕ} {p next : FreeBlockPtr}

lemma fromFrame_injective : Function.Injective fromFrame :=
  fun _ _ h => eq_of_mul_eq_mul_right (by decide) h

lemma toFrame_fromFrame : toFrame (fromFrame f) = f :=
  Nat.mul_div_cancel f (by decide)

lemma fromFrame_div : fromFrame f / pageSize = f := toFrame_fromFrame

lemma fromFrame_eq_null : fromFrame f = null ↔ f = 0 := by
  simp [fromFrame, null, pageSize]

lemma fromFrame_lt (h : f < maxFrames) : fromFrame f < 256 ^ 8 := by
  have hlt : f * pageSize < maxFrames * pageSize := mul_lt_mul_of_pos_right h (by decide)
  exact hlt.trans (by decide)

lemma readNext_writeNext_self (h : next < 256 ^ 8) : readNext (writeNext mem p next) p = next := by
  rw [readNext, writeNext, read_write_self, mod_eq_of_lt h]

lemma readNext_writeNext_ne (h : f ≠ g) :
    readNext (writeNext mem (fromFrame g) next) (fromFrame f) = readNext mem (fromFrame f) := by
  refine read_write_of_disjoint ?_
  simp only [fromFrame, pageSize]
  omega

end FreeBlockPtr

namespace FrameState

variable {s s' : FrameState} {U : Finset ℕ} {L : ℕ → List ℕ} {k j f g : ℕ}

variable {ptr : FreeBlockPtr}

@[simp] lemma setHead_mem : (s.setHead k ptr).mem = s.mem := rfl

@[simp] lemma setHead_self : (s.setHead k ptr).alloc.freeLists k = ptr :=
  update_self ..

lemma setHead_ne (h : j ≠ k) : (s.setHead k ptr).alloc.freeLists j = s.alloc.freeLists j :=
  update_of_ne h ..

lemma setNext_mem_of_ne {next : FreeBlockPtr} {x : ℕ} (hx : x / pageSize ≠ f) :
    (s.setNext (fromFrame f) next).mem x = s.mem x := by
  refine write_apply_of_not_mem ?_
  rintro ⟨hle, hlt⟩
  refine hx ?_
  rw [fromFrame, pageSize] at hle hlt
  rw [pageSize]
  omega

/-- Following the links of a free list gives these frames. -/
def FreeList (s : FrameState) (order : ℕ) (frames : List ℕ) : Prop :=
  SiblingForest.Chain null (readNext s.mem) (s.alloc.freeLists order) (frames.map fromFrame)

/-- The free lists hold exactly the maximal blocks of `U`, a set of frames that can be
addressed and do not include frame 0. -/
structure Lists (s : FrameState) (U : Finset ℕ) (L : ℕ → List ℕ) : Prop where
  chain : ∀ k ≤ maxOrder, s.FreeList k (L k)
  nodup : ∀ k, (L k).Nodup
  mem : ∀ k f, f ∈ L k ↔ Top maxOrder U k f
  range : ∀ x ∈ U, 0 < x ∧ x < maxFrames

def SameButLists (s s' : FrameState) : Prop :=
  s'.alloc = { s.alloc with freeLists := s'.alloc.freeLists }

lemma SameButLists.refl (s : FrameState) : s.SameButLists s := rfl

lemma SameButLists.trans {s'' : FrameState} (h : s.SameButLists s') (h' : s'.SameButLists s'') :
    s.SameButLists s'' := by
  unfold SameButLists at *
  rw [h', h]

lemma SameButLists.fields (h : s.SameButLists s') :
    s'.alloc.totalFrames = s.alloc.totalFrames ∧ s'.alloc.freeFrames = s.alloc.freeFrames ∧
      s'.alloc.initialized = s.alloc.initialized := by
  rw [h]
  exact ⟨rfl, rfl, rfl⟩

lemma SameButLists.marks {V : Finset ℕ} (h : s.SameButLists s') (hmarks : s.alloc.Marks V) :
    s'.alloc.Marks V := by
  rw [h]
  exact hmarks

lemma Lists.frame_mem (h : Lists s U L) (hf : f ∈ L k) : f ∈ U := ((h.mem k f).mp hf).start_mem

lemma Lists.head_lt (h : Lists s U L) (hk : k ≤ maxOrder) : s.alloc.freeLists k < 256 ^ 8 := by
  have hchain := h.chain k hk
  by_cases hhead : s.alloc.freeLists k = null
  · rw [hhead]
    decide
  · obtain ⟨f, hf, hptr⟩ := mem_map.mp (hchain.start_mem hhead)
    rw [← hptr]
    exact fromFrame_lt (h.range f (h.frame_mem hf)).2

lemma FreeList.congr (h : s.FreeList k (L k)) (hhead : s'.alloc.freeLists k = s.alloc.freeLists k)
    (hmem : ∀ g ∈ L k, readNext s'.mem (fromFrame g) = readNext s.mem (fromFrame g)) :
    s'.FreeList k (L k) := by
  unfold FreeList
  rw [hhead]
  refine SiblingForest.Chain.congr h fun p hp => ?_
  obtain ⟨g, hg, rfl⟩ := mem_map.mp hp
  exact hmem g hg

lemma Lists.push (h : Lists s U L) (hdvd : 2 ^ k ∣ f) (hk : k ≤ maxOrder)
    (hdisj : Disjoint U (block k f)) (hbuddy : k < maxOrder → ¬ block k (f ^^^ 2 ^ k) ⊆ U)
    (hrange : ∀ x ∈ block k f, 0 < x ∧ x < maxFrames) :
    ∃ s', s.pushFreeList f k = .ok s' ∧
      Lists s' (U ∪ block k f) (update L k (f :: L k)) ∧ s.SameButLists s' := by
  have hfree : f ∉ U := fun hf => Finset.disjoint_left.mp hdisj hf self_mem_block
  let s1 := s.setNext (fromFrame f) (s.alloc.freeLists k)
  refine ⟨s1.setHead k (fromFrame f), if_pos hk,
    ⟨fun j hj => ?_, fun j => ?_, fun j g => ?_, ?_⟩, rfl⟩
  · -- the new block is on no list, so writing to it leaves all links as they are
    have hother : ∀ g ∈ L j, readNext s1.mem (fromFrame g) = readNext s.mem (fromFrame g) := by
      intro g hg
      refine readNext_writeNext_ne ?_
      rintro rfl
      exact hfree (h.frame_mem hg)
    have hrest : s1.FreeList j (L j) := (h.chain j hj).congr rfl hother
    by_cases hjk : j = k
    · subst hjk
      have hnext : readNext s1.mem (fromFrame f) = s.alloc.freeLists j :=
        readNext_writeNext_self (h.head_lt hj)
      rw [update_self, FreeList, setHead_self, setHead_mem, map_cons]
      refine ⟨rfl, ?_, ?_⟩
      · rw [ne_eq, fromFrame_eq_null]
        exact (hrange f self_mem_block).1.ne'
      · rw [hnext]
        exact hrest
    · rw [update_of_ne hjk]
      exact hrest.congr (setHead_ne hjk) fun _ _ => rfl
  · by_cases hjk : j = k
    · subst hjk
      rw [update_self, nodup_cons]
      exact ⟨fun hf => hfree (h.frame_mem hf), h.nodup j⟩
    · rw [update_of_ne hjk]
      exact h.nodup j
  · rw [top_union_iff hdvd hk hdisj hbuddy, ← h.mem]
    by_cases hjk : j = k
    · subst hjk
      simp [or_comm]
    · simp [hjk]
  · intro x hx
    obtain hU | hblock := Finset.mem_union.mp hx
    · exact h.range x hU
    · exact hrange x hblock

lemma Lists.mem_erase (h : Lists s U L) (hf : f ∈ L k) :
    g ∈ update L k ((L k).erase f) j ↔ Top maxOrder (U \ block k f) j g := by
  rw [((h.mem k f).mp hf).sdiff_iff, ← h.mem]
  by_cases hjk : j = k
  · subst hjk
    rw [update_self, (h.nodup j).mem_erase_iff]
    tauto
  · rw [update_of_ne hjk]
    tauto

lemma Lists.erase (h : Lists s U L) (hf : f ∈ L k) (hchain : s'.FreeList k ((L k).erase f))
    (hother : ∀ j ≤ maxOrder, j ≠ k → s'.FreeList j (L j)) :
    Lists s' (U \ block k f) (update L k ((L k).erase f)) := by
  refine ⟨fun j hj => ?_, fun j => ?_, fun j g => h.mem_erase hf,
    fun x hx => h.range x (Finset.mem_sdiff.mp hx).1⟩
  · by_cases hjk : j = k
    · subst hjk
      rwa [update_self]
    · rw [update_of_ne hjk]
      exact hother j hj hjk
  · by_cases hjk : j = k
    · subst hjk
      rw [update_self]
      exact (h.nodup j).erase f
    · rw [update_of_ne hjk]
      exact h.nodup j

lemma Lists.pop (h : Lists s U L) (hk : k ≤ maxOrder) (hne : L k ≠ []) :
    ∃ s' f rest, L k = f :: rest ∧ s.popFreeList k = .ok (s', some f) ∧
      Lists s' (U \ block k f) (update L k rest) ∧ s.SameButLists s' := by
  obtain ⟨f, rest, hL⟩ := exists_cons_of_ne_nil hne
  have hchain := h.chain k hk
  rw [FreeList, hL] at hchain
  obtain ⟨hhead, hnull, htail⟩ := hchain
  have herase : (L k).erase f = rest := by rw [hL, erase_cons_head]
  refine ⟨s.setHead k (readNext s.mem (fromFrame f)), f, rest, hL, ?_, ?_, rfl⟩
  · rw [popFreeList, if_pos hk]
    simp only [hhead, hnull, if_false, toFrame_fromFrame]
  rw [← herase]
  refine h.erase (hL ▸ mem_cons_self) ?_ fun j hj hjk => ?_
  · rw [herase, FreeList, setHead_self, setHead_mem]
    exact htail
  · exact (h.chain j hj).congr (setHead_ne hjk) fun _ _ => rfl

lemma Lists.length_le (h : Lists s U L) : (L k).length ≤ maxFrames := by
  have hsub : (L k).toFinset ⊆ Finset.range maxFrames := by
    intro f hf
    exact Finset.mem_range.mpr (h.range f (h.frame_mem (mem_toFinset.mp hf))).2
  calc (L k).length = (L k).toFinset.card := (toFinset_card_of_nodup (h.nodup k)).symm
    _ ≤ (Finset.range maxFrames).card := Finset.card_le_card hsub
    _ = maxFrames := Finset.card_range maxFrames

lemma unlink_eq {target : FreeBlockPtr} : ∀ (n : ℕ) {l : List FreeBlockPtr}
    {current : FreeBlockPtr}, SiblingForest.Chain null (readNext s.mem) current l → target ∈ l →
    current ≠ target → l.length ≤ n →
    ∃ p ∈ l, readNext s.mem p = target ∧
      s.unlink target n current = .ok (s.setNext p (readNext s.mem target), true)
  | 0, l, current, _, hmem, _, hlen => by
    rw [List.length_eq_zero_iff.mp (Nat.le_zero.mp hlen)] at hmem
    cases hmem
  | n + 1, [], current, _, hmem, _, _ => absurd hmem (by simp)
  | n + 1, x :: l, current, ⟨hx, hnull, hchain⟩, hmem, hne, hlen => by
    subst hx
    have hrest : target ∈ l := (List.mem_cons.mp hmem).resolve_left (Ne.symm hne)
    rw [unlink, if_neg hnull]
    simp only []
    by_cases hnext : readNext s.mem current = target
    · exact ⟨current, List.mem_cons_self, hnext, if_pos hnext⟩
    · obtain ⟨p, hp, hpt, hunlink⟩ :=
        unlink_eq n hchain hrest hnext (le_of_succ_le_succ hlen)
      exact ⟨p, mem_cons_of_mem _ hp, hpt, (if_neg hnext).trans hunlink⟩

lemma Lists.remove (h : Lists s U L) (hf : f ∈ L k) :
    ∃ s', s.removeFromFreeList f k = .ok (s', true) ∧
      Lists s' (U \ block k f) (update L k ((L k).erase f)) ∧ s.SameButLists s' ∧
      ∀ x, x / pageSize ∉ U → s'.mem x = s.mem x := by
  have hk : k ≤ maxOrder := ((h.mem k f).mp hf).le
  have hchain := h.chain k hk
  have hmem : fromFrame f ∈ (L k).map fromFrame := mem_map_of_mem hf
  have hnull : s.alloc.freeLists k ≠ null := by
    intro hhead
    rw [FreeList, hhead] at hchain
    cases hL : L k with
    | nil => simp [hL] at hf
    | cons g rest =>
      rw [hL] at hchain
      exact hchain.2.1 hchain.1.symm
  rw [removeFromFreeList, if_pos hk]
  simp only [hnull, if_false]
  by_cases hhead : s.alloc.freeLists k = fromFrame f
  · -- the first block of the list
    refine ⟨s.setHead k (readNext s.mem (fromFrame f)), if_pos hhead, h.erase hf ?_ ?_, rfl,
      fun _ _ => rfl⟩
    · cases hL : L k with
      | nil => simp [hL] at hf
      | cons g rest =>
        rw [FreeList, hL, hhead] at hchain
        obtain rfl : f = g := fromFrame_injective hchain.1
        rw [erase_cons_head, FreeList, setHead_self, setHead_mem]
        exact hchain.2.2
    · exact fun j hj hjk => (h.chain j hj).congr (setHead_ne hjk) fun _ _ => rfl
  · obtain ⟨p, hp, hpt, hunlink⟩ := unlink_eq maxFrames hchain hmem hhead
      (by rw [length_map]; exact h.length_le)
    obtain ⟨g, hg, rfl⟩ := mem_map.mp hp
    have hread : ∀ x, readNext (s.setNext (fromFrame g) (readNext s.mem (fromFrame f))).mem
        (fromFrame x) = update (readNext s.mem) (fromFrame g)
          (readNext s.mem (fromFrame f)) (fromFrame x) := by
      intro x
      by_cases hx : x = g
      · rw [hx, update_self]
        exact readNext_writeNext_self read_lt
      · rw [update_of_ne fun heq => hx (fromFrame_injective heq)]
        exact readNext_writeNext_ne hx
    refine ⟨_, (if_neg hhead).trans hunlink, h.erase hf ?_ fun j hj hjk => ?_, rfl,
      fun x hx => setNext_mem_of_ne fun hpage => hx (hpage ▸ h.frame_mem hg)⟩
    · have hmended := SiblingForest.Chain.unlink hchain ((h.nodup k).map fromFrame_injective) hp
        hpt (SiblingForest.Chain.ne_of_mem hchain _ hmem)
      rw [← map_erase fromFrame_injective] at hmended
      refine SiblingForest.Chain.congr hmended fun p hp => ?_
      obtain ⟨x, -, rfl⟩ := mem_map.mp hp
      exact hread x
    · refine (h.chain j hj).congr rfl fun x hx => ?_
      refine readNext_writeNext_ne ?_
      rintro rfl
      exact hjk (((h.mem j x).mp hx).unique ((h.mem k x).mp hg) self_mem_block self_mem_block).1

end FrameState

end Fabric
