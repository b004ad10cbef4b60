/-
Dyadic blocks, and the blocks that make up a set.

The block of order `k` at `x` is the interval of `2 ^ k` numbers that holds `x` and begins
at a multiple of its length.  Two blocks are nested or disjoint, and the block of the next
order is made of a block and its buddy.

A finite set `U` is made up of its *maximal* blocks, those that do not extend to a block of
the next order inside `U`, up to a highest order `M`.  `Top M U k f` says that the block of
order `k` that begins at `f` is one of them.

* `Top.unique`, `exists_top` — the maximal blocks are disjoint and cover the set;
* `Top.not_buddy` — no two of them are buddies;
* `Top.sdiff_iff` — taking away a maximal block leaves the others;
* `top_union_iff` — adding a block whose buddy is not in the set adds that block;
* `top_buddy` — if the buddy of a new block is in the set, it is a maximal block;
* `Clear.top` — the largest block at a number is maximal, when the blocks before it have
  been found.
-/
import Mathlib.Data.Nat.Bitwise
import Mathlib.Order.Interval.Finset.Nat
import Mathlib.Tactic.Ring

open Finset Nat

namespace DyadicBlocks

variable {M k j x y f g : ℕ} {U : Finset ℕ}

/-! ### Blocks -/

/-- The block of order `k` that holds `x`. -/
def block (k x : ℕ) : Finset ℕ := Finset.Ico (x / 2 ^ k * 2 ^ k) (x / 2 ^ k * 2 ^ k + 2 ^ k)

lemma mem_block : y ∈ block k x ↔ y / 2 ^ k = x / 2 ^ k := by
  have hpos : 0 < 2 ^ k := Nat.two_pow_pos k
  rw [block, mem_Ico, Nat.div_eq_iff hpos]
  constructor
  · rintro ⟨hle, hlt⟩
    exact ⟨hle, by omega⟩
  · rintro ⟨hle, hlt⟩
    exact ⟨hle, by omega⟩

lemma self_mem_block : x ∈ block k x := mem_block.mpr rfl

lemma block_eq (h : y ∈ block k x) : block k y = block k x := by
  unfold block
  rw [mem_block.mp h]

lemma mem_block_comm : y ∈ block k x ↔ x ∈ block k y := by
  rw [mem_block, mem_block, eq_comm]

lemma card_block : (block k x).card = 2 ^ k := by
  simp [block]

lemma block_eq_Ico (h : 2 ^ k ∣ f) : block k f = Finset.Ico f (f + 2 ^ k) := by
  rw [block, Nat.div_mul_cancel h]

lemma mem_block_of_dvd (h : 2 ^ k ∣ f) : y ∈ block k f ↔ f ≤ y ∧ y < f + 2 ^ k := by
  rw [block_eq_Ico h, mem_Ico]

lemma add_le_of_block_lt {n : ℕ} (h : 2 ^ k ∣ f) (hlt : ∀ y ∈ block k f, y < n) :
    f + 2 ^ k ≤ n := by
  have hlast := hlt (f + 2 ^ k - 1) ((mem_block_of_dvd h).mpr (by omega))
  omega

lemma eq_of_mem_block (hf : 2 ^ k ∣ f) (hg : 2 ^ k ∣ g) (h : g ∈ block k f) : g = f := by
  rw [← Nat.div_mul_cancel hf, ← Nat.div_mul_cancel hg, mem_block.mp h]

lemma block_subset (h : k ≤ j) : block k x ⊆ block j x := by
  intro y hy
  obtain ⟨d, rfl⟩ := Nat.exists_eq_add_of_le h
  rw [mem_block] at hy ⊢
  rw [pow_add, ← Nat.div_div_eq_div_mul, ← Nat.div_div_eq_div_mul, hy]

lemma block_subset_of_mem (h : k ≤ j) (hx : x ∈ block k f) (hx' : x ∈ block j g) :
    block k f ⊆ block j g := by
  rw [← block_eq hx, ← block_eq hx']
  exact block_subset h

lemma block_zero : block 0 x = {x} := by
  ext y
  simp [mem_block]

/-! ### Buddies -/

lemma half_eq_iff {a b : ℕ} : a / 2 = b / 2 ↔ a = b ∨ a = b ^^^ 1 := by
  obtain hb | hb := even_or_odd b
  · rw [xor_one_of_even hb]
    obtain ⟨c, rfl⟩ := hb
    omega
  · rw [xor_one_of_odd hb]
    obtain ⟨c, rfl⟩ := hb
    omega

lemma buddy_div (k f : ℕ) : (f ^^^ 2 ^ k) / 2 ^ k = f / 2 ^ k ^^^ 1 := by
  rw [Nat.xor_div_two_pow, Nat.div_self (Nat.two_pow_pos k)]

lemma block_succ : block (k + 1) f = block k f ∪ block k (f ^^^ 2 ^ k) := by
  ext y
  rw [mem_union, mem_block, mem_block, mem_block, buddy_div, pow_succ,
    ← Nat.div_div_eq_div_mul, ← Nat.div_div_eq_div_mul, half_eq_iff]

lemma disjoint_buddy : Disjoint (block k f) (block k (f ^^^ 2 ^ k)) := by
  rw [disjoint_left]
  intro y hy hy'
  rw [mem_block] at hy hy'
  rw [hy, buddy_div] at hy'
  obtain hf | hf := even_or_odd (f / 2 ^ k)
  · rw [xor_one_of_even hf] at hy'
    omega
  · rw [xor_one_of_odd hf] at hy'
    obtain ⟨c, hc⟩ := hf
    omega

lemma dvd_buddy (h : 2 ^ k ∣ f) : 2 ^ k ∣ f ^^^ 2 ^ k := by
  rw [dvd_iff_mod_eq_zero] at h ⊢
  rw [xor_mod_two_pow, h, mod_self, xor_zero]

lemma dvd_min_buddy (h : 2 ^ k ∣ f) : 2 ^ (k + 1) ∣ min f (f ^^^ 2 ^ k) := by
  obtain ⟨m, rfl⟩ := h
  have hbuddy : (2 ^ k * m) ^^^ 2 ^ k = 2 ^ k * (m ^^^ 1) := by
    have hdvd := Nat.div_mul_cancel (dvd_buddy (Dvd.intro m rfl : 2 ^ k ∣ 2 ^ k * m))
    rw [buddy_div, Nat.mul_div_cancel_left m (Nat.two_pow_pos k)] at hdvd
    rw [← hdvd, mul_comm]
  rw [hbuddy, Nat.mul_min_mul_left, pow_succ]
  refine mul_dvd_mul_left _ ?_
  obtain hm | hm := even_or_odd m
  · rw [Nat.xor_one_of_even hm, min_eq_left (le_succ m)]
    exact hm.two_dvd
  · rw [xor_one_of_odd hm, min_eq_right (sub_le m 1)]
    obtain ⟨c, rfl⟩ := hm
    exact ⟨c, by omega⟩

lemma buddy_eq_add (h : 2 ^ (k + 1) ∣ f) : f ^^^ 2 ^ k = f + 2 ^ k := by
  obtain ⟨m, rfl⟩ := h
  have hdvd : 2 ^ k ∣ 2 ^ (k + 1) * m := ⟨2 * m, by rw [pow_succ, Nat.mul_assoc]⟩
  have hhalf : 2 ^ (k + 1) * m / 2 ^ k = 2 * m := by
    rw [pow_succ, Nat.mul_assoc, Nat.mul_div_cancel_left _ (Nat.two_pow_pos k)]
  rw [← Nat.div_mul_cancel (dvd_buddy hdvd), buddy_div, hhalf, Nat.xor_one_of_even (even_two_mul m)]
  ring

lemma min_buddy_mem : min f (f ^^^ 2 ^ k) ∈ block (k + 1) f := by
  rw [block_succ, mem_union]
  obtain h | h := min_choice f (f ^^^ 2 ^ k)
  · rw [h]
    exact .inl self_mem_block
  · rw [h]
    exact .inr self_mem_block

/-! ### Maximal blocks -/

/-- The block of order `k` that begins at `f` is a maximal block of `U`. -/
structure Top (M : ℕ) (U : Finset ℕ) (k f : ℕ) : Prop where
  dvd : 2 ^ k ∣ f
  le : k ≤ M
  subset : block k f ⊆ U
  maximal : k < M → ¬ block (k + 1) f ⊆ U

lemma Top.unique (h : Top M U k f) (h' : Top M U j g) (hx : x ∈ block k f)
    (hx' : x ∈ block j g) : k = j ∧ f = g := by
  have hnot : ∀ {k f j g}, Top M U k f → Top M U j g → x ∈ block k f → x ∈ block j g →
      ¬ k < j := by
    intro k f j g h h' hx hx' hlt
    refine h.maximal (hlt.trans_le h'.le) ((block_subset_of_mem hlt ?_ hx').trans h'.subset)
    exact block_subset (le_succ k) hx
  have hkj : k = j := le_antisymm (not_lt.mp (hnot h' h hx' hx)) (not_lt.mp (hnot h h' hx hx'))
  subst hkj
  refine ⟨rfl, eq_of_mem_block h'.dvd h.dvd ?_⟩
  rw [← block_eq hx']
  exact mem_block_comm.mp hx

lemma exists_top (hx : x ∈ U) : ∃ k f, Top M U k f ∧ x ∈ block k f := by
  let fits (k : ℕ) : Prop := block k x ⊆ U
  have hzero : fits 0 := by
    simp only [fits, block_zero, singleton_subset_iff, hx]
  have hk := findGreatest_spec (P := fits) (zero_le M) hzero
  have hgreatest : ∀ {j}, findGreatest fits M < j → j ≤ M → ¬ fits j :=
    findGreatest_is_greatest
  have hle : findGreatest fits M ≤ M := findGreatest_le M
  generalize Nat.findGreatest fits M = k at hk hgreatest hle
  have hstart : x / 2 ^ k * 2 ^ k ∈ block k x := by
    rw [mem_block, Nat.mul_div_cancel _ (Nat.two_pow_pos k)]
  refine ⟨k, x / 2 ^ k * 2 ^ k, ⟨dvd_mul_left _ _, hle, ?_, fun hlt hsub => ?_⟩,
    mem_block_comm.mp hstart⟩
  · rw [block_eq hstart]
    exact hk
  refine hgreatest (lt_succ_self k) hlt ?_
  show block (k + 1) x ⊆ U
  rw [← block_eq (block_subset (le_succ k) hstart)]
  exact hsub

lemma exists_top_of_subset (hk : k ≤ M) (h : block k f ⊆ U) :
    ∃ j g, Top M U j g ∧ k ≤ j ∧ block k f ⊆ block j g := by
  obtain ⟨j, g, htop, hmem⟩ := exists_top (M := M) (h self_mem_block)
  have hkj : k ≤ j := by
    by_contra hlt
    rw [not_le] at hlt
    refine htop.maximal (hlt.trans_le hk) ((block_subset_of_mem hlt ?_ self_mem_block).trans h)
    exact block_subset (le_succ j) hmem
  exact ⟨j, g, htop, hkj, block_subset_of_mem hkj self_mem_block hmem⟩

lemma Top.not_buddy (h : Top M U k f) (hk : k < M) : ¬ Top M U k (f ^^^ 2 ^ k) := by
  intro h'
  refine h.maximal hk ?_
  rw [block_succ]
  exact union_subset h.subset h'.subset

lemma Top.sdiff_iff (h : Top M U k f) :
    Top M (U \ block k f) j g ↔ Top M U j g ∧ ¬ (j = k ∧ g = f) := by
  constructor
  · intro h'
    have hsub : block j g ⊆ U := h'.subset.trans sdiff_subset
    have hapart : ∀ x ∈ block j g, x ∉ block k f :=
      fun x hx => (mem_sdiff.mp (h'.subset hx)).2
    refine ⟨⟨h'.dvd, h'.le, hsub, fun hlt hnext => ?_⟩, ?_⟩
    · -- an extension inside `U` would meet the block that was taken away
      refine h'.maximal hlt fun x hx => mem_sdiff.mpr ⟨hnext hx, fun hx' => ?_⟩
      obtain hjk | hkj := lt_or_ge j k
      · have hin := block_subset_of_mem hjk hx hx'
        exact hapart g self_mem_block (hin self_mem_block)
      · refine h.maximal (hkj.trans_lt hlt)
          ((block_subset_of_mem (succ_le_succ hkj) ?_ hx).trans hnext)
        exact block_subset (le_succ k) hx'
    · rintro ⟨rfl, rfl⟩
      exact hapart g self_mem_block self_mem_block
  · rintro ⟨h', hne⟩
    refine ⟨h'.dvd, h'.le, fun x hx => mem_sdiff.mpr ⟨h'.subset hx, fun hx' => ?_⟩,
      fun hlt hnext => h'.maximal hlt (hnext.trans sdiff_subset)⟩
    obtain ⟨rfl, rfl⟩ := h'.unique h hx hx'
    exact hne ⟨rfl, rfl⟩

lemma top_union_iff (hdvd : 2 ^ k ∣ f) (hk : k ≤ M) (hdisj : Disjoint U (block k f))
    (hbuddy : k < M → ¬ block k (f ^^^ 2 ^ k) ⊆ U) :
    Top M (U ∪ block k f) j g ↔ Top M U j g ∨ j = k ∧ g = f := by
  have hapart : ∀ x ∈ U, x ∉ block k f := fun x hx => disjoint_left.mp hdisj hx
  -- a larger block that holds the new one holds its buddy
  have hlarge : ∀ {j g}, k < j → j ≤ M → f ∈ block j g → ¬ block j g ⊆ U ∪ block k f := by
    intro j g hlt hj hf hsub
    refine hbuddy (hlt.trans_le hj) fun x hx => ?_
    have hx' : x ∈ block (k + 1) f := by
      rw [block_succ]
      exact mem_union_right _ hx
    have hmem := hsub (block_subset_of_mem hlt self_mem_block hf hx')
    obtain hU | hblock := mem_union.mp hmem
    · exact hU
    · exact absurd hx (disjoint_left.mp disjoint_buddy hblock)
  have hmeet : ∀ {j g x}, j ≤ M → block j g ⊆ U ∪ block k f → x ∈ block j g → x ∈ block k f →
      j ≤ k := by
    intro j g x hj hsub hx hx'
    by_contra hlt
    rw [not_le] at hlt
    exact hlarge hlt hj (block_subset_of_mem hlt.le hx' hx self_mem_block) hsub
  constructor
  · intro h
    by_cases hmem : ∃ x ∈ block j g, x ∈ block k f
    · obtain ⟨x, hx, hx'⟩ := hmem
      have hjk := hmeet h.le h.subset hx hx'
      obtain rfl | hlt := hjk.eq_or_lt
      · refine .inr ⟨rfl, eq_of_mem_block hdvd h.dvd ?_⟩
        rw [← block_eq hx']
        exact mem_block_comm.mp hx
      · refine absurd ?_ (h.maximal (hlt.trans_le hk))
        refine (block_subset_of_mem hlt (block_subset (le_succ j) hx) hx').trans ?_
        exact subset_union_right
    · push Not at hmem
      have hsub : block j g ⊆ U := fun x hx =>
        (mem_union.mp (h.subset hx)).resolve_right (hmem x hx)
      exact .inl ⟨h.dvd, h.le, hsub, fun hlt hnext =>
        h.maximal hlt (hnext.trans subset_union_left)⟩
  · rintro (h | ⟨rfl, rfl⟩)
    · refine ⟨h.dvd, h.le, h.subset.trans subset_union_left, fun hlt hnext => ?_⟩
      refine h.maximal hlt fun x hx => (mem_union.mp (hnext hx)).resolve_right fun hx' => ?_
      have hjk := hmeet hlt hnext hx hx'
      have hin := block_subset_of_mem hjk hx hx'
      exact hapart g (h.subset self_mem_block)
        (hin (block_subset (le_succ j) self_mem_block))
    · refine ⟨hdvd, hk, subset_union_right, fun hlt => ?_⟩
      exact hlarge (lt_succ_self j) hlt self_mem_block

lemma top_buddy (hdvd : 2 ^ k ∣ f) (hk : k < M) (hdisj : Disjoint U (block k f))
    (hbuddy : block k (f ^^^ 2 ^ k) ⊆ U) : Top M U k (f ^^^ 2 ^ k) := by
  refine ⟨dvd_buddy hdvd, hk.le, hbuddy, fun _ hsub => ?_⟩
  have hf : f ∈ block (k + 1) (f ^^^ 2 ^ k) := by
    rw [block_succ, xor_xor_cancel_right]
    exact mem_union_right _ self_mem_block
  exact disjoint_left.mp hdisj (hsub hf) self_mem_block

/-! ### Finding the maximal blocks from left to right -/

/-- No maximal block reaches across `n`. -/
def Clear (M : ℕ) (U : Finset ℕ) (n : ℕ) : Prop := ∀ k f, Top M U k f → f < n → f + 2 ^ k ≤ n

variable {n : ℕ}

lemma clear_zero : Clear M U 0 := fun _ _ _ hlt => absurd hlt (not_lt_zero _)

lemma Top.start_mem (h : Top M U k f) : f ∈ U := h.subset self_mem_block

lemma Clear.skip (h : Clear M U n) (hn : n ∉ U) : Clear M U (n + 1) := by
  intro k f htop hlt
  obtain hlt | rfl := Nat.lt_succ_iff_lt_or_eq.mp hlt
  · exact (h k f htop hlt).trans (le_succ n)
  · exact absurd htop.start_mem hn

lemma Clear.advance (h : Clear M U n) (hn : Top M U k n) : Clear M U (n + 2 ^ k) := by
  intro j g htop hlt
  obtain hgn | hng := lt_or_ge g n
  · exact (h j g htop hgn).trans (le_add_right n _)
  · have hmem : g ∈ block k n := (mem_block_of_dvd hn.dvd).mpr ⟨hng, hlt⟩
    obtain ⟨rfl, rfl⟩ := htop.unique hn self_mem_block hmem
    exact le_rfl

lemma Clear.top (h : Clear M U n) (hk : k ≤ M) (hdvd : 2 ^ k ∣ n) (hsub : block k n ⊆ U)
    (hlargest : k < M → 2 ^ (k + 1) ∣ n → ¬ block (k + 1) n ⊆ U) : Top M U k n := by
  obtain ⟨j, g, htop, hkj, hin⟩ := exists_top_of_subset hk hsub
  have hmem := (mem_block_of_dvd htop.dvd).mp (hin self_mem_block)
  have hgn : g = n := by
    by_contra hne
    have hend := h j g htop (lt_of_le_of_ne hmem.1 hne)
    omega
  subst hgn
  refine ⟨hdvd, hk, hsub, fun hlt hnext => ?_⟩
  obtain rfl | hlt' := hkj.eq_or_lt
  · exact htop.maximal hlt hnext
  · exact hlargest hlt ((pow_dvd_pow 2 hlt').trans htop.dvd) hnext

end DyadicBlocks
