/-
The pages that an address space maps.

Below the lower half of a PML4 the tables are made on demand, each in a frame of its own, so
they form a tree in which no table is shared.  A page is then an entry at the end of a path of
four indices, and the paths do not disturb each other.
-/
import FabricOS.RadixTree
import FabricOS.UserMappings

open Function List Option

namespace Fabric

open Buddy FreeBlockPtr PageTable FrameState RadixTree AddressSpace

/-! ### Tables and pages by their paths -/

/-- The table that an entry for user pages leads to.  A table is given by its level and its
address. -/
def childTable (mem : ByteMemory) : ℕ × ℕ → ℕ → Option (ℕ × ℕ)
  | (n + 2, t), i =>
    if i < width (n + 2) ∧ (entry mem t i).isPresent then some (n + 1, (entry mem t i).addr)
    else none
  | _, _ => none

/-- The table at the end of a path from the PML4, whose last index comes first. -/
def tableAt (mem : ByteMemory) (pml4 : ℕ) (path : List ℕ) : Option (ℕ × ℕ) :=
  lookup (childTable mem) (4, pml4) path

/-- The present entry of a page, at the end of a path that ends in a PT. -/
def pageAt (mem : ByteMemory) (pml4 : ℕ) : List ℕ → Option PageTableEntry
  | j :: path =>
    match tableAt mem pml4 path with
    | some (1, pt) =>
      if j < 512 ∧ (entry mem pt j).isPresent then some (entry mem pt j) else none
    | _ => none
  | [] => none

def pagePath (virt : UInt64) : List ℕ := ptIndex virt :: (tablePath virt).reverse

variable {mem mem' : ByteMemory} {n t i j pml4 : ℕ} {path : List ℕ}

lemma childTable_eq_some {v : ℕ × ℕ} : childTable mem (n, t) i = some v ↔
    ∃ k, n = k + 2 ∧ i < width n ∧ (entry mem t i).isPresent = true ∧
      v = (k + 1, (entry mem t i).addr) := by
  match n with
  | 0 => simp [childTable]
  | 1 => simp [childTable]
  | k + 2 =>
    simp only [childTable, ite_none_right_eq_some, Option.some.injEq,
      Nat.add_right_cancel_iff, exists_eq_left', and_assoc, @eq_comm _ v]

lemma childTable_eq_none (h : (entry mem t i).isPresent = false) :
    childTable mem (n, t) i = none := by
  rw [eq_none_iff_forall_ne_some]
  intro v hv
  obtain ⟨-, -, -, hpresent, -⟩ := childTable_eq_some.mp hv
  rw [h] at hpresent
  cases hpresent

lemma childTable_congr (h : i < width n → entry mem' t i = entry mem t i) :
    childTable mem' (n, t) i = childTable mem (n, t) i := by
  match n with
  | 0 => rfl
  | 1 => rfl
  | k + 2 =>
    by_cases hi : i < width (k + 2)
    · simp only [childTable, h hi]
    · simp only [childTable, hi, false_and, if_false]

lemma pageAt_of_none (h : tableAt mem pml4 path = none) : pageAt mem pml4 (j :: path) = none := by
  simp only [pageAt, h]

lemma pageAt_cons (hpt : tableAt mem pml4 path = some (1, t)) (hj : j < 512) :
    pageAt mem pml4 (j :: path) =
      if (entry mem t j).isPresent then some (entry mem t j) else none := by
  simp only [pageAt, hpt, hj, true_and]

lemma pageAt_congr (htable : tableAt mem' pml4 path = tableAt mem pml4 path)
    (hentry : ∀ t, tableAt mem pml4 path = some (1, t) → j < 512 →
      entry mem' t j = entry mem t j) :
    pageAt mem' pml4 (j :: path) = pageAt mem pml4 (j :: path) := by
  simp only [pageAt, htable]
  split
  · next pt hpt =>
    by_cases hj : j < 512
    · rw [hentry pt hpt hj]
    · simp only [hj, false_and, if_false]
  · rfl

/-! ### The tree of an address space -/

/-- The tables below the lower half of a PML4 are a tree of a layout, and every entry that is
present there has been made by `next_or_create`. -/
structure PageTree (s : FrameState) (U : Finset ℕ) (kind : ℕ → FrameKind) (roots : List ℕ)
    (pml4 : ℕ) : Prop where
  layout : Layout s U kind roots
  root : pageSize ∣ pml4 ∧ kind (pml4 / pageSize) = .table 4
  unshared : Unshared (childTable s.mem) (4, pml4)
  linked : ∀ path n t i, tableAt s.mem pml4 path = some (n + 2, t) → i < width (n + 2) →
    (entry s.mem t i).isPresent = true → ∃ f, entry s.mem t i = link f

variable {s s' : FrameState} {U U' : Finset ℕ} {kind kind' : ℕ → FrameKind} {roots : List ℕ}

lemma PageTree.table (h : PageTree s U kind roots pml4) {path : List ℕ} :
    ∀ {n t : ℕ}, tableAt s.mem pml4 path = some (n, t) →
      pageSize ∣ t ∧ kind (t / pageSize) = .table n := by
  induction path with
  | nil =>
    intro n t ht
    cases ht
    exact h.root
  | cons i path ih =>
    intro n t ht
    obtain ⟨⟨m, u⟩, hu, hchild⟩ := bind_eq_some_iff.mp ht
    obtain ⟨k, rfl, hi, hpresent, hv⟩ := childTable_eq_some.mp hchild
    cases hv
    obtain ⟨hdvd, hkind⟩ := ih hu
    have hbelow := h.layout.below (u / pageSize) k i hkind hi
    rw [fromFrame, Nat.div_mul_cancel hdvd] at hbelow
    exact ⟨PageTableEntry.dvd_addr, hbelow hpresent⟩

lemma PageTree.level_eq (h : PageTree s U kind roots pml4) {path path' : List ℕ} {n n' t : ℕ}
    (ht : tableAt s.mem pml4 path = some (n, t)) (ht' : tableAt s.mem pml4 path' = some (n', t)) :
    n = n' := by
  have hlevel := (h.table ht).2
  rw [(h.table ht').2] at hlevel
  cases hlevel
  rfl

lemma PageTree.used (h : PageTree s U kind roots pml4)
    (ht : tableAt s.mem pml4 path = some (n, t)) : t / pageSize ∉ U :=
  h.layout.table_used (by simp [(h.table ht).2])

lemma PageTree.congr (h : PageTree s U kind roots pml4)
    (hadvance : Advance roots s U kind s' U' kind')
    (hentry : ∀ path n t i, tableAt s.mem pml4 path = some (n + 2, t) → i < width (n + 2) →
      entry s'.mem t i = entry s.mem t i) :
    PageTree s' U' kind' roots pml4 ∧
      ∀ path, tableAt s'.mem pml4 path = tableAt s.mem pml4 path := by
  have htables : ∀ path, tableAt s'.mem pml4 path = tableAt s.mem pml4 path := by
    refine lookup_congr fun path v i hv => ?_
    obtain ⟨n, t⟩ := v
    match n, hv with
    | 0, _ => rfl
    | 1, _ => rfl
    | n + 2, hv => exact childTable_congr fun hi => hentry path n t i hv hi
  refine ⟨⟨hadvance.layout, ⟨h.root.1, ?_⟩, fun path path' v hv hv' => ?_,
    fun path n t i ht hi hpresent => ?_⟩, htables⟩
  · exact hadvance.keeps h.layout (by simp) h.root.2
  · exact h.unshared path path' v ((htables path).symm.trans hv) ((htables path').symm.trans hv')
  · rw [htables] at ht
    rw [hentry path n t i ht hi] at hpresent ⊢
    exact h.linked path n t i ht hi hpresent

lemma PageTree.congr_data (h : PageTree s U kind roots pml4)
    (hadvance : Advance roots s U kind s' U' kind')
    (hmem : ∀ x n, x / pageSize ∉ U → kind (x / pageSize) = .table n → s'.mem x = s.mem x) :
    PageTree s' U' kind' roots pml4 ∧ (∀ q, pageAt s'.mem pml4 q = pageAt s.mem pml4 q) ∧
      ∀ path, tableAt s'.mem pml4 path = tableAt s.mem pml4 path := by
  have hentry : ∀ path n t i, tableAt s.mem pml4 path = some (n, t) → i < 512 →
      entry s'.mem t i = entry s.mem t i := by
    intro path n t i ht hi
    obtain ⟨hdvd, hkind⟩ := h.table ht
    refine entry_congr hdvd hi fun x hpage _ => hmem x n ?_ ?_
    · rw [hpage]
      exact h.used ht
    · rw [hpage, hkind]
  obtain ⟨htree, htables⟩ := h.congr hadvance fun path n t i ht hi =>
    hentry path _ t i ht (hi.trans_le width_le)
  refine ⟨htree, fun q => ?_, htables⟩
  cases q with
  | nil => rfl
  | cons j path => exact pageAt_congr (htables path) fun t ht hj => hentry path 1 t j ht hj

lemma PageTree.takeFrame (h : PageTree s U kind roots pml4) :
    (∃ s' f, f ∈ U ∧ s.allocate 0 = .ok (s', some (fromFrame f)) ∧
      Advance roots s U kind s' (U.erase f) (update kind f .data) ∧
      PageTree s' (U.erase f) (update kind f .data) roots pml4 ∧
      (∀ q, pageAt s'.mem pml4 q = pageAt s.mem pml4 q) ∧
      ∀ path, tableAt s'.mem pml4 path = tableAt s.mem pml4 path) ∨
    s.allocate 0 = .ok (s, none) := by
  obtain ⟨L, hready⟩ := h.layout.ready
  obtain ⟨s', f, L', halloc, hf, hready', hmem⟩ | hnone := hready.takeFrame
  · have hfresh : Advance roots s U kind s' (U.erase f) (update kind f .data) :=
      h.layout.fresh hf ⟨L', hready'⟩ hmem fun _ _ hk => by cases hk
    exact .inl ⟨s', f, hf, halloc, hfresh, h.congr_data hfresh fun x _ hx _ => hmem x hx⟩
  · exact .inr hnone

lemma PageTree.of_blank (h : Layout s U kind roots) (hdvd : pageSize ∣ pml4)
    (hkind : kind (pml4 / pageSize) = .table 4)
    (hblank : ∀ i < 256, (entry s.mem pml4 i).isPresent = false) :
    PageTree s U kind roots pml4 ∧ ∀ q, pageAt s.mem pml4 q = none := by
  have hnone : ∀ i path, tableAt s.mem pml4 (path ++ [i]) = none := by
    intro i path
    refine lookup_append_of_none ?_ path
    rw [lookup_cons_of_some lookup_nil, eq_none_iff_forall_ne_some]
    intro v hv
    obtain ⟨-, -, hi, hpresent, -⟩ := childTable_eq_some.mp hv
    rw [hblank i hi] at hpresent
    cases hpresent
  have hroot : ∀ path v, tableAt s.mem pml4 path = some v → path = [] := by
    intro path v hv
    obtain rfl | ⟨path, i, rfl⟩ := eq_nil_or_concat' path
    · rfl
    · rw [hnone] at hv
      cases hv
  refine ⟨⟨h, ⟨hdvd, hkind⟩, fun path path' v hv hv' => ?_, fun path n t i ht hi hpresent => ?_⟩,
    fun q => ?_⟩
  · rw [hroot path v hv, hroot path' v hv']
  · obtain rfl := hroot path _ ht
    cases ht
    rw [hblank i hi] at hpresent
    cases hpresent
  · cases q with
    | nil => rfl
    | cons j path =>
      obtain rfl | ⟨path, i, rfl⟩ := eq_nil_or_concat' path
      · rfl
      · exact pageAt_of_none (hnone i path)

/-! ### Growing -/

def Whole (mem : ByteMemory) (pml4 : ℕ) (kind : ℕ → FrameKind) : Prop :=
  ∀ f n, kind f = .table n → ∃ path, tableAt mem pml4 path = some (n, fromFrame f)

/-- A change to another tree, in which the frames that are no longer free are tables. -/
structure Grows (roots : List ℕ) (pml4 : ℕ) (s : FrameState) (U : Finset ℕ)
    (kind : ℕ → FrameKind) (s' : FrameState) (U' : Finset ℕ) (kind' : ℕ → FrameKind) : Prop where
  tree : PageTree s' U' kind' roots pml4
  advance : Advance roots s U kind s' U' kind'
  taken : ∀ f ∈ U, f ∉ U' → ∃ n, kind' f = .table n
  whole : Whole s.mem pml4 kind → Whole s'.mem pml4 kind'

lemma Grows.refl (h : PageTree s U kind roots pml4) : Grows roots pml4 s U kind s U kind :=
  ⟨h, .refl h.layout, fun _ hU hU' => absurd hU hU', id⟩

lemma Grows.trans {s'' : FrameState} {U'' : Finset ℕ} {kind'' : ℕ → FrameKind}
    (h : Grows roots pml4 s U kind s' U' kind')
    (h' : Grows roots pml4 s' U' kind' s'' U'' kind'') :
    Grows roots pml4 s U kind s'' U'' kind'' where
  tree := h'.tree
  advance := h.advance.trans h'.advance
  taken f hU hU'' := by
    by_cases hU' : f ∈ U'
    · exact h'.taken f hU' hU''
    · obtain ⟨n, hn⟩ := h.taken f hU hU'
      exact ⟨n, (h'.advance.kept f hU').trans hn⟩
  whole hwhole := h'.whole (h.whole hwhole)

/-! ### Making tables -/

/-- A free frame has become a table and is linked from the entry. -/
structure Created (s : FrameState) (U : Finset ℕ) (t i : ℕ) (s' : FrameState) (f : ℕ) :
    Prop where
  absent : (entry s.mem t i).isPresent = false
  free : f ∈ U
  range : f < maxFrames
  link : entry s'.mem t i = link f
  blank : ∀ j < 512, (entry s'.mem (fromFrame f) j).isPresent = false
  kept : ∀ u j, pageSize ∣ u → u / pageSize ∉ U → j < 512 → (u = t → j ≠ i) →
    entry s'.mem u j = entry s.mem u j

section Creation

variable {f : ℕ} (h : PageTree s U kind roots pml4)
  (ht : tableAt s.mem pml4 path = some (n + 2, t)) (hi : i < width (n + 2))
  (hc : Created s U t i s' f)
include h ht hi hc

omit h hi in
lemma Created.tableAt_absent : tableAt s.mem pml4 (i :: path) = none := by
  rw [tableAt, lookup_cons_of_some ht, childTable_eq_none hc.absent]

lemma PageTree.tableAt_created (q : List ℕ) : tableAt s'.mem pml4 q =
    if q = i :: path then some (n + 1, fromFrame f) else tableAt s.mem pml4 q := by
  have hnone : childTable s.mem (n + 2, t) i = none := childTable_eq_none hc.absent
  have hsome : childTable s'.mem (n + 2, t) i = some (n + 1, fromFrame f) := by
    rw [childTable_eq_some, hc.link, addr_link hc.range]
    exact ⟨n, rfl, hi, isPresent_link, rfl⟩
  have hnew : ∀ j, childTable s'.mem (n + 1, fromFrame f) j = none := by
    intro j
    rw [eq_none_iff_forall_ne_some]
    intro v hv
    obtain ⟨-, -, hj, hpresent, -⟩ := childTable_eq_some.mp hv
    rw [hc.blank j (hj.trans_le width_le)] at hpresent
    cases hpresent
  refine lookup_link h.unshared ht hnone hsome hnew ?_ q
  rintro path' ⟨m, w⟩ j hw hne
  refine childTable_congr fun hj => ?_
  refine hc.kept w j (h.table hw).1 (h.used hw) (hj.trans_le width_le) fun hwt => hne ?_
  subst hwt
  rw [h.level_eq hw ht]

lemma PageTree.pageAt_created (q : List ℕ) : pageAt s'.mem pml4 q = pageAt s.mem pml4 q := by
  cases q with
  | nil => rfl
  | cons j q =>
    by_cases hq : q = i :: path
    · -- the new table is blank, and there was none before
      subst hq
      have hafter : tableAt s'.mem pml4 (i :: path) = some (n + 1, fromFrame f) := by
        rw [h.tableAt_created ht hi hc, if_pos rfl]
      simp only [pageAt, hafter, hc.tableAt_absent ht]
      split
      · next heq =>
        cases heq
        rw [if_neg]
        rintro ⟨hj, hpresent⟩
        rw [hc.blank j hj] at hpresent
        cases hpresent
      · rfl
    · refine pageAt_congr (by rw [h.tableAt_created ht hi hc, if_neg hq]) fun w hw hj => ?_
      refine hc.kept w j (h.table hw).1 (h.used hw) hj fun hwt => ?_
      subst hwt
      have hlevel := h.level_eq hw ht
      omega

lemma PageTree.grows_created (hadvance : Advance roots s U kind s' (U.erase f)
    (update kind f (.table (n + 1)))) :
    Grows roots pml4 s U kind s' (U.erase f) (update kind f (.table (n + 1))) := by
  have htables := h.tableAt_created ht hi hc
  have hfresh : ∀ q, tableAt s.mem pml4 q ≠ some (n + 1, fromFrame f) := by
    intro q hq
    have hused := h.used hq
    rw [fromFrame_div] at hused
    exact hused hc.free
  refine ⟨⟨hadvance.layout, ⟨h.root.1, ?_⟩, h.unshared.link hfresh htables,
    fun q m w j hw hj hpresent => ?_⟩, hadvance, fun g hg hg' => ?_, fun hwhole g m hg => ?_⟩
  · exact hadvance.keeps h.layout (by simp) h.root.2
  · rw [htables] at hw
    split_ifs at hw with hq
    · cases hw
      rw [hc.blank j (hj.trans_le width_le)] at hpresent
      cases hpresent
    by_cases hsame : w = t ∧ j = i
    · obtain ⟨rfl, rfl⟩ := hsame
      exact ⟨f, hc.link⟩
    have hkeep := hc.kept w j (h.table hw).1 (h.used hw) (hj.trans_le width_le)
      fun hwt hji => hsame ⟨hwt, hji⟩
    rw [hkeep] at hpresent ⊢
    exact h.linked q m w j hw hj hpresent
  · obtain rfl : g = f := by
      by_contra hne
      exact hg' (Finset.mem_erase.mpr ⟨hne, hg⟩)
    exact ⟨n + 1, update_self ..⟩
  · by_cases hgf : g = f
    · subst hgf
      rw [update_self] at hg
      cases hg
      exact ⟨i :: path, by rw [htables, if_pos rfl]⟩
    · rw [update_of_ne hgf] at hg
      obtain ⟨q, hq⟩ := hwhole g m hg
      refine ⟨q, ?_⟩
      rw [htables, if_neg, hq]
      rintro rfl
      rw [hc.tableAt_absent ht] at hq
      cases hq

end Creation

/-- What a walk that makes tables comes to: a table at the end of the path, or nothing for want
of a frame. -/
def TableFound (mem : ByteMemory) (pml4 : ℕ) (path : List ℕ) (n : ℕ) :
    Except AddressSpaceError ℕ → Prop
  | .ok u => tableAt mem pml4 path = some (n, u)
  | .error e => e = .allocationFailed ∧ tableAt mem pml4 path = none

/-- **A table is followed or made**: it is at the end of the longer path, unless the frames have
run out, and no page is mapped or unmapped. -/
theorem PageTree.nextOrCreate (h : PageTree s U kind roots pml4)
    (ht : tableAt s.mem pml4 path = some (n + 2, t)) (hi : i < width (n + 2)) :
    ∃ s' out U' kind', s.nextOrCreate t i = .ok (s', out) ∧
      Grows roots pml4 s U kind s' U' kind' ∧ TableFound s'.mem pml4 (i :: path) (n + 1) out ∧
      ∀ q, pageAt s'.mem pml4 q = pageAt s.mem pml4 q := by
  obtain ⟨hdvd, hkind⟩ := h.table ht
  obtain ⟨hpresent, hnext, -⟩ | ⟨habsent, hfull⟩ |
    ⟨s', f, habsent, hf, hrange, hnext, hadvance, hlink, hblank, hkept⟩ :=
    h.layout.nextOrCreate_cases hdvd hkind hi
  · refine ⟨s, _, U, kind, hnext, .refl h, ?_, fun _ => rfl⟩
    rw [TableFound, tableAt, lookup_cons_of_some ht, childTable_eq_some]
    exact ⟨n, rfl, hi, hpresent, rfl⟩
  · refine ⟨s, _, U, kind, hfull, .refl h, ⟨rfl, ?_⟩, fun _ => rfl⟩
    rw [tableAt, lookup_cons_of_some ht, childTable_eq_none habsent]
  · have hc : Created s U t i s' f := ⟨habsent, hf, hrange, hlink, hblank, hkept⟩
    refine ⟨s', _, _, _, hnext, h.grows_created ht hi hc hadvance, ?_, h.pageAt_created ht hi hc⟩
    rw [TableFound, h.tableAt_created ht hi hc, if_pos rfl]

lemma PageTree.walkOrCreate : ∀ (rest : List ℕ) {s : FrameState} {U : Finset ℕ}
    {kind : ℕ → FrameKind} {path : List ℕ} {t : ℕ}, PageTree s U kind roots pml4 →
    tableAt s.mem pml4 path = some (rest.length + 1, t) → Lower rest →
    ∃ s' out U' kind', s.walkOrCreate t rest = .ok (s', out) ∧
      Grows roots pml4 s U kind s' U' kind' ∧
      TableFound s'.mem pml4 (rest.reverse ++ path) 1 out ∧
      ∀ q, pageAt s'.mem pml4 q = pageAt s.mem pml4 q := by
  intro rest
  induction rest with
  | nil =>
    intro s U kind path t h ht _
    exact ⟨s, .ok t, U, kind, rfl, .refl h, ht, fun _ => rfl⟩
  | cons i rest ih =>
    intro s U kind path t h ht hlower
    obtain ⟨s1, out1, U1, kind1, hnext, hgrows1, hfound1, hpages1⟩ := h.nextOrCreate ht hlower.1
    rw [reverse_cons, append_assoc, singleton_append]
    simp only [FrameState.walkOrCreate, hnext, Exec.ok_bind]
    cases out1 with
    | error e =>
      obtain ⟨he, hnone⟩ := hfound1
      exact ⟨s1, .error e, U1, kind1, rfl, hgrows1, ⟨he, lookup_append_of_none hnone _⟩, hpages1⟩
    | ok u1 =>
      obtain ⟨s2, out2, U2, kind2, hwalk, hgrows2, hfound2, hpages2⟩ :=
        ih hgrows1.tree hfound1 hlower.2
      refine ⟨s2, out2, U2, kind2, hwalk, hgrows1.trans hgrows2, hfound2, fun q => ?_⟩
      rw [hpages2, hpages1]

lemma tableAt_walk : ∀ (rest : List ℕ) {path : List ℕ} {t : ℕ},
    tableAt mem pml4 path = some (rest.length + 1, t) → Lower rest →
    tableAt mem pml4 (rest.reverse ++ path) = (walk mem t rest).map fun u => (1, u) := by
  intro rest
  induction rest with
  | nil =>
    intro path t ht _
    exact ht
  | cons i rest ih =>
    intro path t ht hlower
    rw [reverse_cons, append_assoc, singleton_append]
    simp only [walk]
    cases hpresent : (entry mem t i).isPresent with
    | false =>
      have hnone : tableAt mem pml4 (i :: path) = none := by
        rw [tableAt, lookup_cons_of_some ht, childTable_eq_none hpresent]
      exact lookup_append_of_none hnone rest.reverse
    | true =>
      have hnext : tableAt mem pml4 (i :: path) = some (rest.length + 1, (entry mem t i).addr) := by
        rw [tableAt, lookup_cons_of_some ht, childTable_eq_some]
        exact ⟨rest.length, rfl, hlower.1, hpresent, rfl⟩
      exact ih hnext hlower.2

/-! ### Mapping and unmapping a page -/

lemma PageTree.setPage (h : PageTree s U kind roots pml4)
    (hpt : tableAt s.mem pml4 path = some (1, t)) (hj : j < 512) (e : PageTableEntry) :
    Grows roots pml4 s U kind ⟨s.alloc, PageTable.setEntry s.mem t j e⟩ U kind ∧
      pageAt (PageTable.setEntry s.mem t j e) pml4 = update (pageAt s.mem pml4)
        (j :: path) (if e.isPresent then some e else none) := by
  obtain ⟨hdvd, hkind⟩ := h.table hpt
  have hstore : Advance roots s U kind ⟨s.alloc, PageTable.setEntry s.mem t j e⟩ U kind :=
    h.layout.setEntry hdvd hkind hj fun k hk => by omega
  -- only this entry changes, and it is in a table of the lowest level
  have hentry : ∀ path' n u i, tableAt s.mem pml4 path' = some (n, u) → i < 512 →
      (u = t → i ≠ j) → entry (PageTable.setEntry s.mem t j e) u i = entry s.mem u i :=
    fun path' n u i hu hi hne => entry_setEntry_of_ne hdvd (h.table hu).1 hj hi hne
  obtain ⟨htree, htables⟩ := h.congr hstore fun path' n u i hu hi => by
    refine hentry path' _ u i hu (hi.trans_le width_le) fun hut => ?_
    subst hut
    have hlevel := h.level_eq hu hpt
    omega
  refine ⟨⟨htree, hstore, fun _ hU hU' => absurd hU hU', fun hwhole f n hf => ?_⟩,
    funext fun q => ?_⟩
  · obtain ⟨q, hq⟩ := hwhole f n hf
    exact ⟨q, (htables q).trans hq⟩
  by_cases hq : q = j :: path
  · subst hq
    rw [update_self, pageAt_cons ((htables path).trans hpt) hj, entry_setEntry_self]
  rw [update_of_ne hq]
  cases q with
  | nil => rfl
  | cons i path' =>
    refine pageAt_congr (htables path') fun u hu hi => hentry path' 1 u i hu hi ?_
    rintro rfl rfl
    -- the table is at the end of one path only
    rw [h.unshared path' path _ hu hpt] at hq
    exact hq rfl

/-- The flags of a page that is mapped for `flags`. -/
def userFlags (flags : PageTableFlags) : PageTableFlags :=
  PageTableFlags.present ||| PageTableFlags.writable ||| PageTableFlags.user ||| flags

lemma isPresent_userFlags {phys : UInt64} {flags : PageTableFlags} :
    (PageTableEntry.set phys (userFlags flags)).isPresent = true := by
  refine PageTableEntry.isPresent_set ?_
  simp only [userFlags, UInt64.toNat_or, Nat.testBit_or]
  rw [show PageTableFlags.present.toNat.testBit 0 = true from rfl]
  simp

lemma lt_of_pml4Index_lt {virt : UInt64} (h : pml4Index virt < 256) :
    ¬ virt ≥ 0xFFFF800000000000 := by
  intro hge
  have hle : (0xFFFF800000000000 : UInt64).toNat ≤ virt.toNat := UInt64.le_iff_toNat_le.mp hge
  have hvirt := virt.toNat_lt
  rw [show (0xFFFF800000000000 : UInt64).toNat = 0xFFFF800000000000 from rfl] at hle
  rw [pml4Index, index_eq _ _ (by decide), show (39 : UInt64).toNat = 39 from rfl] at h
  omega

lemma pml4Index_lt {virt : UInt64} (h : virt.toNat < 2 ^ 47) : pml4Index virt < 256 := by
  rw [pml4Index, index_eq _ _ (by decide), show (39 : UInt64).toNat = 39 from rfl]
  omega

lemma pagePath_inj {a b : UInt64} (ha : a.toNat < 2 ^ 47) (hb : b.toNat < 2 ^ 47) :
    pagePath a = pagePath b ↔ a.toNat / pageSize = b.toNat / pageSize := by
  simp only [pagePath, tablePath, reverse_cons, reverse_nil, nil_append,
    cons_append, List.cons.injEq, and_true]
  rw [ptIndex, ptIndex, index_eq _ _ (by decide), index_eq _ _ (by decide),
    show (12 : UInt64).toNat = 12 from rfl]
  rw [pdIndex, pdIndex, index_eq _ _ (by decide), index_eq _ _ (by decide),
    show (21 : UInt64).toNat = 21 from rfl]
  rw [pdptIndex, pdptIndex, index_eq _ _ (by decide), index_eq _ _ (by decide),
    show (30 : UInt64).toNat = 30 from rfl]
  rw [pml4Index, pml4Index, index_eq _ _ (by decide), index_eq _ _ (by decide),
    show (39 : UInt64).toNat = 39 from rfl]
  rw [pageSize]
  omega

section

variable {space : AddressSpace} {virt : UInt64}

/-- **Mapping a page** changes what is mapped at its path, and nothing else, if there is no page
yet and the frames suffice; else it changes nothing. -/
theorem PageTree.mapUserPage_cases (h : PageTree s U kind roots space.pml4Phys)
    (hlow : pml4Index virt < 256) (phys : UInt64) (flags : PageTableFlags) :
    ∃ s' U' kind', Grows roots space.pml4Phys s U kind s' U' kind' ∧
      ((pageAt s.mem space.pml4Phys (pagePath virt) = none ∧
        space.mapUserPage s virt phys flags =
          .ok (s', { space with userPageCount := space.userPageCount + 1 }, .ok ()) ∧
        pageAt s'.mem space.pml4Phys = update (pageAt s.mem space.pml4Phys)
          (pagePath virt) (some (.set phys (userFlags flags)))) ∨
      ∃ e, space.mapUserPage s virt phys flags = .ok (s', space, .error e) ∧
        pageAt s'.mem space.pml4Phys = pageAt s.mem space.pml4Phys ∧
        (e = .alreadyMapped ∧ (pageAt s.mem space.pml4Phys (pagePath virt)).isSome ∨
          e = .allocationFailed ∧ pageAt s.mem space.pml4Phys (pagePath virt) = none)) := by
  have hstart : tableAt s.mem space.pml4Phys [] =
      some ((tablePath virt).length + 1, space.pml4Phys) := rfl
  obtain ⟨s1, out, U1, kind1, hwalk, hgrows, hfound, hpages⟩ :=
    PageTree.walkOrCreate (tablePath virt) h hstart (lower_tablePath hlow)
  rw [append_nil] at hfound
  simp only [mapUserPage, if_neg (lt_of_pml4Index_lt hlow),
    walkOrCreateAndMap, hwalk, Exec.ok_bind]
  cases out with
  | error e =>
    obtain ⟨rfl, hnone⟩ := hfound
    refine ⟨s1, U1, kind1, hgrows, .inr ⟨_, rfl, funext hpages, .inr ⟨rfl, ?_⟩⟩⟩
    rw [← hpages]
    exact pageAt_of_none hnone
  | ok pt =>
    have hindex : ptIndex virt < 512 := ptIndex_lt
    have hpage := pageAt_cons hfound hindex
    simp only []
    cases hpresent : (entry s1.mem pt (ptIndex virt)).isPresent with
    | true =>
      refine ⟨s1, U1, kind1, hgrows, .inr ⟨.alreadyMapped, rfl, funext hpages, .inl ⟨rfl, ?_⟩⟩⟩
      rw [← hpages, pagePath, hpage, if_pos hpresent]
      rfl
    | false =>
      obtain ⟨hstore, hstored⟩ :=
        hgrows.tree.setPage hfound hindex (.set phys (userFlags flags))
      refine ⟨_, U1, kind1, hgrows.trans hstore, .inl ⟨?_, rfl, ?_⟩⟩
      · rw [← hpages, pagePath, hpage, if_neg (by simp [hpresent])]
      · rw [if_pos isPresent_userFlags, funext hpages] at hstored
        exact hstored

lemma PageTree.mapUserPage {space' : AddressSpace} {phys : UInt64} {flags : PageTableFlags}
    (h : PageTree s U kind roots space.pml4Phys) (hlow : pml4Index virt < 256)
    (hmap : space.mapUserPage s virt phys flags = .ok (s', space', .ok ())) :
    ∃ U' kind', PageTree s' U' kind' roots space.pml4Phys ∧ Advance roots s U kind s' U' kind' ∧
      space'.pml4Phys = space.pml4Phys ∧
      pageAt s'.mem space.pml4Phys = update (pageAt s.mem space.pml4Phys)
        (pagePath virt) (some (.set phys (userFlags flags))) := by
  obtain ⟨s1, U', kind', hgrows, ⟨-, hmap1, hpages⟩ | ⟨e, hmap1, -⟩⟩ :=
    h.mapUserPage_cases hlow phys flags
  · rw [hmap1] at hmap
    cases hmap
    exact ⟨U', kind', hgrows.tree, hgrows.advance, rfl, hpages⟩
  · rw [hmap1] at hmap
    cases hmap

lemma PageTree.unmapUserPage_cases (h : PageTree s U kind roots space.pml4Phys)
    (hlow : pml4Index virt < 256) :
    (pageAt s.mem space.pml4Phys (pagePath virt) = none ∧
      space.unmapUserPage s virt = (s, space, .error .notMapped)) ∨
    ∃ s' e, pageAt s.mem space.pml4Phys (pagePath virt) = some e ∧
      space.unmapUserPage s virt =
        (s', { space with userPageCount := space.userPageCount - 1 }, .ok e.addr) ∧
      Grows roots space.pml4Phys s U kind s' U kind ∧
      pageAt s'.mem space.pml4Phys = update (pageAt s.mem space.pml4Phys) (pagePath virt) none := by
  have hstart : tableAt s.mem space.pml4Phys [] =
      some ((tablePath virt).length + 1, space.pml4Phys) := rfl
  have hwalk := tableAt_walk (tablePath virt) hstart (lower_tablePath hlow)
  rw [append_nil] at hwalk
  simp only [unmapUserPage, if_neg (lt_of_pml4Index_lt hlow)]
  cases hpt : walk s.mem space.pml4Phys (tablePath virt) with
  | none =>
    rw [hpt] at hwalk
    exact .inl ⟨pageAt_of_none hwalk, rfl⟩
  | some pt =>
    rw [hpt] at hwalk
    have hindex : ptIndex virt < 512 := ptIndex_lt
    have hpage := pageAt_cons hwalk hindex
    cases hpresent : (entry s.mem pt (ptIndex virt)).isPresent with
    | false =>
      refine .inl ⟨?_, by simp [hpresent]⟩
      rw [pagePath, hpage, if_neg (by simp [hpresent])]
    | true =>
      obtain ⟨hstore, hstored⟩ := h.setPage hwalk hindex .empty
      refine .inr ⟨_, entry s.mem pt (ptIndex virt), ?_, by simp [hpresent], hstore, hstored⟩
      rw [pagePath, hpage, if_pos hpresent]

lemma layout_of_ready {L : ℕ → List ℕ} (h : s.Ready U L) : Layout s U (fun _ => .other) [] :=
  ⟨⟨L, h⟩, fun _ _ => rfl, (fun _ _ _ hkind => by cases hkind), (fun _ hr => by cases hr),
    fun _ hr => by cases hr⟩

lemma exists_created {s0 s1 : FrameState} {cr3 : UInt64} (h : Layout s0 U (fun _ => .other) roots)
    (hcreate : AddressSpace.create s0 cr3 = .ok (s1, .ok space)) :
    ∃ f ∈ U, space = ⟨fromFrame f, 0, true⟩ ∧
      PageTree s1 (U.erase f) (update (fun _ => .other) f (.table 4)) roots
        (fromFrame f) ∧
      (∀ q, pageAt s1.mem (fromFrame f) q = none) ∧
      (AddressSpace.readCr3 cr3 / pageSize ≠ f → ∀ i, 256 ≤ i → i < 512 →
        entry s1.mem (AddressSpace.readCr3 cr3) i = entry s1.mem (fromFrame f) i) := by
  obtain hnone | ⟨s', f, hf, hcreate', hadvance, hblank, hupper⟩ := h.create_cases cr3
  · rw [hnone] at hcreate
    cases hcreate
  rw [hcreate'] at hcreate
  cases hcreate
  obtain ⟨htree, hpages⟩ := PageTree.of_blank hadvance.layout (dvd_fromFrame (f := f))
    (by rw [fromFrame_div, update_self]) hblank
  exact ⟨f, hf, rfl, htree, hpages, hupper⟩

end

end Fabric
