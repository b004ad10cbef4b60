/-
What user code may do with a page.

To find a page the processor reads an entry in a table of each level.  The access is what all
of them allow: one entry without the bit for user pages, or for writing, takes it away, and so
does one entry with the bit against execution.
-/
import FabricOS.PageMap

open List

namespace Fabric

open Buddy FreeBlockPtr PageTable FrameState RadixTree

/-! ### Bits of entries -/

namespace PageTableEntry

variable {e : PageTableEntry} {flag flags : PageTableFlags} {addr : UInt64} {k : ℕ}

def has (e : PageTableEntry) (flag : PageTableFlags) : Bool := e.bits &&& flag != 0

lemma has_eq_testBit (hflag : flag.toNat = 2 ^ k) : e.has flag = e.bits.toNat.testBit k := by
  have hand : (e.bits &&& flag).toNat = (e.bits.toNat.testBit k).toNat * 2 ^ k := by
    rw [UInt64.toNat_and, hflag, Nat.and_two_pow]
  rw [has, Bool.eq_iff_iff, bne_iff_ne, ne_eq, ← UInt64.toNat_inj, hand]
  cases e.bits.toNat.testBit k <;> simp

lemma has_set (hflag : flag.toNat = 2 ^ k) (hk : k < 12 ∨ 52 ≤ k) :
    (set addr flags).has flag = flags.toNat.testBit k := by
  rw [has_eq_testBit hflag, set, UInt64.toNat_or, UInt64.toNat_and, Nat.testBit_or,
    Nat.testBit_and, testBit_addrMask, decide_eq_false (by omega), Bool.and_false, Bool.false_or]

end PageTableEntry

/-! ### The access to a page -/

/-- The entries that the processor reads along the indices; those above the lowest level may be
entries of large pages. -/
def pageWalk (mem : ByteMemory) (table : ℕ) : List ℕ → Option (List PageTableEntry)
  | [] => some []
  | i :: path =>
    let e := entry mem table i
    if ¬ e.isPresent then none
    else if e.isHuge ∧ path ≠ [] then some [e]
    else (pageWalk mem e.addr path).map (e :: ·)

structure PageAccess where
  user : Bool
  writable : Bool
  executable : Bool
  deriving DecidableEq

def PageAccess.ofEntries (entries : List PageTableEntry) : PageAccess where
  user := entries.all (·.has PageTableFlags.user)
  writable := entries.all (·.has PageTableFlags.writable)
  executable := entries.all fun e => ! e.has PageTableFlags.noExecute

/-- The access to page `n` of the lower half, which has `2 ^ 35` pages. -/
def pageAccess (mem : ByteMemory) (pml4 n : ℕ) : Option PageAccess :=
  let virt : UInt64 := .ofNat (n * pageSize)
  if n < 2 ^ 35 then
    (pageWalk mem pml4 (tablePath virt ++ [ptIndex virt])).map PageAccess.ofEntries
  else none

def UserMapped (mem : ByteMemory) (pml4 n : ℕ) : Prop :=
  ∃ access, pageAccess mem pml4 n = some access ∧ access.user = true

/-! ### In the tree of an address space -/

lemma has_link {f k : ℕ} {flag : PageTableFlags} (hflag : flag.toNat = 2 ^ k)
    (hk : k < 12 ∨ 52 ≤ k) : (link f).has flag = Nat.testBit 7 k :=
  PageTableEntry.has_set hflag hk

lemma PageAccess.ofEntries_links (frames : List ℕ) (e : PageTableEntry) :
    PageAccess.ofEntries (frames.map link ++ [e]) = PageAccess.ofEntries [e] := by
  have huser : ∀ f, (link f).has PageTableFlags.user = true := fun f =>
    has_link (k := 2) rfl (by decide)
  have hwritable : ∀ f, (link f).has PageTableFlags.writable = true := fun f =>
    has_link (k := 1) rfl (by decide)
  have hexecutable : ∀ f, (link f).has PageTableFlags.noExecute = false := fun f =>
    has_link (k := 63) rfl (by decide)
  simp [PageAccess.ofEntries, all_append, all_map, Function.comp_def, huser, hwritable,
    hexecutable]

variable {s : FrameState} {U : Finset ℕ} {kind : ℕ → FrameKind} {roots : List ℕ} {pml4 j : ℕ}

lemma PageTree.pageWalk (h : PageTree s U kind roots pml4) (hj : j < 512) :
    ∀ (rest : List ℕ) {path : List ℕ} {t : ℕ},
      tableAt s.mem pml4 path = some (rest.length + 1, t) → Lower rest →
      match pageAt s.mem pml4 (j :: (rest.reverse ++ path)) with
      | none => Fabric.pageWalk s.mem t (rest ++ [j]) = none
      | some e => ∃ frames : List ℕ,
          Fabric.pageWalk s.mem t (rest ++ [j]) = some (frames.map link ++ [e]) := by
  intro rest
  induction rest with
  | nil =>
    intro path t ht _
    rw [reverse_nil, nil_append, pageAt_cons ht hj]
    simp only [nil_append, Fabric.pageWalk]
    cases hpresent : (entry s.mem t j).isPresent with
    | false => simp
    | true => exact ⟨[], by simp⟩
  | cons i rest ih =>
    intro path t ht hlower
    rw [reverse_cons, append_assoc, singleton_append]
    simp only [cons_append, Fabric.pageWalk]
    cases hpresent : (entry s.mem t i).isPresent with
    | false =>
      have hnone : tableAt s.mem pml4 (i :: path) = none := by
        rw [tableAt, lookup_cons_of_some ht, childTable_eq_none hpresent]
      rw [pageAt_of_none (lookup_append_of_none hnone _)]
      simp
    | true =>
      have hnext : tableAt s.mem pml4 (i :: path) =
          some (rest.length + 1, (entry s.mem t i).addr) := by
        rw [tableAt, lookup_cons_of_some ht, childTable_eq_some]
        exact ⟨rest.length, rfl, hlower.1, hpresent, rfl⟩
      obtain ⟨f, hlink⟩ := h.linked path rest.length t i ht hlower.1 hpresent
      have hhuge : (entry s.mem t i).isHuge = false := by
        rw [hlink]
        exact has_link (k := 7) rfl (by decide)
      have hbelow := ih hnext hlower.2
      simp only [hhuge, Bool.false_eq_true, not_true_eq_false, false_and, if_false]
      split at hbelow
      · rw [hbelow]
        rfl
      obtain ⟨frames, hwalk⟩ := hbelow
      refine ⟨f :: frames, ?_⟩
      rw [hwalk, hlink]
      rfl

lemma PageTree.pageAccess (h : PageTree s U kind roots pml4) {n : ℕ} (hn : n < 2 ^ 35)
    (hlow : pml4Index (.ofNat (n * pageSize)) < 256) :
    Fabric.pageAccess s.mem pml4 n = (pageAt s.mem pml4 (pagePath (.ofNat (n * pageSize)))).map
      fun e => PageAccess.ofEntries [e] := by
  have hstart : tableAt s.mem pml4 [] =
      some ((tablePath (.ofNat (n * pageSize))).length + 1, pml4) := rfl
  have hwalk := h.pageWalk (j := ptIndex (.ofNat (n * pageSize))) ptIndex_lt _ hstart
    (lower_tablePath hlow)
  simp only [Fabric.pageAccess, if_pos hn]
  change match pageAt s.mem pml4 (pagePath (.ofNat (n * pageSize))) with
    | none => _
    | some e => _ at hwalk
  split at hwalk
  · next hpage => rw [hwalk, hpage]; rfl
  · next e hpage =>
    obtain ⟨frames, hwalk⟩ := hwalk
    rw [hwalk, hpage, Option.map_some, Option.map_some, PageAccess.ofEntries_links]

end Fabric
