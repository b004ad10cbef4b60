/-
Slots of tables of a fixed size.

A table is a function on `Fin n`.  Loops that go over its slots from the first one and stop
at a match compute `firstSlot`.  `slotSum` adds up what the entries of a table weigh.  A
reference to a slot packs its number, in the low eight bits, with a generation: `packed_and`
and `packed_shiftRight` take the two apart again.
-/
import Mathlib.Algebra.BigOperators.Group.Finset.Piecewise
import Mathlib.Algebra.Order.BigOperators.Group.Finset
import Mathlib.Data.Nat.Bitwise

open Function Finset

variable {n : ℕ} {p q : Fin n → Bool} {i : Fin n}

/-- The first slot that satisfies `p`. -/
def firstSlot (p : Fin n → Bool) : Option (Fin n) := (List.finRange n).find? p

lemma firstSlot_eq_some : firstSlot p = some i ↔ p i = true ∧ ∀ j < i, p j = false := by
  rw [firstSlot, ← Fin.find?_eq_find?_finRange, Fin.find?_eq_some_iff]

lemma firstSlot_eq_none : firstSlot p = none ↔ ∀ i, p i = false := by
  rw [firstSlot, ← Fin.find?_eq_find?_finRange, Fin.find?_eq_none_iff]

/-! ### Sums over the entries -/

section

variable {α : Type} {f : α → ℕ} {t : Fin n → Option α}

def slotSum (f : α → ℕ) (t : Fin n → Option α) : ℕ := ∑ i, (t i).elim 0 f

@[simp] lemma slotSum_none : slotSum f (fun _ : Fin n => none) = 0 := by simp [slotSum]

lemma slotSum_update (t : Fin n → Option α) (i : Fin n) (a : Option α) :
    slotSum f (update t i a) + (t i).elim 0 f = slotSum f t + a.elim 0 f := by
  have hupdate : (fun j => (update t i a j).elim 0 f) =
      update (fun j => (t j).elim 0 f) i (a.elim 0 f) := by
    funext j
    by_cases hj : j = i
    · subst hj
      simp
    · simp [hj]
  have hsplit := add_sum_erase univ (fun j => (t j).elim 0 f) (mem_univ i)
  rw [slotSum, slotSum, hupdate, sum_update_of_mem (mem_univ i),
    sdiff_singleton_eq_erase, ← hsplit]
  omega

end

/-! ### References with generations -/

lemma packed_eq {slot : ℕ} (hslot : slot < 256) (gen : ℕ) :
    slot ||| gen <<< 8 = gen * 256 + slot := by
  rw [Nat.lor_comm, ← Nat.shiftLeft_add_eq_or_of_lt (i := 8) hslot, Nat.shiftLeft_eq]

lemma packed_and {slot : ℕ} (hslot : slot < 256) (gen : ℕ) :
    (slot ||| gen <<< 8) &&& 0xFF = slot := by
  rw [packed_eq hslot, Nat.and_two_pow_sub_one_eq_mod _ 8]
  omega

lemma packed_shiftRight {slot gen : ℕ} (hslot : slot < 256) (hgen : gen < 65536) :
    (slot ||| gen <<< 8) >>> 8 &&& 0xFFFF = gen := by
  rw [packed_eq hslot, Nat.shiftRight_eq_div_pow, Nat.and_two_pow_sub_one_eq_mod _ 16]
  omega
