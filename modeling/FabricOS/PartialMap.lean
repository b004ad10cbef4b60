/-
Partial maps as functions to `Option`, and the number of their keys.

* `support_update_some`, `support_update_none` — storing and removing at one key;
* `ncard_support_insert`, `ncard_support_erase` — so the number of keys goes up or down by one.
-/
import Mathlib.Data.Set.Card

open Function

namespace PartialMap

variable {κ ν : Type*} {m : κ → Option ν} {k : κ}

def support (m : κ → Option ν) : Set κ := {k | (m k).isSome}

lemma mem_support : k ∈ support m ↔ (m k).isSome := Iff.rfl

lemma support_none : support (fun _ => none : κ → Option ν) = ∅ := by
  simp [support]

variable [DecidableEq κ]

lemma support_update_some (v : ν) : support (update m k (some v)) = insert k (support m) := by
  ext j
  by_cases hj : j = k
  · subst hj
    simp [support]
  · simp [support, hj]

lemma support_update_none : support (update m k none) = support m \ {k} := by
  ext j
  by_cases hj : j = k
  · subst hj
    simp [support]
  · simp [support, hj]

lemma ncard_support_insert (hfinite : (support m).Finite) (hk : m k = none) (v : ν) :
    (support (update m k (some v))).ncard = (support m).ncard + 1 := by
  rw [support_update_some, Set.ncard_insert_of_notMem _ hfinite]
  rw [mem_support, hk]
  simp

lemma ncard_support_erase (hk : (m k).isSome) :
    (support (update m k none)).ncard = (support m).ncard - 1 := by
  rw [support_update_none, Set.ncard_sdiff_singleton_of_mem (mem_support.mpr hk)]

end PartialMap
