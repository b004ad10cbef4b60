/-
Arrays of which the first entries are in use.

The array is a function from its index, and its `window` is the list of the first entries.
Writing an entry, copying a list into the array, and closing a gap by shifting act on the
window as the operations on lists do.

To sort the window in place, the entry at `j` is swapped with its neighbour as long as it goes
`before` it, for one entry after the other.  On lists the same is done by sinking an entry into
what lies before it, which is kept in reversed order.
-/
import Mathlib.Data.List.Basic

open Function List Nat

namespace ArrayWindow

variable {α : Type} {before : α → α → Bool}

/-! ### Windows -/

def window (a : ℕ → α) (n : ℕ) : List α := (List.range n).map a

lemma window_succ (a : ℕ → α) (n : ℕ) : window a (n + 1) = window a n ++ [a n] := by
  rw [window, range_succ, map_append]
  rfl

lemma window_congr {a b : ℕ → α} {n : ℕ} (h : ∀ i < n, a i = b i) : window a n = window b n :=
  map_congr_left fun i hi => h i (mem_range.mp hi)

@[simp] lemma length_window (a : ℕ → α) (n : ℕ) : (window a n).length = n := by
  simp [window]

lemma getElem?_window {a : ℕ → α} {n i : ℕ} (h : i < n) : (window a n)[i]? = some (a i) := by
  simp [window, h]

lemma window_concat (a : ℕ → α) (n : ℕ) (x : α) :
    window (update a n x) (n + 1) = window a n ++ [x] := by
  rw [window_succ, update_self]
  congr 1
  exact window_congr fun i hi => update_of_ne (Nat.ne_of_lt hi) x a

lemma window_update (a : ℕ → α) (n i : ℕ) (x : α) :
    window (update a i x) n = (window a n).set i x := by
  refine ext_getElem? fun k => ?_
  rw [getElem?_set, length_window]
  by_cases hk : k < n
  · rw [getElem?_window hk, getElem?_window hk]
    by_cases hik : i = k
    · subst hik
      simp [hk]
    · rw [update_of_ne (Ne.symm hik), if_neg hik]
  · have hnone : ∀ b : ℕ → α, (window b n)[k]? = none := fun b => by simp [hk]
    rw [hnone, hnone]
    split_ifs with hik hin
    · exact absurd (hik ▸ hin) hk
    · rfl
    · rfl

lemma findIdx?_window (a : ℕ → α) (n : ℕ) (p : α → Bool) :
    (window a n).findIdx? p = (List.range n).find? fun i => p (a i) := by
  induction n with
  | zero => rfl
  | succ n ih =>
    rw [window_succ, findIdx?_append, ih, range_succ, find?_append, length_window]
    cases hp : p (a n) <;> simp [hp]

lemma find?_window (a : ℕ → α) (n : ℕ) (p : α → Bool) :
    (window a n).find? p = ((List.range n).find? fun i => p (a i)).map a := by
  rw [window, find?_map]
  rfl

def copy (d : α) (a : ℕ → α) (xs : List α) (n : ℕ) : ℕ → α :=
  (List.range n).foldl (fun a i => Function.update a i (xs.getD i d)) a

lemma window_copy (d : α) (a : ℕ → α) {xs : List α} {n : ℕ} (hn : n ≤ xs.length) :
    window (copy d a xs n) n = xs.take n := by
  induction n with
  | zero => rfl
  | succ n ih =>
    have hcopy : copy d a xs (n + 1) = update (copy d a xs n) n (xs.getD n d) := by
      rw [copy, range_succ, foldl_append]
      rfl
    have hentry : xs.getD n d = xs[n] := by
      rw [getD_eq_getElem?_getD, getElem?_eq_getElem hn, Option.getD_some]
    rw [hcopy, window_concat, ih (by omega), hentry, take_append_getElem]

/-- Move the entries behind `i` down by one, up to the one at `n`. -/
def shift (a : ℕ → α) (i n : ℕ) : ℕ → α :=
  (List.range' i (n - i)).foldl (fun a j => Function.update a j (a (j + 1))) a

lemma shift_apply (a : ℕ → α) (i m k : ℕ) :
    (List.range' i m).foldl (fun a j => update a j (a (j + 1))) a k =
      if i ≤ k ∧ k < i + m then a (k + 1) else a k := by
  induction m generalizing k with
  | zero =>
    rw [if_neg (by omega)]
    rfl
  | succ m ih =>
    rw [range'_1_concat, foldl_append, foldl_cons, foldl_nil]
    by_cases hk : k = i + m
    · subst hk
      rw [update_self, ih, if_neg (by omega), if_pos (by omega)]
    · rw [update_of_ne hk, ih]
      exact if_congr (by omega) rfl rfl

lemma window_shift (a : ℕ → α) {i n : ℕ} (hi : i ≤ n) :
    window (shift a i n) n = (window a (n + 1)).eraseIdx i := by
  refine ext_getElem? fun k => ?_
  rw [getElem?_eraseIdx]
  by_cases hk : k < n
  · rw [getElem?_window hk, shift, shift_apply, getElem?_window (lt_succ_of_lt hk),
      getElem?_window (succ_lt_succ hk)]
    split_ifs <;> first | rfl | omega
  · rw [if_neg (by omega)]
    simp [hk]

/-! ### Sorting lists -/

def sink (before : α → α → Bool) (x : α) : List α → List α
  | [] => [x]
  | y :: front => if before x y then y :: sink before x front else x :: y :: front

def sinkSort (before : α → α → Bool) (xs : List α) : List α :=
  (xs.foldl (fun front x => sink before x front) []).reverse

lemma sink_perm (x : α) (front : List α) : (sink before x front).Perm (x :: front) := by
  induction front with
  | nil => exact .refl _
  | cons y front ih =>
    rw [sink]
    split_ifs
    · exact (ih.cons y).trans (.swap x y front)
    · exact .refl _

lemma sinkSort_perm (xs : List α) : (sinkSort before xs).Perm xs := by
  -- the fold keeps what it has, and adds what is left
  have hfold : ∀ front, (xs.foldl (fun front x => sink before x front) front).Perm
      (xs.reverse ++ front) := by
    induction xs with
    | nil => exact fun front => .refl _
    | cons x xs ih =>
      intro front
      rw [foldl_cons, reverse_cons, append_assoc]
      exact (ih _).trans (.append_left _ (sink_perm x front))
  refine (reverse_perm _).trans ((hfold []).trans ?_)
  rw [append_nil]
  exact reverse_perm xs

section Order

variable (htrans : ∀ x y z, before x y = false → before y z = false → before x z = false)
  (hasymm : ∀ x y, before x y = true → before y x = false)
include htrans hasymm

lemma sink_sorted (x : α) {front : List α} (h : front.Pairwise fun y z => before y z = false) :
    (sink before x front).Pairwise fun y z => before y z = false := by
  induction front with
  | nil => exact pairwise_singleton _ _
  | cons y front ih =>
    obtain ⟨hy, hfront⟩ := pairwise_cons.mp h
    rw [sink]
    cases hxy : before x y with
    | true =>
      refine pairwise_cons.mpr ⟨fun z hz => ?_, ih hfront⟩
      rcases mem_cons.mp ((sink_perm x front).mem_iff.mp hz) with rfl | hz
      · exact hasymm _ _ hxy
      · exact hy z hz
    | false =>
      refine pairwise_cons.mpr ⟨fun z hz => ?_, h⟩
      rcases mem_cons.mp hz with rfl | hz
      · exact hxy
      · exact htrans _ _ _ hxy (hy z hz)

lemma sinkSort_sorted (xs : List α) :
    (sinkSort before xs).Pairwise fun x y => before y x = false := by
  have hfold : ∀ front : List α, (front.Pairwise fun y z => before y z = false) →
      (xs.foldl (fun front x => sink before x front) front).Pairwise
        fun y z => before y z = false := by
    induction xs with
    | nil => exact fun front h => h
    | cons x xs ih => exact fun front h => ih _ (sink_sorted htrans hasymm x h)
  exact pairwise_reverse.mpr (hfold [] .nil)

end Order

/-! ### Sorting arrays -/

def swap (a : ℕ → α) (i j : ℕ) : ℕ → α := fun k =>
  if k = i then a j else if k = j then a i else a k

/-- Swap the entry at `j` down as long as it goes before its neighbour. -/
def bubble (before : α → α → Bool) : (ℕ → α) → ℕ → ℕ → α
  | a, 0 => a
  | a, j + 1 => if before (a (j + 1)) (a j) then bubble before (swap a (j + 1) j) j else a

/-- Sort the first `n` entries. -/
def sort (before : α → α → Bool) (a : ℕ → α) (n : ℕ) : ℕ → α :=
  (List.range' 1 (n - 1)).foldl (bubble before) a

lemma bubble_above {j k : ℕ} (a : ℕ → α) (h : j < k) : bubble before a j k = a k := by
  induction j generalizing a with
  | zero => rfl
  | succ j ih =>
    rw [bubble]
    split_ifs
    · rw [ih _ (by omega), swap, if_neg (by omega), if_neg (by omega)]
    · rfl

lemma reverse_window_bubble (before : α → α → Bool) (a : ℕ → α) (j : ℕ) :
    (window (bubble before a j) (j + 1)).reverse = sink before (a j) (window a j).reverse := by
  induction j generalizing a with
  | zero => rfl
  | succ j ih =>
    rw [bubble, window_succ a j, reverse_append, reverse_singleton, singleton_append, sink]
    split_ifs with hbefore
    · -- the neighbour moves up, and the entry goes on below it
      have htop : bubble before (swap a (j + 1) j) j (j + 1) = a j := by
        rw [bubble_above _ (lt_succ_self j), swap, if_pos rfl]
      have hentry : swap a (j + 1) j j = a (j + 1) := by
        rw [swap, if_neg (by omega), if_pos rfl]
      have hbelow : window (swap a (j + 1) j) j = window a j := by
        refine window_congr fun i hi => ?_
        rw [swap, if_neg (by omega), if_neg (by omega)]
      rw [window_succ, reverse_append, reverse_singleton, singleton_append, htop,
        ih, hentry, hbelow]
    · rw [window_succ, window_succ, reverse_append, reverse_append]
      rfl

lemma window_sort (a : ℕ → α) (n : ℕ) :
    window (sort before a n) n = sinkSort before (window a n) ∧
      ∀ k, n ≤ k → sort before a n k = a k := by
  -- after the entries below `m`, those below `m` are sorted
  have hloop : ∀ m, window ((range' 1 m).foldl (bubble before) a) (m + 1) =
      sinkSort before (window a (m + 1)) ∧
      ∀ k, m < k → (range' 1 m).foldl (bubble before) a k = a k := by
    intro m
    induction m with
    | zero => exact ⟨rfl, fun _ _ => rfl⟩
    | succ m ih =>
      obtain ⟨hsorted, habove⟩ := ih
      rw [range'_1_concat, foldl_append, foldl_cons, foldl_nil, Nat.add_comm 1 m]
      generalize (range' 1 m).foldl (bubble before) a = b at hsorted habove ⊢
      refine ⟨?_, fun k hk => ?_⟩
      · have hsink := reverse_window_bubble before b (m + 1)
        rw [hsorted, habove (m + 1) (lt_succ_self m), sinkSort, reverse_reverse] at hsink
        rw [← reverse_reverse (window (bubble before b (m + 1)) _), hsink, sinkSort,
          window_succ a (m + 1), foldl_append]
        rfl
      · rw [bubble_above _ hk, habove k (by omega)]
  cases n with
  | zero => exact ⟨rfl, fun _ _ => rfl⟩
  | succ m => exact ⟨(hloop m).1, fun k hk => (hloop m).2 k hk⟩

end ArrayWindow
