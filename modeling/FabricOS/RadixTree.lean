/-
Trees of nodes that are found by a path of indices.

A node may have a child at each index.  Nothing keeps two paths from leading to one node, so
that a child that is given to a node appears at the end of every path to it.  In a tree that
shares no node it appears in one place.

* `lookup_congr` — the lookups depend on the nodes that are reached only;
* `Unshared.link` — and shares nothing.
-/
import Mathlib.Data.List.Nodup
import Mathlib.Data.Option.Basic

open List Option

namespace RadixTree

variable {ν ι : Type*} {child child' : ν → ι → Option ν} {root : ν}

/-- The node at the end of a path, whose last index comes first. -/
def lookup (child : ν → ι → Option ν) (root : ν) : List ι → Option ν
  | [] => some root
  | i :: path => (lookup child root path).bind fun v => child v i

@[simp] lemma lookup_nil : lookup child root [] = some root := rfl

variable {path : List ι}

lemma lookup_cons {i : ι} :
    lookup child root (i :: path) = (lookup child root path).bind fun v => child v i := rfl

lemma lookup_cons_of_some {i : ι} {v : ν}
    (h : lookup child root path = some v) : lookup child root (i :: path) = child v i := by
  rw [lookup_cons, h, bind_some]

lemma lookup_cons_of_none {i : ι} (h : lookup child root path = none) :
    lookup child root (i :: path) = none := by
  rw [lookup_cons, h, bind_none]

lemma lookup_append_of_none (h : lookup child root path = none) :
    ∀ rest : List ι, lookup child root (rest ++ path) = none
  | [] => h
  | _ :: rest => lookup_cons_of_none (lookup_append_of_none h rest)

def Unshared (child : ν → ι → Option ν) (root : ν) : Prop :=
  ∀ path path' v, lookup child root path = some v → lookup child root path' = some v →
    path = path'

lemma lookup_congr (h : ∀ path v i, lookup child root path = some v → child' v i = child v i)
    (path : List ι) : lookup child' root path = lookup child root path := by
  induction path with
  | nil => rfl
  | cons i path ih =>
    rw [lookup_cons, ih, lookup_cons]
    cases hv : lookup child root path with
    | none => rfl
    | some v => exact h path v i hv

section Link

variable {path : List ι} {v new : ν} {i : ι}

lemma lookup_link [DecidableEq ι] (hunshared : Unshared child root)
    (hv : lookup child root path = some v) (hnone : child v i = none)
    (hlink : child' v i = some new) (hblank : ∀ j, child' new j = none)
    (hkept : ∀ path u j, lookup child root path = some u → (u = v → j ≠ i) →
      child' u j = child u j) (q : List ι) :
    lookup child' root q = if q = i :: path then some new else lookup child root q := by
  induction q with
  | nil => rfl
  | cons j q ih =>
    by_cases hq : q = i :: path
    · -- nothing is below the new child, and nothing was below it
      subst hq
      rw [if_pos rfl] at ih
      have hbefore : lookup child root (i :: path) = none := by
        rw [lookup_cons_of_some hv, hnone]
      rw [lookup_cons_of_some ih, hblank, lookup_cons_of_none hbefore, if_neg]
      intro heq
      exact cons_ne_self j _ heq
    · rw [if_neg hq] at ih
      cases hu : lookup child root q with
      | none =>
        rw [lookup_cons_of_none (ih.trans hu), lookup_cons_of_none hu, if_neg]
        intro heq
        obtain ⟨-, rfl⟩ := List.cons.inj heq
        rw [hv] at hu
        cases hu
      | some u =>
        rw [lookup_cons_of_some (ih.trans hu), lookup_cons_of_some hu]
        by_cases hsame : u = v ∧ j = i
        · obtain ⟨rfl, rfl⟩ := hsame
          rw [hunshared q path u hu hv, if_pos rfl, hlink]
        rw [hkept q u j hu fun hu' hj => hsame ⟨hu', hj⟩, if_neg]
        intro heq
        obtain ⟨rfl, rfl⟩ := List.cons.inj heq
        rw [hv] at hu
        exact hsame ⟨(some.inj hu).symm, rfl⟩

lemma Unshared.link [DecidableEq ι] (h : Unshared child root)
    (hnew : ∀ q, lookup child root q ≠ some new)
    (hlookup : ∀ q, lookup child' root q =
      if q = i :: path then some new else lookup child root q) : Unshared child' root := by
  intro q q' u hq hq'
  rw [hlookup] at hq hq'
  split_ifs at hq hq' with hnew1 hnew2 hnew2
  · rw [hnew1, hnew2]
  · rw [← hq] at hq'
    exact absurd hq' (hnew q')
  · rw [← hq'] at hq
    exact absurd hq (hnew q)
  · exact h q q' u hq hq'

end Link

/-! ### Walking through the tree -/

section Postorder

variable {indices : ν → List ι} {v w : ν} {i : ι} {n : ℕ}

/-- The nodes at most `n` steps below a node, children first. -/
def postorder (child : ν → ι → Option ν) (indices : ν → List ι) : ℕ → ν → List ν
  | 0, v => [v]
  | n + 1, v =>
    ((indices v).flatMap fun i => ((child v i).map (postorder child indices n)).getD []) ++ [v]

lemma lookup_concat (path : List ι) :
    lookup child v (path ++ [i]) = (child v i).bind fun w => lookup child w path := by
  induction path with
  | nil =>
    rw [nil_append, lookup_cons_of_some lookup_nil]
    cases child v i with
    | none | some w => rfl
  | cons j path ih =>
    rw [cons_append, lookup_cons, ih, bind_assoc]
    rfl

lemma Unshared.below (h : Unshared child v) (hw : child v i = some w) : Unshared child w := by
  intro path path' u hu hu'
  have hlong : ∀ p, lookup child w p = some u → lookup child v (p ++ [i]) = some u := by
    intro p hp
    rw [lookup_concat, hw, bind_some, hp]
  exact append_cancel_right (h _ _ u (hlong path hu) (hlong path' hu'))

lemma mem_postorder_succ : w ∈ postorder child indices (n + 1) v ↔
    (∃ i ∈ indices v, ∃ u, child v i = some u ∧ w ∈ postorder child indices n u) ∨ w = v := by
  rw [postorder, mem_append, mem_singleton, mem_flatMap]
  refine or_congr_left (exists_congr fun i => and_congr_right fun _ => ?_)
  cases child v i with
  | none | some u => simp

lemma mem_postorder (hindices : ∀ v i w, child v i = some w → i ∈ indices v) :
    w ∈ postorder child indices n v ↔ ∃ path, path.length ≤ n ∧ lookup child v path = some w := by
  induction n generalizing v with
  | zero =>
    rw [postorder, mem_singleton]
    constructor
    · rintro rfl
      exact ⟨[], Nat.le_refl 0, rfl⟩
    · rintro ⟨path, hlen, hpath⟩
      rw [length_eq_zero_iff.mp (Nat.le_zero.mp hlen), lookup_nil] at hpath
      exact (some.inj hpath).symm
  | succ n ih =>
    rw [mem_postorder_succ]
    constructor
    · rintro (⟨i, -, u, hu, hw⟩ | rfl)
      · obtain ⟨path, hlen, hpath⟩ := ih.mp hw
        refine ⟨path ++ [i], by simpa using hlen, ?_⟩
        rw [lookup_concat, hu, bind_some, hpath]
      · exact ⟨[], Nat.zero_le _, rfl⟩
    · rintro ⟨path, hlen, hpath⟩
      obtain rfl | ⟨path, i, rfl⟩ := eq_nil_or_concat' path
      · exact .inr (some.inj hpath).symm
      rw [lookup_concat] at hpath
      obtain ⟨u, hu, hw⟩ := bind_eq_some_iff.mp hpath
      refine .inl ⟨i, hindices v i u hu, u, hu, ih.mpr ⟨path, ?_, hw⟩⟩
      simpa using hlen

lemma nodup_postorder (hindices : ∀ v i w, child v i = some w → i ∈ indices v)
    (hnodup : ∀ v, (indices v).Nodup) (h : Unshared child v) :
    (postorder child indices n v).Nodup := by
  induction n generalizing v with
  | zero => exact nodup_singleton v
  | succ n ih =>
    -- a node below the child at `i` is at the end of a path that begins with `i`
    have hbelow : ∀ {i u}, u ∈ ((child v i).map (postorder child indices n)).getD [] →
        ∃ path, lookup child v (path ++ [i]) = some u := by
      intro i u hu
      cases hw : child v i with
      | none => simp [hw] at hu
      | some w =>
        rw [hw, map_some, getD_some] at hu
        obtain ⟨path, -, hpath⟩ := (mem_postorder hindices).mp hu
        refine ⟨path, ?_⟩
        rw [lookup_concat, hw, bind_some, hpath]
    rw [postorder, nodup_append]
    refine ⟨nodup_flatMap.mpr ⟨fun i _ => ?_, (hnodup v).imp fun {i j} hij u hu hu' => ?_⟩,
      nodup_singleton v, fun u hu u' hu' huu' => ?_⟩
    · cases hw : child v i with
      | none => exact nodup_nil
      | some w => exact ih (h.below hw)
    · obtain ⟨path, hpath⟩ := hbelow hu
      obtain ⟨path', hpath'⟩ := hbelow hu'
      exact hij (concat_inj.mp (by simpa using h _ _ u hpath hpath')).2
    obtain ⟨i, -, hi⟩ := mem_flatMap.mp hu
    obtain ⟨path, hpath⟩ := hbelow hi
    rw [huu', mem_singleton.mp hu'] at hpath
    exact absurd (h _ _ v hpath lookup_nil) (by simp)

end Postorder

end RadixTree
