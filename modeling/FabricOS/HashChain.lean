/-
Hash chains.

A chain is a list of entries, each of which carries the hash of its predecessor and a
hash of its own.  It is `Intact` if every entry carries the digest of its contents and
every link is the hash before it; the link of the first entry is not constrained, so
that a chain can start anywhere in a longer one.
-/
import Mathlib.Data.List.Chain

open List

namespace HashChain

variable {ε δ : Type} {prev hash digest : ε → δ} {e e' : ε} {l : List ε} {p : δ} {j : ℕ}

/-- Every entry carries its digest, and its link is the hash of the entry before it. -/
structure Intact (prev hash digest : ε → δ) (l : List ε) : Prop where
  links : ∀ i (h : i + 1 < l.length), prev l[i + 1] = hash l[i]
  digests : ∀ i (h : i < l.length), hash l[i] = digest l[i]

/-- An intact chain whose first link is `p`. -/
def IntactFrom (prev hash digest : ε → δ) (p : δ) : List ε → Prop
  | [] => True
  | e :: l => prev e = p ∧ hash e = digest e ∧ IntactFrom prev hash digest (hash e) l

lemma intact_nil : Intact prev hash digest [] where
  links i h := absurd h (by simp)
  digests i h := absurd h (by simp)

lemma intact_cons_cons :
    Intact prev hash digest (e :: e' :: l) ↔
      hash e = digest e ∧ prev e' = hash e ∧ Intact prev hash digest (e' :: l) := by
  constructor
  · intro h
    refine ⟨h.digests 0 (by simp), h.links 0 (by simp), fun i hi => ?_, fun i hi => ?_⟩
    · exact h.links (i + 1) (by simpa using hi)
    · exact h.digests (i + 1) (by simpa using hi)
  · rintro ⟨hdigest, hlink, h⟩
    constructor
    · rintro (- | i) hi
      · exact hlink
      · exact h.links i (by simpa using hi)
    · rintro (- | i) hi
      · exact hdigest
      · exact h.digests i (by simpa using hi)

lemma intact_singleton : Intact prev hash digest [e] ↔ hash e = digest e := by
  constructor
  · intro h
    exact h.digests 0 (by simp)
  · intro h
    refine ⟨fun i hi => absurd hi (by simp), ?_⟩
    rintro (- | i) hi
    · exact h
    · exact absurd hi (by simp)

lemma intact_cons_iff :
    Intact prev hash digest (e :: l) ↔
      hash e = digest e ∧ IntactFrom prev hash digest (hash e) l := by
  induction l generalizing e with
  | nil => simp [intact_singleton, IntactFrom]
  | cons e' l ih => rw [intact_cons_cons, ih, IntactFrom]

lemma Intact.tail (h : Intact prev hash digest (e :: l)) : Intact prev hash digest l where
  links i hi := h.links (i + 1) (by simpa using hi)
  digests i hi := h.digests (i + 1) (by simpa using hi)

lemma Intact.concat (h : Intact prev hash digest l) (hdigest : hash e = digest e)
    (hlink : ∀ last ∈ l.getLast?, prev e = hash last) :
    Intact prev hash digest (l ++ [e]) where
  links i hi := by
    simp only [length_append, length_singleton] at hi
    rw [getElem_append_left (show i < l.length by omega)]
    by_cases hlast : i + 1 < l.length
    · rw [getElem_append_left hlast]
      exact h.links i hlast
    · rw [getElem_concat_length (by omega)]
      exact hlink _ (by rw [List.getLast?_eq_getElem?, List.getElem?_eq_getElem (by omega)]; grind)
  digests i hi := by
    simp only [length_append, length_singleton] at hi
    by_cases hlast : i < l.length
    · rw [getElem_append_left hlast]
      exact h.digests i hlast
    · rw [getElem_concat_length (by omega)]
      exact hdigest

lemma Intact.set_iff (h : Intact prev hash digest l) (hj : j < l.length) :
    Intact prev hash digest (l.set j e) ↔
      hash e = digest e ∧ (0 < j → prev e = prev l[j]) ∧
        (j + 1 < l.length → hash e = hash l[j]) := by
  constructor
  · intro hset
    refine ⟨?_, fun hpos => ?_, fun hnext => ?_⟩
    · have hdigest := hset.digests j (by simpa using hj)
      rwa [getElem_set_self] at hdigest
    · obtain ⟨i, rfl⟩ : ∃ i, j = i + 1 := ⟨j - 1, by omega⟩
      have hlink := hset.links i (by simpa using hj)
      rw [getElem_set_self, getElem_set_ne (by omega)] at hlink
      rw [hlink, h.links i hj]
    · have hlink := hset.links j (by simpa using hnext)
      rw [getElem_set_self, getElem_set_ne (by omega)] at hlink
      rw [← hlink, h.links j hnext]
  · rintro ⟨hdigest, hprev, hhash⟩
    constructor
    · intro i hi
      have hi' : i + 1 < l.length := by simpa using hi
      rw [getElem_set, getElem_set]
      split_ifs with hright hleft hleft
      · omega
      · subst hright
        rw [hprev (by omega), h.links i hi']
      · subst hleft
        rw [hhash hi', h.links _ hi']
      · exact h.links i hi'
    · intro i hi
      simp only [length_set] at hi
      rw [getElem_set]
      split_ifs with heq
      · exact hdigest
      · exact h.digests i hi

lemma Intact.eq_of_set (h : Intact prev hash digest l) (hj : j + 1 < l.length)
    (hset : Intact prev hash digest (l.set j e))
    (hinj : digest e = digest l[j] → hash e = hash l[j] → e = l[j]) : e = l[j] := by
  obtain ⟨hdigest, -, hhash⟩ := (h.set_iff (by omega)).mp hset
  have hsame := hhash hj
  refine hinj ?_ hsame
  rw [← hdigest, hsame, h.digests j (by omega)]

end HashChain
