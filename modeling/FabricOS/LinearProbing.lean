/-
Open addressing with linear probing and backward-shift deletion.

A table is a function from slot numbers to contents; `n` slots are in use, each
key has a home slot, and `next` steps cyclically through the slots.  The two
loops of such a table, `probe` and `shiftBack`, are correct under `Chained`: keys are unique,
and no vacant slot lies (cyclically) between an entry's home and its position.

Design note: all cyclic reasoning goes through the distance `dist n a b` from
`a` forward to `b`, defined by cases rather than by `%`, so that `omega` decides
its properties.  The invariant of `shiftBack` (`Gapped`) says that a probe chain
may run through the gap only if it belongs to an entry not yet scanned.
-/
import FabricOS.Exec
import Mathlib.Data.Fintype.Card
import Mathlib.Data.Finset.Union

open Function Finset Option

namespace LinearProbing

variable {K V : Type}

/-- Slot contents; only the slots below the size of the table are in use. -/
abbrev Slots (K V : Type) := ℕ → Option (K × V)

inductive Probe where
  | found (i : ℕ)
  | vacant (i : ℕ)

/-- From slot `i` onwards, stop at the entry of `key` or at a vacant slot.  The
first number bounds the iterations. -/
def probe [DecidableEq K] (next : ℕ → ℕ) (t : Slots K V) (key : K) : ℕ → ℕ → Exec Probe
  | 0, _ => .diverge
  | fuel + 1, i =>
    match t i with
    | none => .ok (.vacant i)
    | some (k, _) => if k = key then .ok (.found i) else probe next t key fuel (next i)

def swap (t : Slots K V) (a b : ℕ) : Slots K V :=
  Function.update (Function.update t a (t b)) b (t a)

/-- Does `gap` fall in the cyclic range `[natural, scan)`? -/
def shouldMove (natural gap scan : ℕ) : Bool :=
  if natural ≤ scan then natural ≤ gap && gap < scan else natural ≤ gap || gap < scan

/-- Scan from `scan` to the end of the cluster, moving into the gap each entry
whose probe chain runs through it; the entry's old slot is the next gap. -/
def shiftBack (next : ℕ → ℕ) (home : K → ℕ) : ℕ → Slots K V → ℕ → ℕ → Exec (Slots K V)
  | 0, _, _, _ => .diverge
  | fuel + 1, t, gap, scan =>
    match t scan with
    | none => .ok t
    | some (k, _) =>
      if shouldMove (home k) gap scan then
        shiftBack next home fuel (swap t gap scan) scan (next scan)
      else
        shiftBack next home fuel t gap (next scan)

/-! ### Cyclic distance -/

/-- Steps from `a` forward to `b` in a cycle of `n` slots. -/
def dist (n a b : ℕ) : ℕ := if a ≤ b then b - a else b + n - a

/-- `next` steps cyclically through the slots `0, …, n - 1`, and the home of
every key is one of them. -/
structure Geometry (n : ℕ) (next : ℕ → ℕ) (home : K → ℕ) : Prop where
  next_eq : ∀ i < n, next i = if i + 1 = n then 0 else i + 1
  home_lt : ∀ k, home k < n

section dist

variable {n a b c : ℕ} {next : ℕ → ℕ} {home : K → ℕ}

lemma dist_lt (ha : a < n) (hb : b < n) : dist n a b < n := by
  unfold dist; split <;> omega

@[simp] lemma dist_self : dist n a a = 0 := by simp [dist]

lemma dist_eq_zero (ha : a < n) (h : dist n a b = 0) : a = b := by
  unfold dist at h; split at h <;> omega

lemma dist_inj (ha : a < n) (hb : b < n) (hc : c < n) (h : dist n a b = dist n a c) : b = c := by
  unfold dist at h; split at h <;> split at h <;> omega

lemma dist_lt_of_between {d : ℕ} (ha : a < n) (hb : b < n) (hc : c < n) (hd : d < n)
    (hbd : dist n a b < dist n a d) (hcd : dist n b c < dist n b d) : dist n a c < dist n a d := by
  unfold dist at *
  split_ifs at * <;> omega

lemma Geometry.next_lt (g : Geometry n next home) (ha : a < n) : next a < n := by
  rw [g.next_eq a ha]; split <;> omega

lemma Geometry.dist_next (g : Geometry n next home) (ha : a < n) (hb : b < n) (hab : a ≠ b) :
    dist n (next a) b + 1 = dist n a b := by
  rw [g.next_eq a ha]
  unfold dist
  split <;> split <;> split <;> omega

lemma Geometry.dist_next_right (g : Geometry n next home) (ha : a < n) (hb : b < n)
    (h : dist n a b + 1 < n) : dist n a (next b) = dist n a b + 1 := by
  rw [g.next_eq b hb]
  unfold dist at *
  split_ifs at * <;> omega

lemma Geometry.lt_dist_next (g : Geometry n next home) (ha : a < n) (hb : b < n) (hc : c < n)
    (h : dist n c b < dist n c (next a)) : b = a ∨ dist n c b < dist n c a := by
  rw [g.next_eq a ha] at h
  unfold dist at h ⊢
  split at h <;> split at h <;> split at h <;> split <;> split <;> omega

lemma shouldMove_iff (ha : a < n) (hb : b < n) (hc : c < n) :
    shouldMove a b c = true ↔ dist n a b < dist n a c := by
  unfold shouldMove dist
  split <;> simp only [Bool.and_eq_true, Bool.or_eq_true, decide_eq_true_eq] <;>
    split <;> omega

end dist

/-! ### The probe-chain invariant -/

/-- Keys are unique, and every slot from an entry's home up to its position is
occupied. -/
structure Chained (n : ℕ) (home : K → ℕ) (t : Slots K V) : Prop where
  unique : ∀ {i j k v w}, i < n → j < n → t i = some (k, v) → t j = some (k, w) → i = j
  chain : ∀ {i j k v}, i < n → j < n → t i = some (k, v) →
    dist n (home k) j < dist n (home k) i → t j ≠ none

/-- The table holds `v` under `k`. -/
def Holds (n : ℕ) (t : Slots K V) (k : K) (v : V) : Prop := ∃ i < n, t i = some (k, v)

def keys [DecidableEq K] (n : ℕ) (t : Slots K V) : Finset K :=
  (Finset.range n).biUnion fun i =>
    match t i with
    | none => ∅
    | some (k, _) => {k}

/-- Seen from the home of `key`, the slots before `i` are occupied by other keys. -/
def Passed (n : ℕ) (home : K → ℕ) (t : Slots K V) (key : K) (i : ℕ) : Prop :=
  ∀ j < n, dist n (home key) j < dist n (home key) i → ∃ k v, t j = some (k, v) ∧ k ≠ key

section invariant

variable {n : ℕ} {next : ℕ → ℕ} {home : K → ℕ} {t : Slots K V}

lemma chained_empty : Chained n home (fun _ => none : Slots K V) where
  unique := by intro i j k v w _ _ h _; simp at h
  chain := by intro i j k v _ _ h _; simp at h

variable {k key : K} {m : ℕ}

lemma Chained.holds_inj (h : Chained n home t) {v w : V} (hv : Holds n t k v) (hw : Holds n t k w) :
    v = w := by
  obtain ⟨i, hi, hti⟩ := hv
  obtain ⟨j, hj, htj⟩ := hw
  obtain rfl := h.unique hi hj hti htj
  rw [hti] at htj
  simpa using htj

lemma mem_keys [DecidableEq K] : k ∈ keys n t ↔ ∃ v, Holds n t k v := by
  simp only [keys, mem_biUnion, mem_range, Holds]
  constructor
  · rintro ⟨i, hi, hk⟩
    rcases hti : t i with _ | ⟨k', v⟩
    · simp [hti] at hk
    · simp only [hti, mem_singleton] at hk
      exact ⟨v, i, hi, by rw [hti, hk]⟩
  · rintro ⟨v, i, hi, hti⟩
    exact ⟨i, hi, by simp [hti]⟩

lemma Chained.exists_vacant [DecidableEq K] (h : Chained n home t)
    (hcard : (keys n t).card < n) : ∃ z < n, t z = none := by
  by_contra hfull
  simp only [not_exists, not_and] at hfull
  -- With no vacancy, "the key in slot `i`" injects the slots into the keys.
  have hkey : ∀ i : Fin n, ∃ k v, t i = some (k, v) := by
    intro i
    obtain ⟨⟨k, v⟩, hkv⟩ := ne_none_iff_exists'.mp (hfull i i.isLt)
    exact ⟨k, v, hkv⟩
  choose key val hkv using hkey
  have hle : (Finset.univ : Finset (Fin n)).card ≤ (keys n t).card := by
    refine card_le_card_of_injOn key ?_ ?_
    · intro i _
      exact mem_keys.mpr ⟨val i, i, i.isLt, hkv i⟩
    · intro i _ j _ hij
      exact Fin.ext (h.unique i.isLt j.isLt (hkv i) (by rw [hkv j, hij]))
  rw [card_fin] at hle
  omega

/-! ### Probing -/

lemma probe_spec_aux [DecidableEq K] (g : Geometry n next home) {z : ℕ} (hz : z < n)
    (htz : t z = none) (key : K) : ∀ (fuel i : ℕ), i < n → dist n i z < fuel →
      Passed n home t key i →
      (probe next t key fuel i).Post fun r =>
        match r with
        | .found m => m < n ∧ ∃ v, t m = some (key, v)
        | .vacant m => m < n ∧ t m = none ∧ Passed n home t key m := by
  intro fuel
  induction fuel with
  | zero =>
    omega
  | succ fuel ih =>
    intro i hi hd hpassed
    rw [probe]
    rcases hti : t i with _ | ⟨k, v⟩
    · exact ⟨_, rfl, hi, hti, hpassed⟩
    simp only
    by_cases hk : k = key
    · rw [if_pos hk]
      exact ⟨_, rfl, hi, v, by rw [hti, hk]⟩
    rw [if_neg hk]
    have hiz : i ≠ z := by
      rintro rfl
      simp [hti] at htz
    have hstep := g.dist_next hi hz hiz
    refine ih (next i) (g.next_lt hi) (by omega) ?_
    intro j hj hlt
    rcases g.lt_dist_next hi hj (g.home_lt key) hlt with rfl | hlt'
    · exact ⟨k, v, hti, hk⟩
    · exact hpassed j hj hlt'

/-- **Probing decides presence.**  From the home slot, with at least as many
iterations as there are slots, a probe stops at the key's entry, or at a vacant
slot with the key absent. -/
theorem probe_spec [DecidableEq K] (g : Geometry n next home) (h : Chained n home t)
    {z : ℕ} (hz : z < n) (htz : t z = none) (key : K) {fuel : ℕ} (hfuel : n ≤ fuel) :
    (probe next t key fuel (home key)).Post fun r =>
      match r with
      | .found m => m < n ∧ ∃ v, t m = some (key, v)
      | .vacant m => m < n ∧ t m = none ∧ Passed n home t key m ∧ ∀ v, ¬ Holds n t key v := by
  have hlt := g.home_lt key
  have hdist := dist_lt hlt hz
  refine (probe_spec_aux g hz htz key fuel (home key) hlt (by omega) ?_).mono ?_
  · intro j _ hd
    simp at hd
  intro r hr
  match r with
  | .found m => exact hr
  | .vacant m =>
    obtain ⟨hm, htm, hpassed⟩ := hr
    refine ⟨hm, htm, hpassed, ?_⟩
    rintro v ⟨j, hj, htj⟩
    -- The entry would have to sit before `m`, where only other keys are, or
    -- beyond `m`, where the vacancy would break its chain.
    rcases Nat.lt_trichotomy (dist n (home key) j) (dist n (home key) m) with hlt' | heq | hgt
    · obtain ⟨k, w, htj', hne⟩ := hpassed j hj hlt'
      rw [htj] at htj'
      simp only [some.injEq, Prod.mk.injEq] at htj'
      exact hne htj'.1.symm
    · obtain rfl := dist_inj hlt hj hm heq
      simp [htm] at htj
    · exact h.chain hj hm htj hgt htm

/-! ### Storing -/

lemma Chained.set_vacant (h : Chained n home t) (hm : m < n) (hpassed : Passed n home t key m)
    (habs : ∀ v, ¬ Holds n t key v) (v : V) :
    Chained n home (update t m (some (key, v))) where
  unique := by
    intro i j k x y hi hj hti htj
    by_cases him : i = m <;> by_cases hjm : j = m
    · rw [him, hjm]
    · subst him
      simp only [update_self, some.injEq, Prod.mk.injEq] at hti
      rw [update_of_ne hjm, ← hti.1] at htj
      exact absurd ⟨j, hj, htj⟩ (habs y)
    · subst hjm
      simp only [update_self, some.injEq, Prod.mk.injEq] at htj
      rw [update_of_ne him, ← htj.1] at hti
      exact absurd ⟨i, hi, hti⟩ (habs x)
    · rw [update_of_ne him] at hti
      rw [update_of_ne hjm] at htj
      exact h.unique hi hj hti htj
  chain := by
    intro i j k x hi hj hti hlt
    by_cases hjm : j = m
    · simp [hjm]
    rw [update_of_ne hjm]
    by_cases him : i = m
    · subst him
      simp only [update_self] at hti
      cases hti
      obtain ⟨k', w, htj, -⟩ := hpassed j hj hlt
      simp [htj]
    · rw [update_of_ne him] at hti
      exact h.chain hi hj hti hlt

lemma Chained.set_found (h : Chained n home t) {w : V} (htm : t m = some (key, w)) (v : V) :
    Chained n home (update t m (some (key, v))) := by
  -- Only the value under `key` changes, so each new entry was an old one up to its value.
  have hold : ∀ {i k x}, update t m (some (key, v)) i = some (k, x) →
      ∃ y, t i = some (k, y) := by
    intro i k x hti
    by_cases him : i = m
    · subst him
      simp only [update_self, some.injEq, Prod.mk.injEq] at hti
      exact ⟨w, by rw [htm, hti.1]⟩
    · rw [update_of_ne him] at hti
      exact ⟨x, hti⟩
  constructor
  · intro i j k x y hi hj hti htj
    obtain ⟨x', hx⟩ := hold hti
    obtain ⟨y', hy⟩ := hold htj
    exact h.unique hi hj hx hy
  · intro i j k x hi hj hti hlt
    obtain ⟨x', hx⟩ := hold hti
    by_cases hjm : j = m
    · simp [hjm]
    · rw [update_of_ne hjm]
      exact h.chain hi hj hx hlt

lemma holds_set [DecidableEq K] (hm : m < n) (hslot : t m = none ∨ ∃ w, t m = some (key, w))
    (honly : ∀ {j w}, j < n → t j = some (key, w) → j = m) (v : V) {x : V} :
    Holds n (update t m (some (key, v))) k x ↔ if k = key then x = v else Holds n t k x := by
  constructor
  · rintro ⟨i, hi, hti⟩
    by_cases him : i = m
    · subst him
      simp only [update_self, some.injEq, Prod.mk.injEq] at hti
      rw [if_pos hti.1.symm]
      exact hti.2.symm
    · rw [update_of_ne him] at hti
      rw [if_neg ?_]
      · exact ⟨i, hi, hti⟩
      · rintro rfl
        exact him (honly hi hti)
  · intro hx
    by_cases hk : k = key
    · rw [if_pos hk] at hx
      exact ⟨m, hm, by simp [hk, hx]⟩
    rw [if_neg hk] at hx
    obtain ⟨i, hi, hti⟩ := hx
    refine ⟨i, hi, ?_⟩
    rw [update_of_ne ?_]
    · exact hti
    rintro rfl
    rcases hslot with hnone | ⟨w, hw⟩
    · simp [hti] at hnone
    · rw [hti] at hw
      simp only [some.injEq, Prod.mk.injEq] at hw
      exact hk hw.1

end invariant

/-! ### Backward shift -/

/-- The invariant of `shiftBack`: slot `gap` is vacant, the scan stands strictly
between it and another vacancy `z`, and a probe chain may run through `gap` only
if its entry lies at or beyond the scan. -/
structure Gapped (n : ℕ) (home : K → ℕ) (t : Slots K V) (gap scan z : ℕ) : Prop where
  gap_lt : gap < n
  scan_lt : scan < n
  z_lt : z < n
  gap_vacant : t gap = none
  z_vacant : t z = none
  scan_ne : gap ≠ scan
  z_ne : gap ≠ z
  between : dist n gap scan + dist n scan z = dist n gap z
  unique : ∀ {i j k v w}, i < n → j < n → t i = some (k, v) → t j = some (k, w) → i = j
  chain : ∀ {i j k v}, i < n → j < n → t i = some (k, v) →
    dist n (home k) j < dist n (home k) i →
      t j ≠ none ∨ j = gap ∧ dist n gap scan ≤ dist n gap i

section shift

variable {n : ℕ} {next : ℕ → ℕ} {home : K → ℕ} {t : Slots K V} {gap scan z : ℕ}

lemma swap_left (t : Slots K V) {a b : ℕ} (h : a ≠ b) : swap t a b a = t b := by
  simp [swap, update_of_ne h]

lemma swap_right (t : Slots K V) (a b : ℕ) : swap t a b b = t a := by
  simp [swap]

lemma swap_other (t : Slots K V) {a b c : ℕ} (ha : c ≠ a) (hb : c ≠ b) : swap t a b c = t c := by
  simp [swap, update_of_ne ha, update_of_ne hb]

lemma swap_eq_some (hgap : t gap = none) (hne : gap ≠ scan) {i : ℕ} {e : K × V} :
    swap t gap scan i = some e ↔ i = gap ∧ t scan = some e ∨ i ≠ gap ∧ i ≠ scan ∧ t i = some e := by
  by_cases hig : i = gap
  · subst hig
    simp [swap_left t hne]
  by_cases his : i = scan
  · subst his
    simp [swap_right, hgap, hig]
  · simp [swap_other t hig his, hig, his]

variable {k : K} {v : V}

lemma holds_swap (g : Gapped n home t gap scan z) :
    Holds n (swap t gap scan) k v ↔ Holds n t k v := by
  constructor
  · rintro ⟨i, hi, hti⟩
    rcases (swap_eq_some g.gap_vacant g.scan_ne).mp hti with ⟨-, hts⟩ | ⟨-, -, hti'⟩
    · exact ⟨scan, g.scan_lt, hts⟩
    · exact ⟨i, hi, hti'⟩
  · rintro ⟨i, hi, hti⟩
    have hig : i ≠ gap := by
      rintro rfl
      simp [g.gap_vacant] at hti
    by_cases his : i = scan
    · subst his
      exact ⟨gap, g.gap_lt, (swap_eq_some g.gap_vacant g.scan_ne).mpr (.inl ⟨rfl, hti⟩)⟩
    · exact ⟨i, hi, (swap_eq_some g.gap_vacant g.scan_ne).mpr (.inr ⟨hig, his, hti⟩)⟩

lemma Gapped.chained (geo : Geometry n next home) (g : Gapped n home t gap scan z)
    (hscan : t scan = none) : Chained n home t where
  unique := g.unique
  chain := by
    intro i j k v hi hj hti hlt
    rcases g.chain hi hj hti hlt with hocc | ⟨rfl, hle⟩
    · exact hocc
    -- The chain of `i` would also run through `scan`, which is vacant.
    exfalso
    have his : i ≠ scan := by
      rintro rfl
      simp [hscan] at hti
    have hne : dist n j scan ≠ dist n j i :=
      fun h => his (dist_inj g.gap_lt g.scan_lt hi h).symm
    have hthru : dist n (home k) scan < dist n (home k) i :=
      dist_lt_of_between (geo.home_lt k) g.gap_lt g.scan_lt hi hlt (by omega)
    rcases g.chain hi g.scan_lt hti hthru with hocc | ⟨heq, -⟩
    · exact hocc hscan
    · exact g.scan_ne heq.symm

lemma Gapped.skip (geo : Geometry n next home) (g : Gapped n home t gap scan z)
    (hts : t scan = some (k, v)) (hmove : ¬ dist n (home k) gap < dist n (home k) scan) :
    Gapped n home t gap (next scan) z := by
  have hsz : scan ≠ z := by
    rintro rfl
    simp [g.z_vacant] at hts
  have hz := geo.dist_next g.scan_lt g.z_lt hsz
  have hbound := dist_lt g.gap_lt g.z_lt
  have hbetween := g.between
  have hgap := geo.dist_next_right g.gap_lt g.scan_lt (by omega)
  refine { g with scan_lt := geo.next_lt g.scan_lt, scan_ne := ?_, between := ?_, chain := ?_ }
  · intro heq
    rw [← heq] at hgap
    simp at hgap
  · omega
  intro i j k' v' hi hj hti hlt
  rcases g.chain hi hj hti hlt with hocc | ⟨rfl, hle⟩
  · exact .inl hocc
  rcases Nat.lt_or_ge (dist n j scan) (dist n j i) with hlt' | hge
  · omega
  obtain rfl := dist_inj g.gap_lt g.scan_lt hi (by omega)
  rw [hts] at hti
  simp only [some.injEq, Prod.mk.injEq] at hti
  rw [hti.1] at hmove
  exact absurd hlt hmove

lemma Gapped.move (geo : Geometry n next home) (g : Gapped n home t gap scan z)
    (hts : t scan = some (k, v)) (hmove : dist n (home k) gap < dist n (home k) scan) :
    Gapped n home (swap t gap scan) scan (next scan) z := by
  have hsz : scan ≠ z := by
    rintro rfl
    simp [g.z_vacant] at hts
  have hz := geo.dist_next g.scan_lt g.z_lt hsz
  have hbound := dist_lt g.scan_lt g.z_lt
  have hself : dist n scan scan = 0 := dist_self
  have hone := geo.dist_next_right g.scan_lt g.scan_lt (by omega)
  constructor
  · exact g.scan_lt
  · exact geo.next_lt g.scan_lt
  · exact g.z_lt
  · rw [swap_right]
    exact g.gap_vacant
  · rw [swap_other t (Ne.symm g.z_ne) (Ne.symm hsz)]
    exact g.z_vacant
  · intro heq
    rw [← heq] at hone
    simp at hone
  · exact hsz
  · omega
  · intro i j k' x y hi hj hti htj
    rw [swap_eq_some g.gap_vacant g.scan_ne] at hti htj
    rcases hti with ⟨rfl, hx⟩ | ⟨hig, his, hx⟩ <;> rcases htj with ⟨rfl, hy⟩ | ⟨hjg, hjs, hy⟩
    · rfl
    · exact absurd (g.unique g.scan_lt hj hx hy).symm hjs
    · exact absurd (g.unique hi g.scan_lt hx hy) his
    · exact g.unique hi hj hx hy
  · intro i j k' x hi hj hti hlt
    -- The only slot that has become vacant is `scan`, the new gap, and every
    -- other slot lies beyond it.
    by_cases hjs : j = scan
    · have hi0 : dist n scan i ≠ 0 := by
        intro h0
        obtain rfl := dist_eq_zero g.scan_lt h0
        rw [swap_right, g.gap_vacant] at hti
        simp at hti
      omega
    · refine .inl ?_
      by_cases hjg : j = gap
      · rw [hjg, swap_left t g.scan_ne, hts]
        simp
      rw [swap_other t hjg hjs]
      rw [swap_eq_some g.gap_vacant g.scan_ne] at hti
      rcases hti with ⟨rfl, hx⟩ | ⟨hig, his, hx⟩
      · rw [hts] at hx
        obtain ⟨rfl, -⟩ := hx
        rcases g.chain g.scan_lt hj hts (by omega) with hocc | ⟨heq, -⟩
        · exact hocc
        · exact absurd heq hjg
      · rcases g.chain hi hj hx hlt with hocc | ⟨heq, -⟩
        · exact hocc
        · exact absurd heq hjg

lemma shiftBack_spec (geo : Geometry n next home) :
    ∀ (fuel : ℕ) {t : Slots K V} {gap scan z : ℕ}, Gapped n home t gap scan z →
      dist n scan z < fuel →
      (shiftBack next home fuel t gap scan).Post fun t' =>
        Chained n home t' ∧ ∀ k v, Holds n t' k v ↔ Holds n t k v := by
  intro fuel
  induction fuel with
  | zero =>
    omega
  | succ fuel ih =>
    intro t gap scan z g hd
    rw [shiftBack]
    rcases hts : t scan with _ | ⟨k, v⟩
    · exact ⟨t, rfl, g.chained geo hts, fun _ _ => Iff.rfl⟩
    have hsz : scan ≠ z := by
      rintro rfl
      simp [g.z_vacant] at hts
    have hz := geo.dist_next g.scan_lt g.z_lt hsz
    have hiff := shouldMove_iff (geo.home_lt k) g.gap_lt g.scan_lt
    simp only
    by_cases hmove : dist n (home k) gap < dist n (home k) scan
    · rw [if_pos (hiff.mpr hmove)]
      refine (ih (g.move geo hts hmove) (by omega)).mono ?_
      rintro t' ⟨hch, hholds⟩
      exact ⟨hch, fun k' v' => (hholds k' v').trans (holds_swap g)⟩
    · rw [if_neg (fun hc => hmove (hiff.mp hc))]
      exact ih (g.skip geo hts hmove) (by omega)

lemma erase_spec (geo : Geometry n next home) (h : Chained n home t) {m : ℕ} {key : K} {w : V}
    (hm : m < n) (htm : t m = some (key, w)) (hz : ∃ z < n, t z = none) {fuel : ℕ}
    (hfuel : n ≤ fuel) :
    (shiftBack next home fuel (update t m none) m (next m)).Post fun t' =>
      Chained n home t' ∧ ∀ k v, Holds n t' k v ↔ Holds n t k v ∧ k ≠ key := by
  obtain ⟨z, hz, htz⟩ := hz
  have hmz : m ≠ z := by
    rintro rfl
    simp [htz] at htm
  have hentry : ∀ {i e}, update t m none i = some e ↔ i ≠ m ∧ t i = some e := by
    intro i e
    by_cases him : i = m <;> simp [him]
  have hbound := dist_lt hm hz
  have hnext := geo.dist_next hm hz hmz
  have hself : dist n m m = 0 := dist_self
  have hone := geo.dist_next_right hm hm (by omega)
  have g : Gapped n home (update t m none) m (next m) z := by
    constructor
    · exact hm
    · exact geo.next_lt hm
    · exact hz
    · simp
    · rw [update_of_ne (Ne.symm hmz)]
      exact htz
    · intro heq
      rw [← heq] at hone
      simp at hone
    · exact hmz
    · omega
    · intro i j k x y hi hj hti htj
      exact h.unique hi hj (hentry.mp hti).2 (hentry.mp htj).2
    · intro i j k x hi hj hti hlt
      obtain ⟨him, hti'⟩ := hentry.mp hti
      by_cases hjm : j = m
      · have hi0 : dist n m i ≠ 0 := fun h0 => him (dist_eq_zero hm h0).symm
        omega
      · rw [update_of_ne hjm]
        exact .inl (h.chain hi hj hti' hlt)
  refine (shiftBack_spec geo fuel g (by omega)).mono ?_
  rintro t' ⟨hch, hholds⟩
  refine ⟨hch, fun k v => (hholds k v).trans ⟨?_, ?_⟩⟩
  · rintro ⟨i, hi, hti⟩
    obtain ⟨him, hti'⟩ := hentry.mp hti
    refine ⟨⟨i, hi, hti'⟩, ?_⟩
    rintro rfl
    exact him (h.unique hi hm hti' htm)
  · rintro ⟨⟨i, hi, hti⟩, hk⟩
    refine ⟨i, hi, hentry.mpr ⟨?_, hti⟩⟩
    rintro rfl
    rw [htm] at hti
    simp only [some.injEq, Prod.mk.injEq] at hti
    exact hk hti.1.symm

end shift

end LinearProbing
