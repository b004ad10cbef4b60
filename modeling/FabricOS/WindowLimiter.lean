/-
A rate limiter whose intervals are restarted lazily.

The limiter allows `m` uses in an interval of `w` ticks.  Its entry holds how many uses the
current interval has seen and the tick at which it began.  No timer ends an interval: the
first use after its end begins the next one, at the tick of that use.  The intervals of a
history of uses therefore lie on no grid.  They are at least `w` ticks apart, and this is
all that the bounds need.
-/
import Mathlib.Data.List.Induction
import Mathlib.Tactic.Ring
import Mathlib.Tactic.Linarith

open List Option Nat

namespace WindowLimiter

/-- Begin a new interval if the current one has elapsed. -/
def refresh (w now : ℕ) (entry : ℕ × ℕ) : ℕ × ℕ :=
  if now - entry.2 ≥ w then (0, now) else entry

/-- The entry that a use at `now` finds; the first use begins the first interval. -/
def current (w now : ℕ) (entry : Option (ℕ × ℕ)) : ℕ × ℕ := refresh w now (entry.getD (0, now))

/-- Count a use if the limit of the interval allows it. -/
def charge (m : ℕ) (entry : ℕ × ℕ) : ℕ × ℕ :=
  if entry.1 < m then (entry.1 + 1, entry.2) else entry

def after (m w : ℕ) (entry : Option (ℕ × ℕ)) (ticks : List ℕ) : Option (ℕ × ℕ) :=
  ticks.foldl (fun e now => some (charge m (current w now e))) entry

def accepted (m w : ℕ) : Option (ℕ × ℕ) → List ℕ → List ℕ
  | _, [] => []
  | entry, now :: ticks =>
    let e := current w now entry
    let rest := accepted m w (some (charge m e)) ticks
    if e.1 < m then now :: rest else rest

variable {m w : ℕ}

lemma after_append (entry : Option (ℕ × ℕ)) (ticks : List ℕ) (now : ℕ) :
    after m w entry (ticks ++ [now]) = some (charge m (current w now (after m w entry ticks))) := by
  rw [after, foldl_append, ← after]
  rfl

lemma accepted_append (entry : Option (ℕ × ℕ)) (ticks : List ℕ) (now : ℕ) :
    accepted m w entry (ticks ++ [now]) = accepted m w entry ticks ++
      if (current w now (after m w entry ticks)).1 < m then [now] else [] := by
  induction ticks generalizing entry with
  | nil => rfl
  | cons x ticks ih =>
    have hafter : after m w entry (x :: ticks) =
      after m w (some (charge m (current w x entry))) ticks := rfl
    rw [cons_append, accepted, accepted, ih, hafter]
    split_ifs <;> simp

variable {entry : Option (ℕ × ℕ)} {ticks : List ℕ}

lemma mem_of_mem_accepted {x : ℕ} (h : x ∈ accepted m w entry ticks) : x ∈ ticks := by
  induction ticks generalizing entry with
  | nil => exact h
  | cons now ticks ih =>
    rw [accepted] at h
    split_ifs at h with hlt
    · rcases mem_cons.mp h with rfl | h
      · exact mem_cons_self
      · exact mem_cons_of_mem _ (ih h)
    · exact mem_cons_of_mem _ (ih h)

lemma countP_accepted_eq_zero {b : ℕ}
    (h : ∀ x ∈ ticks, b < x) : (accepted m w entry ticks).countP (· ≤ b) = 0 := by
  rw [countP_eq_zero]
  intro x hx
  have := h x (mem_of_mem_accepted hx)
  simp only [decide_eq_true_eq]
  omega

/-- **Bound from an entry.**  The interval of the entry has `m - used` uses left, and every
further interval begins at least `w` ticks after the one before. -/
theorem countP_accepted_le (hw : 0 < w) (b : ℕ) {used start : ℕ}
    (hsorted : ticks.Pairwise (· ≤ ·)) (hstart : ∀ x ∈ ticks, start ≤ x) (hused : used ≤ m) :
    (accepted m w (some (used, start)) ticks).countP (· ≤ b) ≤
      (m - used) + m * ((b - start) / w) := by
  induction ticks generalizing used start with
  | nil => simp [accepted]
  | cons now ticks ih =>
    obtain ⟨hnow, hsorted⟩ := pairwise_cons.mp hsorted
    by_cases hb : b < now
    · rw [countP_accepted_eq_zero]
      · exact zero_le _
      intro x hx
      rcases mem_cons.mp hx with rfl | hx
      · exact hb
      · exact lt_of_lt_of_le hb (hnow x hx)
    have hfrom : ∀ x ∈ ticks, start ≤ x := fun x hx => hstart x (mem_cons_of_mem _ hx)
    by_cases hover : now - start ≥ w
    · -- a new interval begins: it is paid for by the `w` ticks that have passed
      have hdiv : (b - now) / w + 1 ≤ (b - start) / w := by
        rw [← Nat.add_div_right _ hw]
        exact Nat.div_le_div_right (by omega)
      have hmul : m * ((b - now) / w) + m ≤ m * ((b - start) / w) := by
        exact mul_le_mul_left m hdiv
      have hcur : current w now (some (used, start)) = (0, now) := by
        simp [current, refresh, hover]
      rw [accepted, hcur]
      by_cases hm : 0 < m
      · have hrest := ih hsorted hnow (show 1 ≤ m by omega)
        simp only [charge, hm, if_true, zero_add]
        rw [countP_cons_of_pos (by simpa using hb)]
        omega
      · have hrest := ih hsorted hnow (show 0 ≤ m by omega)
        simp only [charge, hm, if_false]
        omega
    · have hcur : current w now (some (used, start)) = (used, start) := by
        simp only [current, refresh, getD_some, hover, if_false]
      rw [accepted, hcur]
      by_cases hlt : used < m
      · have hrest := ih hsorted hfrom (show used + 1 ≤ m by omega)
        simp only [charge, hlt, if_true]
        rw [countP_cons_of_pos (by simpa using hb)]
        omega
      · have hrest := ih hsorted hfrom hused
        simpa only [charge, hlt, if_false] using hrest

lemma current_bounds (hw : 0 < w) {now : ℕ} (hentry : ∀ e ∈ entry, e.1 ≤ m ∧ e.2 ≤ now) :
    (current w now entry).1 ≤ m ∧ (current w now entry).2 ≤ now ∧
      now < (current w now entry).2 + w := by
  have hnew : (0 : ℕ) ≤ m ∧ now ≤ now ∧ now < now + w := ⟨zero_le m, le_rfl, by omega⟩
  cases entry with
  | none =>
    simpa only [current, refresh, getD_none, ite_self] using hnew
  | some e =>
    obtain ⟨hused, hstart⟩ := hentry e rfl
    unfold current refresh
    split_ifs with hover
    · exact hnew
    · exact ⟨hused, hstart, by omega⟩

lemma current_current (w now : ℕ) (entry : Option (ℕ × ℕ)) :
    current w now (some (current w now entry)) = current w now entry := by
  unfold current refresh
  rw [getD_some]
  split_ifs <;> rfl

lemma charge_le {e : ℕ × ℕ} (h : e.1 ≤ m) : (charge m e).1 ≤ m := by
  unfold charge
  split_ifs with hlt
  · exact hlt
  · exact h

lemma charge_snd (e : ℕ × ℕ) : (charge m e).2 = e.2 := by
  unfold charge
  split_ifs <;> rfl

lemma countP_accepted_first_le (hw : 0 < w) (b : ℕ) {first : ℕ}
    (hsorted : (first :: ticks).Pairwise (· ≤ ·)) :
    (accepted m w none (first :: ticks)).countP (· ≤ b) ≤ m * ((b - first) / w + 1) := by
  -- the first use cannot tell an empty entry from an interval that begins with it
  have hentry : accepted m w none (first :: ticks) =
      accepted m w (some (0, first)) (first :: ticks) := rfl
  have hfirst : ∀ x ∈ first :: ticks, first ≤ x := by
    intro x hx
    rcases mem_cons.mp hx with rfl | hx
    · exact le_rfl
    · exact (pairwise_cons.mp hsorted).1 x hx
  rw [hentry, mul_succ]
  have hle := countP_accepted_le hw b hsorted hfirst (zero_le m)
  omega

lemma countP_accepted_between_le (hw : 0 < w) (a b : ℕ) (hsorted : ticks.Pairwise (· ≤ ·))
    (hentry : ∀ e ∈ entry, e.1 ≤ m ∧ ∀ x ∈ ticks, e.2 ≤ x) :
    (accepted m w entry ticks).countP (fun x => a ≤ x ∧ x ≤ b) ≤ m * ((b - a) / w + 2) := by
  induction ticks generalizing entry with
  | nil => simp [accepted]
  | cons now ticks ih =>
    obtain ⟨hnow, htail⟩ := pairwise_cons.mp hsorted
    obtain ⟨hused, hstart, hend⟩ := current_bounds hw (fun e he =>
      ⟨(hentry e he).1, (hentry e he).2 now mem_cons_self⟩)
    by_cases ha : now < a
    · -- this use is not counted, and the rest is a history of its own
      have hleft : ∀ e ∈ some (charge m (current w now entry)),
          e.1 ≤ m ∧ ∀ x ∈ ticks, e.2 ≤ x := by
        rintro e ⟨⟩
        refine ⟨charge_le hused, fun x hx => ?_⟩
        rw [charge_snd]
        exact hstart.trans (hnow x hx)
      have hrest := ih htail hleft
      rw [accepted]
      split_ifs
      · rwa [countP_cons_of_neg (by simp only [decide_eq_true_eq]; omega)]
      · exact hrest
    · -- all uses from here on are at `a` or later
      have hentry' : accepted m w entry (now :: ticks) =
          accepted m w (some (current w now entry)) (now :: ticks) := by
        rw [accepted, accepted, current_current]
      have hfrom : ∀ x ∈ now :: ticks, (current w now entry).2 ≤ x := by
        intro x hx
        rcases mem_cons.mp hx with rfl | hx
        · exact hstart
        · exact hstart.trans (hnow x hx)
      have hcount := countP_accepted_le hw b hsorted hfrom hused
      have hdiv : (b - (current w now entry).2) / w ≤ (b - a) / w + 1 := by
        rw [← Nat.add_div_right _ hw]
        exact Nat.div_le_div_right (by omega)
      calc (accepted m w entry (now :: ticks)).countP (fun x => a ≤ x ∧ x ≤ b)
          ≤ (accepted m w entry (now :: ticks)).countP (· ≤ b) :=
            countP_mono_left fun x _ h => by simpa using (of_decide_eq_true h).2
        _ ≤ (m - (current w now entry).1) + m * ((b - (current w now entry).2) / w) :=
            hentry' ▸ hcount
        _ ≤ m + m * ((b - a) / w + 1) := Nat.add_le_add (Nat.sub_le _ _)
            (mul_le_mul_left m hdiv)
        _ = m * ((b - a) / w + 2) := by ring

/-- **The entry counts.**  At a use, the entry holds the number of accepted uses since the
start of the interval that the use falls into. -/
theorem current_spec (hw : 0 < w) (hsorted : ticks.Pairwise (· ≤ ·)) {now : ℕ}
    (hnow : ∀ x ∈ ticks, x ≤ now) : let e := current w now (after m w none ticks)
    e.1 ≤ m ∧ e.2 ≤ now ∧ now < e.2 + w ∧
      (accepted m w none ticks).countP (e.2 ≤ ·) = e.1 := by
  induction ticks using List.reverseRecOn generalizing now with
  | nil =>
    have hnone : ∀ e ∈ (none : Option (ℕ × ℕ)), e.1 ≤ m ∧ e.2 ≤ now := by simp
    obtain ⟨hused, hstart, hend⟩ := current_bounds hw hnone
    exact ⟨hused, hstart, hend, by simp [accepted, after, current, refresh]⟩
  | append_singleton ticks x ih =>
    obtain ⟨hbefore, -, hx⟩ := pairwise_append.mp hsorted
    have hle : ∀ y ∈ ticks, y ≤ x := fun y hy => hx y hy x mem_cons_self
    have hxnow : x ≤ now := hnow x (mem_append_right _ mem_cons_self)
    obtain ⟨hused, hstart, hend, hcount⟩ := ih hbefore hle
    have haccepted : ∀ y ∈ accepted m w none (ticks ++ [x]), y ≤ x := by
      intro y hy
      rcases mem_append.mp (mem_of_mem_accepted hy) with hy | hy
      · exact hle y hy
      · exact le_of_eq (mem_singleton.mp hy)
    rw [accepted_append] at haccepted
    rw [after_append, accepted_append]
    generalize current w x (after m w none ticks) = e at hused hstart hend hcount haccepted ⊢
    have hcharged : (accepted m w none ticks ++ if e.1 < m then [x] else []).countP (e.2 ≤ ·) =
        (charge m e).1 := by
      unfold charge
      split_ifs
      · simp [countP_append, hcount, hstart]
      · simpa using hcount
    have hentry : ∀ f ∈ some (charge m e), f.1 ≤ m ∧ f.2 ≤ now := by
      rintro f ⟨⟩
      exact ⟨charge_le hused, (charge_snd e).symm ▸ hstart.trans hxnow⟩
    obtain ⟨hused', hstart', hend'⟩ := current_bounds hw hentry
    refine ⟨hused', hstart', hend', ?_⟩
    by_cases hover : now - e.2 ≥ w
    · -- the interval is over, and no use so far lies in the next one
      have hnext : current w now (some (charge m e)) = (0, now) := by
        simp [current, refresh, charge_snd, hover]
      rw [hnext, countP_eq_zero]
      intro y hy
      have hyx := haccepted y hy
      simp only [decide_eq_true_eq]
      omega
    · have hsame : current w now (some (charge m e)) = charge m e := by
        simp only [current, refresh, getD_some, charge_snd, hover, if_false]
      rw [hsame, charge_snd]
      exact hcharged

end WindowLimiter
