/-
A rate limiter that keeps a log of its attempts.

Each attempt drops from the log what is `w` ticks old or older, and enters itself; it is
accepted if the log then has at most `m` entries.  Attempts that are refused stay in the log
as well.
-/
import Mathlib.Data.List.Induction
import Mathlib.Data.Nat.Basic

open List

namespace SlidingWindow

def record (w now : ℕ) (log : List ℕ) : List ℕ := log.filter (fun t => now - t < w) ++ [now]

def after (w : ℕ) (log ticks : List ℕ) : List ℕ := ticks.foldl (fun log now => record w now log) log

def accepted (m w : ℕ) : List ℕ → List ℕ → List ℕ
  | _, [] => []
  | log, now :: ticks =>
    let rest := accepted m w (record w now log) ticks
    if (record w now log).length ≤ m then now :: rest else rest

variable {m w : ℕ}

lemma after_append (log ticks : List ℕ) (now : ℕ) :
    after w log (ticks ++ [now]) = record w now (after w log ticks) := by
  rw [after, foldl_append, ← after]
  rfl

lemma accepted_append (log ticks : List ℕ) (now : ℕ) :
    accepted m w log (ticks ++ [now]) = accepted m w log ticks ++
      if (record w now (after w log ticks)).length ≤ m then [now] else [] := by
  induction ticks generalizing log with
  | nil => rfl
  | cons x ticks ih =>
    have hafter : after w log (x :: ticks) = after w (record w x log) ticks := rfl
    rw [cons_append, accepted, accepted, ih, hafter]
    split_ifs <;> simp

lemma accepted_sublist (log ticks : List ℕ) : (accepted m w log ticks).Sublist ticks := by
  induction ticks generalizing log with
  | nil => exact .slnil
  | cons now ticks ih =>
    rw [accepted]
    split_ifs
    · exact (ih _).cons_cons now
    · exact (ih _).cons now

lemma filter_after {ticks : List ℕ} (hsorted : ticks.Pairwise (· ≤ ·)) {now : ℕ}
    (hnow : ∀ x ∈ ticks, x ≤ now) :
    (after w [] ticks).filter (fun t => now - t < w) = ticks.filter fun t => now - t < w := by
  induction ticks using List.reverseRecOn with
  | nil => rfl
  | append_singleton ticks x ih =>
    obtain ⟨hbefore, -, hx⟩ := pairwise_append.mp hsorted
    have hxnow : x ≤ now := hnow x (mem_append_right _ mem_cons_self)
    have hnow' : ∀ y ∈ ticks, y ≤ now := fun y hy => hnow y (mem_append_left _ hy)
    rw [after_append, record, filter_append, filter_append, filter_filter, ← ih hbefore hnow']
    congr 1
    -- what is too old for `x` is too old for `now`
    refine filter_congr fun t _ => ?_
    simp only [Bool.and_eq_left_iff_imp, decide_eq_true_eq]
    omega

lemma countP_accepted_window_le {ticks : List ℕ} (hsorted : ticks.Pairwise (· ≤ ·)) (a : ℕ) :
    (accepted m w [] ticks).countP (fun x => a ≤ x ∧ x < a + w) ≤ m := by
  induction ticks using List.reverseRecOn with
  | nil => exact Nat.zero_le m
  | append_singleton ticks now ih =>
    obtain ⟨hbefore, -, hnow⟩ := pairwise_append.mp hsorted
    have hle : ∀ x ∈ ticks, x ≤ now := fun x hx => hnow x hx now mem_cons_self
    rw [accepted_append, countP_append]
    split_ifs with hlen
    · by_cases hin : a ≤ now ∧ now < a + w
      · -- all attempts of the window still count at `now`
        rw [record, length_append, filter_after hbefore hle, ← countP_eq_length_filter]
          at hlen
        have hcount : (accepted m w [] ticks).countP (fun x => a ≤ x ∧ x < a + w) ≤
            ticks.countP fun t => now - t < w := by
          refine le_trans (accepted_sublist [] ticks).countP_le (countP_mono_left ?_)
          intro x _ hx
          simp only [decide_eq_true_eq] at hx ⊢
          omega
        have hone : [now].countP (fun x => decide (a ≤ x ∧ x < a + w)) = 1 := by simp [hin]
        have hlast : [now].length = 1 := rfl
        omega
      · have hzero : [now].countP (fun x => decide (a ≤ x ∧ x < a + w)) = 0 := by simp [hin]
        rw [hzero, Nat.add_zero]
        exact ih hbefore
    · exact ih hbefore

end SlidingWindow
