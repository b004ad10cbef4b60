/-
The round-trip estimator of a TCP socket (`network/tcp_timer.rs`) does not overflow.

With samples of at most `m` milliseconds neither estimate rises above `m`, since each update
takes an average, and so nothing that is computed on the way is out of range.
-/
import FabricOS.Retransmit

open UInt32

namespace Fabric

namespace RetransmitQueue

def srttMs (q : RetransmitQueue) : UInt32 := q.srttX8 / 8

/-- `|SRTT - R|`. -/
def difference (q : RetransmitQueue) (rttMs : UInt32) : UInt32 :=
  if q.srttMs > rttMs then q.srttMs - rttMs else rttMs - q.srttMs

/-- The exact values of the products and sums of `update_rto`. -/
def rtoValues (q : RetransmitQueue) (rttMs : UInt32) : List ℕ :=
  let rX8 := rttMs.toNat * 8
  let var3 := q.rttvarX4.toNat * 3
  let diff4 := (q.difference rttMs).toNat * 4
  let srtt7 := q.srttX8.toNat * 7
  [rX8, var3, diff4, var3 + diff4, srtt7, srtt7 + rX8,
    (srtt7 + rX8) / 8 / 8 + (var3 + diff4) / 4]

/-- Neither estimate is above `m` milliseconds, and the timeout is in its range. -/
structure Estimates (m : ℕ) (q : RetransmitQueue) : Prop where
  srtt : q.srttX8.toNat ≤ 8 * m
  rttvar : q.rttvarX4.toNat ≤ 4 * m
  rto_ge : 200 ≤ q.rto
  rto_le : q.rto ≤ 60000

variable {m : ℕ} {q : RetransmitQueue} {rttMs : UInt32}

lemma Estimates.srttMs_le (h : Estimates m q) : q.srttMs.toNat ≤ m := by
  exact Nat.div_le_of_le_mul h.srtt

lemma Estimates.difference_le (h : Estimates m q) (hrtt : rttMs.toNat ≤ m) :
    (q.difference rttMs).toNat ≤ m := by
  have hsrtt := h.srttMs_le
  unfold difference
  split_ifs with hlt
  · rw [UInt32.toNat_sub_of_le _ _ (UInt32.le_of_lt hlt)]
    omega
  · rw [UInt32.toNat_sub_of_le _ _ (UInt32.not_lt.mp hlt)]
    omega

lemma Estimates.rtoValues_lt (h : Estimates m q) (hm : m < 2 ^ 26) (hrtt : rttMs.toNat ≤ m) :
    ∀ n ∈ q.rtoValues rttMs, n < 2 ^ 32 := by
  have hsrtt := h.srtt
  have hvar := h.rttvar
  have hdiff := h.difference_le hrtt
  simp only [rtoValues, List.forall_mem_cons, List.not_mem_nil, false_implies, implies_true,
    and_true]
  omega

lemma Estimates.updateRto (h : Estimates m q) (hm : m < 2 ^ 26) (hrtt : rttMs.toNat ≤ m) :
    Estimates m (q.updateRto rttMs) := by
  have hsrtt := h.srtt
  have hvar := h.rttvar
  have hdiff := h.difference_le hrtt
  refine ⟨?_, ?_, ?_, ?_⟩
  · show ((q.srttX8 * 7 + rttMs * 8) / 8).toNat ≤ 8 * m
    simp (disch := omega) only [UInt32.toNat_div, UInt32.toNat_add, UInt32.toNat_mul,
      UInt32.reduceToNat, Nat.mod_eq_of_lt]
    omega
  · show ((q.rttvarX4 * 3 + q.difference rttMs * 4) / 4).toNat ≤ 4 * m
    simp (disch := omega) only [UInt32.toNat_div, UInt32.toNat_add, UInt32.toNat_mul,
      UInt32.reduceToNat, Nat.mod_eq_of_lt]
    omega
  all_goals
    simp only [RetransmitQueue.updateRto, max, min]
    split_ifs <;> simp_all [rtoMinMs, rtoMaxMs]

lemma foldl_estimates (hm : 1000 ≤ m) (hm' : m < 2 ^ 26) (samples : List UInt32)
    (h : ∀ r ∈ samples, r.toNat ≤ m) : Estimates m (samples.foldl updateRto new) := by
  have hnew : Estimates m new :=
    ⟨show 8000 ≤ 8 * m by omega, show 2000 ≤ 4 * m by omega, by decide, by decide⟩
  refine List.foldlRecOn samples _ hnew fun q hq r hr => hq.updateRto hm' (h r hr)

/-- **The estimator stays in range.**  With samples below `2 ^ 26` no operation of an update
overflows; the smoothed time is at most any bound on the initial second and the samples; and
the timeout is between its limits. -/
theorem rto_in_range (samples : List UInt32) (rttMs : UInt32)
    (h : ∀ r ∈ samples ++ [rttMs], r.toNat < 2 ^ 26) :
    (∀ n ∈ (samples.foldl updateRto new).rtoValues rttMs, n < 2 ^ 32) ∧
      (∀ m, 1000 ≤ m → (∀ r ∈ samples ++ [rttMs], r.toNat ≤ m) →
        ((samples ++ [rttMs]).foldl updateRto new).srttMs.toNat ≤ m) ∧
      200 ≤ ((samples ++ [rttMs]).foldl updateRto new).rto ∧
      ((samples ++ [rttMs]).foldl updateRto new).rto ≤ 60000 := by
  have hle : ∀ r ∈ samples ++ [rttMs], r.toNat ≤ 2 ^ 26 - 1 := fun r hr =>
    Nat.le_sub_one_of_lt (h r hr)
  have hbefore := foldl_estimates (m := 2 ^ 26 - 1) (by decide) (by decide) samples
    fun r hr => hle r (List.mem_append_left _ hr)
  have hafter := foldl_estimates (by decide) (by decide) _ hle
  refine ⟨hbefore.rtoValues_lt (by decide) (hle rttMs (by simp)), fun m hm hsamples => ?_,
    hafter.rto_ge, hafter.rto_le⟩
  have hmin := foldl_estimates (m := min m (2 ^ 26 - 1)) (by omega) (by omega) _
    fun r hr => Nat.le_min.mpr ⟨hsamples r hr, hle r hr⟩
  exact Nat.le_trans hmin.srttMs_le (Nat.min_le_left _ _)

/-- A slow sample among fast ones. -/
theorem slow_sample_in_range : (∀ r ∈ ([20, 30000, 40] : List UInt32), r.toNat < 2 ^ 26) ∧
    ∀ n ∈ (([20, 30000] : List UInt32).foldl updateRto new).rtoValues 40, n < 2 ^ 32 := by
  have hsamples : ∀ r ∈ ([20, 30000, 40] : List UInt32), r.toNat < 2 ^ 26 := by simp
  exact ⟨hsamples, (rto_in_range [20, 30000] 40 hsamples).1⟩

end RetransmitQueue

end Fabric
