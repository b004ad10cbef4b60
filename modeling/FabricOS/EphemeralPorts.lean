/-
Ephemeral ports (`allocate_ephemeral_port`).

The counter is a 16-bit number that wraps around to 0, and of its values only 65535 is mapped
back into the range from 49152 on.
-/
import FabricOS.SocketOps

open Finset

open UInt16

namespace Fabric.NetCore

open SocketTable

variable (t : SocketTable)

/-- No active socket uses the port. -/
def FreePort (port : UInt16) : Prop := ¬ t.portInUse port .tcp ∧ ¬ t.portInUse port .udp

instance (port : UInt16) : Decidable (FreePort t port) := inferInstanceAs (Decidable (_ ∧ _))

/-- The port for a value of the counter. -/
def portAt (counter : UInt16) : UInt16 := if counter ≥ 65535 then 49152 else counter

/-- A port that the allocation may return. -/
def IsEphemeral (port : UInt16) : Prop := 49152 ≤ port ∧ port ≤ 65534 ∧ FreePort t port

variable {t}

/-- The allocation stops at the first free port. -/
lemma allocateEphemeralPort_eq {tries k : ℕ} {counter : UInt16} (hk : k < tries)
    (hfree : FreePort t (portAt (counter + .ofNat k)))
    (hused : ∀ j < k, ¬ FreePort t (portAt (counter + .ofNat j))) :
    (allocateEphemeralPort t tries counter).1 = portAt (counter + .ofNat k) := by
  induction tries generalizing k counter with
  | zero => cases hk
  | succ tries ih =>
    have htest : (!t.portInUse (portAt counter) .tcp && !t.portInUse (portAt counter) .udp) =
        decide (FreePort t (portAt counter)) := by simp [FreePort]
    change (if (!t.portInUse (portAt counter) .tcp && !t.portInUse (portAt counter) .udp) = true
      then (portAt counter, counter + 1) else _).1 = _
    rw [htest]
    cases k with
    | zero =>
      rw [show counter + .ofNat 0 = counter from UInt16.add_zero counter] at hfree ⊢
      simp [hfree]
    | succ k =>
      have hfirst := hused 0 (Nat.succ_pos k)
      rw [show counter + .ofNat 0 = counter from UInt16.add_zero counter] at hfirst
      have hshift : ∀ j, counter + 1 + .ofNat j = counter + .ofNat (j + 1) := fun j => by
        rw [UInt16.add_assoc, Nat.add_comm, UInt16.ofNat_add]
        rfl
      simp only [hfirst, decide_false, Bool.false_eq_true, if_false]
      rw [← hshift] at hfree ⊢
      exact ih (by omega) hfree fun j hj => by
        rw [hshift]
        exact hused (j + 1) (by omega)

lemma toNat_portAt (counter : UInt16) :
    (portAt counter).toNat = if 65535 ≤ counter.toNat then 49152 else counter.toNat := by
  simp only [portAt, ge_iff_le, le_iff_toNat_le, reduceToNat]
  split <;> rfl

/-- A thousand values in a row yield different ports. -/
lemma portAt_injOn (counter : UInt16) {n : ℕ} (hn : n ≤ 1000) :
    Set.InjOn (fun k => portAt (counter + .ofNat k)) (Finset.range n) := by
  intro j hj k hk h
  have hnat := congrArg UInt16.toNat h
  simp only [coe_range, Set.mem_Iio, toNat_portAt, UInt16.toNat_add,
    UInt16.toNat_ofNat'] at hj hk hnat
  split at hnat <;> split at hnat <;> omega

section

variable {used : Finset UInt16} (hused : ∀ p, ¬ FreePort t p → p ∈ used)

include hused

/-- Fewer used ports than values of the counter: one of the values yields a free port. -/
lemma exists_freePort {n : ℕ} (counter : UInt16) (hn : n ≤ 1000) (hcard : used.card < n) :
    ∃ k < n, FreePort t (portAt (counter + .ofNat k)) := by
  by_contra hnone
  have hmaps : Set.MapsTo (fun k => portAt (counter + .ofNat k)) (range n) used :=
    fun k hk => hused _ fun hfree => hnone ⟨k, mem_range.mp hk, hfree⟩
  have hle := card_le_card_of_injOn _ hmaps (portAt_injOn counter hn)
  rw [card_range] at hle
  omega

lemma exists_first_freePort {n : ℕ} (counter : UInt16) (hn : n ≤ 1000) (hcard : used.card < n) :
    ∃ k < n, FreePort t (portAt (counter + .ofNat k)) ∧
      ∀ j < k, ¬ FreePort t (portAt (counter + .ofNat j)) := by
  have hex := exists_freePort hused counter hn hcard
  refine ⟨Nat.find hex, (Nat.find_spec hex).1, (Nat.find_spec hex).2, fun j hj hfree => ?_⟩
  exact Nat.find_min hex hj ⟨hj.trans (Nat.find_spec hex).1, hfree⟩

end

lemma isEphemeral_portAt {counter : UInt16} (h : FreePort t (portAt counter)) :
    IsEphemeral t (portAt counter) ↔ 49152 ≤ counter := by
  have hport := toNat_portAt counter
  simp only [IsEphemeral, le_iff_toNat_le, reduceToNat]
  split at hport <;> exact ⟨fun h => by omega, fun _ => ⟨by omega, by omega, h⟩⟩

/-- The port is as it should be exactly when the first free port comes up at a value of the
counter in the range.  That is so from a value on that is in the range and as far from its end
as there are ports in use. -/
theorem allocateEphemeralPort_isEphemeral_iff (counter : UInt16) (used : Finset UInt16)
    (hused : ∀ p, ¬ FreePort t p → p ∈ used) (hcard : used.card < 1000) :
    (IsEphemeral t (allocateEphemeralPort t 1000 counter).1 ↔
      ∃ k < 1000, 49152 ≤ counter + .ofNat k ∧ FreePort t (portAt (counter + .ofNat k)) ∧
        ∀ j < k, ¬ FreePort t (portAt (counter + .ofNat j))) ∧
    (49152 ≤ counter → counter.toNat + used.card ≤ 65535 →
      IsEphemeral t (allocateEphemeralPort t 1000 counter).1) := by
  have hif : ∀ {k}, k < 1000 → FreePort t (portAt (counter + .ofNat k)) →
      (∀ j < k, ¬ FreePort t (portAt (counter + .ofNat j))) →
      (IsEphemeral t (allocateEphemeralPort t 1000 counter).1 ↔ 49152 ≤ counter + .ofNat k) :=
    fun hk hfree hfirst => by
      rw [allocateEphemeralPort_eq hk hfree hfirst, isEphemeral_portAt hfree]
  refine ⟨⟨fun h => ?_, fun ⟨k, hk, hrange, hfree, hfirst⟩ => ?_⟩, fun hlow hroom => ?_⟩
  · obtain ⟨k, hk, hfree, hfirst⟩ := exists_first_freePort hused counter le_rfl hcard
    exact ⟨k, hk, (hif hk hfree hfirst).mp h, hfree, hfirst⟩
  · exact (hif hk hfree hfirst).mpr hrange
  obtain ⟨k, hk, hfree, hfirst⟩ :=
    exists_first_freePort hused counter (Nat.succ_le_of_lt hcard) (Nat.lt_succ_self _)
  -- the counter does not wrap around before it gets there
  refine (hif (by omega) hfree hfirst).mpr ?_
  simp only [UInt16.le_iff_toNat_le, UInt16.toNat_add, UInt16.toNat_ofNat',
    UInt16.reduceToNat] at hlow ⊢
  omega

lemma freePort_new (p : UInt16) : FreePort .new p := by
  have hnone : ∀ protocol, new.portInUse p protocol = false := fun protocol => by
    simp [portInUse, new, Socket.empty, firstSlot]
  simp [FreePort, hnone]

/-- After the counter has wrapped around, with no socket at all: port 0. -/
theorem allocateEphemeralPort_wrapped :
    ¬ IsEphemeral .new (allocateEphemeralPort .new 1000 0).1 := by
  exact fun h => absurd h.1 (by decide)

theorem allocateEphemeralPort_isEphemeral_new :
    IsEphemeral .new (allocateEphemeralPort .new 1000 49152).1 :=
  (allocateEphemeralPort_isEphemeral_iff 49152 ∅ (fun p hp => absurd (freePort_new p) hp)
    (by decide)).2 (by decide) (by decide)

end Fabric.NetCore
