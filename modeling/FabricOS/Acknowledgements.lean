/-
Acknowledgements and the retransmit queue (`RetransmitQueue::ack_received`).

An acknowledgement covers a segment when all its sequence numbers lie before it.  The queue
compares the first one only.
-/
import FabricOS.Packets
import FabricOS.Retransmit

namespace Fabric

namespace RetransmitEntry

/-- The sequence numbers of the segment in the packet: one for each byte of data, and one for a
SYN or a FIN. -/
def seqLen (e : RetransmitEntry) : ℕ :=
  let flag := fun f => ((TcpHeader.fromBytes (e.data.drop 20)).any (·.hasFlag f)).toNat
  e.data.length - 40 + flag Tcp.syn + flag Tcp.fin

/-- All sequence numbers of the segment lie before `ackNum`. -/
def Covered (e : RetransmitEntry) (ackNum : UInt32) : Prop :=
  ∀ i < e.seqLen, wrappingLt (e.seq + .ofNat i) ackNum = true

/-- An acknowledgement from within the segment. -/
def Splits (e : RetransmitEntry) (ackNum : UInt32) : Prop :=
  0 < (ackNum - e.seq).toNat ∧ (ackNum - e.seq).toNat < e.seqLen

instance (e : RetransmitEntry) (ackNum : UInt32) : Decidable (e.Covered ackNum) :=
  inferInstanceAs (Decidable (∀ i < _, _))

instance (e : RetransmitEntry) (ackNum : UInt32) : Decidable (e.Splits ackNum) :=
  inferInstanceAs (Decidable (_ ∧ _))

end RetransmitEntry

lemma wrappingLt_iff {a b : UInt32} :
    wrappingLt a b = true ↔ 0 < (b - a).toNat ∧ (b - a).toNat < 2 ^ 31 := by
  simp [wrappingLt, UInt32.lt_iff_toNat_lt]

lemma RetransmitEntry.covered_iff_before {e : RetransmitEntry} {ackNum : UInt32}
    (hpos : 0 < e.seqLen) (hwindow : e.seqLen ≤ 2 ^ 31) :
    e.Covered ackNum ↔ wrappingLt e.seq ackNum = true ∧ ¬ e.Splits ackNum := by
  have hdiff : ∀ i < e.seqLen, (ackNum - (e.seq + .ofNat i)).toNat =
      (2 ^ 32 - i + (ackNum - e.seq).toNat) % 2 ^ 32 := fun i hi => by
    have hseq := e.seq.toNat_lt
    simp only [UInt32.toNat_sub, UInt32.toNat_add, UInt32.toNat_ofNat']
    omega
  have hlt := (ackNum - e.seq).toNat_lt
  simp only [Covered, wrappingLt_iff, Splits]
  constructor
  · intro hall
    have hfirst := hall 0 hpos
    rw [hdiff 0 hpos] at hfirst
    refine ⟨by omega, fun ⟨_, hin⟩ => ?_⟩
    -- the sequence number that is acknowledged next does not lie before the acknowledgement
    have hnext := hall _ hin
    rw [hdiff _ hin] at hnext
    omega
  · rintro ⟨⟨_, _⟩, hout⟩ i hi
    rw [hdiff i hi]
    omega

namespace RetransmitQueue

lemma ackReceived_entries (q : RetransmitQueue) (ackNum : UInt32) (now : UInt64) :
    (q.ackReceived ackNum now).entries = q.entries.filter fun e => !wrappingLt e.seq ackNum := by
  simp only [ackReceived]
  split <;> rfl

/-- An acknowledgement removes exactly the segments it covers, unless it comes from within one.
The estimator is left alone or takes its sample from a removed entry that was sent once. -/
theorem ackReceived_exact (q : RetransmitQueue) (ackNum : UInt32) (now : UInt64)
    (hwindow : ∀ e ∈ q.entries, 0 < e.seqLen ∧ e.seqLen ≤ 2 ^ 31) :
    ((∀ e ∈ q.entries, e ∉ (q.ackReceived ackNum now).entries ↔ e.Covered ackNum) ↔
      ∀ e ∈ q.entries, ¬ e.Splits ackNum) ∧
    (let kept := { q with entries := (q.ackReceived ackNum now).entries }
     q.ackReceived ackNum now = kept ∨
      ∃ e ∈ q.entries, e ∉ kept.entries ∧ e.retries = 0 ∧
        q.ackReceived ackNum now = kept.updateRto (saturatingSub now e.timestamp).toUInt32) := by
  refine ⟨forall₂_congr fun e he => ?_, ?_⟩
  swap
  · simp only [ackReceived_entries]
    rw [ackReceived]
    cases hlast : ((q.entries.filter fun e => wrappingLt e.seq ackNum).filter
        (·.retries == 0)).getLast? with
    | none => exact .inl (by simp only [Option.map_none])
    | some e =>
      have hmem := List.mem_of_getLast? hlast
      simp only [List.mem_filter, beq_iff_eq] at hmem
      exact .inr ⟨e, hmem.1.1, by simp [hmem.1.2], hmem.2, by simp only [Option.map_some]⟩
  obtain ⟨hpos, hmax⟩ := hwindow e he
  have hremoved : e ∉ (q.ackReceived ackNum now).entries ↔ wrappingLt e.seq ackNum = true := by
    simp [ackReceived_entries, he]
  rw [hremoved, e.covered_iff_before hpos hmax]
  have hsplit : e.Splits ackNum → wrappingLt e.seq ackNum = true := fun ⟨hlow, hhigh⟩ =>
    wrappingLt_iff.mpr ⟨hlow, by omega⟩
  tauto

/-- A queue with one segment of two bytes. -/
def twoBytes : RetransmitQueue := new.enqueue 1000 (List.replicate 42 0) 0

/-- The first of two bytes is acknowledged, and both are forgotten. -/
theorem ackReceived_partial :
    (∀ e ∈ twoBytes.entries, 0 < e.seqLen ∧ e.seqLen ≤ 2 ^ 31 ∧ ¬ e.Covered 1001) ∧
      (twoBytes.ackReceived 1001 50).entries = [] := by
  decide +kernel

theorem ackReceived_exact_twoBytes : twoBytes.entries.length = 1 ∧
    ∀ e ∈ twoBytes.entries, e ∉ (twoBytes.ackReceived 1002 50).entries ↔ e.Covered 1002 :=
  ⟨rfl, (ackReceived_exact twoBytes 1002 50 (by decide +kernel)).1.mpr (by decide +kernel)⟩

end RetransmitQueue

end Fabric
