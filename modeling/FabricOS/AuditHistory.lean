/-
The audit log against the history of its entries.

A log is built by a list of `append` calls.  Each call makes one entry, whether or not the
ring still has it: `history` is the list of all of them.  The history is a chain from the
zero hash on, and its entries are numbered from 0.  The ring, read from its oldest slot, is
the end of the history (`keeps_history`): the oldest slot is slot 0 up to the 512th entry,
and from then on the slot that is written next, which is slot 0 at that moment too.
-/
import FabricOS.AuditChain

open List

namespace Fabric

/-- The arguments of a call of `append`. -/
structure AppendCall where
  actor : ProcessId
  action : AuditAction
  target : ProcessId
  msgType : TypeId
  capabilityId : UInt64
  msgSequence : UInt64
  timestamp : ℕ

/-- The entry says what the call was given. -/
structure AuditEntry.Records (e : AuditEntry) (call : AppendCall) : Prop where
  actor : e.actor = call.actor
  action : e.action = call.action
  target : e.target = call.target
  msgType : e.msgType = call.msgType
  capabilityId : e.capabilityId = call.capabilityId
  msgSequence : e.msgSequence = call.msgSequence
  timestamp : e.timestamp = UInt64.ofNat call.timestamp

namespace AuditLog

variable {c : Crypto} {log : AuditLog} {call : AppendCall} {calls : List AppendCall}

def appendCall (c : Crypto) (log : AuditLog) (call : AppendCall) : AuditLog :=
  log.append c call.actor call.action call.target call.msgType call.capabilityId
    call.msgSequence call.timestamp

def entryOf (c : Crypto) (log : AuditLog) (call : AppendCall) : AuditEntry :=
  let entry : AuditEntry :=
    { sequence := UInt64.ofNat log.totalCount, timestamp := UInt64.ofNat call.timestamp
      actor := call.actor, action := call.action, target := call.target, msgType := call.msgType
      capabilityId := call.capabilityId, msgSequence := call.msgSequence
      prevHash := log.prevHash, hash := Vector.replicate 32 0 }
  { entry with hash := c.sha3 entry.hashedInput }

def afterCalls (c : Crypto) (calls : List AppendCall) : AuditLog :=
  calls.foldl (appendCall c) new

def historyFrom (c : Crypto) : AuditLog → List AppendCall → List AuditEntry
  | _, [] => []
  | log, call :: calls => log.entryOf c call :: historyFrom c (log.appendCall c call) calls

/-- All entries that calls have made, in the order of the calls. -/
def history (c : Crypto) (calls : List AppendCall) : List AuditEntry := historyFrom c new calls

lemma afterCalls_concat : afterCalls c (calls ++ [call]) =
    (afterCalls c calls).push ((afterCalls c calls).entryOf c call) := by
  rw [afterCalls, foldl_append, ← afterCalls]
  rfl

lemma historyFrom_concat : historyFrom c log (calls ++ [call]) =
    historyFrom c log calls ++ [(calls.foldl (appendCall c) log).entryOf c call] := by
  induction calls generalizing log with
  | nil => rfl
  | cons first calls ih => rw [cons_append, historyFrom, ih, historyFrom]; rfl

lemma history_concat : history c (calls ++ [call]) =
    history c calls ++ [(afterCalls c calls).entryOf c call] := historyFrom_concat

@[simp] lemma length_history : (history c calls).length = calls.length := by
  induction calls using reverseRecOn with
  | nil => rfl
  | append_singleton calls call ih => simp [history_concat, ih]

@[simp] lemma totalCount_afterCalls : (afterCalls c calls).totalCount = calls.length := by
  induction calls using reverseRecOn with
  | nil => rfl
  | append_singleton calls call ih => simp [afterCalls_concat, push, ih]

/-! ### The history is a chain -/

lemma prevHash_afterCalls : (afterCalls c calls).prevHash =
    ((history c calls).getLast?.map (·.hash)).getD (Vector.replicate 32 0) := by
  induction calls using reverseRecOn with
  | nil => rfl
  | append_singleton calls call ih => rw [afterCalls_concat, history_concat]; simp [push]

lemma chain_history : AuditChain c (history c calls) := by
  induction calls using reverseRecOn with
  | nil => exact HashChain.intact_nil
  | append_singleton calls call ih =>
    rw [history_concat]
    refine ih.concat rfl fun last hlast => ?_
    have hprev : ((afterCalls c calls).entryOf c call).prevHash = (afterCalls c calls).prevHash :=
      rfl
    rw [hprev, prevHash_afterCalls, Option.mem_def.mp hlast]
    rfl

lemma history_entries (i : ℕ) (h : i < calls.length) :
    ∃ e, (history c calls)[i]? = some e ∧ e.sequence = UInt64.ofNat i ∧ e.Records calls[i] ∧
      (i = 0 → e.prevHash = Vector.replicate 32 0) := by
  induction calls using reverseRecOn with
  | nil => exact absurd h (by simp)
  | append_singleton calls call ih =>
    rw [history_concat]
    by_cases hi : i < calls.length
    · obtain ⟨e, he, hrest⟩ := ih hi
      refine ⟨e, ?_, ?_⟩
      · rw [getElem?_append_left (by simpa using hi), he]
      · rwa [getElem_append_left hi]
    · -- the entry of the last call
      have hlast : i = calls.length := by simp at h; omega
      subst hlast
      refine ⟨(afterCalls c calls).entryOf c call, ?_, ?_, ?_, fun hzero => ?_⟩
      · simp
      · simp [entryOf]
      · rw [getElem_append_right le_rfl]
        simp only [Nat.sub_self, getElem_cons_zero]
        exact ⟨rfl, rfl, rfl, rfl, rfl, rfl, rfl⟩
      · rw [length_eq_zero_iff.mp hzero]
        rfl

/-! ### The ring is the end of the history -/

lemma keeps_history : Keeps c (afterCalls c calls)
    ((history c calls).drop (calls.length - auditCapacity)) := by
  induction calls using reverseRecOn with
  | nil => exact keeps_new
  | append_singleton calls call ih =>
    have hk : calls.length - auditCapacity ≤ (history c calls).length := by simp
    have hlink : ((afterCalls c calls).entryOf c call).prevHash = (afterCalls c calls).prevHash :=
      rfl
    have hpush := ih.push hlink rfl
    rw [← drop_append_of_le_length hk, drop_drop, length_drop, length_history] at hpush
    rw [afterCalls_concat, history_concat, length_append, length_singleton]
    -- both sides drop the entries for which there is no room
    have hdrop : calls.length - auditCapacity +
        (calls.length - (calls.length - auditCapacity) + 1 - auditCapacity) =
        calls.length + 1 - auditCapacity := by omega
    rwa [hdrop] at hpush

lemma ringCount_afterCalls : (afterCalls c calls).ringCount = min calls.length auditCapacity := by
  rw [ringCount, totalCount_afterCalls]
  split_ifs <;> omega

/-- **The log keeps its newest entries.**  After any calls, `verify_chain` verifies the last
512 entries, or all of them if there are fewer, and finds the chain valid.  The ring, read
from its oldest slot, holds exactly these.  They are numbered consecutively, each is linked
to the hash of the entry before it, and the very first one to zero. -/
theorem log_keeps_newest (c : Crypto) (calls : List AppendCall) :
    (afterCalls c calls).verifyChain c = (min calls.length 512, true) ∧
      (afterCalls c calls).window = ((history c calls).drop (calls.length - 512)).map some ∧
      (history c calls).length = calls.length ∧
      (∀ i (hi : i < calls.length), ∃ e, (history c calls)[i]? = some e ∧
        e.sequence = UInt64.ofNat i ∧ e.Records calls[i] ∧
        (i = 0 → e.prevHash = Vector.replicate 32 0)) ∧
      ∀ i e e', (history c calls)[i]? = some e → (history c calls)[i + 1]? = some e' →
        e'.prevHash = e.hash := by
  have hkeeps : Keeps c (afterCalls c calls) _ := keeps_history
  have hwindow : (afterCalls c calls).window =
      ((history c calls).drop (calls.length - 512)).map some := by
    rw [window, ← hkeeps.length_eq]
    exact hkeeps.holds.map_cells
  refine ⟨?_, hwindow, length_history, history_entries, fun i e e' he he' => ?_⟩
  · have hverified := verifyChain_eq_iff.mpr ⟨_, hwindow, hkeeps.chain⟩
    rwa [ringCount_afterCalls] at hverified
  · obtain ⟨hi, rfl⟩ := List.getElem?_eq_some_iff.mp he
    obtain ⟨hi', rfl⟩ := List.getElem?_eq_some_iff.mp he'
    exact chain_history.links i hi'

end AuditLog

end Fabric
