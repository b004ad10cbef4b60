/-
Verification of the audit log.

The log keeps the last 512 entries in a ring.  Each entry carries the hash of the entry
before it, and `verifyChain` walks the ring from the oldest entry and recomputes every
hash.  It trusts the link of the oldest entry, skips empty slots, and never looks at the
hash of the newest entry that the log keeps beside the ring.
-/
import FabricOS.BusComponents
import FabricOS.HashChain

open Nat

open Function List UInt64

namespace Fabric

open HashChain

namespace AuditEntry

def hashedInput (e : AuditEntry) : List UInt8 :=
  e.hashableBytes ++ toLeBytes 8 e.capabilityId.toNat ++ toLeBytes 8 e.msgSequence.toNat

def Sealed (c : Crypto) (e : AuditEntry) : Prop := e.hash = c.sha3 e.hashedInput

end AuditEntry

lemma AuditAction.code_injective : Function.Injective AuditAction.code := by
  intro a b h
  cases a <;> cases b <;> first | rfl | exact absurd h (by decide)

namespace AuditEntry

variable {e e' : AuditEntry}

lemma eq_of_hashedInput (h : e.hashedInput = e'.hashedInput) (hhash : e.hash = e'.hash) :
    e = e' := by
  obtain ⟨h, hmsg⟩ := append_inj h (by simp [hashableBytes])
  obtain ⟨h, hcap⟩ := append_inj h (by simp [hashableBytes])
  obtain ⟨h, hprev⟩ := append_inj h (by simp)
  obtain ⟨h, -⟩ := append_inj h (by simp)
  obtain ⟨h, htype⟩ := append_inj h (by simp)
  obtain ⟨h, htarget⟩ := append_inj h (by simp)
  obtain ⟨h, haction⟩ := append_inj h (by simp)
  obtain ⟨h, hactor⟩ := append_inj h (by simp)
  obtain ⟨hseq, htime⟩ := append_inj h (by simp)
  have haction' : e.action = e'.action :=
    AuditAction.code_injective (head_eq_of_cons_eq haction)
  cases e
  cases e'
  simp only [AuditEntry.mk.injEq]
  exact ⟨UInt64.toNat_inj.mp (toLeBytes_inj (toNat_lt _) (toNat_lt _) hseq),
    UInt64.toNat_inj.mp (toLeBytes_inj (toNat_lt _) (toNat_lt _) htime),
    UInt32.toNat_inj.mp (toLeBytes_inj (UInt32.toNat_lt _) (UInt32.toNat_lt _) hactor),
    haction',
    UInt32.toNat_inj.mp (toLeBytes_inj (UInt32.toNat_lt _) (UInt32.toNat_lt _) htarget),
    UInt16.toNat_inj.mp (toLeBytes_inj (UInt16.toNat_lt _) (UInt16.toNat_lt _) htype),
    UInt64.toNat_inj.mp (toLeBytes_inj (toNat_lt _) (toNat_lt _) hcap),
    UInt64.toNat_inj.mp (toLeBytes_inj (toNat_lt _) (toNat_lt _) hmsg),
    Vector.toList_inj.mp hprev, hhash⟩

end AuditEntry

abbrev AuditChain (c : Crypto) (l : List AuditEntry) : Prop :=
  HashChain.Intact AuditEntry.prevHash AuditEntry.hash (fun e => c.sha3 e.hashedInput) l

namespace AuditLog

variable {c : Crypto} {log : AuditLog} {slot : ℕ} {replacement : Option AuditEntry}

/-! ### The verifier -/

def ringCount (log : AuditLog) : ℕ :=
  if log.totalCount ≤ auditCapacity then log.totalCount else auditCapacity

/-- The slot of the oldest entry: once the ring has wrapped, the one about to be
overwritten. -/
def start (log : AuditLog) : ℕ :=
  if log.totalCount ≤ auditCapacity then 0 else log.writePos

/-- The slots that `verifyChain` visits, in its order. -/
def window (log : AuditLog) : List (Option AuditEntry) :=
  (List.range log.ringCount).map fun i => log.entries ((log.start + i) % auditCapacity)

/-- The loop of `verifyChain` over the visited slots. -/
def verifyLoop (c : Crypto) : List (Option AuditEntry) → ℕ → Digest → Bool → ℕ × Bool
  | [], verified, _, _ => (verified, true)
  | none :: slots, verified, prevHash, first => verifyLoop c slots verified prevHash first
  | some entry :: slots, verified, prevHash, first =>
    -- the first entry in the ring has its link trusted
    let prevHash := if first then entry.prevHash else prevHash
    if entry.prevHash ≠ prevHash then (verified, false)
    else if entry.hash ≠ c.sha3 (entry.hashableBytes ++ toLeBytes 8 entry.capabilityId.toNat ++
        toLeBytes 8 entry.msgSequence.toNat) then (verified, false)
    else verifyLoop c slots (verified + 1) entry.hash false

/-- Verify the hash chain: the number of entries verified, and whether all were. -/
def verifyChain (c : Crypto) (log : AuditLog) : ℕ × Bool :=
  if log.totalCount = 0 then (0, true)
  else if log.ringCount = 0 then (0, true)
  else verifyLoop c log.window 0 (Vector.replicate 32 0) true

variable {slots : List (Option AuditEntry)} {entry : AuditEntry} {verified : ℕ} {prevHash : Digest}
  {first : Bool}

lemma verifyLoop_some :
    verifyLoop c (some entry :: slots) verified prevHash first =
      if (first = true ∨ entry.prevHash = prevHash) ∧ entry.hash = c.sha3 entry.hashedInput then
        verifyLoop c slots (verified + 1) entry.hash false
      else (verified, false) := by
  simp only [verifyLoop, AuditEntry.hashedInput]
  split_ifs <;> simp_all

lemma verifyLoop_fst_le (c : Crypto) (slots : List (Option AuditEntry)) (verified : ℕ)
    (prevHash : Digest) (first : Bool) :
    (verifyLoop c slots verified prevHash first).1 ≤ verified + slots.length := by
  induction slots generalizing verified prevHash first with
  | nil => simp [verifyLoop]
  | cons s slots ih =>
    rw [length_cons]
    cases s with
    | none =>
      have hle := ih verified prevHash first
      rw [verifyLoop]
      omega
    | some entry =>
      have hle := ih (verified + 1) entry.hash false
      rw [verifyLoop_some]
      split_ifs
      · omega
      · exact le_add_right _ _

lemma verifyLoop_none_ne :
    verifyLoop c (none :: slots) verified prevHash first ≠
      (verified + (none :: slots).length, true) := by
  intro h
  have hle := verifyLoop_fst_le c slots verified prevHash first
  rw [verifyLoop] at h
  simp only [h, length_cons] at hle
  omega

lemma verifyLoop_eq_iff :
    verifyLoop c slots verified prevHash first = (verified + slots.length, true) ↔
      ∃ l, slots = l.map some ∧ if first then AuditChain c l else
        HashChain.IntactFrom AuditEntry.prevHash AuditEntry.hash (fun e => c.sha3 e.hashedInput)
          prevHash l := by
  induction slots generalizing verified prevHash first with
  | nil => cases first <;> simp [verifyLoop, HashChain.IntactFrom, intact_nil]
  | cons s slots ih =>
    cases s with
    | none =>
      refine iff_of_false verifyLoop_none_ne ?_
      rintro ⟨l, hl, -⟩
      cases l <;> simp at hl
    | some entry =>
      rw [verifyLoop_some, length_cons, add_comm slots.length, ← add_assoc]
      constructor
      · intro h
        split_ifs at h with hentry
        · obtain ⟨l, rfl, hl⟩ := ih.mp h
          refine ⟨entry :: l, rfl, ?_⟩
          cases first
          · exact ⟨hentry.1.resolve_left Bool.false_ne_true, hentry.2, hl⟩
          · exact intact_cons_iff.mpr ⟨hentry.2, hl⟩
        · simp at h
      · rintro ⟨l, hl, hchain⟩
        cases l with
        | nil => simp at hl
        | cons e l =>
          obtain ⟨rfl, rfl⟩ := hl
          cases first
          · rw [if_pos ⟨.inr hchain.1, hchain.2.1⟩]
            exact ih.mpr ⟨l, rfl, hchain.2.2⟩
          · obtain ⟨hentry, hl⟩ := intact_cons_iff.mp hchain
            rw [if_pos ⟨.inl rfl, hentry⟩]
            exact ih.mpr ⟨l, rfl, hl⟩

lemma length_window : log.window.length = log.ringCount := by simp [window]

lemma verifyChain_eq_iff :
    log.verifyChain c = (log.ringCount, true) ↔ ∃ l, log.window = l.map some ∧ AuditChain c l := by
  by_cases hcount : log.ringCount = 0
  · have hwindow : log.window = [] := by
      rw [← length_eq_zero_iff, length_window, hcount]
    refine iff_of_true ?_ ⟨[], hwindow, intact_nil⟩
    simp [verifyChain, hcount]
  · have htotal : log.totalCount ≠ 0 := by
      intro h
      simp [ringCount, h] at hcount
    rw [verifyChain, if_neg htotal, if_neg hcount, ← length_window,
      ← zero_add log.window.length, verifyLoop_eq_iff]
    simp only [if_true]

/-! ### Logs built by appending -/

/-- Logs that come from `new` by any number of `append` calls. -/
inductive Built (c : Crypto) : AuditLog → Prop
  | new : Built c .new
  | append {log : AuditLog} (actor : ProcessId) (action : AuditAction) (target : ProcessId)
      (msgType : TypeId) (capabilityId msgSequence : UInt64) (timestamp : ℕ) :
      Built c log →
      Built c (log.append c actor action target msgType capabilityId msgSequence timestamp)

def ring (log : AuditLog) : RingBuffer AuditEntry :=
  ⟨log.entries, log.start, log.writePos, log.ringCount⟩

/-- The ring holds a chain, which ends in the hash that the log keeps beside it. -/
structure Keeps (c : Crypto) (log : AuditLog) (l : List AuditEntry) : Prop where
  holds : log.ring.Holds auditCapacity l
  chain : AuditChain c l
  last : ∀ e ∈ l.getLast?, log.prevHash = e.hash

def push (log : AuditLog) (entry : AuditEntry) : AuditLog where
  entries := Function.update log.entries log.writePos (some entry)
  writePos := (log.writePos + 1) % auditCapacity
  totalCount := log.totalCount + 1
  prevHash := entry.hash

lemma append_eq_push (actor : ProcessId) (action : AuditAction) (target : ProcessId)
    (msgType : TypeId) (capabilityId msgSequence : UInt64) (timestamp : ℕ) :
    ∃ entry : AuditEntry, entry.prevHash = log.prevHash ∧ entry.Sealed c ∧
      log.append c actor action target msgType capabilityId msgSequence timestamp =
        log.push entry := by
  refine ⟨_, ?_, ?_, rfl⟩
  · rfl
  · rfl

lemma ring_push_of_lt (h : log.totalCount < auditCapacity) :
    (log.push entry).ring = log.ring.write auditCapacity entry := by
  have hle : log.totalCount ≤ auditCapacity := by omega
  have hle' : log.totalCount + 1 ≤ auditCapacity := by omega
  simp [ring, push, start, ringCount, RingBuffer.write, hle, hle']

lemma ringCount_of_full (h : auditCapacity ≤ log.totalCount) : log.ringCount = auditCapacity := by
  rw [ringCount]
  split_ifs <;> omega

lemma ring_push_of_full (h : auditCapacity ≤ log.totalCount) (hpos : log.start = log.writePos) :
    (log.push entry).ring = (log.ring.discard auditCapacity).write auditCapacity entry := by
  have hcount := ringCount_of_full h
  have hcount' : (log.push entry).ringCount = auditCapacity :=
    ringCount_of_full (le_succ_of_le h)
  have hstart' : (log.push entry).start = (log.writePos + 1) % auditCapacity := by
    rw [start, if_neg (by simp only [push]; omega)]
    rfl
  have hpred : auditCapacity = auditCapacity - 1 + 1 := rfl
  simp only [ring, RingBuffer.write, RingBuffer.discard, hcount, hcount', hstart', hpos, ← hpred]
  rfl

variable {l : List AuditEntry}

lemma Keeps.length_eq (h : Keeps c log l) : l.length = log.ringCount :=
  h.holds.count.symm

lemma Keeps.start_eq (h : Keeps c log l)
    (hfull : auditCapacity ≤ log.totalCount) : log.start = log.writePos := by
  have htail : log.writePos = (log.start + l.length) % auditCapacity := h.holds.tail
  have hlt : log.start < auditCapacity := h.holds.head_lt
  rw [htail, h.length_eq, ringCount_of_full hfull, add_mod_right, mod_eq_of_lt hlt]

lemma Keeps.push (h : Keeps c log l)
    (hlink : entry.prevHash = log.prevHash) (hsealed : entry.Sealed c) :
    Keeps c (log.push entry) ((l ++ [entry]).drop (l.length + 1 - auditCapacity)) := by
  have hlinked : ∀ e ∈ l.getLast?, entry.prevHash = e.hash :=
    fun e he => hlink.trans (h.last e he)
  have hlast : ∀ (l' : List AuditEntry), ∀ e ∈ (l' ++ [entry]).getLast?,
      (log.push entry).prevHash = e.hash := by
    intro l' e he
    simp only [getLast?_concat, Option.mem_some_iff] at he
    rw [← he]; rfl
  by_cases hlt : log.totalCount < auditCapacity
  · have hlen : l.length < auditCapacity := by
      rw [h.length_eq, ringCount, if_pos (by omega)]
      exact hlt
    rw [Nat.sub_eq_zero_of_le hlen, drop_zero]
    refine ⟨?_, h.chain.concat hsealed hlinked, hlast l⟩
    rw [ring_push_of_lt hlt]
    exact h.holds.write hlen entry
  · have hfull : auditCapacity ≤ log.totalCount := by omega
    have hlen : l.length = auditCapacity := h.length_eq.trans (ringCount_of_full hfull)
    cases l with
    | nil => exact absurd hlen (by decide)
    | cons oldest l =>
      rw [hlen, Nat.add_sub_cancel_left, cons_append, drop_one, tail_cons]
      refine ⟨?_, h.chain.tail.concat hsealed fun e he => ?_, hlast l⟩
      · rw [ring_push_of_full hfull (h.start_eq hfull)]
        exact h.holds.discard.write (by rw [← hlen]; exact lt_succ_self _) entry
      -- the last entry is the same without the oldest
      refine hlinked e ?_
      rw [getLast?_cons, Option.mem_def.mp he]
      rfl

lemma keeps_new : Keeps c .new [] :=
  ⟨RingBuffer.holds_empty (by decide), intact_nil, by simp⟩

lemma Built.keeps (h : Built c log) : ∃ l, Keeps c log l := by
  induction h with
  | new => exact ⟨[], keeps_new⟩
  | append actor action target msgType capabilityId msgSequence timestamp _ ih =>
    obtain ⟨l, hl⟩ := ih
    obtain ⟨entry, hlink, hsealed, heq⟩ := append_eq_push (c := c) actor action target msgType
      capabilityId msgSequence timestamp
    rw [heq]
    exact ⟨_, hl.push hlink hsealed⟩

/-! ### Tampering -/

def replace (log : AuditLog) (slot : ℕ) (replacement : Option AuditEntry) : AuditLog :=
  { log with entries := Function.update log.entries slot replacement }

def newestSlot (log : AuditLog) : ℕ := (log.writePos + (auditCapacity - 1)) % auditCapacity

def hashedInputs (log : AuditLog) : Set (List UInt8) :=
  {bytes | ∃ slot entry, log.entries slot = some entry ∧ bytes = entry.hashedInput}

/-- The replacement takes the place of the newest entry, carries the hash of its own contents
and, unless it is the only entry, has the link of the entry that it replaces. -/
def Reseals (c : Crypto) (log : AuditLog) (slot : ℕ) (replacement : Option AuditEntry) : Prop :=
  slot = log.newestSlot ∧ ∃ forged, replacement = some forged ∧ forged.Sealed c ∧
    (1 < log.ringCount → ∀ entry, log.entries slot = some entry →
      forged.prevHash = entry.prevHash)

lemma window_replace : (log.replace slot replacement).window =
    (List.range log.ringCount).map fun i =>
      update log.entries slot replacement ((log.start + i) % auditCapacity) := rfl

lemma Keeps.visited_iff (h : Keeps c log l) (hslot : slot < auditCapacity) :
    slot < log.ringCount ↔ ∃ j < l.length, (log.start + j) % auditCapacity = slot := by
  rw [h.length_eq]
  by_cases hle : log.totalCount ≤ auditCapacity
  · -- the ring has not wrapped: slot and position are the same
    have hstart : log.start = 0 := if_pos hle
    have hcount : log.ringCount ≤ auditCapacity := h.length_eq ▸ h.holds.length_le
    simp only [hstart, zero_add]
    constructor
    · intro hlt
      exact ⟨slot, hlt, mod_eq_of_lt hslot⟩
    · rintro ⟨j, hj, rfl⟩
      rwa [mod_eq_of_lt (by omega)]
  · rw [ringCount_of_full (by omega)]
    exact iff_of_true hslot (RingBuffer.exists_index h.holds.head_lt hslot)

lemma Keeps.newestSlot_eq (h : Keeps c log l) {j : ℕ}
    (hj : j < l.length) : (log.start + j) % auditCapacity = log.newestSlot ↔ j + 1 = l.length := by
  have htail : log.writePos = (log.start + l.length) % auditCapacity := h.holds.tail
  have hlen : l.length ≤ auditCapacity := h.holds.length_le
  have hnewest : log.newestSlot = (log.start + (l.length - 1)) % auditCapacity := by
    rw [newestSlot, htail, mod_add_mod, show log.start + l.length + (auditCapacity - 1) =
          log.start + (l.length - 1) + auditCapacity by
        simp only [auditCapacity]; omega,
      add_mod_right]
  rw [hnewest]
  constructor
  · intro heq
    have hsame := RingBuffer.index_inj (by omega) (by omega) heq
    omega
  · intro heq
    rw [← heq, Nat.add_sub_cancel]

lemma Keeps.verifyChain_replace_unused (h : Keeps c log l)
    (hslot : slot < auditCapacity) (hunused : ¬ slot < log.ringCount) :
    (log.replace slot replacement).verifyChain c = (log.ringCount, true) := by
  refine verifyChain_eq_iff.mpr ⟨l, ?_, h.chain⟩
  rw [window_replace, ← h.length_eq, ← h.holds.map_cells]
  refine map_congr_left fun i hi => update_of_ne (fun heq => hunused ?_) _ _
  exact (h.visited_iff hslot).mpr ⟨i, mem_range.mp hi, heq⟩

lemma Keeps.verifyChain_replace_none (h : Keeps c log l) {j : ℕ} (hj : j < l.length) :
    (log.replace ((log.start + j) % auditCapacity) none).verifyChain c ≠
      (log.ringCount, true) := by
  intro hverified
  obtain ⟨l', hwindow, -⟩ := verifyChain_eq_iff.mp hverified
  have hempty : none ∈ l'.map some := by
    rw [← hwindow, window_replace, ← h.length_eq]
    exact mem_map.mpr ⟨j, mem_range.mpr hj, update_self _ _ _⟩
  simp at hempty

lemma Keeps.verifyChain_replace_some (h : Keeps c log l) {j : ℕ}
    (hj : j < l.length) (forged : AuditEntry) :
    (log.replace ((log.start + j) % auditCapacity) (some forged)).verifyChain c =
      (log.ringCount, true) ↔ AuditChain c (l.set j forged) := by
  have hwindow : (log.replace ((log.start + j) % auditCapacity) (some forged)).window =
      (l.set j forged).map some := by
    rw [window_replace, ← h.length_eq, ← (h.holds.set hj forged).map_cells, length_set]
    rfl
  refine verifyChain_eq_iff.trans ?_
  rw [hwindow]
  constructor
  · rintro ⟨l', heq, hchain⟩
    rwa [map_injective_iff.mpr (Option.some_injective _) heq]
  · exact fun hchain => ⟨_, rfl, hchain⟩

/-- **Tamper evidence.**  For every log built by appending, and a hash without collisions on
the inputs at hand, a change of the contents of one slot is detected exactly if the slot is in
use and the new content is not a resealed newest entry. -/
theorem tampering_detected_iff (hbuilt : Built c log) (hslot : slot < auditCapacity)
    (hchanged : replacement ≠ log.entries slot)
    (hinj : Set.InjOn c.sha3
      (log.hashedInputs ∪ (log.replace slot replacement).hashedInputs)) :
    (log.replace slot replacement).verifyChain c ≠ (log.ringCount, true) ↔
      slot < log.ringCount ∧ ¬ log.Reseals c slot replacement := by
  obtain ⟨l, h⟩ := hbuilt.keeps
  by_cases hused : slot < log.ringCount
  · obtain ⟨j, hj, rfl⟩ := (h.visited_iff hslot).mp hused
    cases replacement with
    | none =>
      refine iff_of_true (h.verifyChain_replace_none hj) ⟨hused, ?_⟩
      rintro ⟨-, forged, hforged, -⟩
      cases hforged
    | some forged =>
      have hentry : log.entries ((log.start + j) % auditCapacity) = some l[j] :=
        h.holds.cells j _ (getElem?_eq_getElem hj)
      have hne : forged ≠ l[j] := fun heq => hchanged (heq ▸ hentry.symm)
      have hreseals : log.Reseals c ((log.start + j) % auditCapacity) (some forged) ↔
          j + 1 = l.length ∧ forged.Sealed c ∧
            (1 < l.length → forged.prevHash = l[j].prevHash) := by
        simp [Reseals, h.newestSlot_eq hj, hentry, h.length_eq]
      rw [ne_eq, h.verifyChain_replace_some hj, hreseals]
      by_cases hnewest : j + 1 = l.length
      · -- nothing after the newest entry refers to it
        have hset : AuditChain c (l.set j forged) ↔ _ := h.chain.set_iff hj
        rw [hset]
        have hfirst : 0 < j ↔ 1 < l.length := by omega
        simp [hused, hnewest, hfirst, AuditEntry.Sealed]
      · refine iff_of_true (fun hset => hne ?_) ⟨hused, fun hreseal => hnewest hreseal.1⟩
        refine h.chain.eq_of_set (by omega) hset fun hdigest hhash =>
          AuditEntry.eq_of_hashedInput (hinj ?_ ?_ hdigest) hhash
        · exact Or.inr ⟨_, forged, update_self _ _ _, rfl⟩
        · exact Or.inl ⟨_, _, hentry, rfl⟩
  · refine iff_of_false (not_not.mpr ?_) fun hdetected => hused hdetected.1
    exact h.verifyChain_replace_unused hslot hused

/-! ### A forged entry -/

lemma hashedInputs_update {log' : AuditLog}
    (h : log'.entries = update log.entries slot (some entry)) :
    log'.hashedInputs ⊆ insert entry.hashedInput log.hashedInputs := by
  rintro _ ⟨i, e, he, rfl⟩
  rw [h] at he
  by_cases hi : i = slot
  · rw [hi, update_self, Option.some.injEq] at he
    exact Or.inl (he ▸ rfl)
  · rw [update_of_ne hi] at he
    exact Or.inr ⟨i, e, he, rfl⟩

lemma hashedInputs_new : new.hashedInputs = ∅ := by
  simp [hashedInputs, new]

def leading : Crypto where
  hmac _ := Vector.replicate 32 0
  sha3 bytes := Vector.ofFn fun i : Fin 32 => bytes.getD i 0

def sealedEntry (sequence : UInt64) (action : AuditAction) (prevHash : Digest) : AuditEntry :=
  let entry : AuditEntry :=
    { sequence, timestamp := 5, actor := 3, action, target := 2, msgType := 0
      capabilityId := 0, msgSequence := 1, prevHash, hash := Vector.replicate 32 0 }
  { entry with hash := leading.sha3 entry.hashedInput }

def sentEntry : AuditEntry := sealedEntry 0 .messageSent (Vector.replicate 32 0)

def rejectedEntry : AuditEntry := sealedEntry 1 .messageRejected sentEntry.hash

/-- A message was sent, and sent again, which was rejected. -/
def twoEntries : AuditLog :=
  (new.append leading 3 .messageSent 2 0 0 1 5).append leading 3 .messageRejected 2 0 0 1 5

lemma built_twoEntries : Built leading twoEntries :=
  .append _ _ _ _ _ _ _ (.append _ _ _ _ _ _ _ .new)

lemma injOn_twoEntries (hsent : leading.sha3 entry.hashedInput ≠ leading.sha3 sentEntry.hashedInput)
    (hrejected : leading.sha3 entry.hashedInput ≠ leading.sha3 rejectedEntry.hashedInput) :
    Set.InjOn leading.sha3
      (twoEntries.hashedInputs ∪ (twoEntries.replace slot (some entry)).hashedInputs) := by
  have hpair : leading.sha3 sentEntry.hashedInput ≠ leading.sha3 rejectedEntry.hashedInput := by
    decide
  have htwo : twoEntries.hashedInputs ⊆ {rejectedEntry.hashedInput, sentEntry.hashedInput} := by
    have hone : (new.push sentEntry).hashedInputs ⊆ {sentEntry.hashedInput} := by
      have hsub : (new.push sentEntry).hashedInputs ⊆ insert _ new.hashedInputs :=
        hashedInputs_update rfl
      rwa [hashedInputs_new, insert_empty_eq] at hsub
    exact (hashedInputs_update rfl).trans (Set.insert_subset_insert hone)
  have hall : twoEntries.hashedInputs ∪ (twoEntries.replace slot (some entry)).hashedInputs ⊆
      {entry.hashedInput, rejectedEntry.hashedInput, sentEntry.hashedInput} :=
    Set.union_subset (htwo.trans (Set.subset_insert _ _))
      ((hashedInputs_update rfl).trans (Set.insert_subset_insert htwo))
  refine Set.InjOn.mono hall ?_
  rintro _ (rfl | rfl | rfl) _ (rfl | rfl | rfl) heq
  · rfl
  · exact absurd heq hrejected
  · exact absurd heq hsent
  · exact absurd heq.symm hrejected
  · rfl
  · exact absurd heq.symm hpair
  · exact absurd heq.symm hsent
  · exact absurd heq hpair
  · rfl

/-- The rejection becomes a delivery, and the verifier finds nothing wrong. -/
theorem newest_entry_forged :
    ∃ forged, some forged ≠ twoEntries.entries 1 ∧ Built leading twoEntries ∧
      Set.InjOn leading.sha3 (twoEntries.hashedInputs ∪
        (twoEntries.replace 1 (some forged)).hashedInputs) ∧
      (twoEntries.replace 1 (some forged)).verifyChain leading = (twoEntries.ringCount, true) := by
  refine ⟨sealedEntry 1 .messageDelivered sentEntry.hash, by decide, built_twoEntries,
    injOn_twoEntries (by decide) (by decide), ?_⟩
  decide +kernel

/-- The same forgery of the older entry is detected. -/
theorem older_entry_forgery_detected : (twoEntries.replace 0 (some
      (sealedEntry 0 .messageDelivered (Vector.replicate 32 0)))).verifyChain leading ≠
        (twoEntries.ringCount, true) := by
  refine (tampering_detected_iff built_twoEntries (by decide) (by decide)
    (injOn_twoEntries (by decide) (by decide))).mpr ⟨by decide, ?_⟩
  rintro ⟨hnewest, -⟩
  exact absurd hnewest (by decide)

end AuditLog

end Fabric
