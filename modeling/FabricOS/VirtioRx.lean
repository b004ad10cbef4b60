/-
Receive buffers of the virtio network card (`virtio/mod.rs`, `virtio/net.rs`,
`network/virtio_nic_adapter.rs`, and the first part of `nic_receive_one`).

Driver and device share a table of descriptors and two rings.  The driver posts descriptors in the
available ring; the device takes them from there, fills their buffers in any order, and reports
them in the used ring.  Both rings are indexed by counters of 16 bits that run freely.

The adapter does not keep the descriptor that it has polled: it posts the one whose number is the
counter of the used ring, `last_used_idx - 1`.  So the first packet has to be reported for
descriptor 0, the second one for descriptor 1, and so on; and when all descriptors have been used
once, the next one that is written lies outside the table.
-/
import FabricOS.Machine
import FabricOS.RingBuffer
import Mathlib.Data.UInt

open Function Machine List Nat UInt16

namespace Fabric

/-- `QUEUE_SIZE`, the number of receive buffers. -/
def rxQueueSize : ℕ := 256

/-- `MAX_PACKET_SIZE`. -/
def maxPacketSize : UInt32 := 1524

/-- `VIRTQ_DESC_F_WRITE`. -/
def virtqDescFWrite : UInt16 := 2

structure VirtqDesc where
  addr : UInt64
  len : UInt32
  flags : UInt16
  next : UInt16
  deriving DecidableEq

structure VirtqUsedElem where
  id : UInt32
  len : UInt32
  deriving DecidableEq

/-- A queue with the memory that it shares with the device. -/
structure Virtqueue (size : ℕ) where
  desc : Fin size → VirtqDesc
  availIdx : UInt16
  availRing : Fin size → UInt16
  usedIdx : UInt16
  usedRing : Fin size → VirtqUsedElem
  freeHead : UInt16
  lastUsedIdx : UInt16
  numFree : UInt16
  /-- The writes to descriptors that are not in the table. -/
  strayWrites : List UInt16

namespace Virtqueue

def new (size : ℕ) : Virtqueue size where
  desc i := ⟨0, 0, 0, if i.val + 1 < size then .ofNat (i.val + 1) else 0⟩
  availIdx := 0
  availRing _ := 0
  usedIdx := 0
  usedRing _ := ⟨0, 0⟩
  freeHead := 0
  lastUsedIdx := 0
  numFree := .ofNat size
  strayWrites := []

variable {size : ℕ}

def allocDesc (q : Virtqueue size) : Exec (Virtqueue size × Option UInt16) :=
  if q.numFree = 0 then .ok (q, none)
  else if h : q.freeHead.toNat < size then
    .ok ({ q with freeHead := (q.desc ⟨_, h⟩).next, numFree := q.numFree - 1 }, some q.freeHead)
  else .panic

/-- Write to a descriptor through a pointer; nothing keeps the write inside the table. -/
def writeDesc (q : Virtqueue size) (idx : UInt16) (f : VirtqDesc → VirtqDesc) : Virtqueue size :=
  if h : idx.toNat < size then
    { q with desc := update q.desc ⟨_, h⟩ (f (q.desc ⟨_, h⟩)) }
  else { q with strayWrites := q.strayWrites ++ [idx] }

lemma writeDesc_eq (q : Virtqueue size) (idx : UInt16) (f : VirtqDesc → VirtqDesc) :
    ∃ desc, q.writeDesc idx f = { q with
      desc
      strayWrites := if idx.toNat < size then q.strayWrites else q.strayWrites ++ [idx] } := by
  rw [writeDesc]
  by_cases h : idx.toNat < size
  · exact ⟨_, by rw [dif_pos h, if_pos h]⟩
  · exact ⟨q.desc, by rw [dif_neg h, if_neg h]⟩

variable [NeZero size]

def slot (idx : UInt16) : Fin size := Fin.ofNat size idx.toNat

def submit (q : Virtqueue size) (head : UInt16) : Virtqueue size :=
  { q with
    availRing := update q.availRing (slot q.availIdx) head
    availIdx := q.availIdx + 1 }

def pollUsed (q : Virtqueue size) : Virtqueue size × Option (UInt16 × UInt32) :=
  if q.lastUsedIdx = q.usedIdx then (q, none)
  else
    let elem := q.usedRing (slot q.lastUsedIdx)
    ({ q with lastUsedIdx := q.lastUsedIdx + 1 }, some (elem.id.toUInt16, elem.len))

end Virtqueue

/-! ### The driver -/

structure RxBuffer where
  phys : UInt64
  virt : UInt64
  mapped : virt ≠ 0

structure VirtioNet (size : ℕ) where
  rxQueue : Virtqueue size
  rxBuffersVirt : Fin rxQueueSize → UInt64

namespace VirtioNet

variable {size : ℕ} [NeZero size]

def addBuffer (q : Virtqueue size) (buffer : RxBuffer) : Exec (Option (Virtqueue size)) := do
  let (q, idx) ← q.allocDesc
  match idx with
  | none => .ok none
  | some idx =>
    .ok (some ((q.writeDesc idx fun _ =>
      ⟨buffer.phys, maxPacketSize, virtqDescFWrite, 0⟩).submit idx))

/-- Add the first `n` buffers. -/
def addBuffers (buffers : ℕ → RxBuffer) : ℕ → Exec (Option (Virtqueue size))
  | 0 => .ok (some (.new size))
  | n + 1 => do
    match ← addBuffers buffers n with
    | none => .ok none
    | some q => addBuffer q (buffers n)

def init (size : ℕ) [NeZero size] (buffers : ℕ → RxBuffer) : Exec (Option (VirtioNet size)) := do
  match ← addBuffers buffers size with
  | none => .ok none
  | some rxQueue =>
    .ok (some ⟨rxQueue, fun i => if i.val < size then (buffers i).virt else 0⟩)

/-- The address and length of the next packet, behind the header of 10 bytes. -/
def pollRx (nic : VirtioNet size) : Exec (VirtioNet size × Option (UInt64 × ℕ)) :=
  match nic.rxQueue.pollUsed with
  | (rxQueue, none) => .ok ({ nic with rxQueue }, none)
  | (rxQueue, some (descIdx, len)) =>
    if h : descIdx.toNat < rxQueueSize then
      let virt := nic.rxBuffersVirt ⟨_, h⟩
      if virt = 0 then .ok ({ nic with rxQueue }, none)
      else .ok ({ nic with rxQueue }, some (virt + 10, len.toNat - 10))
    else .panic

def recycleRx (nic : VirtioNet size) (descIdx : UInt16) : VirtioNet size :=
  { nic with rxQueue := (nic.rxQueue.writeDesc descIdx fun d =>
      { d with len := maxPacketSize, flags := virtqDescFWrite }).submit descIdx }

end VirtioNet

structure VirtioNicAdapter (size : ℕ) where
  inner : VirtioNet size
  lastRxDesc : UInt16
  hasPendingRx : Bool

namespace VirtioNicAdapter

variable {size : ℕ} [NeZero size]

def new (nic : VirtioNet size) : VirtioNicAdapter size := ⟨nic, 0, false⟩

def pollRx (a : VirtioNicAdapter size) : Exec (VirtioNicAdapter size × Option (UInt64 × ℕ)) := do
  let (inner, packet) ← a.inner.pollRx
  match packet with
  | some packet =>
    .ok (⟨inner, inner.rxQueue.lastUsedIdx - 1, true⟩, some packet)
  | none => .ok ({ a with inner }, none)

def recycleRx (a : VirtioNicAdapter size) : VirtioNicAdapter size :=
  if a.hasPendingRx then { a with inner := a.inner.recycleRx a.lastRxDesc, hasPendingRx := false }
  else a

/-- The part of `nic_receive_one` that has the card: a packet is copied and its buffer recycled. -/
def receiveOne (a : VirtioNicAdapter size) :
    Exec (VirtioNicAdapter size × Option (UInt64 × ℕ)) := do
  let (a, packet) ← a.pollRx
  match packet with
  | some packet => .ok (a.recycleRx, some packet)
  | none => .ok (a, none)

end VirtioNicAdapter

/-! ### Driver and device -/

/-- The driver, and what the device knows. -/
structure RxSystem (size : ℕ) where
  adapter : VirtioNicAdapter size
  /-- How far the device has read the available ring. -/
  lastAvailIdx : UInt16
  /-- The descriptors that the device has taken from there, and not reported. -/
  taken : List UInt16

inductive RxEvent
  /-- The device takes a descriptor from the available ring. -/
  | take
  /-- The device reports a descriptor that it has. -/
  | report (id : UInt16) (len : UInt32)
  | receive

namespace RxSystem

variable {size : ℕ}

def start (nic : VirtioNet size) : RxSystem size := ⟨.new nic, 0, []⟩

abbrev queue (s : RxSystem size) : Virtqueue size := s.adapter.inner.rxQueue

def descriptors (size : ℕ) : List UInt16 := (List.range size).map .ofNat

lemma length_descriptors : (descriptors size).length = size := by simp [descriptors]

lemma lt_of_mem_descriptors (hsize : size ≤ rxQueueSize) {id : UInt16}
    (h : id ∈ descriptors size) : id.toNat < size := by
  obtain ⟨j, hj, rfl⟩ := mem_map.mp h
  have hj := mem_range.mp hj
  rwa [toNat_ofNat_of_lt' (lt_of_lt_of_le hj (hsize.trans (by decide)))]

def gap (start stop : UInt16) : ℕ := (stop - start).toNat

lemma gap_eq (start stop : UInt16) :
    gap start stop = (2 ^ 16 - start.toNat + stop.toNat) % 2 ^ 16 := UInt16.toNat_sub ..

lemma gap_self (start : UInt16) : gap start start = 0 := by
  have hlt := start.toNat_lt
  rw [gap_eq]
  omega

lemma add_gap (start stop : UInt16) : start + .ofNat (gap start stop) = stop := by
  rw [gap, UInt16.ofNat_toNat]
  simp

lemma toNat_succ {i : UInt16} (h : i.toNat + 1 < 2 ^ 16) : (i + 1).toNat = i.toNat + 1 := by
  rw [UInt16.toNat_add]
  exact mod_eq_of_lt h

lemma gap_of_ne {start stop : UInt16} (h : start ≠ stop) :
    gap start stop = gap (start + 1) stop + 1 := by
  have hne : start.toNat ≠ stop.toNat := fun heq => h (UInt16.toNat_inj.mp heq)
  have hstart := start.toNat_lt
  have hstop := stop.toNat_lt
  rw [gap_eq, gap_eq, UInt16.toNat_add]
  simp only [UInt16.reduceToNat]
  omega

lemma gap_succ {start stop : UInt16} (h : gap start stop + 1 < 2 ^ 16) :
    gap start (stop + 1) = gap start stop + 1 := by
  have hstart := start.toNat_lt
  have hstop := stop.toNat_lt
  rw [gap_eq] at h ⊢
  rw [gap_eq, UInt16.toNat_add]
  simp only [UInt16.reduceToNat]
  omega

variable [NeZero size]

def reportUsed (s : RxSystem size) (id : UInt16) (len : UInt32) : RxSystem size :=
  { s with
    adapter := { s.adapter with inner := { s.adapter.inner with rxQueue := { s.queue with
      usedRing := update s.queue.usedRing (Virtqueue.slot s.queue.usedIdx)
        ⟨id.toUInt32, len⟩
      usedIdx := s.queue.usedIdx + 1 } } }
    taken := s.taken.erase id }

/-- The device reports only what it has, and only numbers of descriptors in the table. -/
def step (s : RxSystem size) : RxEvent → Exec (RxSystem size × Option (UInt64 × ℕ))
  | .take =>
    if s.lastAvailIdx = s.queue.availIdx then .ok (s, none)
    else .ok ({ s with
      lastAvailIdx := s.lastAvailIdx + 1
      taken := s.taken ++ [s.queue.availRing (Virtqueue.slot s.lastAvailIdx)] }, none)
  | .report id len =>
    if id ∈ s.taken ∧ id.toNat < size then .ok (s.reportUsed id len, none) else .ok (s, none)
  | .receive => do
    let (adapter, packet) ← s.adapter.receiveOne
    .ok ({ s with adapter }, packet)

/-! ### Rings with counters that run freely -/

/-- The `n` entries of a ring from a counter on. -/
def ringFrom {α : Type} (ring : Fin size → α) (start : UInt16) (n : ℕ) : List α :=
  (List.range n).map fun j => ring (Virtqueue.slot (start + .ofNat j))

section

variable {α : Type} {ring : Fin size → α} {start stop : UInt16} {n : ℕ} {x : α}

@[simp] lemma length_ringFrom : (ringFrom ring start n).length = n := by simp [ringFrom]

lemma ringFrom_succ (ring : Fin size → α) (start : UInt16) (n : ℕ) :
    ringFrom ring start (n + 1) = ring (Virtqueue.slot start) :: ringFrom ring (start + 1) n := by
  rw [ringFrom, range_succ_eq_map, map_cons, map_map]
  congr 1
  · simp
  refine map_congr_left fun j _ => ?_
  have hsucc : start + ofNat (j + 1) = start + 1 + ofNat j := by
    rw [ofNat_add, add_comm (ofNat j), ← add_assoc]
    rfl
  simp only [Function.comp_apply, succ_eq_add_one, hsucc]

lemma slot_add {j : ℕ} (h : start.toNat + j < 2 ^ 16) :
    (Virtqueue.slot (start + .ofNat j) : Fin size).val = (start.toNat + j) % size := by
  have hadd : (start + UInt16.ofNat j).toNat = start.toNat + j := by
    rw [UInt16.toNat_add, UInt16.toNat_ofNat', add_mod_mod, mod_eq_of_lt h]
  simp [Virtqueue.slot, hadd]

lemma ringFrom_push (ring : Fin size → α) (x : α) (hn : n < size)
    (hwrap : start.toNat + n < 2 ^ 16) :
    ringFrom (update ring (Virtqueue.slot (start + .ofNat n)) x) start (n + 1) =
      ringFrom ring start n ++ [x] := by
  rw [ringFrom, range_succ, map_append, map_singleton, update_self]
  congr 1
  refine map_congr_left fun j hj => update_of_ne (fun heq => ?_) ..
  have hj : j < n := mem_range.mp hj
  have hval := congrArg Fin.val heq
  rw [slot_add (by omega), slot_add hwrap] at hval
  have hne := RingBuffer.index_inj (by omega) hn hval
  omega

end

/-! ### Who has which descriptor -/

def posted (s : RxSystem size) : List UInt16 :=
  ringFrom s.queue.availRing s.lastAvailIdx (gap s.lastAvailIdx s.queue.availIdx) ++ s.taken

def reported (s : RxSystem size) : List UInt16 :=
  (ringFrom s.queue.usedRing s.queue.lastUsedIdx
    (gap s.queue.lastUsedIdx s.queue.usedIdx)).map (·.id.toUInt16)

/-- **Recycled buffers.**  All writes were inside the table, and every descriptor is posted or held
by the driver, once. -/
def Recycled (s : RxSystem size) : Prop :=
  s.queue.strayWrites = [] ∧ (s.posted ++ s.reported).Perm (descriptors size)

/-- A packet that is received was reported for the descriptor that has the number of packets
received before. -/
def inOrder (s : RxSystem size) : RxEvent → Bool
  | .receive => s.reported.head?.all (· = s.queue.lastUsedIdx)
  | _ => true

structure Inv (s : RxSystem size) : Prop where
  recycled : s.Recycled
  /-- Each descriptor has been received once at most. -/
  received : s.queue.lastUsedIdx.toNat ≤ size
  avail : s.queue.availIdx.toNat = size + s.queue.lastUsedIdx.toNat
  fetched : s.lastAvailIdx.toNat + gap s.lastAvailIdx s.queue.availIdx = s.queue.availIdx.toNat
  mapped : ∀ i : Fin rxQueueSize, i.val < size → s.adapter.inner.rxBuffersVirt i ≠ 0

variable {s s' : RxSystem size} {packet : Option (UInt64 × ℕ)}

lemma Recycled.length (h : s.Recycled) :
    gap s.lastAvailIdx s.queue.availIdx + s.taken.length +
      gap s.queue.lastUsedIdx s.queue.usedIdx = size := by
  have hlength := h.2.length_eq
  simpa [posted, reported, length_descriptors, add_assoc] using hlength

lemma Inv.take (h : Inv s) (hstep : s.step .take = .ok (s', packet)) : Inv s' := by
  rw [step] at hstep
  split_ifs at hstep with heq
  · cases hstep
    exact h
  cases hstep
  have hgap := gap_of_ne heq
  have hfetched := h.fetched
  refine ⟨⟨h.recycled.1, ?_⟩, h.received, h.avail, ?_, h.mapped⟩
  · refine List.Perm.trans (List.Perm.append_right _ ?_) h.recycled.2
    rw [posted, posted, hgap, ringFrom_succ, ← append_assoc]
    exact perm_append_singleton ..
  show (s.lastAvailIdx + 1).toNat + gap (s.lastAvailIdx + 1) s.queue.availIdx =
    s.queue.availIdx.toNat
  have hlt := s.queue.availIdx.toNat_lt
  rw [toNat_succ (by omega)]
  omega

lemma Inv.report (h : Inv s) (hsize : size ≤ rxQueueSize) {id : UInt16} {len : UInt32}
    (hstep : s.step (.report id len) = .ok (s', packet)) : Inv s' := by
  rw [step] at hstep
  split_ifs at hstep with htaken
  · cases hstep
    have hlength := h.recycled.length
    have hpos := length_pos_of_mem htaken.1
    have hreceived := h.received
    refine ⟨⟨h.recycled.1, ?_⟩, h.received, h.avail, h.fetched, h.mapped⟩
    have hsize' : rxQueueSize = 256 := rfl
    have hgap : gap s.queue.lastUsedIdx (s.queue.usedIdx + 1) =
        gap s.queue.lastUsedIdx s.queue.usedIdx + 1 := gap_succ (by omega)
    have hpush := ringFrom_push s.queue.usedRing ⟨id.toUInt32, len⟩
      (by omega : gap s.queue.lastUsedIdx s.queue.usedIdx < size)
      (by omega : s.queue.lastUsedIdx.toNat + _ < 2 ^ 16)
    rw [add_gap, ← hgap] at hpush
    have hreported : (s.reportUsed id len).reported = s.reported ++ [id] := by
      simp only [reported, reportUsed, hpush, map_append, map_singleton]
      simp
    have hposted : s.posted.Perm (id :: (s.reportUsed id len).posted) := by
      refine List.Perm.trans (List.Perm.append_left _ (perm_cons_erase htaken.1)) ?_
      exact perm_middle
    rw [hreported, ← append_assoc]
    refine (perm_append_singleton ..).trans (List.Perm.trans ?_ h.recycled.2)
    exact (List.Perm.append_right s.reported hposted).symm
  · cases hstep
    exact h

/-- The state after a packet has been received: the descriptor of the driver's counter is posted,
whichever was reported. -/
def afterReceive (s : RxSystem size) (desc : Fin size → VirtqDesc) : RxSystem size :=
  { s with adapter := ⟨{ s.adapter.inner with rxQueue := { s.queue with
      desc
      strayWrites := if s.queue.lastUsedIdx.toNat < size then s.queue.strayWrites
        else s.queue.strayWrites ++ [s.queue.lastUsedIdx]
      lastUsedIdx := s.queue.lastUsedIdx + 1
      availRing := update s.queue.availRing (Virtqueue.slot s.queue.availIdx)
        s.queue.lastUsedIdx
      availIdx := s.queue.availIdx + 1 } }, s.queue.lastUsedIdx, false⟩ }

lemma reported_eq_nil : s.reported = [] ↔ s.queue.lastUsedIdx = s.queue.usedIdx := by
  constructor
  · intro hnil
    by_contra hne
    rw [reported, gap_of_ne hne, ringFrom_succ] at hnil
    simp at hnil
  · intro heq
    rw [reported, heq, gap_self]
    rfl

lemma Inv.receive_eq (h : Inv s) (hsize : size ≤ rxQueueSize) {id : UInt16} {rest : List UInt16}
    (hreported : s.reported = id :: rest) :
    ∃ desc packet, s.step .receive = .ok (s.afterReceive desc, some packet) := by
  have hne : s.queue.lastUsedIdx ≠ s.queue.usedIdx := by
    rw [Ne, ← reported_eq_nil, hreported]
    simp
  have hid : (s.queue.usedRing (Virtqueue.slot s.queue.lastUsedIdx)).id.toUInt16 = id := by
    rw [reported, gap_of_ne hne, ringFrom_succ, map_cons] at hreported
    exact (cons.inj hreported).1
  have hlt : id.toNat < size := by
    refine lt_of_mem_descriptors hsize (h.recycled.2.mem_iff.mp ?_)
    rw [hreported]
    simp
  have hvirt := h.mapped ⟨id.toNat, hlt.trans_le hsize⟩ hlt
  obtain ⟨desc, hwrite⟩ := Virtqueue.writeDesc_eq
    { s.queue with lastUsedIdx := s.queue.lastUsedIdx + 1 } s.queue.lastUsedIdx
    fun d => { d with len := maxPacketSize, flags := virtqDescFWrite }
  refine ⟨desc, (s.adapter.inner.rxBuffersVirt ⟨id.toNat, hlt.trans_le hsize⟩ + 10,
    (s.queue.usedRing (Virtqueue.slot s.queue.lastUsedIdx)).len.toNat - 10), ?_⟩
  simp only [step, VirtioNicAdapter.receiveOne, VirtioNicAdapter.pollRx, VirtioNet.pollRx,
    Virtqueue.pollUsed, if_neg hne, hid, dif_pos (hlt.trans_le hsize), if_neg hvirt, Exec.ok_bind,
    VirtioNicAdapter.recycleRx, VirtioNet.recycleRx, UInt16.add_sub_cancel, if_true, hwrite]
  rfl

section

variable {id : UInt16} {rest : List UInt16} (desc : Fin size → VirtqDesc)

lemma reported_afterReceive (hreported : s.reported = id :: rest) :
    (s.afterReceive desc).reported = rest := by
  have hne : s.queue.lastUsedIdx ≠ s.queue.usedIdx := by
    rw [Ne, ← reported_eq_nil, hreported]
    simp
  rw [reported, gap_of_ne hne, ringFrom_succ, map_cons] at hreported
  exact (cons.inj hreported).2

lemma Inv.posted_afterReceive (h : Inv s) (hsize : size ≤ rxQueueSize)
    (hreported : s.reported = id :: rest) :
    (s.afterReceive desc).posted.Perm (s.queue.lastUsedIdx :: s.posted) := by
  have hlength := h.recycled.length
  have hpos : 0 < gap s.queue.lastUsedIdx s.queue.usedIdx := by
    have hlen := congrArg length hreported
    simp only [reported, length_map, length_ringFrom, length_cons] at hlen
    omega
  have hreceived := h.received
  have havail := h.avail
  have hfetched := h.fetched
  have hsize' : rxQueueSize = 256 := rfl
  have hgap : gap s.lastAvailIdx (s.queue.availIdx + 1) =
      gap s.lastAvailIdx s.queue.availIdx + 1 := gap_succ (by omega)
  have hpush := ringFrom_push s.queue.availRing s.queue.lastUsedIdx
    (by omega : gap s.lastAvailIdx s.queue.availIdx < size)
    (by omega : s.lastAvailIdx.toNat + _ < 2 ^ 16)
  rw [add_gap, ← hgap] at hpush
  simp only [posted, afterReceive, hpush, append_assoc, singleton_append]
  exact perm_middle

lemma Inv.afterReceive (h : Inv s) (hsize : size ≤ rxQueueSize)
    (hreported : s.reported = s.queue.lastUsedIdx :: rest) : Inv (s.afterReceive desc) := by
  have hlt : s.queue.lastUsedIdx.toNat < size := by
    refine lt_of_mem_descriptors hsize (h.recycled.2.mem_iff.mp ?_)
    rw [hreported]
    simp
  have hsize' : rxQueueSize = 256 := rfl
  have havail := h.avail
  have hfetched := h.fetched
  have hlast : (s.queue.lastUsedIdx + 1).toNat = s.queue.lastUsedIdx.toNat + 1 :=
    toNat_succ (by omega)
  have hidx : (s.queue.availIdx + 1).toNat = s.queue.availIdx.toNat + 1 := toNat_succ (by omega)
  refine ⟨⟨?_, ?_⟩, ?_, ?_, ?_, h.mapped⟩
  · simp only [RxSystem.afterReceive, if_pos hlt]
    exact h.recycled.1
  · have hposted := h.posted_afterReceive desc hsize hreported
    rw [reported_afterReceive desc hreported]
    refine (hposted.append_right rest).trans (List.Perm.trans ?_ h.recycled.2)
    rw [hreported]
    exact perm_middle.symm
  · show (s.queue.lastUsedIdx + 1).toNat ≤ size
    omega
  · show (s.queue.availIdx + 1).toNat = size + (s.queue.lastUsedIdx + 1).toNat
    omega
  · show s.lastAvailIdx.toNat + gap s.lastAvailIdx (s.queue.availIdx + 1) =
      (s.queue.availIdx + 1).toNat
    rw [gap_succ (by omega)]
    omega

lemma Inv.not_recycled (h : Inv s) (hsize : size ≤ rxQueueSize)
    (hreported : s.reported = id :: rest) (hne : id ≠ s.queue.lastUsedIdx) :
    ¬ (s.afterReceive desc).Recycled := by
  rintro ⟨-, hperm⟩
  rw [reported_afterReceive desc hreported] at hperm
  have hposted := h.posted_afterReceive desc hsize hreported
  have hold : (id :: (s.posted ++ rest)).Perm (descriptors size) := by
    refine perm_middle.symm.trans ?_
    rw [← hreported]
    exact h.recycled.2
  have hnew : (s.queue.lastUsedIdx :: (s.posted ++ rest)).Perm (descriptors size) :=
    (hposted.symm.append_right rest).trans hperm
  have hcount := (hold.trans hnew.symm).count_eq id
  rw [count_cons_self, count_cons_of_ne (Ne.symm hne)] at hcount
  omega

end

lemma Inv.step_of_inOrder (h : Inv s) (hsize : size ≤ rxQueueSize) {e : RxEvent}
    (hguard : s.inOrder e = true) : (s.step e).Post fun r => Inv r.1 := by
  cases e with
  | take =>
    obtain ⟨⟨s', packet⟩, hstep⟩ : ∃ r, s.step .take = .ok r := by
      rw [step]
      split_ifs <;> exact ⟨_, rfl⟩
    exact ⟨_, hstep, h.take hstep⟩
  | report id len =>
    obtain ⟨⟨s', packet⟩, hstep⟩ : ∃ r, s.step (.report id len) = .ok r := by
      rw [step]
      split_ifs <;> exact ⟨_, rfl⟩
    exact ⟨_, hstep, h.report hsize hstep⟩
  | receive =>
    cases hreported : s.reported with
    | nil =>
      have heq := reported_eq_nil.mp hreported
      refine ⟨(s, none), ?_, h⟩
      simp [step, VirtioNicAdapter.receiveOne, VirtioNicAdapter.pollRx, VirtioNet.pollRx,
        Virtqueue.pollUsed, heq]
    | cons id rest =>
      obtain ⟨desc, packet, hstep⟩ := h.receive_eq hsize hreported
      rw [inOrder, hreported] at hguard
      obtain rfl : id = s.queue.lastUsedIdx := by simpa using hguard
      exact ⟨_, hstep, h.afterReceive desc hsize hreported⟩

lemma Inv.step_of_not_inOrder (h : Inv s) (hsize : size ≤ rxQueueSize) {e : RxEvent}
    (hguard : s.inOrder e = false) : ¬ (s.step e).Post fun r => r.1.Recycled := by
  cases e with
  | take | report id len => simp [inOrder] at hguard
  | receive =>
    cases hreported : s.reported with
    | nil => simp [inOrder, hreported] at hguard
    | cons id rest =>
      obtain ⟨desc, packet, hstep⟩ := h.receive_eq hsize hreported
      rw [inOrder, hreported] at hguard
      have hne : id ≠ s.queue.lastUsedIdx := by simpa using hguard
      rw [hstep, Exec.post_ok]
      exact h.not_recycled desc hsize hreported hne

/-! ### The start -/

/-- The first `n` buffers have been added. -/
structure Filling (n : ℕ) (q : Virtqueue size) : Prop where
  free : n < size → q.freeHead = .ofNat n
  numFree : q.numFree.toNat + n = size
  next : ∀ i : Fin size, n ≤ i.val → i.val + 1 < size → (q.desc i).next = .ofNat (i.val + 1)
  avail : q.availIdx = .ofNat n
  ring : ringFrom q.availRing 0 n = (List.range n).map .ofNat
  used : q.usedIdx = 0 ∧ q.lastUsedIdx = 0
  stray : q.strayWrites = []

lemma filling_new (hsize : size ≤ rxQueueSize) : Filling 0 (Virtqueue.new size) where
  free _ := rfl
  numFree := by
    have hsize' : rxQueueSize = 256 := rfl
    show (ofNat size).toNat + 0 = size
    rw [toNat_ofNat_of_lt' (show size < 2 ^ 16 by omega), add_zero]
  next i _ hi := if_pos hi
  avail := rfl
  ring := rfl
  used := ⟨rfl, rfl⟩
  stray := rfl

lemma Filling.addBuffer {n : ℕ} {q : Virtqueue size} (h : Filling n q)
    (hsize : size ≤ rxQueueSize) (hn : n < size) (buffer : RxBuffer) :
    ∃ q', VirtioNet.addBuffer q buffer = .ok (some q') ∧ Filling (n + 1) q' := by
  have hsize' : rxQueueSize = 256 := rfl
  have hnumFree := h.numFree
  have hidx : (ofNat n).toNat = n :=
    toNat_ofNat_of_lt' (show n < 2 ^ 16 by omega)
  have hhead : q.freeHead.toNat = n := by rw [h.free hn, hidx]
  have hlt : q.freeHead.toNat < size := hhead.trans_lt hn
  have hne : q.numFree ≠ 0 := by
    intro hzero
    rw [hzero] at hnumFree
    have hzero' : (0 : UInt16).toNat = 0 := rfl
    omega
  refine ⟨{ q with
      desc := update q.desc ⟨_, hlt⟩ ⟨buffer.phys, maxPacketSize, virtqDescFWrite, 0⟩
      freeHead := (q.desc ⟨_, hlt⟩).next
      numFree := q.numFree - 1
      availRing := update q.availRing (Virtqueue.slot q.availIdx) q.freeHead
      availIdx := q.availIdx + 1 }, ?_, ?_, ?_, fun i hi hi' => ?_, ?_, ?_, h.used, h.stray⟩
  · simp only [VirtioNet.addBuffer, Virtqueue.allocDesc, if_neg hne, dif_pos hlt, Exec.ok_bind,
      Virtqueue.writeDesc, Virtqueue.submit]
  · intro hn'
    show (q.desc ⟨q.freeHead.toNat, hlt⟩).next = _
    rw [h.next _ (by simp [hhead]) (by simpa [hhead] using hn')]
    simp [hhead]
  · show (q.numFree - 1).toNat + (n + 1) = size
    have hlt' := q.numFree.toNat_lt
    have hone : (1 : UInt16).toNat = 1 := rfl
    rw [UInt16.toNat_sub, hone]
    omega
  · show (update q.desc _ _ i).next = _
    have hne' : i ≠ ⟨q.freeHead.toNat, hlt⟩ := by
      rintro rfl
      have hi : n + 1 ≤ q.freeHead.toNat := hi
      omega
    rw [update_of_ne hne']
    exact h.next i (by omega) hi'
  · show q.availIdx + 1 = _
    rw [h.avail, ofNat_add]
    rfl
  · show ringFrom (update q.availRing (Virtqueue.slot q.availIdx) q.freeHead) 0 (n + 1) = _
    have hwrap : (0 : UInt16).toNat + n < 2 ^ 16 := by
      rw [UInt16.toNat_zero]
      omega
    have hpush := ringFrom_push q.availRing q.freeHead hn hwrap
    rw [h.avail, ← zero_add (ofNat n), hpush, h.ring, h.free hn, range_succ,
      map_append, map_singleton]

lemma exists_filling (hsize : size ≤ rxQueueSize) (buffers : ℕ → RxBuffer) {n : ℕ} (hn : n ≤ size) :
    ∃ q : Virtqueue size, VirtioNet.addBuffers buffers n = .ok (some q) ∧ Filling n q := by
  induction n with
  | zero => exact ⟨_, rfl, filling_new hsize⟩
  | succ n ih =>
    obtain ⟨q, hq, hfilling⟩ := ih (by omega)
    obtain ⟨q', hq', hfilling'⟩ := hfilling.addBuffer hsize (by omega) (buffers n)
    refine ⟨q', ?_, hfilling'⟩
    rw [VirtioNet.addBuffers, hq]
    exact hq'

lemma init_returns (hsize : size ≤ rxQueueSize) (buffers : ℕ → RxBuffer) :
    ∃ nic, VirtioNet.init size buffers = .ok (some nic) := by
  obtain ⟨q, hq, -⟩ := exists_filling hsize buffers le_rfl
  refine ⟨⟨q, fun i => if i.val < size then (buffers i).virt else 0⟩, ?_⟩
  rw [VirtioNet.init, hq]
  rfl

lemma inv_start (hsize : size ≤ rxQueueSize) {buffers : ℕ → RxBuffer} {nic : VirtioNet size}
    (hnic : VirtioNet.init size buffers = .ok (some nic)) : Inv (start nic) := by
  obtain ⟨q, hq, hfilling⟩ := exists_filling hsize buffers le_rfl
  rw [VirtioNet.init, hq] at hnic
  cases Exec.ok.inj hnic
  have hsize' : rxQueueSize = 256 := rfl
  obtain ⟨hused, hlast⟩ := hfilling.used
  have havail : q.availIdx.toNat = size := by
    rw [hfilling.avail]
    exact toNat_ofNat_of_lt' (show size < 2 ^ 16 by omega)
  have hgap : gap 0 q.availIdx = size := by simp [gap, havail]
  refine ⟨⟨hfilling.stray, ?_⟩, ?_, ?_, ?_, fun i hi => ?_⟩
  · have hposted : ringFrom q.availRing 0 (gap 0 q.availIdx) = descriptors size := by
      rw [hgap, hfilling.ring]
      rfl
    have hreported : (start ⟨q, fun i => if i.val < size then (buffers i).virt else 0⟩ :
        RxSystem size).reported = [] := by
      rw [reported_eq_nil]
      exact hlast.trans hused.symm
    rw [hreported, append_nil]
    show (ringFrom q.availRing 0 (gap 0 q.availIdx) ++ []).Perm (descriptors size)
    rw [append_nil, hposted]
  · show q.lastUsedIdx.toNat ≤ size
    rw [hlast]
    exact zero_le size
  · show q.availIdx.toNat = size + q.lastUsedIdx.toNat
    rw [hlast, havail]
    rfl
  · show (0 : UInt16).toNat + gap 0 q.availIdx = q.availIdx.toNat
    rw [hgap, havail]
    exact zero_add size
  · show (if i.val < size then (buffers i).virt else 0) ≠ 0
    rw [if_pos hi]
    exact (buffers i).mapped

/-- **Receive buffers are recycled** in every state of a run, just when each packet that is received
was reported for the descriptor whose number is the number of packets received before. -/
theorem recycled_iff (hsize : size ≤ rxQueueSize) {buffers : ℕ → RxBuffer} {nic : VirtioNet size}
    (hnic : VirtioNet.init size buffers = .ok (some nic)) (events : List RxEvent) :
    (∀ pre, pre <+: events → (Machine.run step (start nic) pre).Post fun r => r.1.Recycled) ↔
      guarded inOrder step (start nic) events = true :=
  forall_prefix_iff_guarded (fun h => h.recycled)
    (fun h hguard => h.step_of_inOrder hsize hguard)
    (fun h hguard => h.step_of_not_inOrder hsize hguard) events (inv_start hsize hnic)

lemma page_mapped : (0xFFFF800000001000 : UInt64) ≠ 0 := by decide

def page : RxBuffer := ⟨0x1000, 0xFFFF800000001000, page_mapped⟩

def card : VirtioNet 2 :=
  match VirtioNet.init 2 fun _ => page with
  | .ok (some nic) => nic
  | _ => ⟨.new 2, fun _ => 0⟩

lemma init_card : VirtioNet.init 2 (fun _ => page) = .ok (some card) := by
  obtain ⟨nic, hnic⟩ := init_returns (by decide : 2 ≤ rxQueueSize) fun _ => page
  rw [hnic, card, hnic]

def twoPackets : List RxEvent :=
  [.take, .take, .report 0 64, .receive, .report 1 64, .receive]

theorem twoPackets_recycled :
    VirtioNet.init 2 (fun _ => page) = .ok (some card) ∧
      ∀ pre, pre <+: twoPackets →
        (Machine.run step (start card) pre).Post fun r => r.1.Recycled :=
  ⟨init_card, (recycled_iff (by decide) init_card twoPackets).mpr (by decide +kernel)⟩

/-- A packet for descriptor 1 comes first: afterwards descriptor 0 is posted twice.  And a third
packet, in order: it makes the driver write behind the table. -/
theorem wrong_descriptor_recycled :
    (final step (start card) [.take, .take, .report 1 64, .receive]).posted = [0, 0] ∧
      ¬ (final step (start card) [.take, .take, .report 1 64, .receive]).Recycled ∧
      (final step (start card)
        (twoPackets ++ [.take, .report 0 64, .receive])).queue.strayWrites = [2] ∧
      ¬ (final step (start card)
        (twoPackets ++ [.take, .report 0 64, .receive])).Recycled := by
  refine ⟨by decide +kernel, fun h => ?_, by decide +kernel, fun h => ?_⟩
  · exact absurd h.2 (by decide +kernel)
  · exact absurd h.1 (by decide +kernel)

end RxSystem

end Fabric
