/-
Bounded queues in circular buffers.

`RingBuffer` is the bare buffer: cells, the next cell to read, the next cell to write and
the occupancy, with the three moves on it.  `Holds cap r l` says that `r`, read
from its head and around the end, contains the list `l`.  `RingQueue` is a buffer
that holds some list, so that its operations can be stated by what they do to
`toList`.
-/
import Mathlib.Data.List.Basic
import Mathlib.Data.Nat.ModEq

/-- The cells of a circular buffer with its two cursors. -/
structure RingBuffer (α : Type) where
  entries : ℕ → Option α
  head : ℕ
  tail : ℕ
  count : ℕ

open Function Nat List

namespace RingBuffer

variable {α : Type} {cap : ℕ} {r : RingBuffer α} {x : α} {l : List α}

def empty : RingBuffer α := ⟨fun _ => none, 0, 0, 0⟩

def write (cap : ℕ) (r : RingBuffer α) (x : α) : RingBuffer α where
  entries := Function.update r.entries r.tail (some x)
  head := r.head
  tail := (r.tail + 1) % cap
  count := r.count + 1

/-- Advance the head past the oldest element, leaving its cell as it is. -/
def discard (cap : ℕ) (r : RingBuffer α) : RingBuffer α :=
  { r with head := (r.head + 1) % cap, count := r.count - 1 }

def take (cap : ℕ) (r : RingBuffer α) : RingBuffer α × Option α :=
  (discard cap { r with entries := Function.update r.entries r.head none }, r.entries r.head)

/-- The occupied cells from the head on contain the list. -/
structure Holds (cap : ℕ) (r : RingBuffer α) (l : List α) : Prop where
  count : r.count = l.length
  length_le : l.length ≤ cap
  head_lt : r.head < cap
  tail : r.tail = (r.head + l.length) % cap
  cells : ∀ i x, l[i]? = some x → r.entries ((r.head + i) % cap) = some x

lemma index_inj {h i j : ℕ} (hi : i < cap) (hj : j < cap)
    (heq : (h + i) % cap = (h + j) % cap) : i = j := by
  have hmod : i ≡ j [MOD cap] := Nat.ModEq.add_left_cancel' h heq
  rwa [Nat.ModEq, mod_eq_of_lt hi, mod_eq_of_lt hj] at hmod

lemma lt_length_of_getElem? {i : ℕ} (h : l[i]? = some x) : i < l.length := by
  by_contra hge
  rw [getElem?_eq_none (by omega)] at h
  cases h

lemma holds_empty (hcap : 0 < cap) : Holds cap (empty : RingBuffer α) [] where
  count := rfl
  length_le := zero_le _
  head_lt := hcap
  tail := by simp [empty]
  cells := by simp

lemma Holds.write (h : Holds cap r l) (hlt : l.length < cap) (x : α) :
    Holds cap (r.write cap x) (l ++ [x]) where
  count := by simp [RingBuffer.write, h.count]
  length_le := by
    simp only [length_append, length_singleton]
    omega
  head_lt := h.head_lt
  tail := by
    simp only [RingBuffer.write, h.tail, length_append, length_singleton]
    rw [mod_add_mod, add_assoc]
  cells := by
    intro i y hy
    simp only [RingBuffer.write, h.tail]
    by_cases hi : i = l.length
    · subst hi
      rw [getElem?_concat_length, Option.some.injEq] at hy
      rw [update_self, hy]
    have hil : i < l.length := by
      have hlen := lt_length_of_getElem? hy
      simp only [length_append, length_singleton] at hlen
      omega
    rw [getElem?_append_left hil] at hy
    -- the queue is not full, so the tail cell is none of the occupied ones
    rw [update_of_ne]
    · exact h.cells i y hy
    · intro heq
      exact hi (index_inj (by omega) hlt heq)

lemma Holds.discard (h : Holds cap r (x :: l)) : Holds cap (r.discard cap) l where
  count := by simp [RingBuffer.discard, h.count]
  length_le := by
    have hle := h.length_le
    simp only [length_cons] at hle
    omega
  head_lt := mod_lt _ (lt_of_le_of_lt (zero_le _) h.head_lt)
  tail := by
    simp only [RingBuffer.discard, h.tail, length_cons, mod_add_mod]
    congr 1
    omega
  cells := by
    intro i y hy
    have hcell := h.cells (i + 1) y (by simpa using hy)
    simp only [RingBuffer.discard, mod_add_mod]
    rwa [add_assoc, add_comm 1 i]

lemma Holds.take (h : Holds cap r (x :: l)) :
    Holds cap (r.take cap).1 l ∧ (r.take cap).2 = some x := by
  have hhead : r.entries r.head = some x := by
    have hcell := h.cells 0 x (by simp)
    rwa [add_zero, mod_eq_of_lt h.head_lt] at hcell
  refine ⟨?_, hhead⟩
  have hrest := h.discard
  refine ⟨hrest.count, hrest.length_le, hrest.head_lt, hrest.tail, fun i y hy => ?_⟩
  have hlen : i + 1 < cap := by
    have hi := lt_length_of_getElem? hy
    have hle := h.length_le
    simp only [length_cons] at hle
    omega
  have hcell := hrest.cells i y hy
  simp only [RingBuffer.discard, mod_add_mod, add_assoc, add_comm 1 i] at hcell
  simp only [RingBuffer.take, RingBuffer.discard, mod_add_mod, add_assoc, add_comm 1 i]
  rw [update_of_ne]
  · exact hcell
  intro heq
  have hzero : (r.head + (i + 1)) % cap = (r.head + 0) % cap := by
    rw [heq, add_zero, mod_eq_of_lt h.head_lt]
  exact absurd (index_inj hlen (by omega) hzero) (by omega)

def toList (cap : ℕ) (r : RingBuffer α) : List α :=
  (List.range r.count).filterMap fun i => r.entries ((r.head + i) % cap)

lemma Holds.map_cells (h : Holds cap r l) :
    (List.range l.length).map (fun i => r.entries ((r.head + i) % cap)) = l.map some := by
  apply ext_getElem?
  intro i
  by_cases hi : i < l.length
  · simp only [getElem?_map, getElem?_range hi, Option.map_some,
      getElem?_eq_getElem hi, Option.some.injEq]
    exact h.cells i _ (getElem?_eq_getElem hi)
  · simp [hi]

lemma Holds.toList_eq (h : Holds cap r l) : r.toList cap = l := by
  calc r.toList cap
      = ((range l.length).map fun i => r.entries ((r.head + i) % cap)).filterMap id := by
        rw [toList, h.count, filterMap_map]; rfl
    _ = (l.map some).filterMap id := by rw [h.map_cells]
    _ = l := by rw [filterMap_map]; exact filterMap_some

lemma Holds.set (h : Holds cap r l) {j : ℕ} (hj : j < l.length) (x : α) :
    Holds cap { r with entries := update r.entries ((r.head + j) % cap) (some x) }
      (l.set j x) where
  count := by simpa using h.count
  length_le := by simpa using h.length_le
  head_lt := h.head_lt
  tail := by simpa using h.tail
  cells := by
    intro i y hy
    have hi : i < l.length := by simpa using lt_length_of_getElem? hy
    have hle := h.length_le
    show update r.entries ((r.head + j) % cap) (some x) ((r.head + i) % cap) = some y
    by_cases hij : i = j
    · subst hij
      rw [getElem?_set_self hi, Option.some.injEq] at hy
      rw [update_self, hy]
    rw [getElem?_set_ne (Ne.symm hij)] at hy
    rw [update_of_ne]
    · exact h.cells i y hy
    · intro heq
      exact hij (index_inj (by omega) (by omega) heq)

lemma exists_index {head slot : ℕ} (hhead : head < cap) (hslot : slot < cap) :
    ∃ j < cap, (head + j) % cap = slot := by
  refine ⟨(slot + (cap - head)) % cap, mod_lt _ (by omega), ?_⟩
  rw [add_mod_mod, show head + (slot + (cap - head)) = slot + cap by omega,
    add_mod_right, mod_eq_of_lt hslot]

end RingBuffer

/-- A circular buffer of capacity `cap` that holds a list. -/
structure RingQueue (α : Type) (cap : ℕ) where
  ring : RingBuffer α
  holds : ∃ l, ring.Holds cap l

namespace RingQueue

variable {α : Type} {cap : ℕ}

def new (hcap : 0 < cap) : RingQueue α cap := ⟨.empty, [], RingBuffer.holds_empty hcap⟩

def len (q : RingQueue α cap) : ℕ := q.ring.count

def toList (q : RingQueue α cap) : List α := q.ring.toList cap

lemma holds_toList (q : RingQueue α cap) : q.ring.Holds cap q.toList := by
  obtain ⟨l, hl⟩ := q.holds
  rwa [toList, hl.toList_eq]

lemma length_toList (q : RingQueue α cap) : q.toList.length = q.len := q.holds_toList.count.symm

lemma len_le (q : RingQueue α cap) : q.len ≤ cap := q.length_toList ▸ q.holds_toList.length_le

lemma write_holds {r : RingBuffer α} (h : ∃ l, r.Holds cap l) (hlt : r.count < cap) (x : α) :
    ∃ l, (r.write cap x).Holds cap l := by
  obtain ⟨l, hl⟩ := h
  exact ⟨_, hl.write (hl.count ▸ hlt) x⟩

def push (q : RingQueue α cap) (x : α) : RingQueue α cap × Bool :=
  if h : q.ring.count < cap then (⟨q.ring.write cap x, write_holds q.holds h x⟩, true)
  else (q, false)

lemma exists_cons (q : RingQueue α cap) (h : q.ring.count ≠ 0) :
    ∃ x l, q.ring.Holds cap (x :: l) := by
  obtain ⟨l, hl⟩ := q.holds
  cases l with
  | nil => exact absurd hl.count h
  | cons x l => exact ⟨x, l, hl⟩

def pop (q : RingQueue α cap) : RingQueue α cap × Option α :=
  if h : q.ring.count = 0 then (q, none)
  else (⟨(q.ring.take cap).1, by
    obtain ⟨x, l, hl⟩ := q.exists_cons h
    exact ⟨l, hl.take.1⟩⟩, (q.ring.take cap).2)

/-- Append; when the buffer is full the oldest element makes room. -/
def pushOver (q : RingQueue α cap) (hcap : 0 < cap) (x : α) : RingQueue α cap :=
  if h : q.ring.count < cap then ⟨q.ring.write cap x, write_holds q.holds h x⟩
  else ⟨(q.ring.discard cap).write cap x, by
    obtain ⟨y, l, hl⟩ := q.exists_cons (by omega)
    have hlen := hl.length_le
    exact ⟨_, hl.discard.write (by simp only [List.length_cons] at hlen; omega) x⟩⟩

@[simp] lemma toList_new (hcap : 0 < cap) : (new hcap : RingQueue α cap).toList = [] := rfl

lemma push_of_lt (q : RingQueue α cap) (x : α) (h : q.len < cap) :
    (q.push x).2 = true ∧ (q.push x).1.toList = q.toList ++ [x] := by
  have hlt : q.ring.count < cap := h
  simp only [push, hlt, dif_pos]
  exact ⟨trivial, (q.holds_toList.write (q.length_toList ▸ h) x).toList_eq⟩

lemma pop_of_cons (q : RingQueue α cap) {x : α} {l : List α} (h : q.toList = x :: l) :
    q.pop.2 = some x ∧ q.pop.1.toList = l := by
  have hholds := h ▸ q.holds_toList
  have hne : q.ring.count ≠ 0 := by simp [hholds.count]
  simp only [pop, hne, dif_neg, not_false_eq_true]
  exact ⟨hholds.take.2, hholds.take.1.toList_eq⟩

lemma pop_of_nil (q : RingQueue α cap) (h : q.toList = []) : q.pop = (q, none) := by
  have hzero : q.ring.count = 0 := by simpa [h] using q.holds_toList.count
  exact dif_pos hzero

lemma pop_toList (q : RingQueue α cap) : q.pop.2.toList ++ q.pop.1.toList = q.toList := by
  cases h : q.toList with
  | nil => simp [q.pop_of_nil h, h]
  | cons x l => simp [q.pop_of_cons h]

lemma len_pop (q : RingQueue α cap) (h : 0 < q.len) : q.pop.1.len + 1 = q.len := by
  rw [← q.length_toList] at h ⊢
  cases hq : q.toList with
  | nil => simp [hq] at h
  | cons x l => rw [← length_toList, (q.pop_of_cons hq).2, length_cons]

end RingQueue
