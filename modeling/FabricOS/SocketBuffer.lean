/-
The ring buffer of a socket (`network/buffer.rs`).

A buffer is an array of bytes with the positions of the next byte to read and the next one
to write and the number of bytes between them.  The structure carries what the operations
keep: the positions are in range and that number of bytes apart.
-/
import FabricOS.RingBuffer

open Function List Nat

namespace Fabric

/-- `RING_BUF_SIZE`. -/
def ringBufSize : ℕ := 4096

structure SocketBuffer where
  data : ℕ → UInt8
  readPos : ℕ
  writePos : ℕ
  len : ℕ
  readPos_lt : readPos < ringBufSize
  len_le : len ≤ ringBufSize
  writePos_eq : writePos = (readPos + len) % ringBufSize

namespace SocketBuffer

def new : SocketBuffer where
  data := fun _ => 0
  readPos := 0
  writePos := 0
  len := 0
  readPos_lt := by decide
  len_le := by decide
  writePos_eq := by decide

def isEmpty (b : SocketBuffer) : Bool := b.len == 0

def available (b : SocketBuffer) : ℕ := ringBufSize - b.len

/-- The loop of `write`: store the bytes from a position on. -/
def store (data : ℕ → UInt8) (pos : ℕ) : List UInt8 → (ℕ → UInt8) × ℕ
  | [] => (data, pos)
  | x :: xs => store (update data pos x) ((pos + 1) % ringBufSize) xs

/-- The loop of `read`: fetch `n` bytes from a position on. -/
def fetch (data : ℕ → UInt8) (pos : ℕ) : ℕ → List UInt8
  | 0 => []
  | n + 1 => data pos :: fetch data ((pos + 1) % ringBufSize) n

variable {pos n : ℕ}

lemma store_snd (data : ℕ → UInt8) (hpos : pos < ringBufSize) (xs : List UInt8) :
    (store data pos xs).2 = (pos + xs.length) % ringBufSize := by
  induction xs generalizing data pos with
  | nil => simp [store, mod_eq_of_lt hpos]
  | cons x xs ih =>
    rw [store, ih _ (mod_lt _ (by decide)), mod_add_mod, length_cons]
    congr 1
    omega

/-- Write as many bytes as fit; the result is their number. -/
def write (b : SocketBuffer) (xs : List UInt8) : SocketBuffer × ℕ :=
  let toWrite := min xs.length b.available
  let stored := store b.data b.writePos (xs.take toWrite)
  ({ b with
      data := stored.1
      writePos := stored.2
      len := b.len + toWrite
      len_le := by
        have hle := b.len_le
        simp only [toWrite, available]
        omega
      writePos_eq := by
        have hpos : b.writePos < ringBufSize := b.writePos_eq ▸ Nat.mod_lt _ (by decide)
        have hlen : (xs.take toWrite).length = toWrite := by
          simp only [List.length_take, toWrite]
          omega
        rw [store_snd _ hpos, hlen, b.writePos_eq, Nat.mod_add_mod, Nat.add_assoc] },
    toWrite)

/-- Drop `n` bytes from the front. -/
def discard (b : SocketBuffer) (n : ℕ) : SocketBuffer :=
  let toDiscard := min n b.len
  { b with
    readPos := (b.readPos + toDiscard) % ringBufSize
    len := b.len - toDiscard
    readPos_lt := Nat.mod_lt _ (by decide)
    len_le := (Nat.sub_le _ _).trans b.len_le
    writePos_eq := by
      rw [b.writePos_eq, Nat.mod_add_mod]
      congr 1
      omega }

/-- Take up to `n` bytes from the front. -/
def read (b : SocketBuffer) (n : ℕ) : SocketBuffer × List UInt8 :=
  let toRead := min n b.len
  (b.discard toRead, fetch b.data b.readPos toRead)

/-! ### Contents -/

def contents (b : SocketBuffer) : List UInt8 := fetch b.data b.readPos b.len

lemma length_fetch (data : ℕ → UInt8) (pos n : ℕ) : (fetch data pos n).length = n := by
  induction n generalizing pos with
  | zero => rfl
  | succ n ih => simp [fetch, ih]

@[simp] lemma length_contents (b : SocketBuffer) : b.contents.length = b.len :=
  length_fetch _ _ _

lemma fetch_add (data : ℕ → UInt8) (hpos : pos < ringBufSize) (n m : ℕ) :
    fetch data pos (n + m) = fetch data pos n ++ fetch data ((pos + n) % ringBufSize) m := by
  induction n generalizing pos with
  | zero => simp [fetch, mod_eq_of_lt hpos]
  | succ n ih =>
    rw [succ_add, fetch, ih (mod_lt _ (by decide)), fetch, cons_append,
      mod_add_mod, show pos + 1 + n = pos + (n + 1) by omega]

lemma fetch_update (data : ℕ → UInt8) {p : ℕ} (x : UInt8) (h : ∀ i < n, (pos + i) % ringBufSize ≠ p)
    (hpos : pos < ringBufSize) : fetch (update data p x) pos n = fetch data pos n := by
  induction n generalizing pos with
  | zero => rfl
  | succ n ih =>
    have hhead : pos ≠ p := by simpa [mod_eq_of_lt hpos] using h 0 (succ_pos n)
    rw [fetch, fetch, update_of_ne hhead, ih _ (mod_lt _ (by decide))]
    intro i hi
    rw [mod_add_mod]
    have hnext := h (i + 1) (by omega)
    rwa [← add_assoc, add_right_comm] at hnext

lemma fetch_store (data : ℕ → UInt8) (hpos : pos < ringBufSize) (xs : List UInt8)
    (hfits : n + xs.length ≤ ringBufSize) :
    fetch (store data ((pos + n) % ringBufSize) xs).1 pos (n + xs.length) =
      fetch data pos n ++ xs := by
  induction xs generalizing data n with
  | nil => simp [store]
  | cons x xs ih =>
    simp only [length_cons] at hfits ⊢
    have hnext : ((pos + n) % ringBufSize + 1) % ringBufSize = (pos + (n + 1)) % ringBufSize := by
      rw [mod_add_mod, add_assoc]
    rw [store, hnext, show n + (xs.length + 1) = n + 1 + xs.length by omega, ih _ (by omega),
      fetch_add _ hpos n 1]
    have hcell : ∀ i < n, (pos + i) % ringBufSize ≠ (pos + n) % ringBufSize := by
      intro i hi heq
      exact absurd (RingBuffer.index_inj (by omega) (by omega) heq) (by omega)
    rw [fetch_update data x hcell hpos]
    simp [fetch, update_self]

lemma contents_write (b : SocketBuffer) (xs : List UInt8) :
    (b.write xs).1.contents = b.contents ++ xs.take b.available := by
  have hle := b.len_le
  have hfits : b.len + (xs.take (min xs.length b.available)).length ≤ ringBufSize := by
    simp only [length_take, available]
    omega
  have htake : xs.take (min xs.length b.available) = xs.take b.available := by
    rcases le_total xs.length b.available with h | h
    · rw [min_eq_left h, take_length, take_of_length_le h]
    · rw [min_eq_right h]
  have hlen : min xs.length b.available = (xs.take (min xs.length b.available)).length := by
    simp only [length_take]
    omega
  simp only [contents, write]
  rw [b.writePos_eq]
  nth_rewrite 2 [hlen]
  rw [fetch_store b.data b.readPos_lt _ hfits, htake]

lemma contents_write_of_le (b : SocketBuffer) {xs : List UInt8} (h : xs.length ≤ b.available) :
    (b.write xs).1.contents = b.contents ++ xs := by
  rw [contents_write, take_of_length_le h]

lemma contents_split (b : SocketBuffer) (hn : n ≤ b.len) :
    b.contents = fetch b.data b.readPos n ++
      fetch b.data ((b.readPos + n) % ringBufSize) (b.len - n) := by
  have hsplit := fetch_add b.data b.readPos_lt n (b.len - n)
  rwa [Nat.add_sub_cancel' hn] at hsplit

lemma contents_discard (b : SocketBuffer) (n : ℕ) : (b.discard n).contents = b.contents.drop n := by
  have hdrop : b.contents.drop n = b.contents.drop (min n b.len) := by
    rcases le_total n b.len with h | h
    · rw [min_eq_left h]
    · rw [min_eq_right h, drop_of_length_le (by simp [h]),
        drop_of_length_le (by simp)]
  rw [hdrop, b.contents_split (min_le_right n b.len), drop_left' (length_fetch _ _ _)]
  rfl

@[simp] lemma read_snd (b : SocketBuffer) (n : ℕ) : (b.read n).2 = b.contents.take n := by
  have htake : b.contents.take n = b.contents.take (min n b.len) := by
    rcases le_total n b.len with h | h
    · rw [min_eq_left h]
    · rw [min_eq_right h, take_of_length_le (by simp [h]),
        take_of_length_le (by simp)]
  rw [htake, b.contents_split (min_le_right n b.len), take_left' (length_fetch _ _ _)]
  rfl

@[simp] lemma contents_read (b : SocketBuffer) (n : ℕ) :
    (b.read n).1.contents = b.contents.drop n := by
  have hread : (b.read n).1 = b.discard n := by simp [read, discard]
  rw [hread, contents_discard]

end SocketBuffer

end Fabric
