/-
The ring buffer of a socket (`network/buffer.rs`) is a queue of at most 4096 bytes.

`queueStep` says what the calls do to the queue; a buffer does the same to its contents
(`queueStep_contents`), whatever its two positions are.
-/
import FabricOS.Machine
import FabricOS.SocketBuffer

open List

namespace Fabric

/-- The calls; the destination of `read` and `peek` is given by what it holds. -/
inductive BufferCall where
  | write (data : List UInt8)
  | read (buf : List UInt8)
  | peek (buf : List UInt8)
  | discard (n : ℕ)
  | clear

/-- The number of bytes moved, and the destination afterwards. -/
abbrev BufferReply := ℕ × List UInt8

/-- `buf[..bytes.len()]` is overwritten. -/
def fill (buf bytes : List UInt8) : BufferReply := (bytes.length, bytes ++ buf.drop bytes.length)

def queueStep (q : List UInt8) : BufferCall → List UInt8 × BufferReply
  | .write data =>
    let n := min data.length (4096 - q.length)
    (q ++ data.take n, n, [])
  | .read buf => (q.drop (min buf.length q.length), fill buf (q.take (min buf.length q.length)))
  | .peek buf => (q, fill buf (q.take (min buf.length q.length)))
  | .discard n => (q.drop (min n q.length), 0, [])
  | .clear => ([], 0, [])

namespace SocketBuffer

/-- The bytes that `peek` copies, up to `n` from the front. -/
def peek (b : SocketBuffer) (n : ℕ) : List UInt8 := fetch b.data b.readPos (min n b.len)

/-- Reset the positions; the bytes stay where they are. -/
def clear (b : SocketBuffer) : SocketBuffer := { new with data := b.data }

def step (b : SocketBuffer) : BufferCall → SocketBuffer × BufferReply
  | .write data => ((b.write data).1, (b.write data).2, [])
  | .read buf => ((b.read buf.length).1, fill buf (b.read buf.length).2)
  | .peek buf => (b, fill buf (b.peek buf.length))
  | .discard n => (b.discard n, 0, [])
  | .clear => (b.clear, 0, [])

lemma writePos_lt (b : SocketBuffer) : b.writePos < ringBufSize :=
  b.writePos_eq ▸ Nat.mod_lt _ (by decide)

lemma take_min (q : List UInt8) (n : ℕ) : q.take (min n q.length) = q.take n := by
  rw [← take_take, take_length]

lemma drop_min (q : List UInt8) (n : ℕ) : q.drop (min n q.length) = q.drop n := by
  rcases Nat.le_total n q.length with h | h
  · rw [Nat.min_eq_left h]
  · rw [Nat.min_eq_right h, drop_length, drop_of_length_le h]

lemma queueStep_contents (b : SocketBuffer) (call : BufferCall) :
    queueStep b.contents call = ((b.step call).1.contents, (b.step call).2) := by
  cases call with
  | write data =>
    have havailable : 4096 - b.contents.length = b.available := by
      rw [length_contents]
      rfl
    simp only [queueStep, step, contents_write, havailable, Prod.mk.injEq, append_cancel_left_eq]
    refine ⟨?_, rfl, trivial⟩
    rw [Nat.min_comm, ← take_take, take_length]
  | read buf => simp only [queueStep, step, take_min, drop_min, contents_read, read_snd]
  | peek buf =>
    have hpeek : b.peek buf.length = (b.read buf.length).2 := rfl
    simp only [queueStep, step, take_min, hpeek, read_snd]
  | discard n => simp only [queueStep, step, drop_min, contents_discard]
  | clear => rfl

/-- **The ring buffer is a bounded queue**: in every sequence of calls it answers as the queue of
its contents does, and its length and positions stay in range. -/
theorem ring_refines_queue (calls : List BufferCall) :
    ∃ (b : SocketBuffer) (replies : List BufferReply),
      Machine.run (fun b call => .ok (step b call)) new calls = .ok (b, replies) ∧
      Machine.run (fun q call => .ok (queueStep q call)) [] calls = .ok (b.contents, replies) ∧
      b.len = b.contents.length ∧ b.len ≤ 4096 ∧ b.readPos < 4096 ∧ b.writePos < 4096 := by
  change ∃ b replies, _ ∧ Machine.run _ new.contents calls = .ok (contents b, replies) ∧ _
  generalize new = start
  induction calls generalizing start with
  | nil =>
    exact ⟨start, [], rfl, rfl, start.length_contents.symm, start.len_le, start.readPos_lt,
      start.writePos_lt⟩
  | cons call calls ih =>
    obtain ⟨b, replies, hring, hqueue, hrange⟩ := ih (start.step call).1
    refine ⟨b, (start.step call).2 :: replies, by simp [Machine.run, hring], ?_, hrange⟩
    simp [Machine.run, queueStep_contents, hqueue]

end SocketBuffer

end Fabric
