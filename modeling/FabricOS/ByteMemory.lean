/-
Byte-addressed memory with little-endian words.

`read m a n` is the number stored in the `n` bytes from address `a` on, `write m a n v`
stores one there.

* `read_write_self` — what is read back after a write;
* `write_apply_of_not_mem`, `blit_apply_of_not_mem` — a write changes only its own bytes;
* `read_fill_zero`, `read_copy` — what is read from bytes that were cleared or copied.
-/
import Mathlib.Tactic.Ring

abbrev ByteMemory := ℕ → UInt8

open Function Nat

namespace ByteMemory

variable {m m' : ByteMemory} {a b n k v x : ℕ}

/-- The number in the `n` bytes from `a` on, least significant byte first. -/
def read (m : ByteMemory) (a : ℕ) : ℕ → ℕ
  | 0 => 0
  | n + 1 => (m a).toNat + 256 * read m (a + 1) n

/-- Store the `n` low bytes of `v` from `a` on. -/
def write (m : ByteMemory) (a : ℕ) : ℕ → ℕ → ByteMemory
  | 0, _ => m
  | n + 1, v => write (update m a (UInt8.ofNat v)) (a + 1) n (v / 256)

/-- Store `n` bytes of `src` from `a` on. -/
def blit (m : ByteMemory) (a n : ℕ) (src : ℕ → UInt8) : ByteMemory :=
  fun x => if a ≤ x ∧ x < a + n then src (x - a) else m x

/-- Set `n` bytes from `a` on to one value. -/
def fill (m : ByteMemory) (a n : ℕ) (byte : UInt8) : ByteMemory := blit m a n fun _ => byte

/-- Copy `n` bytes from `b` to `a`. -/
def copy (m : ByteMemory) (a b n : ℕ) : ByteMemory := blit m a n fun i => m (b + i)

lemma read_lt : read m a n < 256 ^ n := by
  induction n generalizing a with
  | zero => simp [read]
  | succ n ih =>
    have hbyte := (m a).toNat_lt
    have hrest := ih (a := a + 1)
    rw [read, pow_succ]
    omega

lemma read_congr (h : ∀ x, a ≤ x → x < a + n → m' x = m x) : read m' a n = read m a n := by
  induction n generalizing a with
  | zero => rfl
  | succ n ih =>
    rw [read, read, h a le_rfl (by omega), ih fun x hle hlt => h x (by omega) (by omega)]

lemma write_apply_of_not_mem (h : ¬ (a ≤ x ∧ x < a + n)) : write m a n v x = m x := by
  induction n generalizing m a v with
  | zero => rfl
  | succ n ih =>
    rw [write, ih (by omega), update_of_ne (by omega)]

lemma read_write_self : read (write m a n v) a n = v % 256 ^ n := by
  induction n generalizing m a v with
  | zero => simp [read, mod_one]
  | succ n ih =>
    rw [read, write, ih, write_apply_of_not_mem (by omega), update_self,
      pow_succ, mul_comm (256 ^ n), mod_mul, UInt8.toNat_ofNat']

lemma read_write_of_disjoint (h : a + n ≤ b ∨ b + k ≤ a) : read (write m a n v) b k = read m b k :=
  read_congr fun x hle hlt => write_apply_of_not_mem (by omega)

lemma blit_apply_of_not_mem {src : ℕ → UInt8} (h : ¬ (a ≤ x ∧ x < a + n)) :
    blit m a n src x = m x := if_neg h

lemma read_fill_zero (ha : a ≤ b) (hb : b + k ≤ a + n) : read (fill m a n 0) b k = 0 := by
  induction k generalizing b with
  | zero => rfl
  | succ k ih =>
    rw [read, ih (by omega) (by omega), fill, blit, if_pos (by omega)]
    rfl

lemma read_copy {c i : ℕ} (h : i + k ≤ n) : read (copy m a c n) (a + i) k = read m (c + i) k := by
  induction k generalizing i with
  | zero => rfl
  | succ k ih =>
    have hbyte : copy m a c n (a + i) = m (c + i) := by
      rw [copy, blit, if_pos (by omega), Nat.add_sub_cancel_left]
    rw [read, read, hbyte, add_assoc, add_assoc, ih (by omega)]

end ByteMemory
