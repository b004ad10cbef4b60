/-
Finite partial maps with a bound on the number of entries: the abstract view of
a fixed-capacity key–value table.

`BoundedMap K V cap` is a finite map together with the proof that it has at most
`cap` entries.  Its operations (`MapOp`) say what such a table is for, and
`BoundedMap.step` runs them as a machine, so that an implementation can be
compared with it output by output (`Machine.run_eq_of_sim`).

A new key in a full map is refused by `insert` and leaves `getOrInsert` without
a value to hand out, which is an abort.
-/
import FabricOS.Machine
import Mathlib.Data.Finmap

/-- The operations of a key–value table.  `getMut` and `getOrInsert` carry the
write made through the reference they hand out. -/
inductive MapOp (K V : Type) where
  | insert (k : K) (v : V)
  | get (k : K)
  | getMut (k : K) (write : V → V)
  | remove (k : K)
  | getOrInsert (k : K) (default : V) (write : V → V)
  | clear
  | len

inductive MapOut (V : Type) where
  | stored (b : Bool)
  | value (o : Option V)
  | entry (v : V)
  | count (n : ℕ)
  | done

/-- A finite partial map with at most `cap` entries. -/
structure BoundedMap (K V : Type) (cap : ℕ) where
  entries : Finmap fun _ : K => V
  bounded : entries.keys.card ≤ cap

namespace BoundedMap

variable {K V : Type} [DecidableEq K] {cap : ℕ}

lemma keys_insert (f : Finmap fun _ : K => V) (k : K) (v : V) :
    (f.insert k v).keys = Insert.insert k f.keys := by
  ext k'
  simp [Finmap.mem_keys, Finmap.mem_insert]

omit [DecidableEq K] in
def empty : BoundedMap K V cap := ⟨∅, by simp⟩

def size (f : BoundedMap K V cap) : ℕ := f.entries.keys.card

/-- Store `v` under a key for which there is room. -/
def store (f : BoundedMap K V cap) (k : K) (v : V)
    (h : k ∈ f.entries ∨ f.size < cap) : BoundedMap K V cap where
  entries := f.entries.insert k v
  bounded := by
    rw [keys_insert]
    rcases h with hk | hlt
    · rw [Finset.insert_eq_of_mem (Finmap.mem_keys.mpr hk)]
      exact f.bounded
    · exact le_trans (Finset.card_insert_le _ _) hlt

/-- Delete the entry of `k`. -/
def erase (f : BoundedMap K V cap) (k : K) : BoundedMap K V cap where
  entries := f.entries.erase k
  bounded := by
    rw [Finmap.keys_erase]
    exact le_trans Finset.card_erase_le f.bounded

def step (f : BoundedMap K V cap) : MapOp K V → Exec (BoundedMap K V cap × MapOut V)
  | .insert k v =>
      if h : k ∈ f.entries ∨ f.size < cap then .ok (f.store k v h, .stored true)
      else .ok (f, .stored false)
  | .get k => .ok (f, .value (f.entries.lookup k))
  | .getMut k write =>
      if h : k ∈ f.entries then
        match f.entries.lookup k with
        | some v => .ok (f.store k (write v) (.inl h), .value (some v))
        | none => .ok (f, .value none)
      else .ok (f, .value none)
  | .remove k => .ok (f.erase k, .value (f.entries.lookup k))
  | .getOrInsert k default write =>
      if h : k ∈ f.entries ∨ f.size < cap then
        let v := (f.entries.lookup k).getD default
        .ok (f.store k (write v) h, .entry v)
      else .panic
  | .clear => .ok (empty, .done)
  | .len => .ok (f, .count f.size)

end BoundedMap
