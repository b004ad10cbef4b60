/-
`FixedMap`, the fixed-capacity hash table of the capability store
(`capability/slab.rs`).

The table is allocated lazily with 16384 slots, hashes `u64` keys by Fibonacci
hashing, probes linearly and deletes by backward shift; an insert of a new key
is refused at 75 % load.  The loops are those of `LinearProbing`, run for at
most `capacity` iterations; the boxed slot array is a function of the slot
number, since every index is masked below `capacity`.

A `&mut V` handed out by `get_mut` or `get_or_insert` is modelled by the write
made through it: both take a function `write : V → V`, store `write v` and
return the value `v` the caller found.
-/
import FabricOS.LinearProbing

open LinearProbing Function Finset Nat

namespace Fabric

open Exec

variable {V : Type}

def defaultCapacity : ℕ := 16384

/-- Entries at 75 % load, beyond which new keys are refused. -/
def maxLoad : ℕ := defaultCapacity * 3 / 4

/-- Fibonacci hash: multiply by the golden ratio constant, take upper bits. -/
def fibHash (key : UInt64) (mask : ℕ) : ℕ :=
  let h := key * 0x9E3779B97F4A7C15
  (h >>> 32).toNat &&& mask

/-- A fixed-capacity hash map with `u64` keys and open addressing. -/
structure FixedMap (V : Type) where
  slots : Option (Slots UInt64 V)
  capacity : ℕ
  mask : ℕ
  len : ℕ

namespace FixedMap

/-- An uninitialised map; the slots are allocated on first insert. -/
def new : FixedMap V where
  slots := none
  capacity := 0
  mask := 0
  len := 0

def allocSlots (m : FixedMap V) (capacity : ℕ) : FixedMap V :=
  { m with slots := some (fun _ => none), capacity := capacity, mask := capacity - 1 }

def ensureInit (m : FixedMap V) : FixedMap V :=
  match m.slots with
  | none => m.allocSlots defaultCapacity
  | some _ => m

/-- The slot probed after `idx`. -/
def next (m : FixedMap V) (idx : ℕ) : ℕ := (idx + 1) &&& m.mask

def find (m : FixedMap V) (slots : Slots UInt64 V) (key : UInt64) : Exec Probe :=
  probe m.next slots key m.capacity (fibHash key m.mask)

/-- Insert or replace; `false` if a new key finds the map at its load limit. -/
def insert (m : FixedMap V) (key : UInt64) (value : V) : Exec (FixedMap V × Bool) :=
  let m := m.ensureInit
  match m.slots with
  | none => .panic
  | some slots => do
      match ← m.find slots key with
      | .vacant idx =>
          if m.len ≥ m.capacity * 3 / 4 then .ok (m, false)
          else
            .ok ({ m with
              slots := some (update slots idx (some (key, value)))
              len := m.len + 1 }, true)
      | .found idx =>
          .ok ({ m with slots := some (update slots idx (some (key, value))) }, true)

def get (m : FixedMap V) (key : UInt64) : Exec (Option V) :=
  match m.slots with
  | none => .ok none
  | some slots => do
      match ← m.find slots key with
      | .vacant _ => .ok none
      | .found idx => .ok ((slots idx).map Prod.snd)

/-- The value found under `key`, and the map after `write` through the
reference to it. -/
def getMut (m : FixedMap V) (key : UInt64) (write : V → V) : Exec (FixedMap V × Option V) :=
  match m.slots with
  | none => .ok (m, none)
  | some slots => do
      match ← m.find slots key with
      | .vacant _ => .ok (m, none)
      | .found idx =>
          match slots idx with
          | none => .ok (m, none)
          | some (k, v) =>
              .ok ({ m with slots := some (update slots idx (some (k, write v))) }, some v)

def containsKey (m : FixedMap V) (key : UInt64) : Exec Bool := do
  let v ← m.get key
  .ok v.isSome

def remove (m : FixedMap V) (key : UInt64) : Exec (FixedMap V × Option V) :=
  match m.slots with
  | none => .ok (m, none)
  | some slots => do
      match ← m.find slots key with
      | .vacant _ => .ok (m, none)
      | .found idx =>
          let removed := (slots idx).map Prod.snd
          let slots ← shiftBack m.next (fibHash · m.mask) m.capacity
            (update slots idx none) idx (m.next idx)
          .ok ({ m with slots := some slots, len := m.len - 1 }, removed)

/-- `get_mut(key).expect(..)`. -/
def expectMut (m : FixedMap V) (key : UInt64) (write : V → V) : Exec (FixedMap V × V) := do
  match ← m.getMut key write with
  | (m, some v) => .ok (m, v)
  | (_, none) => .panic

/-- The value under `key`, inserting `default` if there is none; aborts when the
map is full and the key is new. -/
def getOrInsert (m : FixedMap V) (key : UInt64) (default : V) (write : V → V) :
    Exec (FixedMap V × V) := do
  let m := m.ensureInit
  let present ← m.containsKey key
  let m ← if present then .ok m else do
    let (m, _) ← m.insert key default
    .ok m
  m.expectMut key write

def clear (m : FixedMap V) : FixedMap V :=
  { m with slots := m.slots.map fun _ _ => none, len := 0 }

/-! ### The representation invariant -/

def home (key : UInt64) : ℕ := fibHash key (defaultCapacity - 1)

/-- An unallocated map is `new`; an allocated one keeps the probe-chain
invariant within its load limit, and `len` is its number of keys. -/
def Wf (m : FixedMap V) : Prop :=
  match m.slots with
  | none => m = new
  | some t =>
      m.capacity = defaultCapacity ∧ m.mask = defaultCapacity - 1 ∧
        Chained defaultCapacity home t ∧ m.len = (LinearProbing.keys defaultCapacity t).card ∧
        m.len ≤ maxLoad

/-- The map holds `v` under `k`. -/
def Has (m : FixedMap V) (k : UInt64) (v : V) : Prop :=
  ∃ t, m.slots = some t ∧ Holds defaultCapacity t k v

def keys (m : FixedMap V) : Finset UInt64 :=
  match m.slots with
  | none => ∅
  | some t => LinearProbing.keys defaultCapacity t

lemma and_mask (i : ℕ) : i &&& (defaultCapacity - 1) = i % defaultCapacity := by
  have h := and_two_pow_sub_one_eq_mod i 14
  simpa [defaultCapacity] using h

variable {m : FixedMap V}

lemma geometry (hmask : m.mask = defaultCapacity - 1) :
    Geometry defaultCapacity m.next home where
  next_eq := by
    intro i hi
    rw [next, hmask, and_mask]
    split
    · next h => rw [h, mod_self]
    · exact mod_eq_of_lt (by omega)
  home_lt := by
    intro k
    rw [home, fibHash, and_mask]
    exact mod_lt _ (by decide)

lemma wf_new : (new : FixedMap V).Wf := rfl

lemma wf_none (h : m.Wf) (hs : m.slots = none) : m = new := by
  simpa [Wf, hs] using h

variable {t : Slots UInt64 V}

lemma wf_some (hs : m.slots = some t) :
    m.Wf ↔ m.capacity = defaultCapacity ∧ m.mask = defaultCapacity - 1 ∧
      Chained defaultCapacity home t ∧ m.len = (LinearProbing.keys defaultCapacity t).card ∧
      m.len ≤ maxLoad := by
  simp [Wf, hs]

variable {k : UInt64}

lemma has_some (hs : m.slots = some t) {v : V} : m.Has k v ↔ Holds defaultCapacity t k v := by
  simp [Has, hs]

lemma not_has_none (hs : m.slots = none) {v : V} : ¬ m.Has k v := by
  simp [Has, hs]

lemma mem_keys : k ∈ m.keys ↔ ∃ v, m.Has k v := by
  rcases hs : m.slots with _ | t
  · simp [keys, hs, not_has_none hs]
  · simp [keys, hs, has_some hs, LinearProbing.mem_keys]

lemma Wf.has_inj (h : m.Wf) {v w : V} (hv : m.Has k v) (hw : m.Has k w) : v = w := by
  obtain ⟨t, hs, hv⟩ := hv
  rw [has_some hs] at hw
  exact ((wf_some hs).mp h).2.2.1.holds_inj hv hw

lemma Wf.len_eq (h : m.Wf) : m.len = m.keys.card := by
  rcases hs : m.slots with _ | t
  · simp [wf_none h hs, keys, new]
  · simpa [keys, hs] using ((wf_some hs).mp h).2.2.2.1

lemma Wf.len_le (h : m.Wf) : m.len ≤ maxLoad := by
  rcases hs : m.slots with _ | t
  · simp [wf_none h hs, new]
  · exact ((wf_some hs).mp h).2.2.2.2

/-! ### Specifications of the operations -/

lemma Wf.exists_vacant (h : m.Wf) (hs : m.slots = some t) : ∃ z < defaultCapacity, t z = none := by
  obtain ⟨-, -, hch, hlen, hle⟩ := (wf_some hs).mp h
  refine hch.exists_vacant ?_
  rw [← hlen]
  exact lt_of_le_of_lt hle (by decide)

lemma Wf.find_spec (h : m.Wf) (hs : m.slots = some t) (key : UInt64) : (m.find t key).Post fun r =>
      match r with
      | .found i => i < defaultCapacity ∧ ∃ v, t i = some (key, v)
      | .vacant i => i < defaultCapacity ∧ t i = none ∧ Passed defaultCapacity home t key i ∧
          ∀ v, ¬ m.Has key v := by
  obtain ⟨z, hz, htz⟩ := h.exists_vacant hs
  obtain ⟨hcap, hmask, hch, -, -⟩ := (wf_some hs).mp h
  have hspec := probe_spec (geometry hmask) hch hz htz key (le_of_eq hcap.symm)
  rw [show m.find t key = probe m.next t key m.capacity (home key) by rw [find, hmask, home]]
  refine hspec.mono ?_
  intro r hr
  match r with
  | .found i => exact hr
  | .vacant i => exact ⟨hr.1, hr.2.1, hr.2.2.1, fun v hv => hr.2.2.2 v ((has_some hs).mp hv)⟩

/-- Either a key is nowhere in the map, and the operations on it leave the map as it is, or it is
found in its slot. -/
lemma Wf.find_cases (h : m.Wf) (key : UInt64) :
    ((∀ v, ¬ m.Has key v) ∧ m.get key = .ok none ∧ m.remove key = .ok (m, none) ∧
      ∀ write, m.getMut key write = .ok (m, none)) ∨
    ∃ t i w, m.slots = some t ∧ m.find t key = .ok (.found i) ∧ i < defaultCapacity ∧
      t i = some (key, w) ∧ m.Has key w ∧ ∀ v, some w = some v ↔ m.Has key v := by
  rcases hs : m.slots with _ | t
  · exact .inl ⟨fun v => not_has_none hs, by simp [get, hs], by simp [remove, hs], by
      simp [getMut, hs]⟩
  obtain ⟨r, hr, hspec⟩ := h.find_spec hs key
  match r with
  | .vacant i =>
    simpa [get, remove, getMut, hs, hr] using hspec.2.2.2
  | .found i =>
    obtain ⟨hi, w, htw⟩ := hspec
    have hw : m.Has key w := (has_some hs).mpr ⟨i, hi, htw⟩
    refine .inr ⟨t, i, w, rfl, hr, hi, htw, hw, fun v => ?_⟩
    exact ⟨fun hv => Option.some.inj hv ▸ hw, fun hv => by rw [h.has_inj hw hv]⟩

lemma get_spec (h : m.Wf) (key : UInt64) :
    (m.get key).Post fun o => ∀ v, o = some v ↔ m.Has key v := by
  obtain ⟨habs, hget, -, -⟩ | ⟨t, i, w, hs, hfind, -, htw, -, hw⟩ := h.find_cases key
  · rw [hget]
    simpa using habs
  · simpa [get, hs, hfind, htw] using hw

lemma ensureInit_spec (h : m.Wf) :
    m.ensureInit.Wf ∧ (∃ t, m.ensureInit.slots = some t) ∧ m.ensureInit.len = m.len ∧
      ∀ k v, m.ensureInit.Has k v ↔ m.Has k v := by
  rcases hs : m.slots with _ | t
  · obtain rfl := wf_none h hs
    have hempty : LinearProbing.keys defaultCapacity (fun _ => none : Slots UInt64 V) = ∅ := by
      ext k
      simp [LinearProbing.mem_keys, Holds]
    refine ⟨?_, ⟨_, rfl⟩, rfl, ?_⟩
    · exact ⟨rfl, rfl, chained_empty, by rw [hempty]; rfl, zero_le _⟩
    · simp [ensureInit, allocSlots, new, Has, Holds]
  · have he : m.ensureInit = m := by simp [ensureInit, hs]
    rw [he]
    exact ⟨h, ⟨t, hs⟩, rfl, fun _ _ => Iff.rfl⟩

variable {key : UInt64}

lemma Wf.store (h : m.Wf) (hs : m.slots = some t) {i : ℕ} (hi : i < defaultCapacity) (v : V)
    (len' : ℕ)
    (hslot : (∃ w, t i = some (key, w)) ∨
      t i = none ∧ Passed defaultCapacity home t key i ∧ ∀ w, ¬ m.Has key w)
    (hlen : len' = (Insert.insert key m.keys).card) (hle : len' ≤ maxLoad) :
    ∃ m' : FixedMap V,
      m' = { m with slots := some (update t i (some (key, v))), len := len' } ∧
      m'.Wf ∧ ∀ k x, m'.Has k x ↔ if k = key then x = v else m.Has k x := by
  obtain ⟨hcap, hmask, hch, -, -⟩ := (wf_some hs).mp h
  refine ⟨_, rfl, ?_⟩
  have hhas : ∀ k x, Holds defaultCapacity (update t i (some (key, v))) k x ↔
      if k = key then x = v else m.Has k x := by
    intro k x
    rw [has_some hs]
    refine holds_set hi ?_ ?_ v
    · rcases hslot with hw | ⟨hnone, -, -⟩
      · exact .inr hw
      · exact .inl hnone
    intro j w hj htj
    rcases hslot with ⟨w', hw'⟩ | ⟨-, -, habs⟩
    · exact hch.unique hj hi htj hw'
    · exact absurd ((has_some hs).mpr ⟨j, hj, htj⟩) (habs w)
  have hch' : Chained defaultCapacity home (update t i (some (key, v))) := by
    rcases hslot with ⟨w, hw⟩ | ⟨-, hpassed, habs⟩
    · exact hch.set_found hw v
    · exact hch.set_vacant hi hpassed (fun w hw => habs w ((has_some hs).mpr hw)) v
  refine ⟨?_, fun k x => ?_⟩
  · refine ⟨hcap, hmask, hch', ?_, hle⟩
    rw [hlen]
    refine congrArg Finset.card ?_
    ext k
    simp only [mem_insert, mem_keys, LinearProbing.mem_keys, hhas]
    by_cases hk : k = key <;> simp [hk]
  · rw [has_some rfl]
    exact hhas k x

lemma insert_spec (h : m.Wf) (key : UInt64) (v : V) : (m.insert key v).Post fun r =>
      r.1.Wf ∧ (r.2 = false ↔ key ∉ m.keys ∧ m.len = maxLoad) ∧
        ∀ k x, r.1.Has k x ↔ if r.2 = true ∧ k = key then x = v else m.Has k x := by
  obtain ⟨hwf, ⟨t, hs⟩, hlen, hhas⟩ := ensureInit_spec h
  have hkeys : m.ensureInit.keys = m.keys := by
    ext k
    simp [mem_keys, hhas]
  have hcap := ((wf_some hs).mp hwf).1
  have hload := h.len_le
  obtain ⟨r, hr, hspec⟩ := hwf.find_spec hs key
  simp only [insert, hs, hr, ok_bind]
  match r with
  | .vacant i =>
    obtain ⟨hi, hti, hpassed, habs⟩ := hspec
    have hnew : key ∉ m.keys := by
      rw [← hkeys, mem_keys]
      exact fun ⟨w, hw⟩ => habs w hw
    simp only [hcap, show defaultCapacity * 3 / 4 = maxLoad from rfl, hlen]
    by_cases hfull : m.len ≥ maxLoad
    · rw [if_pos hfull]
      refine ⟨(_, false), rfl, hwf, ?_, by simpa using hhas⟩
      exact ⟨fun _ => ⟨hnew, by omega⟩, fun _ => rfl⟩
    rw [if_neg hfull]
    have hcard : m.len + 1 = (Insert.insert key m.ensureInit.keys).card := by
      rw [hkeys, card_insert_of_notMem hnew, h.len_eq]
    obtain ⟨m', hm', hwf', hhas'⟩ :=
      hwf.store hs hi v (m.len + 1) (.inr ⟨hti, hpassed, habs⟩) hcard (by omega)
    refine ⟨(m', true), by rw [hm', ← hcap], hwf', ?_, ?_⟩
    · simp only [Bool.true_eq_false, false_iff, not_and]
      omega
    · intro k x
      rw [hhas' k x]
      by_cases hk : k = key <;> simp [hk, hhas]
  | .found i =>
    obtain ⟨hi, w, htw⟩ := hspec
    have hold : key ∈ m.keys := by
      rw [← hkeys, mem_keys]
      exact ⟨w, (has_some hs).mpr ⟨i, hi, htw⟩⟩
    have hcard : m.ensureInit.len = (Insert.insert key m.ensureInit.keys).card := by
      rw [hkeys, insert_eq_of_mem hold, hlen, h.len_eq]
    obtain ⟨m', hm', hwf', hhas'⟩ :=
      hwf.store hs hi v m.ensureInit.len (.inl ⟨w, htw⟩) hcard (by omega)
    refine ⟨(m', true), by rw [hm'], hwf', ?_, ?_⟩
    · simp [hold]
    · intro k x
      rw [hhas' k x]
      by_cases hk : k = key <;> simp [hk, hhas]

lemma getMut_spec (h : m.Wf) (key : UInt64) (write : V → V) : (m.getMut key write).Post fun r =>
      r.1.Wf ∧ (∀ v, r.2 = some v ↔ m.Has key v) ∧
        ∀ k x, r.1.Has k x ↔ if k = key then ∃ v, m.Has key v ∧ x = write v else m.Has k x := by
  obtain ⟨habs, -, -, hmut⟩ | ⟨t, i, w, hs, hfind, hi, htw, hw, hval⟩ := h.find_cases key
  · rw [hmut]
    refine ⟨_, rfl, h, by simpa using habs, fun k x => ?_⟩
    by_cases hk : k = key
    · subst hk
      simp [habs]
    · simp [hk]
  · have hcard : m.len = (Insert.insert key m.keys).card := by
      rw [insert_eq_of_mem (mem_keys.mpr ⟨w, hw⟩), h.len_eq]
    obtain ⟨m', hm', hwf', hhas'⟩ :=
      h.store hs hi (write w) m.len (.inl ⟨w, htw⟩) hcard h.len_le
    simp only [getMut, hs, hfind, ok_bind, htw]
    refine ⟨(m', some w), by rw [hm'], hwf', hval, fun k x => ?_⟩
    rw [hhas' k x]
    by_cases hk : k = key
    · simp only [hk, if_true]
      exact ⟨fun hx => ⟨w, hw, hx⟩, fun ⟨v, hv, hx⟩ => by rw [hx, h.has_inj hw hv]⟩
    · simp [hk]

lemma remove_spec (h : m.Wf) (key : UInt64) : (m.remove key).Post fun r =>
      r.1.Wf ∧ (∀ v, r.2 = some v ↔ m.Has key v) ∧
        ∀ k x, r.1.Has k x ↔ m.Has k x ∧ k ≠ key := by
  obtain ⟨habs, -, hremove, -⟩ | ⟨t, i, w, hs, hfind, hi, htw, hw, hval⟩ := h.find_cases key
  · rw [hremove]
    refine ⟨_, rfl, h, by simpa using habs, fun k x => ⟨fun hx => ⟨hx, ?_⟩, And.left⟩⟩
    rintro rfl
    exact habs x hx
  · obtain ⟨hcap, hmask, hch, hlen, hle⟩ := (wf_some hs).mp h
    obtain ⟨t', ht', hch', hholds⟩ :=
      erase_spec (geometry hmask) hch hi htw (h.exists_vacant hs) (le_of_eq hcap.symm)
    simp only [remove, hs, hfind, ok_bind]
    rw [show (fibHash · m.mask) = home by funext k; rw [hmask, home]]
    simp only [ht', ok_bind, htw, Option.map_some]
    refine ⟨_, rfl, ?_, hval, fun k x => ?_⟩
    · refine ⟨hcap, hmask, hch', ?_, by show m.len - 1 ≤ maxLoad; omega⟩
      have hkeys : LinearProbing.keys defaultCapacity t' = m.keys.erase key := by
        ext k
        simp only [LinearProbing.mem_keys, hholds, mem_erase, mem_keys, has_some hs]
        tauto
      rw [hkeys, card_erase_of_mem (mem_keys.mpr ⟨w, hw⟩), ← h.len_eq]
    · rw [has_some rfl, hholds, has_some hs]

lemma clear_spec (h : m.Wf) : m.clear.Wf ∧ ∀ k v, ¬ m.clear.Has k v := by
  rcases hs : m.slots with _ | t
  · obtain rfl := wf_none h hs
    exact ⟨rfl, fun k v => not_has_none rfl⟩
  have hs' : m.clear.slots = some fun _ => none := by simp [clear, hs]
  obtain ⟨hcap, hmask, -, -, -⟩ := (wf_some hs).mp h
  have hnone : ∀ k v, ¬ m.clear.Has k v := by
    simp [has_some hs', Holds]
  refine ⟨(wf_some hs').mpr ⟨hcap, hmask, chained_empty, ?_, zero_le _⟩, hnone⟩
  symm
  rw [show m.clear.len = 0 from rfl, Finset.card_eq_zero]
  ext k
  simp [LinearProbing.mem_keys, Holds]

lemma containsKey_spec (h : m.Wf) (key : UInt64) :
    (m.containsKey key).Post fun b => b = true ↔ key ∈ m.keys := by
  obtain ⟨o, ho, hspec⟩ := get_spec h key
  simp only [containsKey, ho, ok_bind, post_ok, mem_keys, ← hspec, Option.isSome_iff_exists]

lemma expectMut_spec (h : m.Wf) (hkey : key ∈ m.keys) (write : V → V) :
    (m.expectMut key write).Post fun r => r.1.Wf ∧ m.Has key r.2 ∧
      ∀ k x, r.1.Has k x ↔ if k = key then x = write r.2 else m.Has k x := by
  obtain ⟨v, hv⟩ := mem_keys.mp hkey
  obtain ⟨⟨m', o⟩, hr, hwf', ho, hhas'⟩ := getMut_spec h key write
  obtain rfl : o = some v := (ho v).mpr hv
  simp only [expectMut, hr, ok_bind, post_ok]
  refine ⟨hwf', hv, fun k x => (hhas' k x).trans ?_⟩
  by_cases hk : k = key
  · simp only [hk, if_true]
    constructor
    · rintro ⟨w, hw, hx⟩
      rw [hx, h.has_inj hw hv]
    · exact fun hx => ⟨v, hv, hx⟩
  · simp [hk]

lemma getOrInsert_spec (h : m.Wf) (default : V)
    (write : V → V) (hroom : key ∈ m.keys ∨ m.len < maxLoad) :
    (m.getOrInsert key default write).Post fun r =>
      r.1.Wf ∧ (m.Has key r.2 ∨ key ∉ m.keys ∧ r.2 = default) ∧
        ∀ k x, r.1.Has k x ↔ if k = key then x = write r.2 else m.Has k x := by
  obtain ⟨hwf, -, hlen, hhas⟩ := ensureInit_spec h
  have hkeys : m.ensureInit.keys = m.keys := by
    ext k
    simp [mem_keys, hhas]
  obtain ⟨b, hb, hpresent⟩ := containsKey_spec hwf key
  rw [hkeys] at hpresent
  simp only [getOrInsert, hb, ok_bind]
  by_cases hkey : key ∈ m.keys
  · rw [if_pos (hpresent.mpr hkey)]
    refine (expectMut_spec hwf (hkeys ▸ hkey) write).mono ?_
    rintro ⟨m', v⟩ ⟨hwf', hv, hhas'⟩
    exact ⟨hwf', .inl ((hhas key v).mp hv), by simpa only [hhas] using hhas'⟩
  · rw [if_neg (fun hc => hkey (hpresent.mp hc))]
    obtain ⟨⟨m1, ok⟩, h1, hwf1, hok, hhas1⟩ := insert_spec hwf key default
    -- There is room, so the insert succeeds and the key is then present.
    have hstored : ok = true := by
      rw [← Bool.not_eq_false, hok, hkeys, hlen]
      rintro ⟨-, hfull⟩
      rcases hroom with hk | hlt
      · exact hkey hk
      · omega
    subst hstored
    have hkey1 : m1.Has key default := by simp [hhas1]
    simp only [h1, ok_bind]
    refine (expectMut_spec hwf1 (mem_keys.mpr ⟨default, hkey1⟩) write).mono ?_
    rintro ⟨m', v⟩ ⟨hwf', hv, hhas'⟩
    have hv' : v = default := hwf1.has_inj hv hkey1
    refine ⟨hwf', .inr ⟨hkey, hv'⟩, fun k x => (hhas' k x).trans ?_⟩
    by_cases hk : k = key <;> simp [hk, hhas1, hhas]

lemma getOrInsert_full (h : m.Wf) (default : V)
    (write : V → V) (hkey : key ∉ m.keys) (hfull : m.len = maxLoad) :
    m.getOrInsert key default write = .panic := by
  obtain ⟨hwf, -, hlen, hhas⟩ := ensureInit_spec h
  have hkeys : m.ensureInit.keys = m.keys := by
    ext k
    simp [mem_keys, hhas]
  obtain ⟨b, hb, hpresent⟩ := containsKey_spec hwf key
  rw [hkeys] at hpresent
  obtain ⟨⟨m1, ok⟩, h1, hwf1, hok, hhas1⟩ := insert_spec hwf key default
  obtain rfl : ok = false := hok.mpr ⟨hkeys ▸ hkey, hlen.trans hfull⟩
  obtain ⟨⟨m2, o⟩, h2, -, ho, -⟩ := getMut_spec hwf1 key write
  have hnone : o = none := by
    rcases o with _ | v
    · rfl
    · have hv := (ho v).mp rfl
      simp only [hhas1, Bool.false_eq_true, false_and, if_false, hhas] at hv
      exact absurd (mem_keys.mpr ⟨v, hv⟩) hkey
  simp only [getOrInsert, expectMut, hb, ok_bind, if_neg (fun hc => hkey (hpresent.mp hc)),
    h1, h2, hnone]

lemma Wf.getOrInsert {m m' : FixedMap V} (h : m.Wf) {default v : V}
    {write : V → V} (hr : m.getOrInsert key default write = .ok (m', v)) : m'.Wf := by
  by_cases hroom : key ∈ m.keys ∨ m.len < maxLoad
  · obtain ⟨⟨m1, v1⟩, h1, hwf, -⟩ := getOrInsert_spec h default write hroom
    rw [hr] at h1
    simp only [Exec.ok.injEq, Prod.mk.injEq] at h1
    rwa [h1.1]
  · simp only [not_or, not_lt] at hroom
    rw [getOrInsert_full h default write hroom.1 (le_antisymm h.len_le hroom.2)] at hr
    cases hr

end FixedMap

end Fabric
