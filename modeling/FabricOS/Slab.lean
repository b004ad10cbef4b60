/-
Well-formed tables.

`Slab V` is a `FixedMap V` together with the proof of its representation
invariant.  Every table the kernel can build is one, and on slabs all operations
but `get_or_insert` are total: their loops have been shown to terminate.  This is
the form in which the capability store and its trackers use the table; their
proofs see a slab only through `get`, `keys` and the lemmas below.
-/
import FabricOS.FixedMap

open LinearProbing

namespace Fabric

/-- A well-formed `FixedMap`. -/
structure Slab (V : Type) where
  map : FixedMap V
  wf : map.Wf

namespace Slab

variable {V : Type}

def new : Slab V := ⟨FixedMap.new, FixedMap.wf_new⟩

def len (s : Slab V) : ℕ := s.map.len

def keys (s : Slab V) : Finset UInt64 := s.map.keys

def get (s : Slab V) (k : UInt64) : Option V :=
  (s.map.get k).get (FixedMap.get_spec s.wf k).returns

def insert (s : Slab V) (k : UInt64) (v : V) : Slab V × Bool :=
  (⟨((s.map.insert k v).get (FixedMap.insert_spec s.wf k v).returns).1,
    (FixedMap.insert_spec s.wf k v).get.1⟩,
   ((s.map.insert k v).get (FixedMap.insert_spec s.wf k v).returns).2)

/-- The value under `k`, and the slab after `write` through the reference to it. -/
def getMut (s : Slab V) (k : UInt64) (write : V → V) : Slab V × Option V :=
  (⟨((s.map.getMut k write).get (FixedMap.getMut_spec s.wf k write).returns).1,
    (FixedMap.getMut_spec s.wf k write).get.1⟩,
   ((s.map.getMut k write).get (FixedMap.getMut_spec s.wf k write).returns).2)

def remove (s : Slab V) (k : UInt64) : Slab V × Option V :=
  (⟨((s.map.remove k).get (FixedMap.remove_spec s.wf k).returns).1,
    (FixedMap.remove_spec s.wf k).get.1⟩,
   ((s.map.remove k).get (FixedMap.remove_spec s.wf k).returns).2)

/-- There is room for `k`: it is present, or the load limit is not reached. -/
def Room (s : Slab V) (k : UInt64) : Prop := k ∈ s.keys ∨ s.len < maxLoad

instance (s : Slab V) (k : UInt64) : Decidable (s.Room k) := by
  unfold Room; infer_instance

/-- The value under `k`, inserting `default` if there is none; aborts without room. -/
def getOrInsert (s : Slab V) (k : UInt64) (default : V) (write : V → V) : Exec (Slab V × V) :=
  match h : s.map.getOrInsert k default write with
  | .ok (m, v) => .ok (⟨m, s.wf.getOrInsert h⟩, v)
  | .panic => .panic
  | .diverge => .diverge

def clear (s : Slab V) : Slab V := ⟨s.map.clear, (FixedMap.clear_spec s.wf).1⟩

/-! ### Reading a slab -/

variable {k : UInt64}

lemma has_iff (s : Slab V) {v : V} : s.map.Has k v ↔ s.get k = some v :=
  ((FixedMap.get_spec s.wf k).get v).symm

lemma mem_keys (s : Slab V) : k ∈ s.keys ↔ ∃ v, s.get k = some v := by
  simp only [keys, FixedMap.mem_keys, has_iff]

lemma notMem_keys (s : Slab V) : k ∉ s.keys ↔ s.get k = none := by
  rw [mem_keys]
  simp [Option.eq_none_iff_forall_ne_some]

lemma len_eq (s : Slab V) : s.len = s.keys.card := s.wf.len_eq

lemma len_le (s : Slab V) : s.len ≤ maxLoad := s.wf.len_le

lemma Room.of_subset {W : Type} {s : Slab V} {u : Slab W}
    (hsub : s.keys ⊆ u.keys) (hk : k ∈ u.keys) : s.Room k := by
  by_cases hmem : k ∈ s.keys
  · exact Or.inl hmem
  have hlt : s.keys.card < u.keys.card :=
    Finset.card_lt_card ⟨hsub, fun hsup => hmem (hsup hk)⟩
  rw [← len_eq, ← len_eq] at hlt
  exact Or.inr (lt_of_lt_of_le hlt u.len_le)

lemma get_eq_of_has {s : Slab V} {o : Option V}
    (h : ∀ v, s.map.Has k v ↔ o = some v) : s.get k = o := by
  apply Option.ext
  intro v
  simp only [← has_iff, h]

@[simp] lemma get_new (k : UInt64) : (new : Slab V).get k = none :=
  get_eq_of_has fun v => by simp [new, FixedMap.not_has_none, FixedMap.new]

/-! ### Reading after a change -/

lemma insert_snd (s : Slab V) (hroom : s.Room k) (v : V) : (s.insert k v).2 = true := by
  obtain ⟨-, hb, -⟩ := (FixedMap.insert_spec s.wf k v).get
  rw [insert, ← Bool.not_eq_false, hb]
  rintro ⟨hnew, hfull⟩
  rcases hroom with hk | hlt
  · exact hnew hk
  · exact absurd hfull (ne_of_lt hlt)

lemma get_insert (s : Slab V) (hroom : s.Room k) (v : V) (k' : UInt64) :
    (s.insert k v).1.get k' = if k' = k then some v else s.get k' := by
  obtain ⟨-, -, hhas⟩ := (FixedMap.insert_spec s.wf k v).get
  have hstored : ((s.map.insert k v).get (FixedMap.insert_spec s.wf k v).returns).2 = true :=
    s.insert_snd hroom v
  refine get_eq_of_has fun x => (hhas k' x).trans ?_
  by_cases hk : k' = k <;> simp [hstored, hk, has_iff, eq_comm]

lemma keys_insert (s : Slab V) (hroom : s.Room k) (v : V) :
    (s.insert k v).1.keys = Insert.insert k s.keys := by
  ext k'
  simp only [mem_keys, get_insert s hroom, Finset.mem_insert]
  by_cases hk : k' = k <;> simp [hk]

@[simp] lemma get_getMut (s : Slab V) (k : UInt64) (write : V → V) (k' : UInt64) :
    (s.getMut k write).1.get k' = if k' = k then (s.get k).map write else s.get k' := by
  obtain ⟨-, -, hhas⟩ := (FixedMap.getMut_spec s.wf k write).get
  refine get_eq_of_has fun x => (hhas k' x).trans ?_
  by_cases hk : k' = k <;> simp [hk, has_iff, eq_comm]

@[simp] lemma keys_getMut (s : Slab V) (k : UInt64) (write : V → V) :
    (s.getMut k write).1.keys = s.keys := by
  ext k'
  by_cases hk : k' = k <;> simp [mem_keys, hk]

@[simp] lemma get_remove (s : Slab V) (k k' : UInt64) :
    (s.remove k).1.get k' = if k' = k then none else s.get k' := by
  obtain ⟨-, -, hhas⟩ := (FixedMap.remove_spec s.wf k).get
  refine get_eq_of_has fun x => (hhas k' x).trans ?_
  by_cases hk : k' = k <;> simp [hk, has_iff]

@[simp] lemma remove_snd (s : Slab V) (k : UInt64) : (s.remove k).2 = s.get k := by
  obtain ⟨-, ho, -⟩ := (FixedMap.remove_spec s.wf k).get
  exact (get_eq_of_has fun v => (ho v).symm).symm

@[simp] lemma keys_remove (s : Slab V) (k : UInt64) : (s.remove k).1.keys = s.keys.erase k := by
  ext k'
  by_cases hk : k' = k <;> simp [mem_keys, hk]

lemma keys_subset_of_get {m m' : Slab V} {v : V}
    (h : ∀ k', m'.get k' = if k' = k then some v else m.get k') :
    m'.keys ⊆ Insert.insert k m.keys := by
  intro k' hk'
  obtain ⟨x, hx⟩ := m'.mem_keys.mp hk'
  rw [h] at hx
  by_cases hk : k' = k
  · simp [hk]
  · simp only [hk, if_false] at hx
    exact Finset.mem_insert_of_mem (m.mem_keys.mpr ⟨x, hx⟩)

lemma getOrInsert_spec (s : Slab V) (default : V) (write : V → V) (hroom : s.Room k) :
    ∃ s', s.getOrInsert k default write = .ok (s', (s.get k).getD default) ∧
      ∀ k', s'.get k' = if k' = k then some (write ((s.get k).getD default)) else s.get k' := by
  obtain ⟨⟨m, v⟩, hr, hwf, hv, hhas⟩ := FixedMap.getOrInsert_spec s.wf default write hroom
  have hval : v = (s.get k).getD default := by
    rcases hv with hold | ⟨hnew, rfl⟩
    · rw [(has_iff s).mp hold, Option.getD_some]
    · rw [(notMem_keys s).mp hnew, Option.getD_none]
  subst hval
  refine ⟨⟨m, hwf⟩, ?_, fun k' => get_eq_of_has fun x => (hhas k' x).trans ?_⟩
  · unfold getOrInsert
    split
    · next m' v' h =>
      rw [hr] at h
      cases h
      rfl
    · next h => exact absurd (hr.symm.trans h) (by simp)
    · next h => exact absurd (hr.symm.trans h) (by simp)
  · by_cases hk : k' = k <;> simp [hk, has_iff, eq_comm]

lemma getOrInsert_full (s : Slab V) (default : V) (write : V → V)
    (hroom : ¬ s.Room k) : s.getOrInsert k default write = .panic := by
  simp only [Room, not_or, not_lt] at hroom
  have hpanic := FixedMap.getOrInsert_full s.wf default write hroom.1
    (le_antisymm s.wf.len_le hroom.2)
  unfold getOrInsert
  split
  · next h => exact absurd (hpanic.symm.trans h) (by simp)
  · rfl
  · next h => exact absurd (hpanic.symm.trans h) (by simp)

-- from here on a key set is known by its lemmas: unfolding it would run through all slots
attribute [irreducible] keys

end Slab

end Fabric
