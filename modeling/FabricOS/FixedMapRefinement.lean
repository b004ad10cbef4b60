/-
`FixedMap` refines the bounded partial map.

`FixedMap.step` runs the operations of `slab.rs` as a machine.  The abstraction
relation `Abstracts m f` says that the table is well formed and holds exactly the
entries of the abstract map `f` with at most 12288 keys.
-/
import FabricOS.FixedMap
import FabricOS.BoundedMap

open LinearProbing Machine

namespace Fabric

variable {V : Type}

namespace FixedMap

def step (m : FixedMap V) : MapOp UInt64 V → Exec (FixedMap V × MapOut V)
  | .insert k v => do
      let (m, b) ← m.insert k v
      .ok (m, .stored b)
  | .get k => do
      let o ← m.get k
      .ok (m, .value o)
  | .getMut k write => do
      let (m, o) ← m.getMut k write
      .ok (m, .value o)
  | .remove k => do
      let (m, o) ← m.remove k
      .ok (m, .value o)
  | .getOrInsert k default write => do
      let (m, v) ← m.getOrInsert k default write
      .ok (m, .entry v)
  | .clear => .ok (m.clear, .done)
  | .len => .ok (m, .count m.len)

/-- The table holds exactly the entries of the abstract map. -/
def Abstracts (m : FixedMap V) (f : BoundedMap UInt64 V maxLoad) : Prop :=
  m.Wf ∧ ∀ k v, m.Has k v ↔ f.entries.lookup k = some v

section

variable {m : FixedMap V} {f : BoundedMap UInt64 V maxLoad}

lemma Abstracts.keys_eq (h : Abstracts m f) : m.keys = f.entries.keys := by
  ext k
  simp only [mem_keys, h.2, Finmap.mem_keys, Finmap.mem_iff]

variable {k : UInt64}

lemma Abstracts.mem_keys_iff (h : Abstracts m f) : k ∈ m.keys ↔ k ∈ f.entries := by
  rw [h.keys_eq, Finmap.mem_keys]

lemma Abstracts.len_eq (h : Abstracts m f) : m.len = f.size := by
  rw [h.1.len_eq, h.keys_eq, BoundedMap.size]

lemma Abstracts.lookup_eq (h : Abstracts m f) {o : Option V}
    (ho : ∀ v, o = some v ↔ m.Has k v) : o = f.entries.lookup k := by
  apply Option.ext
  intro v
  simp only [ho, h.2]

lemma Abstracts.room_iff (h : Abstracts m f) :
    (k ∈ f.entries ∨ f.size < maxLoad) ↔ ¬ (k ∉ m.keys ∧ m.len = maxLoad) := by
  have hle := h.1.len_le
  rw [← h.mem_keys_iff, ← h.len_eq]
  constructor
  · rintro (hk | hlt) ⟨hk', hfull⟩
    · exact hk' hk
    · omega
  · intro hn
    by_cases hk : k ∈ m.keys
    · exact .inl hk
    · exact .inr (by
        by_contra hc
        exact hn ⟨hk, by omega⟩)

lemma Abstracts.store (h : Abstracts m f) {m' : FixedMap V} {v : V}
    (hwf : m'.Wf) (hhas : ∀ k' x, m'.Has k' x ↔ if k' = k then x = v else m.Has k' x)
    (hroom : k ∈ f.entries ∨ f.size < maxLoad) : Abstracts m' (f.store k v hroom) := by
  refine ⟨hwf, fun k' x => ?_⟩
  rw [hhas, BoundedMap.store]
  by_cases hk : k' = k
  · subst hk
    simp [Finmap.lookup_insert, eq_comm]
  · simp [hk, Finmap.lookup_insert_of_ne, h.2]

end

lemma step_agrees {m : FixedMap V} {f : BoundedMap UInt64 V maxLoad} (op : MapOp UInt64 V)
    (h : Abstracts m f) : Agree Abstracts (m.step op) (f.step op) := by
  cases op with
  | insert k v =>
    obtain ⟨⟨m', b⟩, hr, hwf, hb, hhas⟩ := insert_spec h.1 k v
    simp only [step, hr, Exec.ok_bind, BoundedMap.step]
    by_cases hroom : k ∈ f.entries ∨ f.size < maxLoad
    · obtain rfl : b = true := by
        rw [← Bool.not_eq_false, hb]
        exact h.room_iff.mp hroom
      rw [dif_pos hroom]
      exact ⟨h.store hwf (by simpa using hhas) hroom, rfl⟩
    · obtain rfl : b = false := hb.mpr (by
        by_contra hc
        exact hroom (h.room_iff.mpr hc))
      rw [dif_neg hroom]
      exact ⟨⟨hwf, by simpa [h.2] using hhas⟩, rfl⟩
  | get k =>
    obtain ⟨o, hr, ho⟩ := get_spec h.1 k
    simp only [step, hr, Exec.ok_bind, BoundedMap.step]
    exact ⟨h, by rw [h.lookup_eq ho]⟩
  | getMut k write =>
    obtain ⟨⟨m', o⟩, hr, hwf, ho, hhas⟩ := getMut_spec h.1 k write
    have hlookup : o = f.entries.lookup k := h.lookup_eq ho
    simp only [step, hr, Exec.ok_bind, BoundedMap.step]
    by_cases hk : k ∈ f.entries
    · obtain ⟨v, hv⟩ := Finmap.mem_iff.mp hk
      rw [dif_pos hk, hv]
      refine ⟨h.store hwf (fun k' x => (hhas k' x).trans ?_) (.inl hk), by rw [hlookup, hv]⟩
      by_cases hk' : k' = k <;> simp [hk', h.2, hv]
    · rw [dif_neg hk]
      have hnone : f.entries.lookup k = none := Finmap.lookup_eq_none.mpr hk
      refine ⟨⟨hwf, fun k' x => (hhas k' x).trans ?_⟩, by rw [hlookup, hnone]⟩
      by_cases hk' : k' = k
      · subst hk'
        simp [h.2, hnone]
      · simp [hk', h.2]
  | remove k =>
    obtain ⟨⟨m', o⟩, hr, hwf, ho, hhas⟩ := remove_spec h.1 k
    have hlookup : o = f.entries.lookup k := h.lookup_eq ho
    simp only [step, hr, Exec.ok_bind, BoundedMap.step]
    refine ⟨⟨hwf, fun k' x => (hhas k' x).trans ?_⟩, by rw [hlookup]⟩
    rw [BoundedMap.erase, h.2]
    by_cases hk' : k' = k
    · subst hk'
      simp
    · simp [hk', Finmap.lookup_erase_ne]
  | getOrInsert k default write =>
    simp only [step, BoundedMap.step]
    by_cases hroom : k ∈ f.entries ∨ f.size < maxLoad
    · have hroom' : k ∈ m.keys ∨ m.len < maxLoad := by
        rwa [h.mem_keys_iff, h.len_eq]
      obtain ⟨⟨m', v⟩, hr, hwf, hv, hhas⟩ := getOrInsert_spec h.1 default write hroom'
      simp only [hr, Exec.ok_bind]
      rw [dif_pos hroom]
      have hval : v = (f.entries.lookup k).getD default := by
        rcases hv with hold | ⟨hnew, rfl⟩
        · rw [(h.2 k v).mp hold, Option.getD_some]
        · rw [h.mem_keys_iff, ← Finmap.lookup_eq_none] at hnew
          rw [hnew, Option.getD_none]
      refine ⟨h.store hwf ?_ hroom, by rw [hval]⟩
      simpa [hval] using hhas
    · have hfull : k ∉ m.keys ∧ m.len = maxLoad := by
        by_contra hc
        exact hroom (h.room_iff.mpr hc)
      rw [getOrInsert_full h.1 default write hfull.1 hfull.2, dif_neg hroom]
      trivial
  | clear =>
    obtain ⟨hwf, hnone⟩ := clear_spec h.1
    exact ⟨⟨hwf, fun k v => by simp [hnone, BoundedMap.empty]⟩, rfl⟩
  | len =>
    exact ⟨h, by rw [h.len_eq]⟩

lemma abstracts_new : Abstracts (new : FixedMap V) BoundedMap.empty :=
  ⟨wf_new, fun k v => by simp [not_has_none, new, BoundedMap.empty]⟩

/-- **The table is a bounded partial map.**  Whatever operations are run on a
fresh `FixedMap`, with whatever keys, their outputs are those of a finite partial
map with at most 12288 entries — including the abort of `get_or_insert` on a new
key of a full map — and no probe or backward-shift loop runs forever. -/
theorem fixedMap_refines_boundedMap (ops : List (MapOp UInt64 V)) :
    outputs step (new : FixedMap V) ops =
        outputs BoundedMap.step (BoundedMap.empty : BoundedMap UInt64 V 12288) ops ∧
      outputs step (new : FixedMap V) ops ≠ .diverge := by
  have hagree := run_eq_of_sim (R := Abstracts) step_agrees ops (abstracts_new (V := V))
  exact ⟨hagree.outputs_eq, hagree.outputs_ne_diverge⟩

end FixedMap

end Fabric
