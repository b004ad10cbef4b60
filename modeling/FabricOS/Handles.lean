/-
The handle table of a process (`handle/table.rs`, and `HandleId` of `fabric_types`).

A handle names a slot together with the generation that the slot had when the handle was
given out; releasing a handle starts the next generation of its slot.
-/
import FabricOS.Slots

open Function

namespace Fabric

/-- `MAX_HANDLES`. -/
def maxHandles : ℕ := 256

/-- A slot (bits 0 to 7) and a generation (bits 8 to 23). -/
structure HandleId where
  raw : UInt64
  deriving DecidableEq

namespace HandleId

/-- The slot; as it has eight bits, the check `slot >= MAX_HANDLES` never fails. -/
def slot (h : HandleId) : Fin maxHandles :=
  ⟨(h.raw &&& 0xFF).toNat, by
    rw [UInt64.toNat_and]
    exact Nat.lt_of_le_of_lt Nat.and_le_right (by decide)⟩

def generation (h : HandleId) : UInt16 := ((h.raw >>> 8) &&& 0xFFFF).toUInt16

def pack (slot : UInt8) (gen : UInt16) : HandleId :=
  ⟨slot.toUInt64 ||| (gen.toUInt64 <<< 8)⟩

lemma toNat_pack (slot : UInt8) (gen : UInt16) :
    (pack slot gen).raw.toNat = slot.toNat ||| gen.toNat <<< 8 := by
  have hgen := gen.toNat_lt
  have hshift : gen.toNat <<< 8 < 2 ^ 64 := by
    omega
  simp only [pack, UInt64.toNat_or, UInt64.toNat_shiftLeft, UInt8.toNat_toUInt64,
    UInt16.toNat_toUInt64, UInt64.reduceToNat, Nat.reduceMod, Nat.mod_eq_of_lt hshift]

@[simp] lemma slot_pack (slot : UInt8) (gen : UInt16) : (pack slot gen).slot = slot.toFin := by
  apply Fin.ext
  simp only [HandleId.slot, UInt64.toNat_and, toNat_pack]
  exact packed_and slot.toNat_lt gen.toNat

@[simp] lemma generation_pack (slot : UInt8) (gen : UInt16) : (pack slot gen).generation = gen := by
  apply UInt16.toNat_inj.mp
  have hgen := gen.toNat_lt
  have hparts := packed_shiftRight slot.toNat_lt hgen
  simp only [generation, UInt64.toNat_toUInt16, UInt64.toNat_and, UInt64.toNat_shiftRight,
    toNat_pack, UInt64.reduceToNat, Nat.reduceMod]
  omega

end HandleId

inductive HandleError
  | tableFull
  | staleGeneration
  | notActive
  deriving DecidableEq

structure HandleEntry where
  capId : UInt64
  active : Bool
  /-- Grows with each release. -/
  generation : UInt16
  deriving DecidableEq

namespace HandleEntry

def empty : HandleEntry where
  capId := 0
  active := false
  generation := 0

def Live (e : HandleEntry) (gen : UInt16) : Prop := e.active = true ∧ e.generation = gen

instance (e : HandleEntry) (gen : UInt16) : Decidable (e.Live gen) :=
  inferInstanceAs (Decidable (_ ∧ _))

end HandleEntry

structure HandleTable where
  entries : Fin maxHandles → HandleEntry
  count : UInt64

namespace HandleTable

def new : HandleTable := ⟨fun _ => .empty, 0⟩

def alloc (t : HandleTable) (capId : UInt64) : HandleTable × Except HandleError HandleId :=
  match firstSlot fun i => !(t.entries i).active with
  | none => (t, .error .tableFull)
  | some i =>
    let entry := { t.entries i with capId, active := true }
    (⟨update t.entries i entry, t.count + 1⟩,
      .ok (.pack (.ofNat i.val) (t.entries i).generation))

def resolve (t : HandleTable) (handle : HandleId) : Except HandleError UInt64 :=
  let entry := t.entries handle.slot
  if !entry.active then .error .notActive
  else if entry.generation != handle.generation then .error .staleGeneration
  else .ok entry.capId

def release (t : HandleTable) (handle : HandleId) : HandleTable × Except HandleError Unit :=
  let entry := t.entries handle.slot
  if !entry.active then (t, .error .notActive)
  else if entry.generation != handle.generation then (t, .error .staleGeneration)
  else
    let entry := { capId := 0, active := false, generation := entry.generation + 1 }
    (⟨update t.entries handle.slot entry, t.count - 1⟩, .ok ())

def clear (_ : HandleTable) : HandleTable := ⟨fun _ => .empty, 0⟩

/-! ### What the operations do -/

variable {t t' : HandleTable} {capId : UInt64} {handle : HandleId}

lemma alloc_eq_ok (h : t.alloc capId = (t', .ok handle)) :
    ∃ i, firstSlot (fun i => !(t.entries i).active) = some i ∧
      handle = .pack (.ofNat i.val) (t.entries i).generation ∧ handle.slot = i ∧
      t'.entries = update t.entries i { t.entries i with capId, active := true } := by
  rw [alloc] at h
  split at h
  · cases h
  rename_i i hi
  obtain ⟨rfl, hok⟩ := Prod.mk.inj h
  obtain rfl := Except.ok.inj hok
  refine ⟨i, hi, rfl, ?_, rfl⟩
  rw [HandleId.slot_pack]
  exact Fin.ext (Nat.mod_eq_of_lt i.isLt)

/-- The slots below `n` are in use, the others are not, and none was ever released. -/
structure Filled (t : HandleTable) (n : ℕ) : Prop where
  active : ∀ i, (t.entries i).active = true ↔ i.val < n
  generation : ∀ i, (t.entries i).generation = 0

lemma filled_new : new.Filled 0 := ⟨fun _ => by simp [new, HandleEntry.empty], fun _ => rfl⟩

lemma Filled.firstSlot_eq {n : ℕ} (h : t.Filled n) (hn : n < maxHandles) :
    firstSlot (fun i => !(t.entries i).active) = some ⟨n, hn⟩ := by
  refine firstSlot_eq_some.mpr ⟨?_, fun j hj => ?_⟩
  · have hfree : (t.entries ⟨n, hn⟩).active ≠ true := fun hact =>
      absurd ((h.active _).mp hact) (by simp)
    simpa using hfree
  · simpa using (h.active j).mpr hj

lemma Filled.alloc {n : ℕ} (h : t.Filled n) (hn : n < maxHandles) (capId : UInt64) :
    ∃ t', t.alloc capId = (t', .ok (.pack (.ofNat n) 0)) ∧ t'.Filled (n + 1) ∧
      t'.entries = update t.entries ⟨n, hn⟩ ⟨capId, true, 0⟩ := by
  refine ⟨⟨update t.entries ⟨n, hn⟩ ⟨capId, true, 0⟩, t.count + 1⟩, ?_, ⟨fun i => ?_,
    fun i => ?_⟩, rfl⟩
  · simp only [HandleTable.alloc, h.firstSlot_eq hn, h.generation]
  · by_cases hi : i = ⟨n, hn⟩
    · subst hi
      simp
    · have hval : i.val ≠ n := fun heq => hi (Fin.ext heq)
      simp only [update_of_ne hi, h.active]
      omega
  · by_cases hi : i = ⟨n, hn⟩
    · subst hi
      simp
    · simp only [update_of_ne hi, h.generation]

lemma resolve_eq_ok :
    t.resolve handle = .ok capId ↔
      (t.entries handle.slot).Live handle.generation ∧
        (t.entries handle.slot).capId = capId := by
  rw [resolve, HandleEntry.Live]
  cases (t.entries handle.slot).active with
  | false => simp
  | true =>
    by_cases hgen : (t.entries handle.slot).generation = handle.generation <;> simp [hgen]

lemma release_of_live (h : (t.entries handle.slot).Live handle.generation) :
    t.release handle = (⟨update t.entries handle.slot
      { capId := 0, active := false, generation := handle.generation + 1 }, t.count - 1⟩,
      .ok ()) := by
  obtain ⟨hactive, hgen⟩ := h
  simp [release, hactive, hgen]

end HandleTable

end Fabric
