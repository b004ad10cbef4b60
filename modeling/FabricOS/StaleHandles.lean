/-
Handles that have been given back.

A slot of the handle table counts its releases in the generation, and a handle is refused when
its generation has passed.  Clearing the table puts all generations back to 0.  The next handle
is then that of slot 0 in generation 0 again, which has been given out before, and whoever kept
it can use it.
-/
import FabricOS.Handles
import FabricOS.Stepwise

open Function List UInt64 Nat Finset

namespace Fabric

open Stepwise HandleTable

def HandleId.key (h : HandleId) : Fin maxHandles × UInt16 := (h.slot, h.generation)

lemma maxHandles_pos : 0 < maxHandles := by decide

def firstKey : Fin maxHandles × UInt16 := (⟨0, maxHandles_pos⟩, 0)

namespace HandleTable

variable {t : HandleTable} {handle : HandleId}

def activeSlots (t : HandleTable) : Finset (Fin maxHandles) :=
  Finset.univ.filter fun i => (t.entries i).active = true

lemma release_eq_ok : (t.release handle).2 = .ok () ↔
    (t.entries handle.slot).Live handle.generation := by
  constructor
  · intro h
    rw [release] at h
    split_ifs at h with hactive hgen
    refine ⟨by simpa using hactive, by simpa using hgen⟩
  · intro h
    rw [release_of_live h]

lemma release_of_not_live (h : ¬ (t.entries handle.slot).Live handle.generation) :
    (t.release handle).1 = t := by
  rw [release]
  split_ifs with hactive hgen
  · rfl
  · rfl
  · refine absurd ⟨?_, ?_⟩ h
    · simpa using hactive
    · simpa using hgen

lemma alloc_cases (t : HandleTable) (capId : UInt64) :
    t.alloc capId = (t, .error .tableFull) ∨
    ∃ i handle, firstSlot (fun i => !(t.entries i).active) = some i ∧
      handle.slot = i ∧ handle.generation = (t.entries i).generation ∧
      t.alloc capId = (⟨update t.entries i { t.entries i with capId, active := true },
        t.count + 1⟩, .ok handle) := by
  cases hslot : firstSlot (fun i => !(t.entries i).active) with
  | none =>
    left
    simp only [alloc, hslot]
  | some i =>
    right
    refine ⟨i, .pack (.ofNat i.val) (t.entries i).generation, rfl, ?_, ?_, ?_⟩
    · rw [HandleId.slot_pack]
      exact Fin.ext (mod_eq_of_lt i.isLt)
    · exact HandleId.generation_pack _ _
    · simp only [alloc, hslot]

variable {i : Fin maxHandles}

lemma mem_activeSlots : i ∈ t.activeSlots ↔ (t.entries i).active = true := by
  simp [activeSlots]

lemma firstSlot_new : firstSlot (fun i => !(new.entries i).active) = some firstKey.1 := by
  refine firstSlot_eq_some.mpr ⟨rfl, fun j hj => ?_⟩
  exact absurd hj (not_lt_zero _)

lemma not_live_new (i : Fin maxHandles) (gen : UInt16) : ¬ (new.entries i).Live gen := by
  intro h
  cases h.1

lemma card_activeSlots_use {e : HandleEntry} {count : UInt64}
    (hfree : (t.entries i).active = false) (he : e.active = true) :
    (HandleTable.mk (update t.entries i e) count).activeSlots.card = t.activeSlots.card + 1 := by
  have hinsert : (HandleTable.mk (update t.entries i e) count).activeSlots =
      insert i t.activeSlots := by
    ext j
    by_cases hj : j = i
    · subst hj
      simp [activeSlots, he]
    · simp [activeSlots, hj]
  rw [hinsert, card_insert_of_notMem]
  rw [mem_activeSlots, hfree]
  decide

lemma card_activeSlots_free (t : HandleTable) (e : HandleEntry)
    (count : UInt64) (hused : (t.entries i).active = true) (he : e.active = false) :
    (HandleTable.mk (update t.entries i e) count).activeSlots.card + 1 = t.activeSlots.card := by
  have herase : (HandleTable.mk (update t.entries i e) count).activeSlots =
      t.activeSlots.erase i := by
    ext j
    by_cases hj : j = i
    · subst hj
      simp [activeSlots, he]
    · simp [activeSlots, hj]
  rw [herase, card_erase_add_one]
  rw [mem_activeSlots, hused]

lemma card_activeSlots_le : t.activeSlots.card ≤ maxHandles :=
  (card_filter_le _ _).trans (by simp)

end HandleTable

/-! ### Runs -/

/-- Whether handles have been given out, and whether the table was cleared after that. -/
inductive HandlePhase
  | unused
  | used
  | wiped
  deriving DecidableEq

structure HandleRun where
  table : HandleTable
  /-- The handles given out and not given back, with their capabilities. -/
  live : List (HandleId × UInt64)
  /-- What was released, or lost in a clear. -/
  retired : List (Fin maxHandles × UInt16)
  releases : Fin maxHandles → ℕ
  phase : HandlePhase

namespace HandleRun

inductive Op
  | alloc (capId : UInt64)
  | release (handle : HandleId)
  | clear

def init : HandleRun := ⟨.new, [], [], fun _ => 0, .unused⟩

def step (s : HandleRun) : Op → HandleRun
  | .alloc capId =>
    match s.table.alloc capId with
    | (table, .ok handle) =>
      { s with
        table := table
        live := (handle, capId) :: s.live
        phase := if s.phase = .unused then .used else s.phase }
    | (table, .error _) => { s with table := table }
  | .release handle =>
    match s.table.release handle with
    | (table, .ok ()) =>
      { s with
        table := table
        live := s.live.filter fun l => l.1.key ≠ handle.key
        retired := handle.key :: s.retired
        releases := Function.update s.releases handle.slot (s.releases handle.slot + 1) }
    | (table, .error _) => { s with table := table }
  | .clear =>
    { s with
      table := s.table.clear
      live := []
      retired := s.live.map (·.1.key) ++ s.retired
      phase := if s.phase = .used then .wiped else s.phase }

def run (ops : List Op) : HandleRun := ops.foldl step init

/-- Stale handles are refused, live ones are good for their capabilities, and the count is
right. -/
structure Sound (s : HandleRun) : Prop where
  stale : ∀ handle : HandleId, handle.key ∈ s.retired →
    (∀ capId, s.table.resolve handle ≠ .ok capId) ∧ (s.table.release handle).2 ≠ .ok ()
  live : ∀ handle capId, (handle, capId) ∈ s.live → s.table.resolve handle = .ok capId
  count : s.table.count.toNat = s.table.activeSlots.card

/-- No handle is given out once the table has been wiped. -/
def KeepsWiped (s : HandleRun) (op : Op) : Prop := ∀ capId, op = .alloc capId → s.phase ≠ .wiped

variable {s : HandleRun} {op : Op} {ops : List Op}

/-! ### What holds along a run -/

structure Inv (s : HandleRun) : Prop where
  live : ∀ handle capId, (handle, capId) ∈ s.live →
    (s.table.entries handle.slot).Live handle.generation ∧
      (s.table.entries handle.slot).capId = capId
  count : s.table.count.toNat = s.table.activeSlots.card
  /-- The generation is the number of releases, which are those of earlier generations. -/
  generation : s.phase ≠ .wiped → ∀ i, (s.table.entries i).generation.toNat = s.releases i
  retired : s.phase ≠ .wiped → ∀ k ∈ s.retired, k.2.toNat < s.releases k.1
  unused : s.phase = .unused → s.table = .new ∧ s.live = []
  /-- The first handle that was given out is still known. -/
  used : s.phase = .used → firstKey ∈ s.retired ∨ ∃ l ∈ s.live, l.1.key = firstKey
  wiped : s.phase = .wiped → s.table = .new ∧ firstKey ∈ s.retired

lemma inv_init : Inv init where
  live handle capId h := by cases h
  count := by
    have hnone : HandleTable.new.activeSlots = ∅ := by
      refine eq_empty_of_forall_notMem fun i hi => ?_
      cases mem_activeSlots.mp hi
    show (0 : UInt64).toNat = HandleTable.new.activeSlots.card
    rw [hnone]
    rfl
  generation _ i := rfl
  retired _ k h := by cases h
  unused _ := ⟨rfl, rfl⟩
  used h := by cases h
  wiped h := by cases h

lemma Inv.sound (h : Inv s) : Sound s where
  stale handle hretired := by
    have hdead : ¬ (s.table.entries handle.slot).Live handle.generation := by
      by_cases hphase : s.phase = .wiped
      · rw [(h.wiped hphase).1]
        exact not_live_new _ _
      rintro ⟨-, hgen⟩
      have hlt := h.retired hphase _ hretired
      have hcount := h.generation hphase handle.slot
      rw [hgen] at hcount
      exact absurd hlt (not_lt.mpr hcount.ge)
    refine ⟨fun capId hok => hdead (resolve_eq_ok.mp hok).1, fun hok => ?_⟩
    exact hdead (release_eq_ok.mp hok)
  live handle capId hlive := resolve_eq_ok.mpr (h.live handle capId hlive)
  count := h.count

lemma step_release_of_not_live {handle : HandleId}
    (h : ¬ (s.table.entries handle.slot).Live handle.generation) :
    s.step (.release handle) = s := by
  have htable := release_of_not_live h
  have hresult : (s.table.release handle).2 ≠ .ok () := fun hok =>
    h (release_eq_ok.mp hok)
  simp only [step]
  rcases hrelease : s.table.release handle with ⟨table, _ | _⟩
  · rw [hrelease] at htable
    obtain rfl := htable
    rfl
  · rw [hrelease] at hresult
    exact absurd rfl hresult

lemma Inv.alloc (h : Inv s) (capId : UInt64) (hphase : s.phase ≠ .wiped) :
    Inv (s.step (.alloc capId)) := by
  obtain hfull | ⟨i, handle, hfirst, hslot, hgen, halloc⟩ := s.table.alloc_cases capId
  · simp only [step, hfull]
    exact h
  have hfree : (s.table.entries i).active = false := by
    simpa using (firstSlot_eq_some.mp hfirst).1
  have hcard := s.table.card_activeSlots_le
  have hphase' : (if s.phase = .unused then HandlePhase.used else s.phase) ≠ .wiped := by
    split_ifs
    · decide
    · exact hphase
  simp only [step, halloc]
  refine ⟨fun handle' capId' hlive => ?_, ?_, fun _ j => ?_, fun _ => h.retired hphase,
    fun hun => ?_, fun _ => ?_, fun hwiped => absurd hwiped hphase'⟩
  · obtain heq | hlive := mem_cons.mp hlive
    · cases heq
      dsimp only
      rw [hslot, update_self]
      exact ⟨⟨rfl, hgen.symm⟩, rfl⟩
    · -- a slot with a live handle is not free
      obtain ⟨hgood, hcap⟩ := h.live handle' capId' hlive
      have hne : handle'.slot ≠ i := by
        rintro rfl
        cases hfree.symm.trans hgood.1
      simp only [update_of_ne hne]
      exact ⟨hgood, hcap⟩
  · rw [card_activeSlots_use hfree rfl, ← h.count, UInt64.toNat_add]
    have hcount := h.count
    have hmax : maxHandles = 256 := rfl
    rw [toNat_one]
    omega
  · by_cases hj : j = i
    · subst hj
      simp only [update_self]
      exact h.generation hphase j
    · simp only [update_of_ne hj]
      exact h.generation hphase j
  · split_ifs at hun with hunused
    exact absurd hun hunused
  · by_cases hunused : s.phase = .unused
    · -- the first of all handles
      refine .inr ⟨_, mem_cons_self, ?_⟩
      rw [(h.unused hunused).1, firstSlot_new] at hfirst
      cases hfirst
      show (handle.slot, handle.generation) = firstKey
      rw [hslot, hgen, (h.unused hunused).1]
      rfl
    · have hused : s.phase = .used := by
        cases hs : s.phase with
        | unused => exact absurd hs hunused
        | used => rfl
        | wiped => exact absurd hs hphase
      refine (h.used hused).imp_right ?_
      rintro ⟨l, hl, hkey⟩
      exact ⟨l, mem_cons_of_mem _ hl, hkey⟩

lemma Inv.release (h : Inv s) (handle : HandleId)
    (hbound : ∀ i, (s.step (.release handle)).releases i ≤ 65535) :
    Inv (s.step (.release handle)) := by
  by_cases hlive : (s.table.entries handle.slot).Live handle.generation
  · have hphase : s.phase = .used := by
      cases hs : s.phase with
      | unused =>
        rw [(h.unused hs).1] at hlive
        exact absurd hlive (not_live_new _ _)
      | used => rfl
      | wiped =>
        rw [(h.wiped hs).1] at hlive
        exact absurd hlive (not_live_new _ _)
    have hnotWiped : s.phase ≠ .wiped := by
      rw [hphase]
      decide
    have hgeneration := h.generation hnotWiped
    have hretired := h.retired hnotWiped
    simp only [step, release_of_live hlive] at hbound ⊢
    have hslot := hbound handle.slot
    rw [update_self] at hslot
    have hcurrent := hgeneration handle.slot
    rw [hlive.2] at hcurrent
    refine ⟨fun handle' capId' hlive' => ?_, ?_, fun _ j => ?_, fun _ k hk => ?_,
      fun hun => ?_, fun _ => ?_, fun hwiped => ?_⟩
    · obtain ⟨hmem, hkey⟩ := mem_filter.mp hlive'
      obtain ⟨hgood, hcap⟩ := h.live handle' capId' hmem
      -- only one handle of a slot is live
      have hne : handle'.slot ≠ handle.slot := by
        intro heq
        rw [heq] at hgood
        have hsame : handle'.key = handle.key :=
          Prod.ext heq (hgood.2.symm.trans hlive.2)
        simp [hsame] at hkey
      simp only [update_of_ne hne]
      exact ⟨hgood, hcap⟩
    · have hcard := s.table.card_activeSlots_free
        ⟨0, false, handle.generation + 1⟩ (s.table.count - 1) hlive.1 rfl
      have hone : (1 : UInt64) ≤ s.table.count := by
        rw [le_iff_toNat_le, toNat_one, h.count]
        omega
      rw [UInt64.toNat_sub_of_le _ _ hone, toNat_one, h.count]
      exact (Nat.eq_sub_of_add_eq hcard).symm
    · by_cases hj : j = handle.slot
      · subst hj
        simp only [update_self]
        rw [UInt16.toNat_add, UInt16.toNat_one, hcurrent]
        exact mod_eq_of_lt (by omega)
      · simp only [update_of_ne hj]
        exact hgeneration j
    · obtain rfl | hk := mem_cons.mp hk
      · show handle.generation.toNat <
          update s.releases handle.slot (s.releases handle.slot + 1) handle.slot
        rw [update_self]
        exact lt_succ_of_le hcurrent.le
      · have hlt := hretired k hk
        show k.2.toNat < update s.releases handle.slot (s.releases handle.slot + 1) k.1
        by_cases hj : k.1 = handle.slot
        · rw [hj] at hlt ⊢
          rw [update_self]
          exact lt_succ_of_lt hlt
        · rw [update_of_ne hj]
          exact hlt
    · rw [hphase] at hun
      cases hun
    · obtain hmem | ⟨l, hl, hkey⟩ := h.used hphase
      · exact .inl (mem_cons_of_mem _ hmem)
      · by_cases hsame : l.1.key = handle.key
        · exact .inl (mem_cons.mpr (.inl (hkey.symm.trans hsame)))
        · exact .inr ⟨l, mem_filter.mpr ⟨hl, by simpa using hsame⟩, hkey⟩
    · rw [hphase] at hwiped
      cases hwiped
  · rw [step_release_of_not_live hlive]
    exact h

lemma Inv.clear (h : Inv s) : Inv (s.step .clear) := by
  have hphase : (s.step .clear).phase = if s.phase = .used then .wiped else s.phase := rfl
  have hlive : ∀ handle capId, (handle, capId) ∉ (s.step .clear).live := fun _ _ hmem => by
    cases hmem
  have hwiped : (s.step .clear).phase = .wiped →
      firstKey ∈ s.live.map (·.1.key) ++ s.retired → Inv (s.step .clear) := by
    intro hphase hkey
    refine ⟨fun handle capId hmem => absurd hmem (hlive handle capId), inv_init.count,
      fun hne => absurd hphase hne, fun hne => absurd hphase hne, fun hun => ?_, fun hused => ?_,
      fun _ => ⟨rfl, hkey⟩⟩
    · cases hphase.symm.trans hun
    · cases hphase.symm.trans hused
  cases hs : s.phase with
  | unused =>
    -- nothing has been given out
    rw [hs, if_neg (by decide)] at hphase
    obtain ⟨htable, hnone⟩ := h.unused hs
    have hnotWiped : s.phase ≠ .wiped := by
      rw [hs]
      decide
    have hretired : (s.step .clear).retired = s.retired := by
      show s.live.map (·.1.key) ++ s.retired = s.retired
      rw [hnone, map_nil, nil_append]
    refine ⟨fun handle capId hmem => absurd hmem (hlive handle capId), inv_init.count,
      fun _ i => ?_, fun _ => ?_, fun _ => ⟨rfl, rfl⟩, fun hused => ?_, fun hwiped => ?_⟩
    · have hgen := h.generation hnotWiped i
      rw [htable] at hgen
      exact hgen
    · rw [hretired]
      exact h.retired hnotWiped
    · cases hphase.symm.trans hused
    · cases hphase.symm.trans hwiped
  | used =>
    refine hwiped (by rw [hphase, hs, if_pos rfl]) ?_
    obtain hmem | ⟨l, hl, hkey⟩ := h.used hs
    · exact mem_append_right _ hmem
    · exact mem_append_left _ (mem_map.mpr ⟨l, hl, hkey⟩)
  | wiped =>
    exact hwiped (by rw [hphase, hs, if_neg (by decide)]) (mem_append_right _ (h.wiped hs).2)

lemma Inv.not_sound_alloc (h : Inv s) (hwiped : s.phase = .wiped) (capId : UInt64) :
    ¬ Sound (s.step (.alloc capId)) := by
  intro hsound
  obtain ⟨htable, hretired⟩ := h.wiped hwiped
  obtain hfull | ⟨i, handle, hfirst, hslot, hgen, halloc⟩ := s.table.alloc_cases capId
  · rw [htable, HandleTable.alloc, firstSlot_new] at hfull
    cases (Prod.mk.inj hfull).2
  have hkey : handle.key = firstKey := by
    rw [htable, firstSlot_new] at hfirst
    cases hfirst
    show (handle.slot, handle.generation) = firstKey
    rw [hslot, hgen, htable]
    rfl
  have hlive : (handle, capId) ∈ (s.step (.alloc capId)).live := by
    simp only [step, halloc]
    exact mem_cons_self
  have hstale : handle.key ∈ (s.step (.alloc capId)).retired := by
    simp only [step, halloc]
    rw [hkey]
    exact hretired
  exact (hsound.stale handle hstale).1 capId (hsound.live handle capId hlive)

lemma releases_mono (s : HandleRun) (op : Op) (i : Fin maxHandles) :
    s.releases i ≤ (s.step op).releases i := by
  cases op with
  | alloc capId =>
    simp only [step]
    split <;> exact le_rfl
  | release handle =>
    simp only [step]
    split
    · by_cases hi : i = handle.slot
      · subst hi
        simp
      · simp [hi]
    · exact le_rfl
  | clear => exact le_rfl

lemma Inv.step (h : Inv s) (hop : KeepsWiped s op)
    (hbound : ∀ i, (s.step op).releases i ≤ 65535) : Inv (s.step op) := by
  cases op with
  | alloc capId => exact h.alloc capId (hop capId rfl)
  | release handle => exact h.release handle hbound
  | clear => exact h.clear

lemma releases_run_mono {ops ops' : List Op} (hpre : ops <+: ops') (i : Fin maxHandles) :
    (run ops).releases i ≤ (run ops').releases i := by
  obtain ⟨rest, rfl⟩ := hpre
  rw [run, run, foldl_append]
  generalize ops.foldl HandleRun.step init = s
  induction rest generalizing s with
  | nil => exact le_rfl
  | cons op rest ih => exact (releases_mono s op i).trans (ih (s.step op))

/-- **Stale handles are refused** exactly if no handle is given out after a clear that came
after one. -/
theorem stale_handles_refused_iff (ops : List Op) (hbound : ∀ i, (run ops).releases i ≤ 65535) :
    (∀ pre, pre <+: ops → Sound (run pre)) ↔ Always HandleRun.step KeepsWiped init ops := by
  have hruns : (∀ pre, pre <+: ops → Sound (run pre)) ↔
      Always HandleRun.step (fun s op => Sound (s.step op)) init ops := by
    constructor
    · intro h before op hpre
      have hsound := h _ hpre
      rw [run, foldl_append] at hsound
      exact hsound
    · intro h pre hpre
      obtain rfl | ⟨before, op, rfl⟩ := eq_nil_or_concat' pre
      · exact inv_init.sound
      · rw [run, foldl_append]
        exact h before op hpre
  rw [hruns]
  refine always_iff fun before op hpre hkeeps => ?_
  have hbefore : ∀ i, (run before).releases i ≤ 65535 := fun i =>
    (releases_run_mono ((prefix_append before [op]).trans hpre) i).trans (hbound i)
  have hinv : Inv (run before) := by
    refine hkeeps.inv (fun s => (∀ i, s.releases i ≤ 65535) → Inv s) (fun _ => inv_init)
      (fun s op _ hs hop hle => ?_) hbefore
    exact (hs fun i => (releases_mono s op i).trans (hle i)).step hop hle
  constructor
  · rintro hsound capId rfl hwiped
    exact hinv.not_sound_alloc hwiped capId hsound
  · intro hop
    refine (hinv.step hop fun i => ?_).sound
    have hle := releases_run_mono hpre i
    rw [run, foldl_append] at hle
    exact hle.trans (hbound i)

/-- A slot is used twice, and its handles do not stand in for each other. -/
theorem reused_slot_refuses : Sound (run [.alloc 7, .release (.pack 0 0), .alloc 9, .clear]) := by
  refine (stale_handles_refused_iff _ (by decide +kernel)).mpr ?_ _ (prefix_refl _)
  show Always HandleRun.step KeepsWiped init
    (((([] ++ [.alloc 7]) ++ [.release (.pack 0 0)]) ++ [.alloc 9]) ++ [.clear])
  rw [always_concat, always_concat, always_concat, always_concat]
  refine ⟨⟨⟨⟨always_nil, fun _ _ => ?_⟩, fun _ h => ?_⟩, fun _ _ => ?_⟩, fun _ h => ?_⟩
  · decide
  · cases h
  · decide +kernel
  · cases h

/-- A process holds a handle for capability 7 when it is restarted.  Afterwards the same handle
stands for capability 9. -/
theorem stale_after_restart : (HandleId.pack 0 0).key ∈ (run [.alloc 7, .clear, .alloc 9]).retired ∧
    (run [.alloc 7, .clear, .alloc 9]).table.resolve (.pack 0 0) = .ok 9 ∧
    ¬ ∀ pre, pre <+: [.alloc 7, .clear, .alloc 9] → Sound (run pre) := by
  have hstale : (HandleId.pack 0 0).key ∈ (run [.alloc 7, .clear, .alloc 9]).retired := by
    decide +kernel
  have hresolves : (run [.alloc 7, .clear, .alloc 9]).table.resolve (.pack 0 0) = .ok 9 := by
    rw [resolve_eq_ok]
    decide +kernel
  refine ⟨hstale, hresolves, fun h => ?_⟩
  exact ((h _ (prefix_refl _)).stale (.pack 0 0) hstale).1 9 hresolves

end HandleRun

end Fabric
