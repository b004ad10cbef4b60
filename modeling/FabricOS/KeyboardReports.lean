/-
Reports of a boot keyboard (`drivers/usb/hid/hid_input.rs`).

A report shows the keys that are held.  The parser returns its differences to the report before
as events.  The buffer has room for sixteen of them, but a report can make twenty.
-/
import FabricOS.Cpio
import FabricOS.Stepwise
import Mathlib.Data.Finset.Basic
import Mathlib.Data.UInt

open Stepwise List

namespace Fabric

structure KeyEvent where
  usage : UInt8
  pressed : Bool
  modifiers : UInt8

structure BootKeyboardParser where
  prevKeys : List UInt8
  prevModifiers : UInt8
  /-- `events[..event_count]`. -/
  events : List KeyEvent

namespace BootKeyboardParser

def new : BootKeyboardParser := ⟨replicate 6 0, 0, []⟩

def pushEvent (p : BootKeyboardParser) (event : KeyEvent) : BootKeyboardParser :=
  if p.events.length < 16 then { p with events := p.events ++ [event] } else p

def bits : List UInt8 := [0, 1, 2, 3, 4, 5, 6, 7]

def isSet (modifiers bit : UInt8) : Bool := modifiers &&& 1 <<< bit != 0

/-- The events that the three loops push. -/
def changes (p : BootKeyboardParser) (modifiers : UInt8) (keys : List UInt8) : List KeyEvent :=
  (bits.filter fun bit => isSet p.prevModifiers bit != isSet modifiers bit).map
      (fun bit => ⟨0xE0 + bit, isSet modifiers bit, modifiers⟩) ++
    (p.prevKeys.filter fun key => 4 ≤ key && !keys.contains key).map (⟨·, false, modifiers⟩) ++
    (keys.filter fun key => 4 ≤ key && !p.prevKeys.contains key).map (⟨·, true, modifiers⟩)

def processReport (p : BootKeyboardParser) (report : List UInt8) :
    BootKeyboardParser × Option (List KeyEvent) :=
  if report.length < 8 then (p, none)
  else
    let modifiers := report.headD 0
    let keys := slice report 2 8
    -- too many keys are held (`KEY_ERR_ROLLOVER`)
    if keys.all (· == 1) then (p, none)
    else
      let p' := (p.changes modifiers keys).foldl pushEvent { p with events := [] }
      ({ p' with prevModifiers := modifiers, prevKeys := keys }, some p'.events)

/-! ### What the events say -/

def replay (held : Finset UInt8) (event : KeyEvent) : Finset UInt8 :=
  if event.pressed then insert event.usage held else held.erase event.usage

/-- The usages that a report shows as held. -/
def shown (modifiers : UInt8) (keys : List UInt8) : Finset UInt8 :=
  (keys.filter (4 ≤ ·) ++ (bits.filter (isSet modifiers)).map (0xE0 + ·)).toFinset

/-- The parser, and what is held by the events so far. -/
abbrev Watched := BootKeyboardParser × Finset UInt8

def step (s : Watched) (report : List UInt8) : Watched :=
  ((s.1.processReport report).1, ((s.1.processReport report).2.getD []).foldl replay s.2)

def Faithful (s : Watched) (report : List UInt8) : Prop :=
  match (s.1.processReport report).2 with
  | none => step s report = s
  | some _ => (step s report).2 = shown (report.headD 0) (slice report 2 8)

def Fits (s : Watched) (report : List UInt8) : Prop :=
  (s.1.changes (report.headD 0) (slice report 2 8)).length ≤ 16

def Inv (s : Watched) : Prop :=
  (∀ key ∈ s.1.prevKeys, key < 0xE0) ∧ s.2 = shown s.1.prevModifiers s.1.prevKeys

variable {p : BootKeyboardParser} {held target : Finset UInt8} {es : List KeyEvent}
  {modifiers u : UInt8} {keys report : List UInt8} {s : Watched}

lemma foldl_pushEvent (h : p.events.length + es.length ≤ 16) :
    es.foldl pushEvent p = { p with events := p.events ++ es } := by
  induction es generalizing p with
  | nil => simp
  | cons e es ih =>
    rw [length_cons] at h
    rw [foldl_cons, pushEvent, if_pos (by omega), ih (by simp; omega)]
    simp

lemma foldl_replay (hevents : ∀ e ∈ es, e.pressed = decide (e.usage ∈ target))
    (hrest : ∀ u, (∀ e ∈ es, e.usage ≠ u) → (u ∈ held ↔ u ∈ target)) :
    es.foldl replay held = target := by
  induction es generalizing held with
  | nil => exact Finset.ext fun u => hrest u (by simp)
  | cons e es ih =>
    refine ih (fun e he => hevents e (mem_cons_of_mem _ he)) fun u hu => ?_
    have he := hevents e mem_cons_self
    by_cases heq : e.usage = u
    · by_cases hmem : u ∈ target <;> simp [replay, he, heq, hmem]
    · rw [← hrest u (forall_mem_cons.mpr ⟨heq, hu⟩), replay]
      split_ifs <;> simp [Ne.symm heq]

lemma mem_shown : u ∈ shown modifiers keys ↔
    (u ∈ keys ∧ 4 ≤ u) ∨ (u - 0xE0 ∈ bits ∧ isSet modifiers (u - 0xE0) = true) := by
  simp [shown, ← eq_sub_iff_add_eq']

lemma not_mem_bits (h : u < 0xE0) : u - 0xE0 ∉ bits := by
  rw [UInt8.lt_iff_toNat_lt] at h
  simp only [bits, mem_cons, not_mem_nil, or_false, ← UInt8.toNat_inj, UInt8.toNat_sub,
    UInt8.reduceToNat] at h ⊢
  omega

lemma foldl_changes (hprev : ∀ key ∈ p.prevKeys, key < 0xE0) (hkeys : ∀ key ∈ keys, key < 0xE0) :
    (p.changes modifiers keys).foldl replay (shown p.prevModifiers p.prevKeys) =
      shown modifiers keys := by
  refine foldl_replay (fun e he => ?_) fun u hu => ?_
  · simp only [changes, mem_append, mem_map, mem_filter] at he
    obtain (⟨bit, ⟨hbit, -⟩, rfl⟩ | ⟨key, ⟨hkey, hup⟩, rfl⟩) | ⟨key, ⟨hkey, hdown⟩, rfl⟩ := he
    · have hlarge : 0xE0 + bit ∉ keys := fun hmem =>
        not_mem_bits (hkeys _ hmem) (by rwa [add_sub_cancel_left])
      simp [mem_shown, hlarge, hbit]
    · have hout := not_mem_bits (hprev key hkey)
      simp_all [mem_shown]
    · simp_all [mem_shown]
  · rw [mem_shown, mem_shown]
    refine or_congr (and_congr_left fun hlarge => ⟨fun hmem => ?_, fun hmem => ?_⟩)
      (and_congr_right fun hbit => ?_)
    · by_contra hout
      exact hu ⟨u, false, modifiers⟩ (by simp [changes, *]) rfl
    · by_contra hout
      exact hu ⟨u, true, modifiers⟩ (by simp [changes, *]) rfl
    · by_contra hne
      have hchanged := bne_iff_ne.mpr fun heq => hne (Bool.eq_iff_iff.mp heq)
      exact hu _ (mem_append_left _ (mem_append_left _ (mem_map_of_mem
        (mem_filter.mpr ⟨hbit, hchanged⟩)))) (add_sub_cancel _ _)

/-- A report that is long enough, with codes of keys only. -/
def WellFormed (report : List UInt8) : Prop :=
  8 ≤ report.length ∧ ∀ key ∈ slice report 2 8, key < 0xE0

lemma Inv.step (h : Inv s) (hreport : WellFormed report) (hfits : Fits s report) :
    Faithful s report ∧ Inv (step s report) := by
  obtain ⟨p, held⟩ := s
  obtain ⟨hprev, rfl : held = shown p.prevModifiers p.prevKeys⟩ := h
  have hlen : ¬ report.length < 8 := not_lt.mpr hreport.1
  by_cases hphantom : (slice report 2 8).all (· == 1) = true
  · have hstep : p.processReport report = (p, none) := by
      rw [processReport, if_neg hlen, if_pos hphantom]
    simpa [Faithful, BootKeyboardParser.step, hstep, Inv] using hprev
  · let es := p.changes (report.headD 0) (slice report 2 8)
    have hstep : p.processReport report =
        (⟨slice report 2 8, report.headD 0, es⟩, some es) := by
      rw [processReport, if_neg hlen, if_neg hphantom, foldl_pushEvent]
      · rfl
      · exact (Nat.zero_add _).trans_le hfits
    have hheld : es.foldl replay _ = shown (report.headD 0) _ := foldl_changes hprev hreport.2
    simp only [Faithful, BootKeyboardParser.step, hstep, Inv, Option.getD_some]
    exact ⟨hheld, hreport.2, hheld⟩

/-- **Events are faithful** as long as no report makes more than sixteen. -/
theorem events_faithful {reports : List (List UInt8)} (hreports : ∀ r ∈ reports, WellFormed r)
    (hfits : Always step Fits (new, ∅) reports) : Always step Faithful (new, ∅) reports := by
  intro before report hpre
  have hpre' := (prefix_append before [report]).trans hpre
  have hinv : Inv (before.foldl step (new, ∅)) :=
    Always.inv (fun b r hb => hfits b r (hb.trans hpre')) Inv ⟨by simp [new], by decide⟩
      fun s r hr h hfit => (h.step (hreports r (hpre'.mem hr)) hfit).2
  exact (hinv.step (hreports _ (hpre.mem (by simp))) (hfits before report hpre)).1

/-- All six keys are exchanged and the modifiers pressed at once: the last four keys are lost. -/
theorem events_lost :
    ([[0, 0, 4, 5, 6, 7, 8, 9], [255, 0, 10, 11, 12, 13, 14, 15]].foldl step (new, ∅)).2 =
      (shown 255 [10, 11, 12, 13, 14, 15]) \ {12, 13, 14, 15} := by
  decide

/-- The left shift key and two others. -/
theorem shifted_faithful : Always step Faithful (new, ∅) [[2, 0, 4, 5, 0, 0, 0, 0]] :=
  events_faithful (by simp [WellFormed, slice])
    (always_concat.mpr ⟨always_nil, by unfold Fits; decide⟩)

end BootKeyboardParser

end Fabric
