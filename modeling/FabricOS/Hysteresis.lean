/-
The hysteresis of the safety monitor and its sliding window.

A signal that is not critical escalates the state if the weights of such signals in the last
1000 ticks add up to a threshold.  The monitor has room for 32 signals in its window, and what
arrives while there is no room is lost: it is missing from the sum now, and also later, when
the signals before it have left the window.
-/
import FabricOS.SafetyMachines
import FabricOS.Stepwise
import Mathlib.Algebra.Group.Action.Defs
import Mathlib.Algebra.Order.BigOperators.Group.List

open List Nat

namespace Fabric

/-! ### What a signal does -/

namespace SafetyMonitor

variable {m : SafetyMonitor} {signal : SafetySignal} {now : ℕ}

def inWindow (now : ℕ) (signals : List (ℕ × ℕ)) : List (ℕ × ℕ) :=
  signals.filter fun s => now - hysteresisWindowTicks ≤ s.1

def buffered (m : SafetyMonitor) (signal : SafetySignal) (now : ℕ) : List (ℕ × ℕ) :=
  if (inWindow now m.signalBuffer).length < maxSignals then
    inWindow now m.signalBuffer ++ [(now, signal.weight)]
  else inWindow now m.signalBuffer

def cooled (m : SafetyMonitor) (now : ℕ) : Bool :=
  now - m.lastEscalationTick ≥ transitionCooldownTicks

def escalated (state : SafetyState) (cooled : Bool) (sum : ℕ) : SafetyState :=
  if cooled then
    if state = .normal ∧ sum ≥ hysteresisElevatedThreshold then .elevated
    else if state = .elevated ∧ sum ≥ hysteresisChaosThreshold then .chaos
    else state
  else state

lemma reportSignal_of_lt (m : SafetyMonitor) (now : ℕ)
    (h : signal.weight < hysteresisInstantThreshold) :
    (m.reportSignal signal now).state =
      escalated m.state (m.cooled now) (weightedSum (m.buffered signal now)) ∧
    (m.reportSignal signal now).signalBuffer =
      if (m.reportSignal signal now).state = m.state then m.buffered signal now else [] := by
  have hlow : ¬ signal.weight ≥ hysteresisInstantThreshold := not_le.mpr h
  have heq : m.reportSignal signal now =
      if m.cooled now then
        if m.state = .normal ∧
            weightedSum (m.buffered signal now) ≥ hysteresisElevatedThreshold then
          { m.escalate .elevated now with signalBuffer := [] }
        else if m.state = .elevated ∧
            weightedSum (m.buffered signal now) ≥ hysteresisChaosThreshold then
          { m.escalate .chaos now with signalBuffer := [] }
        else { m with signalBuffer := m.buffered signal now }
      else { m with signalBuffer := m.buffered signal now } := by
    unfold reportSignal
    rw [if_neg hlow]
    rfl
  rw [heq, escalated]
  by_cases hcooled : m.cooled now = true
  · rw [if_pos hcooled, if_pos hcooled]
    by_cases hnormal : m.state = .normal ∧
        weightedSum (m.buffered signal now) ≥ hysteresisElevatedThreshold
    · rw [if_pos hnormal, if_pos hnormal]
      simp [escalate, hnormal.1]
    rw [if_neg hnormal, if_neg hnormal]
    by_cases helevated : m.state = .elevated ∧
        weightedSum (m.buffered signal now) ≥ hysteresisChaosThreshold
    · rw [if_pos helevated, if_pos helevated]
      simp [escalate, helevated.1]
    · rw [if_neg helevated, if_neg helevated]
      simp
  · rw [if_neg hcooled, if_neg hcooled]
    simp

lemma reportSignal_of_critical (m : SafetyMonitor) (now : ℕ)
    (h : hysteresisInstantThreshold ≤ signal.weight) :
    (m.reportSignal signal now).signalBuffer = m.signalBuffer := by
  unfold reportSignal
  rw [if_pos h]
  split_ifs <;> rfl

lemma weightedSum_eq (signals : List (ℕ × ℕ)) :
    weightedSum signals = min (signals.map (·.2)).sum (2 ^ 32 - 1) := by
  -- the fold stops growing at the bound
  have hfold : ∀ sum ≤ 2 ^ 32 - 1,
      signals.foldl (fun sum signal => min (sum + signal.2) (2 ^ 32 - 1)) sum =
        min (sum + (signals.map (·.2)).sum) (2 ^ 32 - 1) := by
    induction signals with
    | nil =>
      intro sum hsum
      simpa using hsum
    | cons signal signals ih =>
      intro sum hsum
      rw [foldl_cons, ih _ (min_le_right _ _), map_cons, sum_cons]
      omega
  rw [weightedSum, hfold 0 (zero_le _), zero_add]

lemma weightedSum_of_length_le {signals : List (ℕ × ℕ)} (hlen : signals.length ≤ maxSignals)
    (hweight : ∀ s ∈ signals, s.2 < hysteresisInstantThreshold) :
    weightedSum signals = (signals.map (·.2)).sum := by
  have hsum : (signals.map (·.2)).sum ≤
      (signals.map (·.2)).length • hysteresisInstantThreshold := by
    refine sum_le_card_nsmul _ _ fun w hw => ?_
    obtain ⟨s, hs, rfl⟩ := mem_map.mp hw
    exact (hweight s hs).le
  rw [length_map, smul_eq_mul, hysteresisInstantThreshold] at hsum
  rw [maxSignals] at hlen
  rw [weightedSum_eq]
  omega

lemma inWindow_inWindow {now' : ℕ} (hle : now ≤ now') (signals : List (ℕ × ℕ)) :
    inWindow now' (inWindow now signals) = inWindow now' signals := by
  rw [inWindow, inWindow, inWindow, filter_filter]
  refine filter_congr fun s _ => ?_
  simp only [Bool.and_eq_left_iff_imp, decide_eq_true_eq]
  omega

lemma inWindow_append (signals signals' : List (ℕ × ℕ)) :
    inWindow now (signals ++ signals') = inWindow now signals ++ inWindow now signals' :=
  filter_append _ _

lemma inWindow_singleton (weight : ℕ) : inWindow now [(now, weight)] = [(now, weight)] := by
  simp [inWindow]

end SafetyMonitor

open SafetyMonitor Stepwise

/-! ### The specification -/

/-- A monitor with the signals that are not critical, as many as were reported since the buffer
was last reset. -/
structure SignalRun where
  monitor : SafetyMonitor
  reported : List (ℕ × ℕ)

namespace SignalRun

variable {s : SignalRun} {signal : SafetySignal} {now : ℕ}

def report (s : SignalRun) (signal : SafetySignal) (now : ℕ) : SignalRun where
  monitor := s.monitor.reportSignal signal now
  reported :=
    if hysteresisInstantThreshold ≤ signal.weight then s.reported
    else if (s.monitor.reportSignal signal now).state = s.monitor.state then
      s.reported ++ [(now, signal.weight)]
    else []

def after (s : SignalRun) (reports : List (SafetySignal × ℕ)) : SignalRun :=
  reports.foldl (fun s r => s.report r.1 r.2) s

def windowSum (s : SignalRun) (signal : SafetySignal) (now : ℕ) : ℕ :=
  ((inWindow now (s.reported ++ [(now, signal.weight)])).map (·.2)).sum

/-- The sum that the monitor uses is that of the window, and it escalates as this sum says. -/
def Agrees (s : SignalRun) (signal : SafetySignal) (now : ℕ) : Prop :=
  signal.weight < hysteresisInstantThreshold →
    weightedSum (s.monitor.buffered signal now) = s.windowSum signal now ∧
    (s.monitor.reportSignal signal now).state =
      escalated s.monitor.state (s.monitor.cooled now) (s.windowSum signal now)

def Fits (s : SignalRun) (signal : SafetySignal) (now : ℕ) : Prop :=
  signal.weight < hysteresisInstantThreshold → (inWindow now s.reported).length < maxSignals

lemma after_concat (reports : List (SafetySignal × ℕ)) (r : SafetySignal × ℕ) :
    s.after (reports ++ [r]) = (s.after reports).report r.1 r.2 := by
  rw [after, foldl_append, ← after]
  rfl

/-! ### What the buffer keeps -/

/-- From a tick on, the buffer has what is in the window. -/
structure Tracks (s : SignalRun) (now : ℕ) : Prop where
  buffer : ∀ t, now ≤ t → inWindow t s.monitor.signalBuffer = inWindow t s.reported
  weights : ∀ e ∈ s.monitor.signalBuffer, e.2 < hysteresisInstantThreshold

lemma Tracks.mono (h : s.Tracks now) {now' : ℕ} (hle : now ≤ now') : s.Tracks now' :=
  ⟨fun t ht => h.buffer t (hle.trans ht), h.weights⟩

lemma Tracks.buffered_of_fits (h : s.Tracks now)
    (hfits : (inWindow now s.reported).length < maxSignals) :
    s.monitor.buffered signal now = inWindow now s.reported ++ [(now, signal.weight)] := by
  rw [buffered, h.buffer now le_rfl, if_pos hfits]

lemma Tracks.weights_buffered (h : s.Tracks now)
    (hlow : signal.weight < hysteresisInstantThreshold) :
    ∀ e ∈ s.monitor.buffered signal now, e.2 < hysteresisInstantThreshold := by
  intro e he
  have hkept : e ∈ inWindow now s.monitor.signalBuffer → e.2 < hysteresisInstantThreshold :=
    fun he => h.weights e (mem_filter.mp he).1
  unfold buffered at he
  split_ifs at he
  · obtain he | he := mem_append.mp he
    · exact hkept he
    · rw [mem_singleton.mp he]
      exact hlow
  · exact hkept he

lemma Tracks.report (h : s.Tracks now) (hfits : s.Fits signal now) :
    (s.report signal now).Tracks now := by
  by_cases hlow : signal.weight < hysteresisInstantThreshold
  · have hcritical : ¬ hysteresisInstantThreshold ≤ signal.weight := not_le.mpr hlow
    have hbuffer := (reportSignal_of_lt s.monitor now hlow).2
    by_cases hstate : (s.monitor.reportSignal signal now).state = s.monitor.state
    · rw [if_pos hstate, h.buffered_of_fits (hfits hlow)] at hbuffer
      refine ⟨fun t ht => ?_, ?_⟩
      · simp only [SignalRun.report, hbuffer, hcritical, hstate, if_true, if_false,
          inWindow_append, inWindow_inWindow ht]
      intro e he
      refine h.weights_buffered hlow e ?_
      rw [h.buffered_of_fits (hfits hlow), ← hbuffer]
      exact he
    · rw [if_neg hstate] at hbuffer
      refine ⟨fun t _ => ?_, fun e he => ?_⟩
      · simp only [SignalRun.report, hbuffer, hcritical, hstate, if_false]
      · simp only [SignalRun.report, hbuffer, not_mem_nil] at he
  · have hcritical : hysteresisInstantThreshold ≤ signal.weight := not_lt.mp hlow
    have hbuffer := reportSignal_of_critical s.monitor now hcritical
    refine ⟨fun t ht => ?_, fun e he => ?_⟩
    · simp only [SignalRun.report, hbuffer, hcritical, if_true]
      exact h.buffer t ht
    · simp only [SignalRun.report, hbuffer] at he
      exact h.weights e he

lemma Tracks.agrees_iff (h : s.Tracks now) : s.Agrees signal now ↔ s.Fits signal now := by
  refine forall_congr' fun hlow => ?_
  have hsum : s.windowSum signal now =
      ((inWindow now s.reported).map (·.2)).sum + signal.weight := by
    simp [windowSum, inWindow_append, inWindow_singleton]
  rw [(reportSignal_of_lt s.monitor now hlow).1]
  constructor
  · rintro ⟨hused, -⟩
    by_contra hfull
    rw [buffered, h.buffer now le_rfl, if_neg hfull, weightedSum_eq, hsum] at hused
    have hpos : 0 < signal.weight := by cases signal <;> decide
    omega
  · intro hfits
    have hlen : (s.monitor.buffered signal now).length ≤ maxSignals := by
      rw [h.buffered_of_fits hfits, length_append]
      exact hfits
    have hused : weightedSum (s.monitor.buffered signal now) = s.windowSum signal now := by
      rw [weightedSum_of_length_le hlen (h.weights_buffered hlow), h.buffered_of_fits hfits, hsum]
      simp
    exact ⟨hused, by rw [hused]⟩

/-! ### Runs -/

def Ordered (reports : List (SafetySignal × ℕ)) : Prop := reports.Pairwise fun r r' => r.2 ≤ r'.2

/-- Every signal of the run has the property in the state in which it arrives. -/
def Throughout (P : SignalRun → SafetySignal → ℕ → Prop) (s : SignalRun)
    (reports : List (SafetySignal × ℕ)) : Prop :=
  Always (fun s r => s.report r.1 r.2) (fun s r => P s r.1 r.2) s reports

lemma tracks_after {reports : List (SafetySignal × ℕ)} (hempty : s.Tracks 0)
    (hordered : Ordered reports) (hfits : Throughout Fits s reports)
    (hnow : ∀ r ∈ reports, r.2 ≤ now) : (s.after reports).Tracks now := by
  induction reports using List.reverseRecOn generalizing now with
  | nil => exact hempty.mono (zero_le now)
  | append_singleton reports r ih =>
    obtain ⟨hbefore, -, hlast⟩ := pairwise_append.mp hordered
    obtain ⟨hfits, hfit⟩ := always_concat.mp hfits
    have htracks := ih hbefore hfits fun r' hr' => hlast r' hr' r mem_cons_self
    rw [after_concat]
    exact (htracks.report hfit).mono (hnow r (mem_append_right _ mem_cons_self))

/-- **The hysteresis is that of the sliding window** exactly if every signal finds room in the
buffer. -/
theorem hysteresis_exact_iff (m : SafetyMonitor) (hempty : m.signalBuffer = [])
    (reports : List (SafetySignal × ℕ)) (hordered : Ordered reports) :
    Throughout Agrees ⟨m, []⟩ reports ↔ Throughout Fits ⟨m, []⟩ reports := by
  have hinit : Tracks ⟨m, []⟩ 0 := by
    refine ⟨fun t _ => ?_, fun e he => ?_⟩
    · rw [hempty]
    · rw [hempty] at he
      cases he
  -- the first signal that is lost is the first at which the sums differ
  refine always_iff fun before r hpre hfits => ?_
  obtain ⟨hbefore, -, hlast⟩ := pairwise_append.mp (hordered.sublist hpre.sublist)
  refine (tracks_after hinit hbefore hfits fun r' hr' => ?_).agrees_iff
  exact hlast r' hr' r mem_cons_self

lemma length_reported_le (s : SignalRun) (reports : List (SafetySignal × ℕ)) :
    (s.after reports).reported.length ≤ s.reported.length + reports.length := by
  induction reports using List.reverseRecOn with
  | nil => exact le_rfl
  | append_singleton reports r ih =>
    rw [after_concat, report, length_append]
    split_ifs
    · exact ih.trans (by omega)
    · rw [length_append]
      exact Nat.add_le_add_right ih 1
    · exact zero_le _

/-- Eight signals fit, and they escalate. -/
theorem eight_signals_exact :
    Throughout Agrees ⟨.new, []⟩ (List.replicate 8 (.ioAnomaly, 6000)) := by
  refine (hysteresis_exact_iff .new rfl _ ?_).mpr fun before r hpre _ => ?_
  · exact pairwise_replicate.mpr (.inr le_rfl)
  have hbefore : before.length + 1 ≤ 8 := by simpa using hpre.length_le
  have hreported := length_reported_le ⟨.new, []⟩ before
  refine lt_of_le_of_lt (length_filter_le _ _) ?_
  show ((after ⟨.new, []⟩ before).reported).length < 32
  simp only [length_nil] at hreported
  omega

/-- During the cooldown 32 signals at tick 4000 fill the buffer, and 8 more at tick 4999 are
lost. -/
def burst : List (SafetySignal × ℕ) :=
  List.replicate 32 (.ioAnomaly, 4000) ++ List.replicate 8 (.ioAnomaly, 4999)

/-- When the next signal arrives, the weights in the window add up to 180, but the monitor
counts 20 and stays in `Normal`. -/
theorem burst_forgotten :
    Ordered (burst ++ [(.ioAnomaly, 5001)]) ∧
    weightedSum ((after ⟨.new, []⟩ burst).monitor.buffered .ioAnomaly 5001) = 20 ∧
    (after ⟨.new, []⟩ burst).windowSum .ioAnomaly 5001 = 180 ∧
    (after ⟨.new, []⟩ (burst ++ [(.ioAnomaly, 5001)])).monitor.state = .normal ∧
    escalated .normal ((after ⟨.new, []⟩ burst).monitor.cooled 5001) 180 = .elevated ∧
    ¬ Throughout Agrees ⟨.new, []⟩ (burst ++ [(.ioAnomaly, 5001)]) := by
  have hused : weightedSum ((after ⟨.new, []⟩ burst).monitor.buffered .ioAnomaly 5001) = 20 := by
    decide +kernel
  have hspec : (after ⟨.new, []⟩ burst).windowSum .ioAnomaly 5001 = 180 := by decide +kernel
  refine ⟨by unfold Ordered; decide +kernel, hused, hspec, by decide +kernel, by decide +kernel,
    fun h => ?_⟩
  have hlast : Agrees (after ⟨.new, []⟩ burst) .ioAnomaly 5001 := (always_concat.mp h).2
  have hsame := (hlast (by decide)).1
  rw [hused, hspec] at hsame
  exact absurd hsame (by decide)

end SignalRun

end Fabric
