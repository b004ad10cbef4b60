/-
What the safety monitor remembers of its reports.

Anomalies are counted in windows that do not slide: a window begins with the first anomaly
after the previous one has ended, and the count begins anew.  The way back from `Elevated` is
timed from the tick at which the state was entered, whatever has been reported since.
-/
import FabricOS.SafetyMachines

open List

namespace Fabric

open SafetyMonitor

inductive SafetyCall where
  | tick (now : ℕ)
  | reportAnomaly (now : ℕ)
  | reportAlarm (now : ℕ)
  | reportSignal (signal : SafetySignal) (now : ℕ)
  deriving DecidableEq

namespace SafetyCall

def now : SafetyCall → ℕ
  | tick now => now
  | reportAnomaly now => now
  | reportAlarm now => now
  | reportSignal _ now => now

def isReport : SafetyCall → Bool
  | tick _ => false
  | _ => true

def Ordered (calls : List SafetyCall) : Prop := calls.Pairwise fun c c' => c.now ≤ c'.now

end SafetyCall

namespace SafetyMonitor

def apply (m : SafetyMonitor) : SafetyCall → SafetyMonitor
  | .tick now => m.tick now
  | .reportAnomaly now => m.reportAnomaly now
  | .reportAlarm now => m.reportAlarm now
  | .reportSignal signal now => m.reportSignal signal now

def after (m : SafetyMonitor) (calls : List SafetyCall) : SafetyMonitor := calls.foldl apply m

variable {m : SafetyMonitor} {c : SafetyCall} {calls : List SafetyCall}

lemma after_append (m : SafetyMonitor) (calls calls' : List SafetyCall) :
    m.after (calls ++ calls') = (m.after calls).after calls' := foldl_append

lemma after_concat (m : SafetyMonitor) (calls : List SafetyCall) (c : SafetyCall) :
    m.after (calls ++ [c]) = (m.after calls).apply c := by
  rw [after_append]
  rfl

/-! ### What a call can do -/

/-- **A call leaves the state alone, or enters one at its tick.**  `Normal` is entered by ticks
only, from `Elevated` when the state is old enough. -/
theorem apply_cases (m : SafetyMonitor) (c : SafetyCall) :
    (m.apply c).toSafetyStateMachine = m.toSafetyStateMachine ∨
    ∃ state, (m.apply c).toSafetyStateMachine = m.toSafetyStateMachine.transitionTo state c.now ∧
      (state = .normal → c.isReport = false ∧
        (m.state = .elevated → elevatedClearTicks ≤ c.now - m.stateEnteredTick)) := by
  cases c with
  | tick now =>
    cases hstate : m.state with
    | elevated =>
      simp only [apply, tick, hstate]
      split_ifs with hold
      · exact .inr ⟨.normal, rfl, fun _ => ⟨rfl, fun _ => hold⟩⟩
      · exact .inl rfl
    | safe =>
      simp only [apply, tick, hstate]
      split_ifs
      · exact .inr ⟨.normal, rfl, by simp [SafetyCall.isReport]⟩
      · exact .inl rfl
    | _ =>
      refine .inl ?_
      simp only [apply, tick, hstate]
  | reportAnomaly now =>
    simp only [apply, reportAnomaly]
    split_ifs <;> first | exact .inl rfl | exact .inr ⟨.elevated, rfl, by simp⟩
  | reportAlarm now =>
    simp only [apply, reportAlarm]
    split_ifs
    · exact .inr ⟨.chaos, rfl, by simp⟩
    · exact .inl rfl
  | reportSignal signal now =>
    simp only [apply, reportSignal]
    split_ifs <;>
      first
        | exact .inl rfl
        | exact .inr ⟨.elevated, rfl, by simp⟩
        | exact .inr ⟨.chaos, rfl, by simp⟩

lemma apply_entered (m : SafetyMonitor) (c : SafetyCall) :
    ((m.apply c).state = m.state ∧ (m.apply c).stateEnteredTick = m.stateEnteredTick) ∨
      (m.apply c).stateEnteredTick = c.now := by
  obtain hsame | ⟨state, hmove, -⟩ := apply_cases m c
  · rw [hsame]
    exact .inl ⟨rfl, rfl⟩
  rw [hmove, SafetyStateMachine.transitionTo]
  split_ifs
  · exact .inr rfl
  · exact .inl ⟨rfl, rfl⟩

lemma old_of_normal (helevated : m.state = .elevated) (hnormal : (m.apply c).state = .normal) :
    elevatedClearTicks ≤ c.now - m.stateEnteredTick := by
  obtain hsame | ⟨state, hmove, hentered⟩ := apply_cases m c
  · rw [hsame, helevated] at hnormal
    cases hnormal
  refine (hentered ?_).2 helevated
  rw [hmove, SafetyStateMachine.transitionTo] at hnormal
  split_ifs at hnormal with hne
  · exact hnormal
  · exact (not_not.mp hne).symm.trans hnormal

/-! ### Quiet periods -/

lemma report_le_entered (v : List SafetyCall) (helevated : (m.after (c :: v)).state = .elevated)
    (hstart : m.state ≠ .elevated) (hordered : ∀ c' ∈ v, c.now ≤ c'.now) :
    c.now ≤ (m.after (c :: v)).stateEnteredTick := by
  induction v using reverseRecOn with
  | nil =>
    obtain ⟨hstate, -⟩ | hentered := apply_entered m c
    · exact absurd (hstate.symm.trans helevated) hstart
    · exact hentered.ge
  | append_singleton v last ih =>
    rw [← cons_append, after_concat] at helevated ⊢
    obtain ⟨hstate, hentered⟩ | hentered := apply_entered (m.after (c :: v)) last
    · rw [hentered]
      refine ih (hstate.symm.trans helevated) fun c' hc' => ?_
      exact hordered c' (mem_append_left _ hc')
    · rw [hentered]
      exact hordered last (mem_append_right _ mem_cons_self)

/-- Whenever the monitor goes from `Elevated` to `Normal`, the reports of a kind are at least
`elevatedClearTicks` ticks old.  The kind is given by the report and the calls before it. -/
def QuietBeforeNormal (kind : List SafetyCall → SafetyCall → Prop) (m : SafetyMonitor)
    (calls : List SafetyCall) : Prop :=
  ∀ before c, before ++ [c] <+: calls → (m.after before).state = .elevated →
    (m.after (before ++ [c])).state = .normal →
    ∀ u r v, before = u ++ r :: v → r.isReport = true → kind u r →
      elevatedClearTicks ≤ c.now - r.now

def NoAnomaly (calls : List SafetyCall) : Prop := ∀ c ∈ calls, ∀ now, c ≠ .reportAnomaly now

lemma after_noAnomaly (m : SafetyMonitor) (h : NoAnomaly calls) :
    (m.after calls).anomalyCount = m.anomalyCount ∧
      (m.after calls).anomalyWindowStart = m.anomalyWindowStart := by
  induction calls using reverseRecOn with
  | nil => exact ⟨rfl, rfl⟩
  | append_singleton calls c ih =>
    rw [after_concat]
    obtain ⟨hcount, hstart⟩ := ih fun c' hc' => h c' (mem_append_left _ hc')
    rw [← hcount, ← hstart]
    cases c with
    | tick now =>
      simp only [apply, tick]
      split
      · split_ifs <;> exact ⟨rfl, rfl⟩
      · split_ifs <;> exact ⟨rfl, rfl⟩
      · exact ⟨rfl, rfl⟩
    | reportAnomaly now =>
      exact absurd rfl (h _ (mem_append_right _ mem_cons_self) now)
    | reportAlarm now =>
      simp only [apply, reportAlarm]
      split_ifs <;> exact ⟨rfl, rfl⟩
    | reportSignal signal now =>
      simp only [apply, reportSignal]
      split_ifs <;> exact ⟨rfl, rfl⟩

variable {now : ℕ}

lemma reportAnomaly_expired (h : anomalyWindowTicks ≤ now - m.anomalyWindowStart) :
    (m.reportAnomaly now).state = m.state ∧ (m.reportAnomaly now).anomalyWindowStart = now ∧
      (m.reportAnomaly now).anomalyCount = 1 := by
  simp [reportAnomaly, h, anomalyBurstThreshold]

lemma reportAnomaly_third (h : now - m.anomalyWindowStart < anomalyWindowTicks)
    (hstate : m.state = .normal) (hcount : 2 ≤ m.anomalyCount) :
    (m.reportAnomaly now).state = .elevated := by
  have hburst : anomalyBurstThreshold ≤ m.anomalyCount + 1 := Nat.succ_le_succ hcount
  simp [reportAnomaly, not_le.mpr h, hstate, hburst]

lemma reportAnomaly_counted (h : now - m.anomalyWindowStart < anomalyWindowTicks)
    (hcount : m.anomalyCount < 2) :
    (m.reportAnomaly now).state = m.state ∧
      (m.reportAnomaly now).anomalyWindowStart = m.anomalyWindowStart ∧
      (m.reportAnomaly now).anomalyCount = m.anomalyCount + 1 := by
  have hburst : ¬ anomalyBurstThreshold ≤ m.anomalyCount + 1 :=
    not_le.mpr (Nat.succ_lt_succ hcount)
  simp [reportAnomaly, not_le.mpr h, hburst]

lemma reportAnomaly_normal (hstate : m.state = .normal)
    (hnormal : (m.reportAnomaly now).state = .normal) :
    now - m.anomalyWindowStart < anomalyWindowTicks ∧
        (m.reportAnomaly now).anomalyWindowStart = m.anomalyWindowStart ∧
        (m.reportAnomaly now).anomalyCount = m.anomalyCount + 1 ∨
      anomalyWindowTicks ≤ now - m.anomalyWindowStart ∧
        (m.reportAnomaly now).anomalyWindowStart = now ∧
        (m.reportAnomaly now).anomalyCount = 1 := by
  obtain hlt | hge := lt_or_ge (now - m.anomalyWindowStart) anomalyWindowTicks
  · by_cases hcount : m.anomalyCount < 2
    · exact .inl ⟨hlt, (reportAnomaly_counted hlt hcount).2⟩
    · rw [reportAnomaly_third hlt hstate (not_lt.mp hcount)] at hnormal
      cases hnormal
  · exact .inr ⟨hge, (reportAnomaly_expired hge).2⟩

variable {t₁ t₂ t₃ : ℕ}

lemma third_anomaly_iff {mid mid' : List SafetyCall} (hmid : NoAnomaly mid)
    (hmid' : NoAnomaly mid') (hle : t₂ ≤ t₃) (h0 : m.state = .normal)
    (h1 : (m.reportAnomaly t₁).state = .normal)
    (h2 : ((m.reportAnomaly t₁).after mid).state = .normal)
    (h3 : (((m.reportAnomaly t₁).after mid).reportAnomaly t₂).state = .normal)
    (h4 : ((((m.reportAnomaly t₁).after mid).reportAnomaly t₂).after mid').state = .normal) :
    (((((m.reportAnomaly t₁).after mid).reportAnomaly t₂).after mid').reportAnomaly t₃).state =
      .elevated ↔ t₃ < (m.reportAnomaly t₁).anomalyWindowStart + anomalyWindowTicks := by
  have hfirst : 1 ≤ (m.reportAnomaly t₁).anomalyCount := by
    obtain ⟨-, -, hcount⟩ | ⟨-, -, hcount⟩ := reportAnomaly_normal h0 h1 <;> omega
  generalize m.reportAnomaly t₁ = m1 at *
  obtain ⟨hcount2, hstart2⟩ := after_noAnomaly m1 hmid
  generalize m1.after mid = m2 at *
  have hsecond := reportAnomaly_normal h2 h3
  generalize m2.reportAnomaly t₂ = m3 at *
  obtain ⟨hcount4, hstart4⟩ := after_noAnomaly m3 hmid'
  generalize m3.after mid' = m4 at *
  have hticks : anomalyWindowTicks = 60000 := rfl
  obtain ⟨hlt, hstart3, hcount3⟩ | ⟨hge, hstart3, hcount3⟩ := hsecond
  · -- the second is in the window of the first
    obtain hin | hout := lt_or_ge (t₃ - m4.anomalyWindowStart) anomalyWindowTicks
    · have helevated := reportAnomaly_third hin h4 (by omega)
      refine ⟨fun _ => ?_, fun _ => helevated⟩
      omega
    rw [(reportAnomaly_expired hout).1, h4]
    constructor
    · intro h
      cases h
    · omega
  · -- the second begins a window, in which the third is the second
    have hstays : (m4.reportAnomaly t₃).state = .normal := by
      obtain hin | hout := lt_or_ge (t₃ - m4.anomalyWindowStart) anomalyWindowTicks
      · rw [(reportAnomaly_counted hin (by omega)).1, h4]
      · rw [(reportAnomaly_expired hout).1, h4]
    rw [hstays]
    constructor
    · intro h
      cases h
    · omega

/-- Calls that end just before the third of three anomalies. -/
def twoAnomalies (before mid mid' : List SafetyCall) (t₁ t₂ : ℕ) : List SafetyCall :=
  before ++ .reportAnomaly t₁ :: (mid ++ .reportAnomaly t₂ :: mid')

/-- Three anomalies within the ticks of a window, while the state is `Normal`. -/
structure Burst (m : SafetyMonitor) (before mid mid' : List SafetyCall) (t₁ t₂ t₃ : ℕ) :
    Prop where
  within : t₃ - t₁ < anomalyWindowTicks
  normal : ∀ calls, before <+: calls → calls <+: twoAnomalies before mid mid' t₁ t₂ →
    (m.after calls).state = .normal

/-- All bursts among the calls lead to `Elevated`. -/
def BurstsNoticed (m : SafetyMonitor) (calls : List SafetyCall) : Prop :=
  ∀ before mid mid' t₁ t₂ t₃,
    twoAnomalies before mid mid' t₁ t₂ ++ [.reportAnomaly t₃] <+: calls →
    Burst m before mid mid' t₁ t₂ t₃ →
    (m.after (twoAnomalies before mid mid' t₁ t₂ ++ [.reportAnomaly t₃])).state = .elevated

/-- In all bursts of successive anomalies, the third comes before the end of the window that the
first is counted in. -/
def BurstsInWindow (m : SafetyMonitor) (calls : List SafetyCall) : Prop :=
  ∀ before mid mid' t₁ t₂ t₃,
    twoAnomalies before mid mid' t₁ t₂ ++ [.reportAnomaly t₃] <+: calls →
    Burst m before mid mid' t₁ t₂ t₃ → NoAnomaly mid → NoAnomaly mid' →
    t₃ < (m.after (before ++ [.reportAnomaly t₁])).anomalyWindowStart + anomalyWindowTicks

lemma exists_last_anomaly (calls : List SafetyCall) {t : ℕ} (h : .reportAnomaly t ∈ calls) :
    ∃ u t' v, calls = u ++ .reportAnomaly t' :: v ∧ NoAnomaly v := by
  induction calls using reverseRecOn with
  | nil => cases h
  | append_singleton calls c ih =>
    by_cases hlast : ∃ t', c = .reportAnomaly t'
    · obtain ⟨t', rfl⟩ := hlast
      refine ⟨calls, t', [], rfl, fun c hc => ?_⟩
      cases hc
    obtain hmem | hmem := mem_append.mp h
    · obtain ⟨u, t', v, rfl, hv⟩ := ih hmem
      refine ⟨u, t', v ++ [c], by simp, fun c' hc' => ?_⟩
      obtain hc' | hc' := mem_append.mp hc'
      · exact hv c' hc'
      · rw [mem_singleton.mp hc']
        intro t' heq
        exact hlast ⟨t', heq⟩
    · exact absurd ⟨t, (mem_singleton.mp hmem).symm⟩ hlast

lemma Burst.successive {before mid mid' : List SafetyCall} (h : Burst m before mid mid' t₁ t₂ t₃)
    (hordered : SafetyCall.Ordered (twoAnomalies before mid mid' t₁ t₂)) :
    ∃ before' v v' u1 u2, twoAnomalies before mid mid' t₁ t₂ = twoAnomalies before' v v' u1 u2 ∧
      Burst m before' v v' u1 u2 t₃ ∧ NoAnomaly v ∧ NoAnomaly v' := by
  obtain ⟨w, u2, v', hlast, hv'⟩ := exists_last_anomaly (mid ++ .reportAnomaly t₂ :: mid')
    (mem_append_right mid mem_cons_self)
  obtain ⟨w', u1, v, hsecond, hv⟩ := exists_last_anomaly (.reportAnomaly t₁ :: w)
    mem_cons_self
  have hsame : twoAnomalies before mid mid' t₁ t₂ = twoAnomalies (before ++ w') v v' u1 u2 := by
    rw [twoAnomalies, hlast, twoAnomalies, ← cons_append, hsecond]
    simp
  have hle : t₁ ≤ u1 := by
    have hmem : SafetyCall.reportAnomaly u1 ∈ .reportAnomaly t₁ :: w := by
      rw [hsecond]
      exact mem_append_right w' mem_cons_self
    obtain heq | hmem := mem_cons.mp hmem
    · exact (SafetyCall.reportAnomaly.inj heq).ge
    · have htail := (pairwise_append.mp hordered).2.1
      rw [hlast] at htail
      exact (pairwise_cons.mp htail).1 _ (mem_append_left _ hmem)
  refine ⟨before ++ w', v, v', u1, u2, hsame, ⟨?_, fun calls hbefore hcalls => ?_⟩, hv, hv'⟩
  · have hwithin := h.within
    omega
  · rw [← hsame] at hcalls
    exact h.normal calls ((prefix_append before w').trans hbefore) hcalls

lemma Burst.noticed_iff {before mid mid' : List SafetyCall}
    (h : Burst m before mid mid' t₁ t₂ t₃) (hmid : NoAnomaly mid) (hmid' : NoAnomaly mid')
    (hle : t₂ ≤ t₃) :
    (m.after (twoAnomalies before mid mid' t₁ t₂ ++ [.reportAnomaly t₃])).state = .elevated ↔
      t₃ < (m.after (before ++ [.reportAnomaly t₁])).anomalyWindowStart + anomalyWindowTicks := by
  have hnormal : ∀ u v, .reportAnomaly t₁ :: (mid ++ .reportAnomaly t₂ :: mid') = u ++ v →
      ((m.after before).after u).state = .normal := by
    intro u v hsplit
    rw [← after_append]
    refine h.normal _ (prefix_append before u) ⟨v, ?_⟩
    rw [twoAnomalies, hsplit, append_assoc]
  have h0 := hnormal [] _ rfl
  have h1 := hnormal [.reportAnomaly t₁] _ rfl
  have h2 := hnormal (.reportAnomaly t₁ :: mid) _ rfl
  have h3 := hnormal (.reportAnomaly t₁ :: (mid ++ [.reportAnomaly t₂])) mid' (by simp)
  have h4 := hnormal (.reportAnomaly t₁ :: (mid ++ .reportAnomaly t₂ :: mid')) [] (by simp)
  rw [twoAnomalies, after_concat, after_concat, after_append]
  simp only [← cons_append, after_append] at h2 h3 h4 ⊢
  exact third_anomaly_iff hmid hmid' hle h0 h1 h2 h3 h4

/-- **All bursts are noticed** exactly if none of them goes beyond the end of a window. -/
theorem bursts_noticed_iff (m : SafetyMonitor) (calls : List SafetyCall)
    (hordered : SafetyCall.Ordered calls) : BurstsNoticed m calls ↔ BurstsInWindow m calls := by
  have hle : ∀ {before mid mid' t₁ t₂ t₃},
      twoAnomalies before mid mid' t₁ t₂ ++ [.reportAnomaly t₃] <+: calls → t₂ ≤ t₃ := by
    intro before mid mid' t₁ t₂ t₃ hpre
    have hpairs := (pairwise_append.mp (hordered.sublist hpre.sublist)).2.2
    refine hpairs (.reportAnomaly t₂) ?_ _ mem_cons_self
    simp [twoAnomalies]
  constructor
  · intro h before mid mid' t₁ t₂ t₃ hpre hburst hmid hmid'
    exact (hburst.noticed_iff hmid hmid' (hle hpre)).mp (h before mid mid' t₁ t₂ t₃ hpre hburst)
  · intro h before mid mid' t₁ t₂ t₃ hpre hburst
    have hbefore : SafetyCall.Ordered (twoAnomalies before mid mid' t₁ t₂) :=
      hordered.sublist ((prefix_append _ _).trans hpre).sublist
    obtain ⟨before', v, v', u1, u2, hsame, hburst', hv, hv'⟩ := hburst.successive hbefore
    rw [hsame] at hpre ⊢
    exact (hburst'.noticed_iff hv hv' (hle hpre)).mpr
      (h before' v v' u1 u2 t₃ hpre hburst' hv hv')

/-- Three anomalies in the first window. -/
theorem early_burst_noticed :
    BurstsNoticed .new [.reportAnomaly 1, .reportAnomaly 2, .reportAnomaly 3] := by
  refine (bursts_noticed_iff .new _ (by unfold SafetyCall.Ordered; decide)).mpr ?_
  intro before mid mid' t₁ t₂ t₃ hpre _ _ _
  have hlen := hpre.length_le
  simp only [twoAnomalies, length_append, length_cons, length_nil] at hlen
  obtain rfl : before = [] := length_eq_zero_iff.mp (by omega)
  obtain rfl : mid = [] := length_eq_zero_iff.mp (by omega)
  obtain rfl : mid' = [] := length_eq_zero_iff.mp (by omega)
  simp only [twoAnomalies, nil_append, cons_append, cons_prefix_cons,
    SafetyCall.reportAnomaly.injEq] at hpre
  obtain ⟨rfl, -, rfl, -⟩ := hpre
  decide

/-- Three anomalies in 10001 ticks, of which the third begins a new window: the monitor stays in
`Normal`. -/
theorem burst_across_windows :
    ¬ BurstsNoticed .new [.reportAnomaly 50000, .reportAnomaly 59000, .reportAnomaly 60001] := by
  intro h
  have hburst : Burst .new [] [] [] 50000 59000 60001 := by
    refine ⟨by decide, fun calls _ hcalls => ?_⟩
    have hall : ∀ calls ∈ (twoAnomalies [] [] [] 50000 59000).inits,
        (new.after calls).state = .normal := by decide
    exact hall calls ((mem_inits _ _).mpr hcalls)
  have helevated := h [] [] [] 50000 59000 60001 (prefix_refl _) hburst
  exact absurd helevated (by decide)

end SafetyMonitor

end Fabric
