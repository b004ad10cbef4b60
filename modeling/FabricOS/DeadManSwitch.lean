/-
The dead-man switch of the authority system.

Without a heartbeat the authority system degrades tick by tick, and after 14400000 ticks it is
to be in `Emergency`, with the system locked down.  A tick in `Degraded` looks for an alternate
authority first.  If one has been announced just in time for the last tick, this tick leads to
`Contingency`, and `Emergency` is a tick late.
-/
import FabricOS.BreakGlassPeriods
import FabricOS.Stepwise

open List

namespace Fabric

open Stepwise AcsStateMachine

lemma AcsStateMachine.tick_state (a : AcsStateMachine) (now : ℕ) : (a.tick now).state =
    match a.state with
    | .active => if now - a.lastHeartbeatTick ≥ degradedThresholdTicks then .degraded else .active
    | .degraded =>
      if now - a.lastHeartbeatTick ≥ contingencyThresholdTicks ∧ a.alternateExists = true then
        .contingency
      else if now - a.lastHeartbeatTick ≥ emergencyThresholdTicks then .emergency
      else .degraded
    | .contingency =>
      if now - a.lastHeartbeatTick ≥ emergencyThresholdTicks then .emergency else .contingency
    | .emergency => .emergency := by
  cases hstate : a.state with
  | active | degraded | contingency =>
    simp only [tick, hstate]
    split_ifs <;> simp [hstate]
  | emergency => simp only [tick, hstate]

lemma AcsStateMachine.tick_alternateExists (a : AcsStateMachine) (now : ℕ) :
    (a.tick now).alternateExists = a.alternateExists := by
  have htransition : ∀ newState, (a.transitionTo newState).alternateExists = a.alternateExists := by
    intro newState
    unfold transitionTo
    split_ifs <;> rfl
  simp only [tick]
  split
  · split_ifs <;> simp [htransition]
  · split_ifs <;> simp [htransition]
  · split_ifs <;> simp [htransition]
  · rfl

lemma AcsStateMachine.heartbeat_spec (a : AcsStateMachine) (now : ℕ) :
    (a.heartbeat now).state = .active ∧ (a.heartbeat now).lastHeartbeatTick = now ∧
      (a.heartbeat now).emergencyTriggered = a.emergencyTriggered := by
  by_cases hactive : a.state = .active
  · simp [heartbeat, hactive]
  · simp [heartbeat, transitionTo, hactive]

namespace Governor

variable {c : Crypto} {g : Governor} {op : Op} {ops : List Op}

/-! ### The switch -/

def elapsed (g : Governor) : ℕ := g.currentTick - g.acs.lastHeartbeatTick

def Op.DrivesSwitch : Op → Prop
  | .tick | .heartbeat | .setAlternateExists _ => True
  | _ => False

structure SwitchWorks (c : Crypto) (g : Governor) (op : Op) : Prop where
  /-- A tick after the deadline finds or makes the emergency. -/
  due : op = .tick → emergencyThresholdTicks ≤ (apply c g op).elapsed →
    (apply c g op).acs.state = .emergency
  /-- The tick that makes it locks the system down. -/
  lockdown : g.acs.state ≠ .emergency → (apply c g op).acs.state = .emergency →
    op = .tick ∧ (apply c g op).safety.state = .lockdown
  /-- It ends with a heartbeat. -/
  left : g.acs.state = .emergency → (apply c g op).acs.state ≠ .emergency → op = .heartbeat

/-- A tick at the deadline finds the system in `Degraded`, and an alternate in place. -/
def AlternateAtDeadline (g : Governor) (op : Op) : Prop :=
  op = .tick ∧ g.acs.state = .degraded ∧ g.acs.alternateExists = true ∧
    emergencyThresholdTicks ≤ g.currentTick + 1 - g.acs.lastHeartbeatTick

/-- Before the deadline has been missed: an emergency that is not there is not due yet. -/
structure SwitchInv (g : Governor) : Prop where
  untriggered : g.acs.emergencyTriggered = false
  heartbeat_le : g.acs.lastHeartbeatTick ≤ g.currentTick
  active : g.acs.state = .active → g.elapsed < degradedThresholdTicks
  notDue : g.acs.state ≠ .emergency → g.elapsed < emergencyThresholdTicks

lemma switchInv_new : SwitchInv new where
  untriggered := rfl
  heartbeat_le := le_rfl
  active _ := by decide
  notDue _ := by decide

lemma tick_elapsed : g.tick.elapsed = g.currentTick + 1 - g.acs.lastHeartbeatTick := by
  have hheartbeat := (tick_cases g.acs (g.currentTick + 1)).1
  show g.currentTick + 1 - (g.acs.tick (g.currentTick + 1)).lastHeartbeatTick = _
  rw [hheartbeat]

lemma AlternateAtDeadline.contingency (h : AlternateAtDeadline g .tick) :
    g.tick.acs.state = .contingency ∧ emergencyThresholdTicks ≤ g.tick.elapsed := by
  obtain ⟨-, hstate, halt, hdue⟩ := h
  have hcontingency : contingencyThresholdTicks ≤
      g.currentTick + 1 - g.acs.lastHeartbeatTick := le_trans (by decide) hdue
  refine ⟨(tick_state _ _).trans ?_, tick_elapsed ▸ hdue⟩
  simp [hstate, halt, hcontingency]

lemma SwitchInv.tick_iff (h : SwitchInv g) :
    (emergencyThresholdTicks ≤ g.tick.elapsed → g.tick.acs.state = .emergency) ↔
      ¬ AlternateAtDeadline g .tick := by
  have hstate : g.tick.acs.state = (g.acs.tick (g.currentTick + 1)).state := rfl
  rw [hstate, tick_state, tick_elapsed, AlternateAtDeadline]
  by_cases hdue : emergencyThresholdTicks ≤ g.currentTick + 1 - g.acs.lastHeartbeatTick
  · cases hacs : g.acs.state with
    | active =>
      -- the deadline of `Active` comes first
      have hactive := h.active hacs
      have hlt : degradedThresholdTicks < emergencyThresholdTicks := by decide
      unfold elapsed at hactive
      omega
    | degraded =>
      by_cases halt : g.acs.alternateExists = true
      · have hcontingency : contingencyThresholdTicks ≤
            g.currentTick + 1 - g.acs.lastHeartbeatTick := le_trans (by decide) hdue
        simp [hdue, hcontingency, halt]
      · simp [hdue, halt]
    | contingency => simp [hdue]
    | emergency => simp
  · simp [hdue]

lemma SwitchInv.works_iff (h : SwitchInv g) (hop : op.DrivesSwitch) :
    SwitchWorks c g op ↔ ¬ AlternateAtDeadline g op := by
  cases op with
  | tick =>
    constructor
    · intro hworks
      exact h.tick_iff.mp (hworks.due rfl)
    · intro hlate
      obtain ⟨-, ⟨hemergency, hstays⟩ | ⟨hbefore, hbelow, -⟩ | ⟨hbefore, -, htriggered, -⟩⟩ :=
        tick_cases g.acs (g.currentTick + 1)
      · refine ⟨fun _ => h.tick_iff.mpr hlate, fun hne => absurd hemergency hne,
          fun _ hleft => absurd ?_ hleft⟩
        show (g.acs.tick (g.currentTick + 1)).state = .emergency
        rw [hstays, hemergency]
      · exact ⟨fun _ => h.tick_iff.mpr hlate, fun _ hafter => absurd hafter hbelow,
          fun hemergency => absurd hemergency hbefore⟩
      · refine ⟨fun _ => h.tick_iff.mpr hlate, fun _ _ => ⟨rfl, ?_⟩,
          fun hemergency => absurd hemergency hbefore⟩
        show g.tick.safety.state = .lockdown
        rw [tick_safety, if_pos htriggered]
        exact SafetyMonitor.forceLockdown_state _ _
  | heartbeat =>
    refine iff_of_true ⟨fun htick => ?_, fun _ hafter => ?_, fun _ _ => rfl⟩ fun hlate => ?_
    · cases htick
    · have hactive := (heartbeat_spec g.acs g.currentTick).1
      cases hactive.symm.trans hafter
    · cases hlate.1
  | setAlternateExists doesExist =>
    refine iff_of_true ⟨fun htick => ?_, fun hne hafter => absurd hafter hne,
      fun hemergency hleft => absurd hemergency hleft⟩ fun hlate => ?_
    · cases htick
    · cases hlate.1
  | _ => exact absurd hop id

lemma SwitchInv.apply (h : SwitchInv g) (hop : op.DrivesSwitch)
    (hlate : ¬ AlternateAtDeadline g op) : SwitchInv (apply c g op) := by
  cases op with
  | tick =>
    have hheartbeat := (tick_cases g.acs (g.currentTick + 1)).1
    have hle := h.heartbeat_le
    refine ⟨rfl, ?_, ?_, ?_⟩
    · show (g.acs.tick (g.currentTick + 1)).lastHeartbeatTick ≤ g.currentTick + 1
      omega
    · intro hactive
      -- a tick does not lead to `Active`, and the deadline of that state has not passed
      show g.tick.elapsed < degradedThresholdTicks
      have hafter : (g.acs.tick (g.currentTick + 1)).state = .active := hactive
      rw [tick_state] at hafter
      rw [tick_elapsed]
      cases hacs : g.acs.state with
      | active =>
        simp only [hacs] at hafter
        split_ifs at hafter with hdegraded
        exact not_le.mp hdegraded
      | degraded | contingency =>
        simp only [hacs] at hafter
        split_ifs at hafter
      | emergency =>
        simp only [hacs] at hafter
        cases hafter
    · intro hne
      by_contra hdue
      exact hne (h.tick_iff.mpr hlate (not_lt.mp hdue))
  | heartbeat =>
    obtain ⟨-, hlast, htriggered⟩ := heartbeat_spec g.acs g.currentTick
    have helapsed : (Governor.apply c g .heartbeat).elapsed = 0 := by
      show g.currentTick - (g.acs.heartbeat g.currentTick).lastHeartbeatTick = 0
      omega
    refine ⟨htriggered.trans h.untriggered, hlast.le, fun _ => ?_, fun _ => ?_⟩
    · rw [helapsed]
      decide
    · rw [helapsed]
      decide
  | setAlternateExists doesExist => exact ⟨h.untriggered, h.heartbeat_le, h.active, h.notDue⟩
  | _ => exact absurd hop id

/-! ### Runs -/

/-- **The dead-man switch works** all along a run exactly if no tick at the deadline finds an
alternate in `Degraded`. -/
theorem dead_man_switch_iff (c : Crypto) (ops : List Op) (hops : ∀ op ∈ ops, op.DrivesSwitch) :
    Always (apply c) (SwitchWorks c) new ops ↔
      Always (apply c) (fun g op => ¬ AlternateAtDeadline g op) new ops := by
  refine always_iff fun before op hpre hlate => ?_
  have hdrives : ∀ op' ∈ before ++ [op], op'.DrivesSwitch := fun op' hop' =>
    hops op' (hpre.subset hop')
  have hinv : SwitchInv (before.foldl (apply c) new) := by
    refine hlate.inv SwitchInv switchInv_new fun g op' hop' hg hop => ?_
    exact hg.apply (hdrives op' (mem_append_left _ hop')) hop
  exact hinv.works_iff (hdrives op (mem_append_right _ mem_cons_self))

lemma AlternateAtDeadline.not_always (h : AlternateAtDeadline (run c new ops) .tick) :
    ¬ Always (apply c) (SwitchWorks c) new (ops ++ [.tick]) := by
  intro halways
  have hemergency : (run c new ops).tick.acs.state = .emergency :=
    (always_concat.mp halways).2.due rfl h.contingency.2
  rw [h.contingency.1] at hemergency
  cases hemergency

lemma run_ticks (c : Crypto) (n : ℕ) (hn : n < emergencyThresholdTicks) :
    (run c new (.replicate n .tick)).currentTick = n ∧
    (run c new (.replicate n .tick)).acs.lastHeartbeatTick = 0 ∧
    (run c new (.replicate n .tick)).acs.alternateExists = false ∧
    (run c new (.replicate n .tick)).acs.state =
      if n < degradedThresholdTicks then .active else .degraded := by
  induction n with
  | zero => exact ⟨rfl, rfl, rfl, rfl⟩
  | succ n ih =>
    obtain ⟨htick, hlast, halt, hstate⟩ := ih (by omega)
    rw [replicate_succ', run_append, run_cons, run_nil]
    generalize run c new (.replicate n .tick) = g at *
    have helapsed : g.currentTick + 1 - g.acs.lastHeartbeatTick = n + 1 := by omega
    refine ⟨congrArg (· + 1) htick, ?_, ?_, ?_⟩
    · exact ((tick_cases g.acs (g.currentTick + 1)).1).trans hlast
    · exact (tick_alternateExists g.acs _).trans halt
    show (g.acs.tick (g.currentTick + 1)).state = _
    rw [tick_state, hstate, helapsed, halt]
    by_cases hactive : n < degradedThresholdTicks
    · by_cases hnext : n + 1 < degradedThresholdTicks
      · simp [hactive, hnext]
      · simp [hactive, hnext, not_lt.mp hnext]
    · have hnext : ¬ n + 1 < degradedThresholdTicks := by omega
      simp [hactive, hnext, not_le.mpr hn]

/-- Without an alternate the switch is in time. -/
theorem silence_ends_in_lockdown :
    Always (apply .zero) (SwitchWorks .zero) new (.replicate emergencyThresholdTicks .tick) := by
  refine (dead_man_switch_iff .zero _ fun op hop => ?_).mpr fun before op hpre hlate => ?_
  · rw [eq_of_mem_replicate hop]
    trivial
  have hlen := hpre.length_le
  rw [length_append, length_replicate, length_singleton] at hlen
  have hbefore : before = .replicate before.length .tick :=
    eq_replicate_of_mem fun op' hop' =>
      eq_of_mem_replicate (hpre.subset (mem_append_left _ hop'))
  have halt := (run_ticks .zero before.length hlen).2.2.1
  rw [← hbefore] at halt
  exact absurd (halt.symm.trans hlate.2.2.1) (by decide)

lemma alternateAtDeadline_announce (hstate : g.acs.state = .degraded)
    (hdue : emergencyThresholdTicks ≤ g.currentTick + 1 - g.acs.lastHeartbeatTick) :
    AlternateAtDeadline (run c g [.setAlternateExists true]) .tick :=
  ⟨rfl, hstate, rfl, hdue⟩

/-- Nobody answers, and just before the deadline an alternate is announced. -/
def lateAlternate : List Op :=
  .replicate (emergencyThresholdTicks - 1) .tick ++ [.setAlternateExists true]

/-- The tick at the deadline leads to `Contingency`. -/
theorem alternate_delays_emergency :
    emergencyThresholdTicks ≤ (run .zero new (lateAlternate ++ [.tick])).elapsed ∧
    (run .zero new (lateAlternate ++ [.tick])).acs.state = .contingency ∧
    ¬ Always (apply .zero) (SwitchWorks .zero) new (lateAlternate ++ [.tick]) := by
  have hlate : AlternateAtDeadline (run .zero new lateAlternate) .tick := by
    obtain ⟨htick, hlast, -, hstate⟩ :=
      run_ticks .zero (emergencyThresholdTicks - 1) (Nat.sub_lt (by decide) (by decide))
    rw [lateAlternate, run_append]
    refine alternateAtDeadline_announce hstate ?_
    rw [htick, hlast]
    decide
  refine ⟨?_, ?_, hlate.not_always⟩
  · rw [run_append, run_cons, run_nil]
    exact hlate.contingency.2
  · rw [run_append, run_cons, run_nil]
    exact hlate.contingency.1

end Governor

end Fabric
