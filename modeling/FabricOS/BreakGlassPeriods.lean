/-
How long the emergency bypass stays open.

In `Lockdown` with the authority system in `Emergency` the break-glass bypass opens, and it
closes after 60000 ticks.  Closing does not change the condition under which it opens: on
the next tick it opens again.  Over an emergency of `n` ticks it is thus open for all but
one in 60001.
-/
import FabricOS.Governor

open List Nat

namespace Fabric

open BreakGlassTimer SafetyMonitor

/-! ### One tick of the machines -/

lemma AcsStateMachine.tick_cases (a : AcsStateMachine) (now : ℕ) :
    (a.tick now).lastHeartbeatTick = a.lastHeartbeatTick ∧
    (a.state = .emergency ∧ a.tick now = a ∨
      a.state ≠ .emergency ∧ (a.tick now).state ≠ .emergency ∧
        (a.tick now).emergencyTriggered = a.emergencyTriggered ∨
      a.state ≠ .emergency ∧ (a.tick now).state = .emergency ∧
        (a.tick now).emergencyTriggered = true ∧
        emergencyThresholdTicks ≤ now - a.lastHeartbeatTick) := by
  cases hstate : a.state with
  | emergency => simp [tick, hstate]
  | active =>
    simp only [tick, hstate]
    split_ifs <;> simp [transitionTo, hstate]
  | degraded =>
    simp only [tick, hstate]
    split_ifs with hcontingency hemergency
    · simp [transitionTo, hstate]
    · simpa [transitionTo, hstate] using hemergency
    · simp [hstate]
  | contingency =>
    simp only [tick, hstate]
    split_ifs with hemergency
    · simpa [transitionTo, hstate] using hemergency
    · simp [hstate]

lemma SafetyMonitor.lockdown_of_tick {m : SafetyMonitor} {now : ℕ}
    (h : (m.tick now).state = .lockdown) : m.state = .lockdown := by
  cases hstate : m.state with
  | elevated | safe =>
    simp only [tick, hstate] at h
    split_ifs at h <;> simp_all
  | _ => simp_all [tick]

namespace BreakGlassTimer

variable {b : BreakGlassTimer} {safety : SafetyState} {acs : AcsState} {now : ℕ}

def tick (b : BreakGlassTimer) (safety : SafetyState) (acs : AcsState) (now : ℕ) :
    BreakGlassTimer :=
  ((b.checkAndActivate safety acs now).1.checkExpiry now).checkRecovery safety

lemma tick_of_open (hactive : b.active = true) (hlt : now < b.expiryTick) :
    b.tick .lockdown acs now = b := by
  simp [tick, checkAndActivate, checkExpiry, checkRecovery, hactive, not_le.mpr hlt]

lemma tick_of_expired (hactive : b.active = true) (hge : b.expiryTick ≤ now) :
    (b.tick safety acs now).active = false := by
  simp [tick, checkAndActivate, checkExpiry, checkRecovery, deactivate, hactive, hge]

lemma tick_of_closed (hclosed : b.active = false) :
    b.tick .lockdown .emergency now = b.activate .safetyLockdown now := by
  simp [tick, checkAndActivate, checkExpiry, checkRecovery, activate, hclosed,
    breakGlassExpiryTicks]

lemma open_of_tick (h : (b.tick safety acs now).active = true) :
    (b.active = true ∧ now < b.expiryTick ∧ b.tick safety acs now = b) ∨
      (acs = .emergency ∧ b.tick safety acs now = b.activate .safetyLockdown now) := by
  cases hactive : b.active with
  | true =>
    by_cases hlt : now < b.expiryTick
    · left
      simp only [tick, checkAndActivate, checkExpiry, checkRecovery, hactive, ge_iff_le,
        not_le.mpr hlt, if_true, if_false, and_false, true_and] at h ⊢
      split_ifs at h ⊢ <;> simp_all [deactivate]
    · exact absurd h (by simp [tick_of_expired hactive (not_lt.mp hlt)])
  | false =>
    by_cases hopens : safety = .lockdown ∧ acs = .emergency
    · obtain ⟨rfl, rfl⟩ := hopens
      exact .inr ⟨rfl, tick_of_closed hactive⟩
    · simp [tick, checkAndActivate, checkExpiry, checkRecovery, hactive, hopens] at h

end BreakGlassTimer

namespace Governor

variable {c : Crypto} {g : Governor} {op : Op} {ops : List Op} {r : ℕ}

lemma tick_acs : g.tick.acs =
    { g.acs.tick (g.currentTick + 1) with emergencyTriggered := false } := rfl

lemma tick_safety : g.tick.safety =
    if (g.acs.tick (g.currentTick + 1)).emergencyTriggered then
      (g.safety.tick (g.currentTick + 1)).forceLockdown (g.currentTick + 1)
    else g.safety.tick (g.currentTick + 1) := rfl

lemma tick_breakGlass : g.tick.breakGlass =
    g.breakGlass.tick g.tick.safety.state g.tick.acs.state (g.currentTick + 1) := rfl

/-! ### The condition of the bypass -/

/-- `Lockdown` with the authority system in `Emergency`. -/
def Triggered (g : Governor) : Prop := g.safety.state = .lockdown ∧ g.acs.state = .emergency

/-- The calls of everyday operation: ticks, heartbeats, policy checks and confirmations. -/
def Op.Routine : Op → Prop
  | .tick | .heartbeat | .setAlternateExists _ | .evaluatePolicy _ _ _ _ | .humanConfirm _ => True
  | _ => False

/-- What routine calls keep: a bypass that is open has not expired, and was opened in the
present emergency or before the last heartbeat. -/
structure GlassInv (g : Governor) : Prop where
  rules : g.rules = genesisEngine
  untriggered : g.acs.emergencyTriggered = false
  active : g.breakGlass.active = true →
    g.breakGlass.expiryTick = g.breakGlass.activatedTick + breakGlassExpiryTicks ∧
    g.breakGlass.activatedTick ≤ g.currentTick ∧ g.currentTick < g.breakGlass.expiryTick ∧
    (g.acs.state = .emergency ∨ g.breakGlass.activatedTick ≤ g.acs.lastHeartbeatTick)

lemma glassInv_boot : GlassInv boot := ⟨rfl, rfl, fun h => absurd h (by decide)⟩

lemma apply_glass (hroutine : op.Routine) (hop : op ≠ .tick) :
    (apply c g op).currentTick = g.currentTick ∧
    (apply c g op).breakGlass.active = g.breakGlass.active ∧
    (apply c g op).breakGlass.expiryTick = g.breakGlass.expiryTick ∧
    (apply c g op).breakGlass.activatedTick = g.breakGlass.activatedTick := by
  cases op with
  | tick => exact absurd rfl hop
  | evaluatePolicy council header senderPriority resourceKind =>
    have hframe := GovernanceEngine.policyFrame c g.engine council header senderPriority
      resourceKind
    exact ⟨hframe.currentTick, hframe.active, rfl, rfl⟩
  | _ => exact ⟨rfl, rfl, rfl, rfl⟩

lemma apply_acs_evaluatePolicy (council : CouncilEngine) (header : MessageHeader)
    (senderPriority : UInt8) (resourceKind : UInt16) :
    (apply c g (.evaluatePolicy council header senderPriority resourceKind)).acs = g.acs := by
  have hframe := GovernanceEngine.policyFrame c g.engine council header senderPriority resourceKind
  have hacs : (apply c g (.evaluatePolicy council header senderPriority resourceKind)).acs =
      { g.acs with state := g.engine.acs } := by
    rw [← hframe.acs]; rfl
  exact hacs

lemma GlassInv.tick (h : GlassInv g) : GlassInv g.tick := by
  refine ⟨h.rules, rfl, fun hactive => ?_⟩
  rw [tick_breakGlass] at hactive
  obtain ⟨hb, hlt, hsame⟩ | ⟨hacs, hopened⟩ := open_of_tick hactive
  · obtain ⟨hexpiry, hle, -, hsince⟩ := h.active hb
    rw [tick_breakGlass, hsame]
    obtain ⟨hbeat, hstate⟩ := g.acs.tick_cases (g.currentTick + 1)
    refine ⟨hexpiry, le_succ_of_le hle, hlt, ?_⟩
    obtain hemergency | hbefore := hsince
    · -- a tick does not end an emergency
      left
      obtain ⟨-, hacs⟩ | ⟨hne, -⟩ | ⟨hne, -⟩ := hstate
      · rw [tick_acs, hacs]
        exact hemergency
      · exact absurd hemergency hne
      · exact absurd hemergency hne
    · right
      rw [tick_acs, hbeat]
      exact hbefore
  · rw [tick_breakGlass, hopened]
    refine ⟨rfl, le_refl _, ?_, .inl hacs⟩
    exact Nat.lt_add_of_pos_right (by decide)

lemma GlassInv.apply (h : GlassInv g) (hroutine : op.Routine) :
    GlassInv (Governor.apply c g op) := by
  cases op with
  | tick => exact h.tick
  | heartbeat =>
    refine ⟨h.rules, ?_, fun hactive => ?_⟩
    · simp only [Governor.apply, heartbeat, AcsStateMachine.heartbeat, AcsStateMachine.transitionTo]
      split_ifs <;> exact h.untriggered
    obtain ⟨hexpiry, hle, hlt, -⟩ := h.active hactive
    refine ⟨hexpiry, hle, hlt, .inr ?_⟩
    simp only [Governor.apply, heartbeat, AcsStateMachine.heartbeat, AcsStateMachine.transitionTo]
    split_ifs <;> exact hle
  | setAlternateExists | humanConfirm => exact ⟨h.rules, h.untriggered, h.active⟩
  | evaluatePolicy council header senderPriority resourceKind =>
    have hacs := apply_acs_evaluatePolicy (c := c) (g := g) council header senderPriority
      resourceKind
    obtain ⟨htick, hopen, hexpiry, hactivated⟩ := apply_glass (c := c) (g := g) hroutine (by simp)
    refine ⟨(apply_rules g _).trans h.rules, hacs ▸ h.untriggered, fun hactive => ?_⟩
    rw [htick, hexpiry, hactivated, hacs]
    exact h.active (hopen ▸ hactive)
  | reportAnomaly | reportAlarm | reportSignal | forceLockdown =>
    exact absurd hroutine (by simp [Op.Routine])

lemma glassInv_run (hroutine : ∀ op ∈ ops, op.Routine) : GlassInv (run c boot ops) :=
  run_inv GlassInv glassInv_boot fun _ op hop h => h.apply (hroutine op hop)

/-! ### Into an emergency -/

lemma enters_triggered (h : GlassInv g) (hroutine : op.Routine) (hout : ¬ Triggered g)
    (hin : Triggered (apply c g op)) :
    op = .tick ∧ (apply c g op).breakGlass =
      g.breakGlass.activate .safetyLockdown (g.currentTick + 1) := by
  cases op with
  | tick =>
    refine ⟨rfl, ?_⟩
    obtain ⟨hsafety, hacs⟩ : g.tick.safety.state = .lockdown ∧ g.tick.acs.state = .emergency := hin
    show g.tick.breakGlass = _
    rw [tick_breakGlass, hsafety, hacs]
    refine tick_of_closed ?_
    obtain ⟨-, ⟨hbefore, hsame⟩ | ⟨-, hne, -⟩ | ⟨hne, -, -, hlong⟩⟩ :=
      g.acs.tick_cases (g.currentTick + 1)
    · -- without a new emergency the safety state cannot have been raised
      refine absurd ⟨?_, hbefore⟩ hout
      rw [tick_safety, hsame, h.untriggered] at hsafety
      exact lockdown_of_tick hsafety
    · exact absurd hacs hne
    · -- the last heartbeat is too long ago for the bypass to be open
      by_contra hopen
      rw [Bool.not_eq_false] at hopen
      obtain ⟨hexpiry, -, hlt, hsince⟩ := h.active hopen
      have hbefore := hsince.resolve_left hne
      simp only [breakGlassExpiryTicks] at hexpiry
      simp only [emergencyThresholdTicks] at hlong
      omega
  | heartbeat =>
    have hactive : (apply c g .heartbeat).acs.state = .active := by
      simp only [apply, heartbeat, AcsStateMachine.heartbeat]
      split_ifs with hne
      · simp
      · exact not_not.mp hne
    cases hactive.symm.trans hin.2
  | setAlternateExists => exact absurd hin hout
  | evaluatePolicy council header senderPriority resourceKind =>
    have hacs := apply_acs_evaluatePolicy (c := c) (g := g) council header senderPriority
      resourceKind
    have hframe := GovernanceEngine.policyFrame c g.engine council header senderPriority
      resourceKind
    obtain hsame | ⟨-, hchaos⟩ := hframe.safety
    · refine absurd ⟨?_, hacs ▸ hin.2⟩ hout
      have hstate := congrArg SafetyStateMachine.state hsame
      exact hstate.symm.trans hin.1
    have hstate := congrArg SafetyStateMachine.state hchaos
    have hforced : (g.engine.safety.forceState .chaos g.engine.currentTick).state = .chaos :=
      transitionTo_state g.safety .chaos g.currentTick
    cases (hstate.trans hforced).symm.trans hin.1
  | humanConfirm t =>
    refine absurd ⟨?_, hin.2⟩ hout
    have hstate := hin.1
    simp only [apply, SafetyMonitor.humanConfirm] at hstate
    split_ifs at hstate with hlock
    · exact hlock
    · exact hstate
  | reportAnomaly | reportAlarm | reportSignal | forceLockdown =>
    exact absurd hroutine (by simp [Op.Routine])

/-! ### During an emergency -/

/-- Every state that the calls lead through satisfies the condition. -/
def Stays (c : Crypto) (P : Governor → Prop) : Governor → List Op → Prop
  | _, [] => True
  | g, op :: ops => P (apply c g op) ∧ Stays c P (apply c g op) ops

def ticks : List Op → ℕ
  | [] => 0
  | .tick :: ops => ticks ops + 1
  | _ :: ops => ticks ops

def activeTicks (c : Crypto) : Governor → List Op → ℕ
  | _, [] => 0
  | g, .tick :: ops => (if g.tick.breakGlass.active then 1 else 0) + activeTicks c g.tick ops
  | g, op :: ops => activeTicks c (apply c g op) ops

/-- The bypass `r` ticks into its cycle of 60001: open, with the rest of its time to go, or
closed on the last tick. -/
def Phase (g : Governor) (r : ℕ) : Prop :=
  if r < breakGlassExpiryTicks then
    g.breakGlass.active = true ∧
      g.breakGlass.expiryTick = g.currentTick + (breakGlassExpiryTicks - r)
  else g.breakGlass.active = false

lemma ticks_cons_of_ne (hop : op ≠ .tick) : ticks (op :: ops) = ticks ops ∧
    activeTicks c g (op :: ops) = activeTicks c (apply c g op) ops := by
  cases op <;> first | exact ⟨rfl, rfl⟩ | exact absurd rfl hop

lemma Phase.active_iff (h : Phase g r) :
    g.breakGlass.active = true ↔ r < breakGlassExpiryTicks := by
  unfold Phase at h
  split_ifs at h with hr
  · exact iff_of_true h.1 hr
  · simp [h, hr]

lemma Phase.tick (h : Phase g r) (hr : r ≤ breakGlassExpiryTicks) (hin : Triggered g.tick) :
    Phase g.tick ((r + 1) % (breakGlassExpiryTicks + 1)) := by
  have hglass : g.tick.breakGlass = g.breakGlass.tick .lockdown .emergency (g.currentTick + 1) := by
    rw [tick_breakGlass, hin.1, hin.2]
  have htick : g.tick.currentTick = g.currentTick + 1 := rfl
  unfold Phase at h ⊢
  split_ifs at h with hlt
  · obtain ⟨hactive, hexpiry⟩ := h
    rw [mod_eq_of_lt (by omega)]
    split_ifs with hnext
    · rw [hglass, tick_of_open hactive (by omega)]
      exact ⟨hactive, by omega⟩
    · exact tick_of_expired hactive (by omega)
  · obtain rfl : r = breakGlassExpiryTicks := by omega
    rw [mod_self, if_pos (by decide), hglass, tick_of_closed h]
    exact ⟨rfl, rfl⟩

lemma Phase.apply (h : Phase g r) (hroutine : op.Routine) (hop : op ≠ .tick) :
    Phase (Governor.apply c g op) r := by
  obtain ⟨htick, hactive, hexpiry, -⟩ := apply_glass (c := c) (g := g) hroutine hop
  unfold Phase at h ⊢
  rwa [htick, hactive, hexpiry]

lemma activeTicks_add (hphase : Phase g r) (hr : r ≤ breakGlassExpiryTicks)
    (hroutine : ∀ op ∈ ops, op.Routine) (hstays : Stays c Triggered g ops) :
    activeTicks c g ops + (r + 1 + ticks ops) / (breakGlassExpiryTicks + 1) =
      ticks ops + (r + 1) / (breakGlassExpiryTicks + 1) := by
  induction ops generalizing g r with
  | nil => simp [activeTicks, ticks]
  | cons op ops ih =>
    have hrest : ∀ op ∈ ops, op.Routine := fun o ho => hroutine o (mem_cons_of_mem _ ho)
    by_cases hop : op = .tick
    · subst hop
      have hnext := hphase.tick hr hstays.1
      have hlt : (r + 1) % (breakGlassExpiryTicks + 1) ≤ breakGlassExpiryTicks :=
        le_of_lt_succ (mod_lt _ (succ_pos _))
      have hcount := ih hnext hlt hrest hstays.2
      have hactive := hnext.active_iff
      simp only [activeTicks, ticks, hactive, breakGlassExpiryTicks] at hcount hr ⊢
      split_ifs <;> omega
    · obtain ⟨hticks, hactive⟩ := ticks_cons_of_ne (c := c) (g := g) hop
      rw [hticks, hactive]
      have hfirst : op.Routine := hroutine op mem_cons_self
      exact ih (hphase.apply hfirst hop) hr hrest hstays.2

lemma activeTicks_emergency (h : GlassInv g) (hroutine : ∀ op ∈ ops, op.Routine)
    (hout : ¬ Triggered g) (hstays : Stays c Triggered g ops) :
    activeTicks c g ops + ticks ops / (breakGlassExpiryTicks + 1) = ticks ops := by
  cases ops with
  | nil => simp [activeTicks, ticks]
  | cons op ops =>
    obtain ⟨rfl, hglass⟩ := enters_triggered h (hroutine op mem_cons_self) hout hstays.1
    have hopened : g.tick.breakGlass = g.breakGlass.activate .safetyLockdown (g.currentTick + 1) :=
      hglass
    have hactive : g.tick.breakGlass.active = true := by rw [hopened]; rfl
    have hphase : Phase g.tick 0 := by
      rw [Phase, if_pos (by decide), hopened]
      exact ⟨rfl, rfl⟩
    have hcount := activeTicks_add hphase (zero_le _)
      (fun o ho => hroutine o (mem_cons_of_mem _ ho)) hstays.2
    simp only [activeTicks, ticks, hactive, if_true, breakGlassExpiryTicks] at hcount ⊢
    omega

/-- **The bound on the bypass.**  In every run of routine calls, a period of `Lockdown` and
`Emergency`, counted from its first tick, has the bypass open for at most the expiry time
exactly if it is at most one tick longer than that. -/
theorem bypass_bounded_iff (c : Crypto) (before period : List Op)
    (hroutine : ∀ op ∈ before ++ period, op.Routine)
    (hout : ¬ Triggered (run c boot before))
    (hstays : Stays c Triggered (run c boot before) period) :
    activeTicks c (run c boot before) period ≤ breakGlassExpiryTicks ↔
      ticks period ≤ breakGlassExpiryTicks + 1 := by
  have hinv : GlassInv (run c boot before) :=
    glassInv_run fun op hop => hroutine op (mem_append_left _ hop)
  have hcount := activeTicks_emergency hinv
    (fun op hop => hroutine op (mem_append_right _ hop)) hout hstays
  simp only [breakGlassExpiryTicks] at hcount ⊢
  omega

/-! ### A long emergency -/

/-- The booted governor after `n` ticks without a heartbeat. -/
structure Waiting (g : Governor) (n : ℕ) : Prop where
  currentTick : g.currentTick = n
  safety : g.safety.state = .normal
  active : n < degradedThresholdTicks → g.acs.state = .active
  degraded : degradedThresholdTicks ≤ n → g.acs.state = .degraded
  lastHeartbeatTick : g.acs.lastHeartbeatTick = 0
  alternateExists : g.acs.alternateExists = false
  untriggered : g.acs.emergencyTriggered = false
  closed : g.breakGlass.active = false

lemma waiting_boot : Waiting boot 0 :=
  ⟨rfl, rfl, fun _ => rfl, fun h => absurd h (by decide), rfl, rfl, rfl, rfl⟩

variable {n : ℕ}

lemma Waiting.acs_tick (h : Waiting g n) (hn : n + 1 < emergencyThresholdTicks) :
    n + 1 ≠ degradedThresholdTicks ∧ g.acs.tick (g.currentTick + 1) = g.acs ∨
      n + 1 = degradedThresholdTicks ∧
        g.acs.tick (g.currentTick + 1) = g.acs.transitionTo .degraded := by
  obtain hlt | heq | hgt := lt_trichotomy (n + 1) degradedThresholdTicks
  · have hstate := h.active (by omega)
    have hsooner : ¬ degradedThresholdTicks ≤ n + 1 := by omega
    exact .inl ⟨by omega, by
      simp [AcsStateMachine.tick, hstate, h.currentTick, h.lastHeartbeatTick, hsooner]⟩
  · have hstate := h.active (by omega)
    exact .inr ⟨heq, by
      simp [AcsStateMachine.tick, hstate, h.currentTick, h.lastHeartbeatTick, heq]⟩
  · have hstate := h.degraded (by omega)
    have hsooner : ¬ emergencyThresholdTicks ≤ n + 1 := by omega
    exact .inl ⟨by omega, by
      simp [AcsStateMachine.tick, hstate, h.currentTick, h.lastHeartbeatTick, h.alternateExists,
        hsooner]⟩

lemma Waiting.tick (h : Waiting g n) (hn : n + 1 < emergencyThresholdTicks) :
    Waiting g.tick (n + 1) := by
  have hacs : g.tick.acs.lastHeartbeatTick = 0 ∧ g.tick.acs.alternateExists = false ∧
      (g.acs.tick (g.currentTick + 1)).emergencyTriggered = false ∧
      (n + 1 < degradedThresholdTicks → g.tick.acs.state = .active) ∧
      (degradedThresholdTicks ≤ n + 1 → g.tick.acs.state = .degraded) := by
    rw [tick_acs]
    obtain ⟨hne, hsame⟩ | ⟨heq, hdegraded⟩ := h.acs_tick hn
    · rw [hsame]
      exact ⟨h.lastHeartbeatTick, h.alternateExists, h.untriggered,
        fun hlt => h.active (by omega), fun hle => h.degraded (by omega)⟩
    have hactive := h.active (by omega)
    rw [hdegraded, AcsStateMachine.transitionTo, if_pos (by rw [hactive]; decide)]
    exact ⟨h.lastHeartbeatTick, h.alternateExists, h.untriggered, fun hlt => by omega,
      fun _ => rfl⟩
  obtain ⟨hbeat, halternate, hflag, hactive, hdegraded⟩ := hacs
  have hsafety : g.tick.safety = g.safety := by
    rw [tick_safety, hflag]
    simp [SafetyMonitor.tick, h.safety]
  refine ⟨congrArg (· + 1) h.currentTick, hsafety ▸ h.safety, hactive, hdegraded, hbeat,
    halternate, rfl, ?_⟩
  -- the bypass was closed, and there is no emergency
  by_contra hopen
  rw [Bool.not_eq_false, tick_breakGlass] at hopen
  obtain ⟨hbefore, -⟩ | ⟨hemergency, -⟩ := open_of_tick hopen
  · cases hbefore.symm.trans h.closed
  · obtain hlt | hle := lt_or_ge (n + 1) degradedThresholdTicks
    · cases (hactive hlt).symm.trans hemergency
    · cases (hdegraded hle).symm.trans hemergency

lemma waiting_ticks (hn : n < emergencyThresholdTicks) :
    Waiting (run c boot (List.replicate n .tick)) n := by
  induction n with
  | zero => exact waiting_boot
  | succ n ih =>
    rw [replicate_succ', run_append]
    exact (ih (by omega)).tick hn

lemma Waiting.triggered_tick (h : Waiting g n) (hn : n + 1 = emergencyThresholdTicks) :
    Triggered g.tick := by
  have hstate : g.acs.state = .degraded := by
    refine h.degraded ?_
    simp only [emergencyThresholdTicks, degradedThresholdTicks] at *
    omega
  have hacs : g.acs.tick (g.currentTick + 1) =
      { g.acs.transitionTo .emergency with emergencyTriggered := true } := by
    simp [AcsStateMachine.tick, hstate, h.currentTick, h.lastHeartbeatTick, h.alternateExists, hn]
  constructor
  · rw [tick_safety, hacs]
    exact forceLockdown_state _ _
  · rw [tick_acs, hacs]
    exact AcsStateMachine.transitionTo_state _ _

lemma Triggered.tick (h : Triggered g) : Triggered g.tick := by
  refine ⟨tick_lockdown h.1, ?_⟩
  rw [tick_acs]
  simp only [AcsStateMachine.tick, h.2]

lemma stays_ticks (n : ℕ) (h : Triggered g) : Stays c Triggered g (List.replicate n .tick) := by
  induction n generalizing g with
  | zero => trivial
  | succ n ih => exact ⟨h.tick, ih h.tick⟩

lemma ticks_replicate (n : ℕ) : ticks (List.replicate n .tick) = n := by
  induction n with
  | zero => rfl
  | succ n ih => rw [replicate_succ, ticks, ih]

lemma routine_replicate : ∀ op ∈ List.replicate n Op.tick, op.Routine := by
  intro op hop
  rw [eq_of_mem_replicate hop]
  trivial

lemma silent_emergency {n m : ℕ} (hn : n + 1 = emergencyThresholdTicks) :
    ¬ Triggered (run c boot (List.replicate n .tick)) ∧
      Stays c Triggered (run c boot (List.replicate n .tick)) (List.replicate m .tick) := by
  have hwait : Waiting (run c boot (replicate n .tick)) n := waiting_ticks (by omega)
  have htick := hwait.triggered_tick hn
  constructor
  · intro htriggered
    cases hwait.safety.symm.trans htriggered.1
  · cases m with
    | zero => trivial
    | succ m => exact ⟨htick, stays_ticks m htick⟩

lemma activeTicks_silent_emergency {n m : ℕ} (hn : n + 1 = emergencyThresholdTicks) :
    activeTicks c (run c boot (List.replicate n .tick)) (List.replicate m .tick) +
      m / (breakGlassExpiryTicks + 1) = m := by
  obtain ⟨hout, hstays⟩ := silent_emergency (c := c) (m := m) hn
  have hcount := activeTicks_emergency (glassInv_run routine_replicate) routine_replicate hout
    hstays
  rwa [ticks_replicate] at hcount

/-- In the first 60002 ticks of this emergency the bypass is open for 60001: it closes and
opens again. -/
theorem bypass_reopens :
    ¬ Triggered (run Crypto.zero boot (List.replicate 14399999 .tick)) ∧
    Stays Crypto.zero Triggered (run Crypto.zero boot (List.replicate 14399999 .tick))
      (List.replicate 60002 .tick) ∧
    breakGlassExpiryTicks < activeTicks Crypto.zero
      (run Crypto.zero boot (List.replicate 14399999 .tick)) (List.replicate 60002 .tick) := by
  have hlong : ∀ n m, n + 1 = emergencyThresholdTicks → m = breakGlassExpiryTicks + 2 →
      breakGlassExpiryTicks < activeTicks Crypto.zero
        (run Crypto.zero boot (replicate n .tick)) (replicate m .tick) := by
    intro n m hn hm
    have hcount := activeTicks_silent_emergency (c := Crypto.zero) (m := m) hn
    simp only [breakGlassExpiryTicks] at hcount hm ⊢
    omega
  exact ⟨(silent_emergency (m := 0) rfl).1, (silent_emergency rfl).2, hlong _ _ rfl rfl⟩

/-- An emergency of 60001 ticks keeps within the bound. -/
theorem short_bypass_bounded :
    activeTicks Crypto.zero (run Crypto.zero boot (List.replicate 14399999 .tick))
      (List.replicate 60001 .tick) ≤ breakGlassExpiryTicks := by
  have hshort : ∀ n m, n + 1 = emergencyThresholdTicks → m = breakGlassExpiryTicks + 1 →
      activeTicks Crypto.zero (run Crypto.zero boot (replicate n .tick))
        (replicate m .tick) ≤ breakGlassExpiryTicks := by
    intro n m hn hm
    obtain ⟨hout, hstays⟩ := silent_emergency (c := Crypto.zero) (m := m) hn
    refine (bypass_bounded_iff Crypto.zero _ _ ?_ hout hstays).mpr ?_
    · rw [← replicate_add]
      exact routine_replicate
    · rw [ticks_replicate, hm]
  exact hshort _ _ rfl rfl

end Governor

end Fabric
