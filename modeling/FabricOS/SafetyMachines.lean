/-
The tick-driven state machines of governance (`safety.rs`, `acs.rs`, `break_glass.rs`).

* `SafetyMonitor` — the safety state with the counters that move it: anomalies, alarms
  and weighted signals raise it, time lowers it again, and `Lockdown` is left through a
  human confirmation;
* `AcsStateMachine` — the authority continuity system, which degrades as long as no
  heartbeat of the primary authority arrives;
* `BreakGlassTimer` — the emergency bypass with its expiry.

The safety state and the bypass as the policy check sees them are those of `Governance`;
here they are extended by the fields that only their own transitions use.
-/
import FabricOS.Governance

namespace Fabric

/-! ### Safety -/

def elevatedClearTicks : ℕ := 300000
def safeBurndownTicks : ℕ := 1800000
def anomalyWindowTicks : ℕ := 60000
def anomalyBurstThreshold : ℕ := 3
def alarmBurstThreshold : ℕ := 3
def hysteresisWindowTicks : ℕ := 1000
def hysteresisElevatedThreshold : ℕ := 150
def hysteresisChaosThreshold : ℕ := 300
def hysteresisInstantThreshold : ℕ := 80
def transitionCooldownTicks : ℕ := 5000
def maxSignals : ℕ := 32

inductive SafetySignal where
  | memoryIntegrity
  | instructionPointer
  | acsTimeout
  | capabilityFailure
  | councilDrift
  | ioAnomaly
  deriving DecidableEq

def SafetySignal.weight : SafetySignal → ℕ
  | .memoryIntegrity => 100
  | .instructionPointer => 90
  | .acsTimeout => 80
  | .capabilityFailure => 60
  | .councilDrift => 40
  | .ioAnomaly => 20

structure SafetyMonitor extends SafetyStateMachine where
  anomalyCount : ℕ
  anomalyWindowStart : ℕ
  alarmCount : ℕ
  /-- Tick and weight of the signals in the window; at most `maxSignals`. -/
  signalBuffer : List (ℕ × ℕ)
  lastEscalationTick : ℕ

namespace SafetyMonitor

def new : SafetyMonitor where
  toSafetyStateMachine := .new
  anomalyCount := 0
  anomalyWindowStart := 0
  alarmCount := 0
  signalBuffer := []
  lastEscalationTick := 0

def transitionTo (m : SafetyMonitor) (newState : SafetyState) (currentTick : ℕ) : SafetyMonitor :=
  { m with toSafetyStateMachine := m.toSafetyStateMachine.transitionTo newState currentTick }

def tick (m : SafetyMonitor) (currentTick : ℕ) : SafetyMonitor :=
  match m.state with
  | .elevated =>
    if currentTick - m.stateEnteredTick ≥ elevatedClearTicks then
      m.transitionTo .normal currentTick
    else m
  | .safe =>
    if currentTick - m.stateEnteredTick ≥ safeBurndownTicks then
      m.transitionTo .normal currentTick
    else m
  | _ => m

/-- Report an anomaly; a burst raises `Normal` to `Elevated`. -/
def reportAnomaly (m : SafetyMonitor) (currentTick : ℕ) : SafetyMonitor :=
  let m := if currentTick - m.anomalyWindowStart ≥ anomalyWindowTicks then
      { m with anomalyCount := 0, anomalyWindowStart := currentTick }
    else m
  let m := { m with anomalyCount := m.anomalyCount + 1 }
  if m.state = .normal ∧ m.anomalyCount ≥ anomalyBurstThreshold then
    { m.transitionTo .elevated currentTick with anomalyCount := 0 }
  else m

/-- Report an alarm; a burst raises `Elevated` to `Chaos`. -/
def reportAlarm (m : SafetyMonitor) (currentTick : ℕ) : SafetyMonitor :=
  let m := { m with alarmCount := m.alarmCount + 1 }
  if m.state = .elevated ∧ m.alarmCount ≥ alarmBurstThreshold then
    { m.transitionTo .chaos currentTick with alarmCount := 0 }
  else m

def forceLockdown (m : SafetyMonitor) (currentTick : ℕ) : SafetyMonitor :=
  m.transitionTo .lockdown currentTick

/-- Human confirmation: `Lockdown` to `Safe`. -/
def humanConfirm (m : SafetyMonitor) (currentTick : ℕ) : SafetyMonitor × Bool :=
  if m.state = .lockdown then (m.transitionTo .safe currentTick, true) else (m, false)

def escalate (m : SafetyMonitor) (newState : SafetyState) (currentTick : ℕ) : SafetyMonitor :=
  { m.transitionTo newState currentTick with lastEscalationTick := currentTick }

/-- The weights in the buffer, added up in a saturating `u32`. -/
def weightedSum (signals : List (ℕ × ℕ)) : ℕ :=
  signals.foldl (fun sum signal => min (sum + signal.2) (2 ^ 32 - 1)) 0

/-- Report a weighted signal.  A critical one escalates at once, the others when their
weights in the window add up. -/
def reportSignal (m : SafetyMonitor) (signal : SafetySignal) (currentTick : ℕ) : SafetyMonitor :=
  let cooled : Bool := currentTick - m.lastEscalationTick ≥ transitionCooldownTicks
  if signal.weight ≥ hysteresisInstantThreshold then
    if m.state = .normal then
      if cooled then m.escalate .elevated currentTick else m
    else if m.state = .elevated then
      if cooled then m.escalate .chaos currentTick else m
    else m
  else
    let window := m.signalBuffer.filter fun s => currentTick - hysteresisWindowTicks ≤ s.1
    -- a full buffer drops the new signal
    let window : List (ℕ × ℕ) :=
      if window.length < maxSignals then window ++ [(currentTick, signal.weight)] else window
    let m : SafetyMonitor := { m with signalBuffer := window }
    if cooled then
      if m.state = .normal ∧ weightedSum window ≥ hysteresisElevatedThreshold then
        { m.escalate .elevated currentTick with signalBuffer := [] }
      else if m.state = .elevated ∧ weightedSum window ≥ hysteresisChaosThreshold then
        { m.escalate .chaos currentTick with signalBuffer := [] }
      else m
    else m

section

variable {m : SafetyMonitor}

@[simp] lemma transitionTo_state (m : SafetyMonitor) (newState : SafetyState) (t : ℕ) :
    (m.transitionTo newState t).state = newState := by
  simp only [transitionTo, SafetyStateMachine.transitionTo]
  split_ifs with h
  · rfl
  · exact not_not.mp h

/-! #### `Lockdown` is left by nothing but a confirmation -/

lemma tick_lockdown (h : m.state = .lockdown) (t : ℕ) : m.tick t = m := by
  simp [tick, h]

lemma reportSignal_lockdown (h : m.state = .lockdown) (signal : SafetySignal) (t : ℕ) :
    (m.reportSignal signal t).state = .lockdown := by
  by_cases hcritical : signal.weight ≥ hysteresisInstantThreshold <;>
    simp [reportSignal, h, hcritical]

lemma forceLockdown_state (m : SafetyMonitor) (t : ℕ) : (m.forceLockdown t).state = .lockdown :=
  transitionTo_state m _ t

end

end SafetyMonitor

/-! ### Authority continuity -/

def degradedThresholdTicks : ℕ := 3600000
def contingencyThresholdTicks : ℕ := 7200000
def emergencyThresholdTicks : ℕ := 14400000

structure AcsStateMachine where
  state : AcsState
  lastHeartbeatTick : ℕ
  alternateExists : Bool
  totalTransitions : ℕ
  emergencyTriggered : Bool

namespace AcsStateMachine

def new : AcsStateMachine := ⟨.active, 0, false, 0, false⟩

def transitionTo (a : AcsStateMachine) (newState : AcsState) : AcsStateMachine :=
  if a.state ≠ newState then
    { a with state := newState, totalTransitions := a.totalTransitions + 1 }
  else a

/-- Whether an emergency was triggered since the last call, and clear the flag. -/
def takeEmergencyTrigger (a : AcsStateMachine) : AcsStateMachine × Bool :=
  ({ a with emergencyTriggered := false }, a.emergencyTriggered)

def setAlternateExists (a : AcsStateMachine) (doesExist : Bool) : AcsStateMachine :=
  { a with alternateExists := doesExist }

def tick (a : AcsStateMachine) (currentTick : ℕ) : AcsStateMachine :=
  let elapsed := currentTick - a.lastHeartbeatTick
  match a.state with
  | .active => if elapsed ≥ degradedThresholdTicks then a.transitionTo .degraded else a
  | .degraded =>
    if elapsed ≥ contingencyThresholdTicks ∧ a.alternateExists = true then
      a.transitionTo .contingency
    else if elapsed ≥ emergencyThresholdTicks then
      { a.transitionTo .emergency with emergencyTriggered := true }
    else a
  | .contingency =>
    if elapsed ≥ emergencyThresholdTicks then
      { a.transitionTo .emergency with emergencyTriggered := true }
    else a
  | .emergency => a

/-- A heartbeat of the primary authority restores `Active`. -/
def heartbeat (a : AcsStateMachine) (currentTick : ℕ) : AcsStateMachine :=
  let a := { a with lastHeartbeatTick := currentTick }
  if a.state ≠ .active then a.transitionTo .active else a

@[simp] lemma transitionTo_state (a : AcsStateMachine) (newState : AcsState) :
    (a.transitionTo newState).state = newState := by
  unfold transitionTo
  split_ifs with h
  · rfl
  · exact not_not.mp h

end AcsStateMachine

/-! ### Break-glass -/

def breakGlassExpiryTicks : ℕ := 60000

inductive BreakGlassReason where
  | governancePanic
  | acsSuccessionFailed
  | safetyLockdown
  deriving DecidableEq

structure BreakGlassTimer extends BreakGlass where
  activatedTick : ℕ
  expiryTick : ℕ
  reason : BreakGlassReason
  totalActivations : ℕ

namespace BreakGlassTimer

def new : BreakGlassTimer where
  toBreakGlass := .new
  activatedTick := 0
  expiryTick := 0
  reason := .safetyLockdown
  totalActivations := 0

def activate (b : BreakGlassTimer) (reason : BreakGlassReason) (currentTick : ℕ) :
    BreakGlassTimer where
  active := true
  activatedTick := currentTick
  expiryTick := currentTick + breakGlassExpiryTicks
  reason := reason
  operationsLogged := 0
  totalActivations := b.totalActivations + 1

def deactivate (b : BreakGlassTimer) : BreakGlassTimer := { b with active := false }

/-- Activate the bypass in `Lockdown` with the authority system in `Emergency`; the flag
tells whether it was activated just now. -/
def checkAndActivate (b : BreakGlassTimer) (safety : SafetyState) (acs : AcsState)
    (currentTick : ℕ) : BreakGlassTimer × Bool :=
  if b.active then
    (if currentTick ≥ b.expiryTick then b.deactivate else b, false)
  else if safety = .lockdown ∧ acs = .emergency then
    (b.activate .safetyLockdown currentTick, true)
  else (b, false)

def checkExpiry (b : BreakGlassTimer) (currentTick : ℕ) : BreakGlassTimer :=
  if b.active ∧ currentTick ≥ b.expiryTick then b.deactivate else b

def checkRecovery (b : BreakGlassTimer) (safety : SafetyState) : BreakGlassTimer :=
  if b.active ∧ (safety = .normal ∨ safety = .elevated) then b.deactivate else b

end BreakGlassTimer

end Fabric
