/-
The governance engine over time.

`Governor` is the engine with the whole state of its three machines.  Ticks, heartbeats,
reports and confirmations move the machines; the policy check is the one of `Governance`,
carried out on the part of the state that it reads and writes.
-/
import FabricOS.Constitution
import FabricOS.SafetyMachines

namespace Fabric

structure Governor where
  rules : RuleEngine
  safety : SafetyMonitor
  acs : AcsStateMachine
  breakGlass : BreakGlassTimer
  currentTick : ℕ
  totalEvaluations : ℕ
  totalDenials : ℕ
  totalBreakGlassBypasses : ℕ
  initialized : Bool

namespace Governor

def new : Governor where
  rules := .new
  safety := .new
  acs := .new
  breakGlass := .new
  currentTick := 0
  totalEvaluations := 0
  totalDenials := 0
  totalBreakGlassBypasses := 0
  initialized := false

def init (g : Governor) : Governor :=
  { g with rules := g.rules.loadRules genesisRules, initialized := true }

def engine (g : Governor) : GovernanceEngine where
  rules := g.rules
  safety := g.safety.toSafetyStateMachine
  acs := g.acs.state
  breakGlass := g.breakGlass.toBreakGlass
  currentTick := g.currentTick
  totalEvaluations := g.totalEvaluations
  totalDenials := g.totalDenials
  totalBreakGlassBypasses := g.totalBreakGlassBypasses
  initialized := g.initialized

def withEngine (g : Governor) (e : GovernanceEngine) : Governor where
  rules := e.rules
  safety := { g.safety with toSafetyStateMachine := e.safety }
  acs := { g.acs with state := e.acs }
  breakGlass := { g.breakGlass with toBreakGlass := e.breakGlass }
  currentTick := e.currentTick
  totalEvaluations := e.totalEvaluations
  totalDenials := e.totalDenials
  totalBreakGlassBypasses := e.totalBreakGlassBypasses
  initialized := e.initialized

/-- Evaluate the policy for a message of a sender with a priority, under a capability for a
kind of resource. -/
def evaluatePolicy (c : Crypto) (g : Governor) (council : CouncilEngine) (header : MessageHeader)
    (senderPriority : UInt8) (resourceKind : UInt16) :
    Governor × CouncilEngine × Except BusError Unit :=
  let (e, council, result) := g.engine.evaluatePolicy c council header senderPriority resourceKind
  (g.withEngine e, council, result)

def tick (g : Governor) : Governor :=
  let now := g.currentTick + 1
  let safety := g.safety.tick now
  -- an emergency of the authority system locks the system down
  let (acs, triggered) := (g.acs.tick now).takeEmergencyTrigger
  let safety := if triggered then safety.forceLockdown now else safety
  let glass := (g.breakGlass.checkAndActivate safety.state acs.state now).1
  { g with
    currentTick := now
    safety := safety
    acs := acs
    breakGlass := (glass.checkExpiry now).checkRecovery safety.state }

def heartbeat (g : Governor) : Governor := { g with acs := g.acs.heartbeat g.currentTick }

/-- The calls on a governor.  The reports to the safety monitor name the tick they are made
at; a policy check comes with the council as it is at the time. -/
inductive Op where
  | tick
  | heartbeat
  | setAlternateExists (doesExist : Bool)
  | evaluatePolicy (council : CouncilEngine) (header : MessageHeader) (senderPriority : UInt8)
      (resourceKind : UInt16)
  | reportAnomaly (tick : ℕ)
  | reportAlarm (tick : ℕ)
  | reportSignal (signal : SafetySignal) (tick : ℕ)
  | forceLockdown (tick : ℕ)
  | humanConfirm (tick : ℕ)

def apply (c : Crypto) (g : Governor) : Op → Governor
  | .tick => g.tick
  | .heartbeat => g.heartbeat
  | .setAlternateExists doesExist => { g with acs := g.acs.setAlternateExists doesExist }
  | .evaluatePolicy council header senderPriority resourceKind =>
    (g.evaluatePolicy c council header senderPriority resourceKind).1
  | .reportAnomaly tick => { g with safety := g.safety.reportAnomaly tick }
  | .reportAlarm tick => { g with safety := g.safety.reportAlarm tick }
  | .reportSignal signal tick => { g with safety := g.safety.reportSignal signal tick }
  | .forceLockdown tick => { g with safety := g.safety.forceLockdown tick }
  | .humanConfirm tick => { g with safety := (g.safety.humanConfirm tick).1 }

def run (c : Crypto) (g : Governor) (ops : List Op) : Governor := ops.foldl (apply c) g

def boot : Governor := new.init

variable {c : Crypto} {g : Governor} {op : Op} {ops : List Op}

@[simp] lemma run_nil : run c g [] = g := rfl

@[simp] lemma run_cons : run c g (op :: ops) = run c (apply c g op) ops := rfl

lemma run_append {ops' : List Op} : run c g (ops ++ ops') = run c (run c g ops) ops' :=
  List.foldl_append

lemma run_inv (P : Governor → Prop) (h0 : P g)
    (hstep : ∀ g op, op ∈ ops → P g → P (apply c g op)) : P (run c g ops) :=
  List.foldlRecOn ops _ h0 fun g hg op hop => hstep g op hop hg

end Governor

/-! ### What a policy check can change -/

/-- A policy check counts, and may raise the safety state to `Chaos` if the rules say so;
everything else stays. -/
structure PolicyFrame (ctx : EvalContext) (e e' : GovernanceEngine) : Prop where
  rules : e'.rules = e.rules
  acs : e'.acs = e.acs
  currentTick : e'.currentTick = e.currentTick
  initialized : e'.initialized = e.initialized
  active : e'.breakGlass.active = e.breakGlass.active
  safety : e'.safety = e.safety ∨ (e.rules.evaluateWithAction ctx).1 = .escalateToChaos ∧
    e'.safety = e.safety.forceState .chaos e.currentTick

lemma GovernanceEngine.policyFrame (c : Crypto) (e : GovernanceEngine) (council : CouncilEngine)
    (header : MessageHeader) (senderPriority : UInt8) (resourceKind : UInt16) :
    PolicyFrame (e.context header senderPriority resourceKind) e
      (e.evaluatePolicy c council header senderPriority resourceKind).1 := by
  unfold evaluatePolicy
  split_ifs
  · exact ⟨rfl, rfl, rfl, rfl, rfl, .inl rfl⟩
  · exact ⟨rfl, rfl, rfl, rfl, rfl, .inl rfl⟩
  cases haction :
      (e.rules.evaluateWithAction (e.context header senderPriority resourceKind)).1 with
  | allow | allowIfCapValid | deny | denyAndLog =>
    simp only [haction]
    exact ⟨rfl, rfl, rfl, rfl, rfl, .inl rfl⟩
  | escalateToChaos =>
    simp only [haction]
    split <;> exact ⟨rfl, rfl, rfl, rfl, rfl, .inr ⟨haction, rfl⟩⟩
  | escalateToTier2 =>
    simp only [haction]
    split <;> exact ⟨rfl, rfl, rfl, rfl, rfl, .inl rfl⟩

namespace Governor

variable {c : Crypto} {g : Governor} {op : Op} {ops : List Op}

lemma apply_rules (g : Governor) (op : Op) : (apply c g op).rules = g.rules := by
  cases op with
  | evaluatePolicy council header senderPriority resourceKind =>
    exact (GovernanceEngine.policyFrame c g.engine council header senderPriority resourceKind).rules
  | _ => rfl

lemma evaluatePolicy_lockdown (hrules : g.rules = genesisEngine)
    (h : g.safety.state = .lockdown) (council : CouncilEngine) (header : MessageHeader)
    (senderPriority : UInt8) (resourceKind : UInt16) :
    (g.evaluatePolicy c council header senderPriority resourceKind).1.safety = g.safety := by
  have hframe := GovernanceEngine.policyFrame c g.engine council header senderPriority resourceKind
  obtain hsame | ⟨hchaos, -⟩ := hframe.safety
  · have hsafety : (g.evaluatePolicy c council header senderPriority resourceKind).1.safety =
        { g.safety with toSafetyStateMachine := g.engine.safety } := by
      rw [← hsame]; rfl
    exact hsafety
  · have hengine : g.engine.rules = genesisEngine := hrules
    rw [hengine, evaluateWithAction_genesis] at hchaos
    have hlock : genesisAction (g.engine.context header senderPriority resourceKind) = .allow ∨ _ :=
      genesisAction_lockdown h
    rw [hchaos] at hlock
    simp at hlock

lemma tick_lockdown (h : g.safety.state = .lockdown) : g.tick.safety.state = .lockdown := by
  simp only [tick, SafetyMonitor.tick_lockdown h]
  split_ifs
  · exact SafetyMonitor.forceLockdown_state _ _
  · exact h

/-- **Lockdown is left only by a human.**  In every run of a booted governor, a step that
starts in `Lockdown` and ends in another state is a human confirmation and ends in `Safe`. -/
theorem lockdown_left_only_by_human (c : Crypto) (ops : List Op) (op : Op)
    (hlock : (run c boot ops).safety.state = .lockdown)
    (hleft : (run c boot (ops ++ [op])).safety.state ≠ .lockdown) :
    (∃ tick, op = .humanConfirm tick) ∧ (run c boot (ops ++ [op])).safety.state = .safe := by
  rw [run_append, run_cons, run_nil] at *
  have hrules : (run c boot ops).rules = genesisEngine :=
    run_inv (·.rules = genesisEngine) rfl fun g op _ h => (apply_rules g op).trans h
  cases op with
  | tick => exact absurd (tick_lockdown hlock) hleft
  | heartbeat | setAlternateExists => exact absurd hlock hleft
  | evaluatePolicy council header senderPriority resourceKind =>
    have hsame := evaluatePolicy_lockdown (c := c) hrules hlock council header senderPriority
      resourceKind
    refine absurd ?_ hleft
    rw [apply, hsame, hlock]
  | reportAnomaly t =>
    simp only [apply, SafetyMonitor.reportAnomaly] at hleft
    split_ifs at hleft <;> simp_all
  | reportAlarm t => simp [apply, SafetyMonitor.reportAlarm, hlock] at hleft
  | reportSignal s t => exact absurd (SafetyMonitor.reportSignal_lockdown hlock s t) hleft
  | forceLockdown t => exact absurd (SafetyMonitor.forceLockdown_state _ t) hleft
  | humanConfirm t => exact ⟨⟨t, rfl⟩, by simp [apply, SafetyMonitor.humanConfirm, hlock]⟩

/-- A forced lockdown is lifted by a confirmation. -/
theorem confirmed_lockdown_left_only_by_human :
    (run Crypto.zero boot [.forceLockdown 3, .humanConfirm 5]).safety.state = .safe :=
  (lockdown_left_only_by_human Crypto.zero [.forceLockdown 3] (.humanConfirm 5) (by decide)
    (by decide)).2

end Governor

end Fabric
