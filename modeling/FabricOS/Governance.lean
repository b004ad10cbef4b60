/-
The policy check before a message is routed (`governance/mod.rs`, with the state of
`safety.rs`, `acs.rs` and `break_glass.rs` that it uses).

`evaluatePolicy` builds the context of a message from its header, the priority of its
sender and the kind of the resource its capability names, and asks the rule engine.  A
matching rule may raise the safety state to chaos, after which the message is evaluated
once more, or hand the decision to the council.  An engine that is not initialised
allows everything, and so does one whose glass is broken.

The tick-driven transitions of the state machines do not take part and are left out.
-/
import FabricOS.BusRouter
import FabricOS.Council

namespace Fabric

/-! ### State machines -/

structure SafetyStateMachine where
  state : SafetyState
  stateEnteredTick : ℕ
  totalTransitions : ℕ

namespace SafetyStateMachine

def new : SafetyStateMachine := ⟨.normal, 0, 0⟩

def transitionTo (m : SafetyStateMachine) (newState : SafetyState) (currentTick : ℕ) :
    SafetyStateMachine :=
  if m.state ≠ newState then ⟨newState, currentTick, m.totalTransitions + 1⟩ else m

def forceState (m : SafetyStateMachine) (state : SafetyState) (currentTick : ℕ) :
    SafetyStateMachine :=
  m.transitionTo state currentTick

end SafetyStateMachine

structure BreakGlass where
  active : Bool
  operationsLogged : ℕ

namespace BreakGlass

def new : BreakGlass := ⟨false, 0⟩

def logOperation (b : BreakGlass) : BreakGlass :=
  { b with operationsLogged := b.operationsLogged + 1 }

end BreakGlass

/-! ### The engine -/

structure GovernanceEngine where
  rules : RuleEngine
  safety : SafetyStateMachine
  acs : AcsState
  breakGlass : BreakGlass
  currentTick : ℕ
  totalEvaluations : ℕ
  totalDenials : ℕ
  totalBreakGlassBypasses : ℕ
  initialized : Bool

namespace GovernanceEngine

def new : GovernanceEngine where
  rules := .new
  safety := .new
  acs := .active
  breakGlass := .new
  currentTick := 0
  totalEvaluations := 0
  totalDenials := 0
  totalBreakGlassBypasses := 0
  initialized := false

def init (g : GovernanceEngine) : GovernanceEngine :=
  { g with rules := g.rules.loadRules genesisRules, initialized := true }

def context (g : GovernanceEngine) (header : MessageHeader) (senderPriority : UInt8)
    (resourceKind : UInt16) : EvalContext where
  senderPid := header.sender
  receiverPid := header.receiver
  msgType := header.msgType
  capabilityId := header.capabilityId
  resourceKind := resourceKind
  senderPriority := senderPriority
  safetyState := g.safety.state
  acsState := g.acs
  tierEscalated := false

def denied (g : GovernanceEngine) : GovernanceEngine :=
  { g with totalDenials := g.totalDenials + 1 }

def evaluatePolicy (c : Crypto) (g : GovernanceEngine) (council : CouncilEngine)
    (header : MessageHeader) (senderPriority : UInt8) (resourceKind : UInt16) :
    GovernanceEngine × CouncilEngine × Except BusError Unit :=
  if !g.initialized then (g, council, .ok ())
  else if g.breakGlass.active then
    ({ g with
      breakGlass := g.breakGlass.logOperation
      totalBreakGlassBypasses := g.totalBreakGlassBypasses + 1
      totalEvaluations := g.totalEvaluations + 1 }, council, .ok ())
  else
    let ctx := g.context header senderPriority resourceKind
    let action := (g.rules.evaluateWithAction ctx).1
    let g := { g with totalEvaluations := g.totalEvaluations + 1 }
    match action with
    | .allow | .allowIfCapValid => (g, council, .ok ())
    -- the two kinds of denial are treated alike: nothing is logged
    | .deny => (g.denied, council, .error .policyDenied)
    | .denyAndLog => (g.denied, council, .error .policyDenied)
    | .escalateToChaos =>
      let g := { g with safety := g.safety.forceState .chaos g.currentTick }
      -- the second evaluation yields a verdict, so it cannot escalate again
      match (g.rules.evaluate { ctx with safetyState := g.safety.state }).1 with
      | .allow => (g, council, .ok ())
      | _ => (g.denied, council, .error .policyDenied)
    | .escalateToTier2 =>
      let (council, verdict) := council.evaluateTier2 c ctx
      match verdict.decision with
      | .allow => (g, council, .ok ())
      | _ => (g.denied, council, .error .policyDenied)

end GovernanceEngine

end Fabric
