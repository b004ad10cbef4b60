/-
The rule engine of the governance subsystem (`governance/rules.rs`) and the rules it
is booted with (`governance/constitution.rs`).

Rules are tried in the order of descending priority, and the first one all of whose
conditions hold decides (`evaluate`, `evaluateWithAction`).  A rule keeps only its
active conditions, and the engine only its loaded rules, both as lists with the
bounds of the arrays as invariants: the other slots are never read.
-/
import FabricOS.WireTypes

namespace Fabric

/-! ### Governance states and verdicts -/

inductive SafetyState where
  | normal
  | elevated
  | safe
  | chaos
  | lockdown
  deriving DecidableEq

def SafetyState.code : SafetyState → UInt8
  | .normal => 0
  | .elevated => 1
  | .safe => 2
  | .chaos => 3
  | .lockdown => 4

inductive AcsState where
  | active
  | degraded
  | contingency
  | emergency
  deriving DecidableEq

def AcsState.code : AcsState → UInt8
  | .active => 0
  | .degraded => 1
  | .contingency => 2
  | .emergency => 3

inductive PolicyVerdict where
  | allow
  | deny
  | escalate (state : SafetyState)
  deriving DecidableEq

/-! ### Rules -/

inductive RuleCondition where
  | senderEquals
  | receiverEquals
  | msgTypeEquals
  | resourceKindEquals
  | priorityBelow
  | always
  | safetyStateAtLeast
  | acsStateEquals
  | senderNotButler
  | tierEscalated
  deriving DecidableEq

inductive RuleAction where
  | allow
  | deny
  | denyAndLog
  | allowIfCapValid
  | escalateToChaos
  | escalateToTier2
  deriving DecidableEq

/-- What rules can see of a message and of the system. -/
structure EvalContext where
  senderPid : UInt32
  receiverPid : UInt32
  msgType : UInt16
  capabilityId : UInt64
  resourceKind : UInt16
  senderPriority : UInt8
  safetyState : SafetyState
  acsState : AcsState
  tierEscalated : Bool

structure Condition where
  kind : RuleCondition
  value : UInt64
  deriving DecidableEq

/-- Evaluate a condition; the value is cut to the width of what it is compared with. -/
def Condition.evaluate (cond : Condition) (ctx : EvalContext) : Bool :=
  match cond.kind with
  | .senderEquals => ctx.senderPid == cond.value.toUInt32
  | .receiverEquals => ctx.receiverPid == cond.value.toUInt32
  | .msgTypeEquals => ctx.msgType == cond.value.toUInt16
  | .resourceKindEquals => ctx.resourceKind == cond.value.toUInt16
  | .priorityBelow => ctx.senderPriority < cond.value.toUInt8
  | .always => true
  | .safetyStateAtLeast => ctx.safetyState.code ≥ cond.value.toUInt8
  | .acsStateEquals => ctx.acsState.code == cond.value.toUInt8
  | .senderNotButler => ctx.senderPid != 1
  | .tierEscalated => ctx.tierEscalated

def maxConditions : ℕ := 4

structure PolicyRule where
  name : String
  /-- Higher values are evaluated first. -/
  priority : UInt16
  conditions : List Condition
  action : RuleAction
  conditions_le : conditions.length ≤ maxConditions := by decide

namespace PolicyRule

def matchesCtx (rule : PolicyRule) (ctx : EvalContext) : Bool :=
  rule.conditions.all (·.evaluate ctx)

def verdict (rule : PolicyRule) : PolicyVerdict :=
  match rule.action with
  | .allow => .allow
  | .allowIfCapValid => .allow
  | .deny => .deny
  | .denyAndLog => .deny
  | .escalateToChaos => .escalate .chaos
  | .escalateToTier2 => .deny

end PolicyRule

/-! ### The engine -/

def maxRules : ℕ := 64

/-- Swap a rule forward past the lower priorities before it, which are given in
reversed order. -/
def sink (rule : PolicyRule) : List PolicyRule → List PolicyRule
  | [] => [rule]
  | prev :: front =>
    if rule.priority > prev.priority then prev :: sink rule front else rule :: prev :: front

def sortRules (rules : List PolicyRule) : List PolicyRule :=
  (rules.foldl (fun front rule => sink rule front) []).reverse

lemma length_sink (rule : PolicyRule) (front : List PolicyRule) :
    (sink rule front).length = front.length + 1 := by
  induction front with
  | nil => rfl
  | cons prev front ih =>
    unfold sink
    split_ifs <;> simp [ih]

lemma length_sortRules (rules : List PolicyRule) : (sortRules rules).length = rules.length := by
  -- the fold lengthens its accumulator by one for every rule
  have hfold : ∀ front : List PolicyRule,
      (rules.foldl (fun front rule => sink rule front) front).length =
        front.length + rules.length := by
    induction rules with
    | nil => simp
    | cons rule rules ih =>
      intro front
      rw [List.foldl_cons, ih, length_sink, List.length_cons]
      omega
  simp [sortRules, hfold]

structure RuleEngine where
  rules : List PolicyRule
  rules_le : rules.length ≤ maxRules

namespace RuleEngine

def new : RuleEngine := ⟨[], Nat.zero_le _⟩

def loadRules (_ : RuleEngine) (rules : List PolicyRule) : RuleEngine where
  rules := sortRules (rules.take maxRules)
  rules_le := by
    rw [length_sortRules]
    exact List.length_take_le _ _

/-- The verdict of the first matching rule, its name and whether to log. -/
def evaluate (e : RuleEngine) (ctx : EvalContext) : PolicyVerdict × String × Bool :=
  match e.rules.find? (·.matchesCtx ctx) with
  | some rule => (rule.verdict, rule.name, rule.action == .denyAndLog)
  | none => (.allow, "default-allow", false)

def evaluateWithAction (e : RuleEngine) (ctx : EvalContext) : RuleAction × String :=
  match e.rules.find? (·.matchesCtx ctx) with
  | some rule => (rule.action, rule.name)
  | none => (.allow, "default-allow")

end RuleEngine

/-! ### The constitution -/

def genesisRules : List PolicyRule :=
  [{ name := "butler-unrestricted", priority := 1000
     conditions := [⟨.senderEquals, 1⟩]
     action := .allow },
   { name := "lockdown-deny-all", priority := 900
     conditions := [⟨.safetyStateAtLeast, 4⟩, ⟨.senderNotButler, 0⟩]
     action := .denyAndLog },
   { name := "chaos-critical-only", priority := 800
     conditions := [⟨.safetyStateAtLeast, 3⟩, ⟨.senderNotButler, 0⟩, ⟨.priorityBelow, 4⟩]
     action := .denyAndLog },
   { name := "elevated-throttle-low", priority := 700
     conditions := [⟨.safetyStateAtLeast, 1⟩, ⟨.priorityBelow, 2⟩]
     action := .deny },
   { name := "deny-kernel-spoof", priority := 950
     conditions := [⟨.senderEquals, 0⟩]
     action := .denyAndLog },
   { name := "acs-emergency-escalate", priority := 850
     conditions := [⟨.acsStateEquals, 3⟩]
     action := .escalateToChaos },
   { name := "device-access-gated", priority := 600
     conditions := [⟨.resourceKindEquals, 3⟩, ⟨.senderNotButler, 0⟩]
     action := .allowIfCapValid },
   { name := "normal-default-allow", priority := 100
     conditions := [⟨.always, 0⟩]
     action := .allow },
   { name := "safe-state-allow", priority := 650
     conditions := [⟨.safetyStateAtLeast, 2⟩, ⟨.senderNotButler, 0⟩]
     action := .allowIfCapValid },
   { name := "council-escalation", priority := 550
     conditions := [⟨.resourceKindEquals, 6⟩, ⟨.senderNotButler, 0⟩]
     action := .allowIfCapValid }]

end Fabric
