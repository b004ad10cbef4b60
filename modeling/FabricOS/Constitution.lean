/-
What the constitution decides.

`loadRules` sorts the ten genesis rules by priority.  Since the first matching rule
wins, their joint effect is one chain of tests, `genesisAction`; the proofs about the
governance subsystem use this chain instead of the rule list.
-/
import FabricOS.PolicyRules

namespace Fabric

open Condition

def genesisEngine : RuleEngine := RuleEngine.new.loadRules genesisRules

/-- The decision of the constitution, by descending priority of its rules. -/
def genesisAction (ctx : EvalContext) : RuleAction :=
  if ctx.senderPid = 1 then .allow
  else if ctx.senderPid = 0 then .denyAndLog
  else if ctx.safetyState = .lockdown then .denyAndLog
  else if ctx.acsState = .emergency then .escalateToChaos
  else if ctx.safetyState = .chaos ∧ ctx.senderPriority < 4 then .denyAndLog
  else if ctx.safetyState ≠ .normal ∧ ctx.senderPriority < 2 then .deny
  else if ctx.safetyState = .safe ∨ ctx.safetyState = .chaos then .allowIfCapValid
  else if ctx.resourceKind = 3 then .allowIfCapValid
  else if ctx.resourceKind = 6 then .allowIfCapValid
  else .allow

lemma genesisEngine_rules : genesisEngine.rules.map (fun r => (r.conditions, r.action)) =
    [([⟨.senderEquals, 1⟩], .allow),
     ([⟨.senderEquals, 0⟩], .denyAndLog),
     ([⟨.safetyStateAtLeast, 4⟩, ⟨.senderNotButler, 0⟩], .denyAndLog),
     ([⟨.acsStateEquals, 3⟩], .escalateToChaos),
     ([⟨.safetyStateAtLeast, 3⟩, ⟨.senderNotButler, 0⟩, ⟨.priorityBelow, 4⟩], .denyAndLog),
     ([⟨.safetyStateAtLeast, 1⟩, ⟨.priorityBelow, 2⟩], .deny),
     ([⟨.safetyStateAtLeast, 2⟩, ⟨.senderNotButler, 0⟩], .allowIfCapValid),
     ([⟨.resourceKindEquals, 3⟩, ⟨.senderNotButler, 0⟩], .allowIfCapValid),
     ([⟨.resourceKindEquals, 6⟩, ⟨.senderNotButler, 0⟩], .allowIfCapValid),
     ([⟨.always, 0⟩], .allow)] := by
  decide

def firstAction (ctx : EvalContext) : List (List Condition × RuleAction) → RuleAction
  | [] => .allow
  | (conditions, action) :: rules =>
    if conditions.all (·.evaluate ctx) then action else firstAction ctx rules

lemma evaluateWithAction_eq_firstAction (e : RuleEngine) (ctx : EvalContext) :
    (e.evaluateWithAction ctx).1 =
      firstAction ctx (e.rules.map fun r => (r.conditions, r.action)) := by
  unfold RuleEngine.evaluateWithAction
  induction e.rules with
  | nil => rfl
  | cons rule rules ih =>
    rw [List.find?_cons, List.map_cons, firstAction, ← ih]
    cases hmatch : rule.matchesCtx ctx with
    | true =>
      have hall : rule.conditions.all (·.evaluate ctx) = true := hmatch
      simp [hall]
    | false =>
      have hall : rule.conditions.all (·.evaluate ctx) = false := hmatch
      simp [hall]

section

variable {ctx : EvalContext}

lemma evaluateWithAction_genesis (ctx : EvalContext) :
    (genesisEngine.evaluateWithAction ctx).1 = genesisAction ctx := by
  rw [evaluateWithAction_eq_firstAction, genesisEngine_rules]
  unfold genesisAction
  by_cases hbutler : ctx.senderPid = 1
  · simp [firstAction, evaluate, hbutler]
  -- the rules compare the codes of the two states with numbers
  cases hsafety : ctx.safetyState <;> cases hacs : ctx.acsState <;>
    simp [firstAction, evaluate, SafetyState.code, AcsState.code, hbutler, hsafety, hacs]

lemma genesisAction_lockdown (h : ctx.safetyState = .lockdown) :
    genesisAction ctx = .allow ∨ genesisAction ctx = .denyAndLog := by
  unfold genesisAction
  by_cases hbutler : ctx.senderPid = 1
  · simp [hbutler]
  · simp [hbutler, h]

lemma genesisAction_eq_allowIfCapValid (hdevice : ctx.resourceKind ≠ 3)
    (hai : ctx.resourceKind ≠ 6) : genesisAction ctx = .allowIfCapValid ↔
      (ctx.senderPid ≠ 0 ∧ ctx.senderPid ≠ 1) ∧ ctx.acsState ≠ .emergency ∧
        (ctx.safetyState = .safe ∧ 2 ≤ ctx.senderPriority ∨
          ctx.safetyState = .chaos ∧ 4 ≤ ctx.senderPriority) := by
  unfold genesisAction
  by_cases hbutler : ctx.senderPid = 1
  · simp [hbutler]
  rw [if_neg hbutler]
  by_cases hkernel : ctx.senderPid = 0
  · simp [hkernel]
  rw [if_neg hkernel]
  by_cases hlock : ctx.safetyState = .lockdown
  · simp [hlock]
  rw [if_neg hlock]
  by_cases hacs : ctx.acsState = .emergency
  · simp [hacs]
  rw [if_neg hacs, if_neg hdevice, if_neg hai]
  simp only [ne_eq, hkernel, hbutler, hacs, not_false_eq_true, and_self, true_and, ← UInt8.not_lt]
  -- the throttling rules for `Safe` and `Chaos` leave out the low priorities
  have hlow : ctx.senderPriority < 2 → ctx.senderPriority < 4 := fun h =>
    UInt8.lt_of_lt_of_le h (by decide)
  cases hsafety : ctx.safetyState <;> by_cases h4 : ctx.senderPriority < 4 <;>
    by_cases h2 : ctx.senderPriority < 2 <;> simp [h4, h2]
  exact absurd (hlow h2) h4

end

end Fabric
