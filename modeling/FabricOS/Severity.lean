/-
How the decisions of the constitution depend on the safety state.

Below `Emergency` of the authority continuity system, a safety state is a threshold for the
priority of the sender (`SafetyState.minPriority`), which grows with the severity.  In
`Emergency` the rule `acs-emergency-escalate` comes before all of these rules, in the first
evaluation of a message and in the second.
-/
import FabricOS.Constitution
import FabricOS.Governance

namespace Fabric

open RuleAction SafetyState RuleEngine

/-! ### Verdicts and actions -/

def RuleAction.verdict : RuleAction → PolicyVerdict
  | .allow => .allow
  | .allowIfCapValid => .allow
  | .deny => .deny
  | .denyAndLog => .deny
  | .escalateToChaos => .escalate .chaos
  | .escalateToTier2 => .deny

lemma evaluate_eq_verdict (e : RuleEngine) (ctx : EvalContext) :
    (e.evaluate ctx).1 = (e.evaluateWithAction ctx).1.verdict := by
  unfold evaluate evaluateWithAction
  cases e.rules.find? (·.matchesCtx ctx) with
  | none => rfl
  | some rule =>
    unfold PolicyRule.verdict
    cases rule.action <;> rfl

lemma evaluate_genesis (ctx : EvalContext) :
    (genesisEngine.evaluate ctx).1 = (genesisAction ctx).verdict := by
  rw [evaluate_eq_verdict, evaluateWithAction_genesis]

/-! ### Thresholds -/

/-- The lowest priority with which an ordinary process may send; none reaches 256. -/
def SafetyState.minPriority : SafetyState → ℕ
  | .normal => 0
  | .elevated => 2
  | .safe => 2
  | .chaos => 4
  | .lockdown => 256

lemma SafetyState.minPriority_mono {s1 s2 : SafetyState} (h : s1.code ≤ s2.code) :
    s1.minPriority ≤ s2.minPriority := by
  cases s1 <;> cases s2 <;> first | exact absurd h (by decide) | exact (by decide)

variable {ctx : EvalContext}

lemma genesisAction_butler (h : ctx.senderPid = 1) : genesisAction ctx = .allow := by
  rw [genesisAction, if_pos h]

lemma genesisAction_kernel (h : ctx.senderPid = 0) : genesisAction ctx = .denyAndLog := by
  simp [genesisAction, h]

lemma verdict_genesisAction (hbutler : ctx.senderPid ≠ 1) (hkernel : ctx.senderPid ≠ 0)
    (hacs : ctx.acsState ≠ .emergency) : (genesisAction ctx).verdict =
      if ctx.safetyState.minPriority ≤ ctx.senderPriority.toNat then .allow else .deny := by
  have hbyte : ctx.senderPriority.toNat < 256 := ctx.senderPriority.toNat_lt
  have h4 : ctx.senderPriority < 4 ↔ ctx.senderPriority.toNat < 4 := UInt8.lt_iff_toNat_lt
  have h2 : ctx.senderPriority < 2 ↔ ctx.senderPriority.toNat < 2 := UInt8.lt_iff_toNat_lt
  -- the gated resources are allowed as well
  have hrest : (if ctx.resourceKind = 3 then allowIfCapValid
      else if ctx.resourceKind = 6 then .allowIfCapValid else .allow).verdict = .allow := by
    split_ifs <;> rfl
  rw [genesisAction, if_neg hbutler, if_neg hkernel, if_neg hacs]
  simp only [h4, h2]
  cases hstate : ctx.safetyState with
  | normal => simpa [minPriority] using hrest
  | elevated | safe =>
    by_cases hlow : ctx.senderPriority.toNat < 2
    · simp [minPriority, hlow, not_le.mpr hlow, verdict]
    · simp [minPriority, hlow, not_lt.mp hlow, hrest,
        show allowIfCapValid.verdict = .allow from rfl]
  | chaos =>
    by_cases hlow : ctx.senderPriority.toNat < 4
    · simp [minPriority, hlow, not_le.mpr hlow, verdict]
    · have hthrottle : ¬ ctx.senderPriority.toNat < 2 := by omega
      simp [minPriority, hlow, hthrottle, not_lt.mp hlow, verdict]
  | lockdown =>
    have hnone : ¬ 256 ≤ ctx.senderPriority.toNat := by omega
    simp [minPriority, hnone, verdict]

lemma genesis_allows_iff (hacs : ctx.acsState ≠ .emergency) :
    (genesisEngine.evaluate ctx).1 = .allow ↔ ctx.senderPid = 1 ∨
      ctx.senderPid ≠ 0 ∧ ctx.safetyState.minPriority ≤ ctx.senderPriority.toNat := by
  rw [evaluate_genesis]
  by_cases hbutler : ctx.senderPid = 1
  · simp [genesisAction_butler hbutler, hbutler, verdict]
  by_cases hkernel : ctx.senderPid = 0
  · simp [genesisAction_kernel hkernel, hkernel, verdict]
  rw [verdict_genesisAction hbutler hkernel hacs]
  simp [hbutler, hkernel]

/-- **The constitution is monotone in the severity**; `Lockdown` leaves Butler only, and nobody
speaks for the kernel. -/
theorem genesis_monotone (ctx : EvalContext) :
    (ctx.acsState ≠ .emergency → ∀ s₁ s₂ : SafetyState, s₁.code ≤ s₂.code →
      (genesisEngine.evaluate { ctx with safetyState := s₂ }).1 = .allow →
      (genesisEngine.evaluate { ctx with safetyState := s₁ }).1 = .allow) ∧
    (ctx.safetyState = .lockdown →
      ((genesisEngine.evaluate ctx).1 = .allow ↔ ctx.senderPid = 1)) ∧
    (ctx.senderPid = 0 → (genesisEngine.evaluate ctx).1 = .deny) := by
  refine ⟨fun hacs s₁ s₂ hle hallow => ?_, fun hlock => ?_, fun hkernel => ?_⟩
  · have hacs1 : { ctx with safetyState := s₁ }.acsState ≠ .emergency := hacs
    have hacs2 : { ctx with safetyState := s₂ }.acsState ≠ .emergency := hacs
    rw [genesis_allows_iff hacs2] at hallow
    rw [genesis_allows_iff hacs1]
    refine hallow.imp_right fun ⟨hkernel, hpriority⟩ => ⟨hkernel, ?_⟩
    exact (minPriority_mono hle).trans hpriority
  · rw [evaluate_genesis]
    by_cases hbutler : ctx.senderPid = 1
    · simp [genesisAction_butler hbutler, hbutler, verdict]
    · have haction : genesisAction ctx = .denyAndLog := by
        rw [genesisAction, if_neg hbutler, if_pos hlock, ite_self]
      simp [haction, hbutler, verdict]
  · rw [evaluate_genesis, genesisAction_kernel hkernel]
    rfl

/-! ### Escalation -/

def rulesWithoutEscalation : List PolicyRule :=
  genesisRules.filter fun rule => rule.action ≠ .escalateToChaos

lemma evaluate_withoutEscalation (ctx : EvalContext) :
    ((RuleEngine.new.loadRules rulesWithoutEscalation).evaluate ctx).1 =
      (genesisEngine.evaluate { ctx with acsState := .active }).1 := by
  have hrules : (new.loadRules rulesWithoutEscalation).rules.map
      (fun r => (r.conditions, r.action)) =
      (genesisEngine.rules.map (fun r => (r.conditions, r.action))).eraseIdx 3 := by
    decide
  rfl

lemma escalation_other_rules (ctx : EvalContext) (hbutler : ctx.senderPid ≠ 1)
    (hkernel : ctx.senderPid ≠ 0) :
    ((RuleEngine.new.loadRules rulesWithoutEscalation).evaluate
      { ctx with safetyState := .chaos }).1 = .allow ↔ 4 ≤ ctx.senderPriority := by
  have hacs : { ctx with safetyState := .chaos, acsState := .active }.acsState ≠ .emergency := by
    intro h
    cases h
  rw [evaluate_withoutEscalation, genesis_allows_iff hacs, UInt8.le_iff_toNat_le]
  show ctx.senderPid = 1 ∨ ctx.senderPid ≠ 0 ∧ 4 ≤ ctx.senderPriority.toNat ↔ _
  simp [hbutler, hkernel]

/-- A message of an ordinary process meets the loaded constitution in an emergency. -/
structure Escalating (g : GovernanceEngine) (header : MessageHeader) : Prop where
  rules : g.rules = genesisEngine
  initialized : g.initialized = true
  glass : g.breakGlass.active = false
  acs : g.acs = .emergency
  safety : g.safety.state ≠ .lockdown
  butler : header.sender ≠ 1
  kernel : header.sender ≠ 0

section

variable {g : GovernanceEngine} {header : MessageHeader}

lemma Escalating.evaluatePolicy (h : Escalating g header) (c : Crypto) (council : CouncilEngine)
    (senderPriority : UInt8) (resourceKind : UInt16) :
    ∃ g', g.evaluatePolicy c council header senderPriority resourceKind =
      (g', council, .error .policyDenied) ∧ g'.safety.state = .chaos := by
  have hescalate : ∀ state, state ≠ .lockdown → genesisAction
      { g.context header senderPriority resourceKind with safetyState := state } =
        .escalateToChaos := by
    intro state hstate
    exact (if_neg h.butler).trans ((if_neg h.kernel).trans ((if_neg hstate).trans (if_pos h.acs)))
  have hfirst : (g.rules.evaluateWithAction (g.context header senderPriority resourceKind)).1 =
      .escalateToChaos := by
    rw [h.rules, evaluateWithAction_genesis]
    exact hescalate g.safety.state h.safety
  have hchaos : (g.safety.forceState .chaos g.currentTick).state = .chaos := by
    unfold SafetyStateMachine.forceState SafetyStateMachine.transitionTo
    split_ifs with hne
    · rfl
    · exact not_not.mp hne
  have hsecond : (g.rules.evaluate { g.context header senderPriority resourceKind with
      safetyState := (g.safety.forceState .chaos g.currentTick).state }).1 = .escalate .chaos := by
    rw [h.rules, evaluate_genesis, hchaos, hescalate .chaos (by decide)]
    rfl
  refine ⟨{ g with
    totalEvaluations := g.totalEvaluations + 1
    totalDenials := g.totalDenials + 1
    safety := g.safety.forceState .chaos g.currentTick }, ?_, hchaos⟩
  simp only [GovernanceEngine.evaluatePolicy, h.initialized, h.glass, hfirst, hsecond]
  rfl

/-- The message is evaluated under the rules of `Chaos` other than the one that escalates,
which ask for a priority of 4. -/
def ReevaluatedInChaos (c : Crypto) (g : GovernanceEngine) (council : CouncilEngine)
    (header : MessageHeader) (senderPriority : UInt8) (resourceKind : UInt16) : Prop :=
  (g.evaluatePolicy c council header senderPriority resourceKind).1.safety.state = .chaos ∧
  ((g.evaluatePolicy c council header senderPriority resourceKind).2.2 = .ok () ↔
    ((RuleEngine.new.loadRules rulesWithoutEscalation).evaluate
      { g.context header senderPriority resourceKind with safetyState := .chaos }).1 = .allow) ∧
  ((g.evaluatePolicy c council header senderPriority resourceKind).2.2 = .ok () ↔
    4 ≤ senderPriority)

/-- **A message that escalates is evaluated under the other rules of `Chaos`** exactly if its
priority is too low for these: otherwise they admit it, and the second evaluation, which
finds the escalating rule again, does not. -/
theorem escalation_admits_iff (h : Escalating g header) (c : Crypto) (council : CouncilEngine)
    (senderPriority : UInt8) (resourceKind : UInt16) :
    ReevaluatedInChaos c g council header senderPriority resourceKind ↔ senderPriority < 4 := by
  obtain ⟨g', heval, hchaos⟩ := h.evaluatePolicy c council senderPriority resourceKind
  have hothers := escalation_other_rules (g.context header senderPriority resourceKind) h.butler
    h.kernel
  rw [ReevaluatedInChaos, hothers, heval]
  show (g'.safety.state = .chaos ∧ (Except.error BusError.policyDenied = .ok () ↔
    4 ≤ senderPriority) ∧ (_ ↔ 4 ≤ senderPriority)) ↔ _
  simp [hchaos]

end

def emergencyEngine : GovernanceEngine := { GovernanceEngine.new.init with acs := .emergency }

def fromOrdinary : MessageHeader := ⟨1, 0, 3, 2, 0, 0, 0, 0⟩

lemma escalating_fromOrdinary : Escalating emergencyEngine fromOrdinary :=
  ⟨rfl, rfl, rfl, rfl, by decide, by decide, by decide⟩

theorem low_priority_reevaluated :
    ReevaluatedInChaos .zero emergencyEngine (.init .zero) fromOrdinary 1 0 :=
  (escalation_admits_iff escalating_fromOrdinary .zero (.init .zero) 1 0).mpr (by decide)

/-- A message with the priority that `Chaos` asks for is denied in an emergency. -/
theorem critical_message_denied :
    (emergencyEngine.evaluatePolicy .zero (.init .zero) fromOrdinary 4 0).2.2 =
        .error .policyDenied ∧
      ¬ ReevaluatedInChaos .zero emergencyEngine (.init .zero) fromOrdinary 4 0 := by
  have hdenied : (emergencyEngine.evaluatePolicy .zero (.init .zero) fromOrdinary 4 0).2.2 =
      .error .policyDenied := by
    obtain ⟨g', heval, -⟩ := escalating_fromOrdinary.evaluatePolicy .zero (.init .zero) 4 0
    rw [heval]
  refine ⟨hdenied, fun h => ?_⟩
  have hadmitted := h.2.2.mpr (by decide)
  cases hadmitted

end Fabric
