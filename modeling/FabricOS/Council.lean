/-
The council (`council/mod.rs`, `model.rs`, `weight_store.rs`): three simulated models
that decide the messages a rule escalates to them.

A model hashes its weights with the context of the message, and reads a verdict and a
confidence from the first byte.  Its weights are checked against their stored hash
before and after; a mismatch is a denial.  The first model alone decides if it is
confident (`evaluateTier2`), else the majority of the three (`evaluateTier3`).

Training, drift detection and overrides do not take part in an evaluation and are
left out.
-/
import FabricOS.PolicyRules

namespace Fabric

/-! ### Models -/

def weightSize : ℕ := 256

def confidenceThreshold : UInt8 := 40

inductive ModelId where
  | sentinel
  | arbiter
  | oracle
  deriving DecidableEq

structure SimulatedModel where
  weights : Vector UInt8 weightSize
  weightHash : Digest

namespace SimulatedModel

def computeHash (c : Crypto) (weights : Vector UInt8 weightSize) : Digest := c.sha3 weights.toList

def seed : ModelId → UInt8
  | .sentinel => 0x5E
  | .arbiter => 0xA7
  | .oracle => 0x0C

def new (c : Crypto) (id : ModelId) : SimulatedModel :=
  let weights : Vector UInt8 weightSize := Vector.ofFn fun i =>
    seed id ^^^ (UInt8.ofNat i * 0x9D + 0x37)
  ⟨weights, computeHash c weights⟩

def verifyIntegrity (c : Crypto) (m : SimulatedModel) : Bool :=
  computeHash c m.weights == m.weightHash

/-- Verdict and confidence, from the hash of weights and context. -/
def forward (c : Crypto) (m : SimulatedModel) (ctx : EvalContext) : PolicyVerdict × UInt8 :=
  let digest := c.sha3 (m.weights.toList ++ toLeBytes 4 ctx.senderPid.toNat ++
    toLeBytes 4 ctx.receiverPid.toNat ++ toLeBytes 2 ctx.msgType.toNat ++
    toLeBytes 8 ctx.capabilityId.toNat ++ toLeBytes 2 ctx.resourceKind.toNat ++
    [ctx.senderPriority, ctx.safetyState.code, ctx.acsState.code])
  let raw := digest[0]
  (if raw &&& 0x80 ≠ 0 then .allow else .deny, (raw &&& 0x7F) % 101)

end SimulatedModel

/-! ### Verdicts -/

inductive TierLevel where
  | tier1
  | tier2
  | tier3
  deriving DecidableEq

structure CouncilVerdict where
  decision : PolicyVerdict
  confidence : UInt8
  tier : TierLevel
  modelVotes : Vector PolicyVerdict 3

structure CouncilEngine where
  /-- Sentinel, arbiter and oracle. -/
  models : Vector SimulatedModel 3
  tier2Evals : ℕ
  tier3Evals : ℕ
  tamperDetections : ℕ
  throttled : Bool

namespace CouncilEngine

def init (c : Crypto) : CouncilEngine where
  models := #v[.new c .sentinel, .new c .arbiter, .new c .oracle]
  tier2Evals := 0
  tier3Evals := 0
  tamperDetections := 0
  throttled := false

def denial (tier : TierLevel) : CouncilVerdict :=
  { decision := .deny, confidence := 0, tier, modelVotes := Vector.replicate 3 .deny }

/-- One model's vote and confidence, and whether it was found tampered with. -/
def vote (c : Crypto) (ctx : EvalContext) (m : SimulatedModel) : PolicyVerdict × UInt8 × Bool :=
  if !m.verifyIntegrity c then (.deny, 0, true)
  else
    let (v, confidence) := m.forward c ctx
    if !m.verifyIntegrity c then (.deny, confidence, true) else (v, confidence, false)

/-- Evaluate with all models: any tampering denies, else the majority decides. -/
def evaluateTier3 (c : Crypto) (e : CouncilEngine) (ctx : EvalContext) :
    CouncilEngine × CouncilVerdict :=
  let results := e.models.map (vote c ctx)
  let votes := results.map (·.1)
  let tampered := results.toList.countP (·.2.2)
  let e := { e with
    tier3Evals := e.tier3Evals + 1
    tamperDetections := e.tamperDetections + tampered }
  if tampered > 0 then
    (e, { decision := .deny, confidence := 0, tier := .tier3, modelVotes := votes })
  else
    -- without a majority for either side the source denies as well
    let decision := if votes.toList.count .allow ≥ 2 then .allow else .deny
    let confidence := UInt8.ofNat
      ((results[0].2.1.toNat + results[1].2.1.toNat + results[2].2.1.toNat) / 3)
    (e, { decision, confidence, tier := .tier3, modelVotes := votes })

/-- Evaluate with the first model; low confidence goes on to tier 3, and a council
under load denies at once. -/
def evaluateTier2 (c : Crypto) (e : CouncilEngine) (ctx : EvalContext) :
    CouncilEngine × CouncilVerdict :=
  if e.throttled then (e, denial .tier1)
  else
    let e := { e with tier2Evals := e.tier2Evals + 1 }
    let sentinel := e.models[0]
    if !sentinel.verifyIntegrity c then
      ({ e with tamperDetections := e.tamperDetections + 1 }, denial .tier2)
    else
      let (verdict, confidence) := sentinel.forward c ctx
      if !sentinel.verifyIntegrity c then
        ({ e with tamperDetections := e.tamperDetections + 1 }, denial .tier2)
      else if confidence < confidenceThreshold then e.evaluateTier3 c ctx
      else
        (e, { decision := verdict, confidence, tier := .tier2
              modelVotes := #v[verdict, .allow, .allow] })

end CouncilEngine

end Fabric
