/-
Training of the council (`council/mod.rs`, `learning.rs`, `drift.rs`, `golden.rs`): buffered
examples are turned into a gradient, the gradient is applied to a model, and the update is
taken back if the golden tests fail or the weights have drifted too far.

Taking an update back restores the snapshots of all models, and both an update and a restore
store the hash of the weights they leave behind.  So a training step makes tampered weights
pass their integrity check if it updates the tampered model, or any model and then takes the
update back (`launders`).
-/
import FabricOS.Council
import FabricOS.Machine

open Machine Vector

namespace Fabric

open SimulatedModel

abbrev Weights := Vector UInt8 weightSize

def ModelId.index : ModelId → Fin 3
  | .sentinel => 0
  | .arbiter => 1
  | .oracle => 2

lemma ModelId.index_inj {id id' : ModelId} : id.index = id'.index ↔ id = id' := by
  cases id <;> cases id' <;> decide

namespace SimulatedModel

def updateWeights (c : Crypto) (m : SimulatedModel) (gradient : Weights) : SimulatedModel :=
  let weights := Vector.zipWith (· ^^^ ·) m.weights gradient
  ⟨weights, computeHash c weights⟩

def restoreWeights (c : Crypto) (snapshot : Weights) : SimulatedModel :=
  ⟨snapshot, computeHash c snapshot⟩

variable (c : Crypto)

lemma verifyIntegrity_mk (weights : Weights) :
    verifyIntegrity c ⟨weights, computeHash c weights⟩ = true :=
  beq_self_eq_true _

@[simp] lemma verifyIntegrity_updateWeights (m : SimulatedModel) (gradient : Weights) :
    (m.updateWeights c gradient).verifyIntegrity c = true :=
  verifyIntegrity_mk c _

@[simp] lemma verifyIntegrity_restoreWeights (snapshot : Weights) :
    (restoreWeights c snapshot).verifyIntegrity c = true :=
  verifyIntegrity_mk c _

end SimulatedModel

/-! ### Golden tests -/

structure GoldenCase where
  name : String
  ctx : EvalContext
  expectedTier1 : PolicyVerdict

def goldenCases : List GoldenCase :=
  [⟨"butler-normal-allow", ⟨1, 2, 1, 100, 0, 5, .normal, .active, false⟩, .allow⟩,
   ⟨"kernel-spoof-deny", ⟨0, 2, 1, 100, 0, 5, .normal, .active, false⟩, .deny⟩,
   ⟨"elevated-low-pri-deny", ⟨5, 2, 1, 100, 0, 1, .elevated, .active, false⟩, .deny⟩,
   ⟨"device-access-cap-gated", ⟨5, 2, 1, 100, 3, 5, .normal, .active, false⟩, .allow⟩,
   ⟨"acs-emergency-escalate", ⟨5, 2, 1, 100, 0, 5, .normal, .emergency, false⟩,
     .escalate .chaos⟩,
   ⟨"normal-process-allow", ⟨10, 3, 2, 200, 0, 3, .normal, .active, false⟩, .allow⟩,
   ⟨"lockdown-deny-non-butler", ⟨5, 2, 1, 100, 0, 5, .lockdown, .active, false⟩, .deny⟩,
   ⟨"chaos-low-pri-deny", ⟨5, 2, 1, 100, 0, 2, .chaos, .active, false⟩, .deny⟩,
   ⟨"ai-resource-cap-gated", ⟨5, 2, 1, 100, 6, 5, .normal, .active, false⟩, .allow⟩,
   ⟨"butler-lockdown-allow", ⟨1, 2, 1, 100, 0, 5, .lockdown, .active, false⟩, .allow⟩]

def GoldenCase.passes (rules : RuleEngine) (case : GoldenCase) : Bool :=
  (rules.evaluate case.ctx).1 == case.expectedTier1

/-- How many golden cases pass, how many there are, and the name of the first that fails. -/
def GoldenTestSuite.runAll (rules : RuleEngine) : ℕ × ℕ × Option String :=
  (goldenCases.countP (·.passes rules), goldenCases.length,
    (goldenCases.find? fun case => !case.passes rules).map (·.name))

/-! ### Drift -/

/-- Newton's iteration for the square root of `n`, from `x` on, with `y` after `x`. -/
def isqrtLoop (n : ℕ) : ℕ → ℕ → ℕ → Exec ℕ
  | 0, _, _ => .diverge
  | fuel + 1, x, y =>
    if y < x then
      if y = 0 then .panic else isqrtLoop n fuel y ((y + n / y) / 2)
    else .ok x

def isqrt (n : ℕ) : Exec ℕ :=
  if n = 0 then .ok 0 else isqrtLoop n (n + 1) n ((n + 1) / 2)

lemma newton_pos {n x : ℕ} (hn : 0 < n) (hx : 0 < x) : 0 < (x + n / x) / 2 := by
  obtain rfl | hx' : x = 1 ∨ 2 ≤ x := by omega
  · rw [Nat.div_one]
    omega
  · have hle : 2 ≤ x + n / x := hx'.trans (Nat.le_add_right x _)
    omega

lemma isqrtLoop_returns {n : ℕ} (hn : 0 < n) :
    ∀ {fuel x y : ℕ}, x < fuel → 0 < y → ∃ r, isqrtLoop n fuel x y = .ok r := by
  intro fuel
  induction fuel with
  | zero =>
    intro x y hfuel
    omega
  | succ fuel ih =>
    intro x y hfuel hy
    rw [isqrtLoop]
    by_cases hlt : y < x
    · rw [if_pos hlt, if_neg (by omega)]
      exact ih (by omega) (newton_pos hn hy)
    · exact ⟨x, if_neg hlt⟩

lemma isqrt_returns (n : ℕ) : ∃ r, isqrt n = .ok r := by
  rw [isqrt]
  by_cases hn : n = 0
  · exact ⟨0, if_pos hn⟩
  · rw [if_neg hn]
    exact isqrtLoop_returns (by omega) (by omega) (by omega)

/-- Similarity, in thousandths, below which weights have drifted. -/
def driftThreshold : ℕ := 800

structure DriftDetector where
  goldenSnapshot : Weights
  initialized : Bool
  frozen : Bool
  lastSimilarity : ℕ

namespace DriftDetector

def new : DriftDetector := ⟨Vector.replicate weightSize 0, false, false, 1000⟩

def setGolden (d : DriftDetector) (weights : Weights) : DriftDetector :=
  { d with goldenSnapshot := weights, initialized := true, lastSimilarity := 1000 }

def dot (a b : Weights) : ℕ :=
  (List.zipWith (fun x y => x.toNat * y.toNat) a.toList b.toList).sum

/-- Cosine of the angle to the golden snapshot, in thousandths. -/
def cosineSimilarity (d : DriftDetector) (current : Weights) : Exec ℕ :=
  if !d.initialized then .ok 1000
  else
    let magA := dot d.goldenSnapshot d.goldenSnapshot
    let magB := dot current current
    if magA = 0 ∨ magB = 0 then .ok 0
    else do
      let rootA ← isqrt magA
      let rootB ← isqrt magB
      if rootA * rootB = 0 then .ok 0
      else .ok (min (dot d.goldenSnapshot current * 1000 / (rootA * rootB)) 1000)

lemma cosineSimilarity_returns (d : DriftDetector) (current : Weights) :
    ∃ r, d.cosineSimilarity current = .ok r := by
  unfold cosineSimilarity
  obtain ⟨rootA, hA⟩ := isqrt_returns (dot d.goldenSnapshot d.goldenSnapshot)
  obtain ⟨rootB, hB⟩ := isqrt_returns (dot current current)
  simp only [hA, hB, Exec.ok_bind]
  split_ifs <;> exact ⟨_, rfl⟩

/-- Compare with the golden snapshot, and freeze on drift. -/
def checkDrift (d : DriftDetector) (current : Weights) : Exec (DriftDetector × Bool) := do
  let similarity ← d.cosineSimilarity current
  let d := { d with lastSimilarity := similarity }
  if similarity < driftThreshold then .ok ({ d with frozen := true }, true) else .ok (d, false)

def unfreeze (d : DriftDetector) : DriftDetector := { d with frozen := false }

def reset (d : DriftDetector) : DriftDetector :=
  { d with initialized := false, frozen := false, lastSimilarity := 1000 }

def drifts (d : DriftDetector) (current : Weights) : Bool :=
  match d.cosineSimilarity current with
  | .ok similarity => similarity < driftThreshold
  | _ => false

lemma checkDrift_eq (d : DriftDetector) (current : Weights) :
    ∃ d', d.checkDrift current = .ok (d', d.drifts current) := by
  obtain ⟨similarity, h⟩ := d.cosineSimilarity_returns current
  by_cases hlt : similarity < driftThreshold
  · exact ⟨_, by simp [checkDrift, drifts, h, hlt]; rfl⟩
  · exact ⟨_, by simp [checkDrift, drifts, h, hlt]; rfl⟩

end DriftDetector

/-! ### Learning -/

structure TrainingExample where
  ctxHash : Digest
  verdict : PolicyVerdict
  confidence : UInt8

def maxTrainingBuffer : ℕ := 32

def maxUpdatesPerPeriod : ℕ := 10

def trainingPeriodTicks : ℕ := 86400000

/-- One model's examples and updates; of the buffer only the slots in use are kept. -/
structure LearningLoop where
  buffer : List TrainingExample
  updatesThisPeriod : ℕ
  periodStartTick : UInt64
  active : Bool
  buffer_le : buffer.length ≤ maxTrainingBuffer

namespace LearningLoop

def new : LearningLoop := ⟨[], 0, 0, true, Nat.zero_le _⟩

lemma record_le {buffer : List TrainingExample} {active : Bool} (ex : TrainingExample)
    (h : ¬ (active = false ∨ maxTrainingBuffer ≤ buffer.length)) :
    (buffer ++ [ex]).length ≤ maxTrainingBuffer := by
  rw [List.length_append, List.length_singleton]
  omega

/-- Buffer an example, unless learning is frozen or the buffer is full. -/
def record (l : LearningLoop) (ex : TrainingExample) : LearningLoop × Bool :=
  if h : l.active = false ∨ maxTrainingBuffer ≤ l.buffer.length then (l, false)
  else
    ({ l with buffer := l.buffer ++ [ex], buffer_le := record_le ex h }, true)

def newPeriod (l : LearningLoop) (currentTick : UInt64) : Bool :=
  trainingPeriodTicks ≤ currentTick.toNat - l.periodStartTick.toNat

def canUpdate (l : LearningLoop) (currentTick : UInt64) : Bool :=
  l.active && (l.newPeriod currentTick || l.updatesThisPeriod < maxUpdatesPerPeriod)

/-- The context hashes of the buffer, spread over the weights and cut to their low bits. -/
def computeGradient (l : LearningLoop) : Weights :=
  Vector.ofFn fun j => l.buffer.foldl (fun gradient ex =>
    let mask := if ex.confidence > 50 then 0x03 else 0x01
    gradient ^^^ (ex.ctxHash.get (Fin.ofNat 32 j) &&& mask)) 0

def markUpdate (l : LearningLoop) (currentTick : UInt64) : LearningLoop :=
  let l := if l.newPeriod currentTick then
      { l with updatesThisPeriod := 0, periodStartTick := currentTick }
    else l
  { l with
    updatesThisPeriod := l.updatesThisPeriod + 1
    buffer := []
    buffer_le := Nat.zero_le _ }

def freeze (l : LearningLoop) : LearningLoop := { l with active := false }

end LearningLoop

/-! ### The council that learns -/

def admissionQueueThreshold : UInt32 := 8

def admissionLatencyThreshold : UInt64 := 10

structure LearningCouncil extends CouncilEngine where
  snapshots : Vector Weights 3
  snapshotValid : Bool
  driftDetectors : Vector DriftDetector 3
  learning : Vector LearningLoop 3
  currentTick : UInt64
  runQueueDepth : UInt32
  avgTaskLatency : UInt64

inductive CouncilOp where
  | evaluateTier2 (ctx : EvalContext)
  | evaluateTier3 (ctx : EvalContext)
  | recordExample (id : ModelId) (ex : TrainingExample)
  | trainStep (id : ModelId) (rules : RuleEngine)
  | updateLoadMetrics (queueDepth : UInt32) (avgLatency : UInt64)
  | syncTick (tick : UInt64)

inductive CouncilCall where
  | op (op : CouncilOp)
  | init
  | clear

inductive CouncilReply where
  | verdict (v : CouncilVerdict)
  | flag (b : Bool)
  | done

namespace LearningCouncil

def new : LearningCouncil where
  models := Vector.replicate 3 ⟨Vector.replicate weightSize 0, Vector.replicate 32 0⟩
  tier2Evals := 0
  tier3Evals := 0
  tamperDetections := 0
  throttled := false
  snapshots := Vector.replicate 3 (Vector.replicate weightSize 0)
  snapshotValid := false
  driftDetectors := Vector.replicate 3 .new
  learning := Vector.replicate 3 .new
  currentTick := 0
  runQueueDepth := 0
  avgTaskLatency := 0

def freshModels (c : Crypto) : Vector SimulatedModel 3 := (CouncilEngine.init c).models

def init (c : Crypto) (e : LearningCouncil) : LearningCouncil :=
  { e with
    models := freshModels c
    snapshots := Vector.replicate 3 (Vector.replicate weightSize 0)
    snapshotValid := false
    driftDetectors := Vector.zipWith (fun d m => d.setGolden m.weights) e.driftDetectors
      (freshModels c) }

def clear (c : Crypto) (e : LearningCouncil) : LearningCouncil :=
  { new with
    models := freshModels c
    snapshots := e.snapshots
    driftDetectors := e.driftDetectors.map (·.reset) }

def snapshotAll (e : LearningCouncil) : LearningCouncil :=
  { e with snapshots := e.models.map (·.weights), snapshotValid := true }

def rollbackAll (c : Crypto) (e : LearningCouncil) : LearningCouncil :=
  if e.snapshotValid then { e with models := e.snapshots.map (.restoreWeights c) } else e

def model (e : LearningCouncil) (id : ModelId) : SimulatedModel := e.models[id.index.val]

def detector (e : LearningCouncil) (id : ModelId) : DriftDetector := e.driftDetectors[id.index.val]

def learner (e : LearningCouncil) (id : ModelId) : LearningLoop := e.learning[id.index.val]

def updateDetector (e : LearningCouncil) (id : ModelId) (f : DriftDetector → DriftDetector) :
    LearningCouncil :=
  { e with driftDetectors := e.driftDetectors.set id.index (f (e.detector id)) }

def updateLearner (e : LearningCouncil) (id : ModelId) (f : LearningLoop → LearningLoop) :
    LearningCouncil :=
  { e with learning := e.learning.set id.index (f (e.learner id)) }

def trained (c : Crypto) (e : LearningCouncil) (id : ModelId) : SimulatedModel :=
  (e.model id).updateWeights c (e.learner id).computeGradient

def trainStep (c : Crypto) (e : LearningCouncil) (id : ModelId) (rules : RuleEngine) :
    Exec (LearningCouncil × Bool) :=
  if !(e.learner id).canUpdate e.currentTick then .ok (e, false)
  else if (e.detector id).frozen then .ok (e, false)
  else
    let model := e.trained c id
    let e := e.snapshotAll
    let e := { e with models := e.models.set id.index model }
    let (passed, total, _) := GoldenTestSuite.runAll rules
    if passed < total then
      .ok ((e.rollbackAll c).updateLearner id (·.freeze), false)
    else do
      let (detector, drifted) ← (e.detector id).checkDrift model.weights
      let e := e.updateDetector id fun _ => detector
      if drifted then
        let e := (e.rollbackAll c).updateLearner id (·.freeze)
        .ok (e.updateDetector id (·.unfreeze), false)
      else
        let e := e.updateDetector id (·.setGolden model.weights)
        .ok (e.updateLearner id (·.markUpdate e.currentTick), true)

def recordExample (e : LearningCouncil) (id : ModelId) (ex : TrainingExample) :
    LearningCouncil × Bool :=
  let (l, recorded) := (e.learner id).record ex
  (e.updateLearner id fun _ => l, recorded)

def updateLoadMetrics (e : LearningCouncil) (queueDepth : UInt32) (avgLatency : UInt64) :
    LearningCouncil :=
  { e with
    runQueueDepth := queueDepth
    avgTaskLatency := avgLatency
    throttled := queueDepth > admissionQueueThreshold && avgLatency > admissionLatencyThreshold }

def step (c : Crypto) (e : LearningCouncil) : CouncilOp → Exec (LearningCouncil × CouncilReply)
  | .evaluateTier2 ctx =>
    let (engine, verdict) := e.toCouncilEngine.evaluateTier2 c ctx
    .ok ({ e with toCouncilEngine := engine }, .verdict verdict)
  | .evaluateTier3 ctx =>
    let (engine, verdict) := e.toCouncilEngine.evaluateTier3 c ctx
    .ok ({ e with toCouncilEngine := engine }, .verdict verdict)
  | .recordExample id ex =>
    let (e, recorded) := e.recordExample id ex
    .ok (e, .flag recorded)
  | .trainStep id rules => do
    let (e, kept) ← e.trainStep c id rules
    .ok (e, .flag kept)
  | .updateLoadMetrics queueDepth avgLatency =>
    .ok (e.updateLoadMetrics queueDepth avgLatency, .done)
  | .syncTick tick => .ok ({ e with currentTick := tick }, .done)

def call (c : Crypto) (e : LearningCouncil) : CouncilCall → Exec (LearningCouncil × CouncilReply)
  | .op op => e.step c op
  | .init => .ok (e.init c, .done)
  | .clear => .ok (e.clear c, .done)

/-- Weights of a model are overwritten, and its stored hash is not. -/
def overwrite (e : LearningCouncil) (id : ModelId) (weights : Weights) : LearningCouncil :=
  { e with models := e.models.set id.index ⟨weights, (e.model id).weightHash⟩ }

def Detected (c : Crypto) (id : ModelId) (e : LearningCouncil) : Prop :=
  (e.model id).verifyIntegrity c = false ∧
    ∀ ctx, (e.toCouncilEngine.evaluateTier3 c ctx).2.decision = .deny

end LearningCouncil

/-! ### Evaluations -/

namespace CouncilEngine

variable {c : Crypto}

@[simp] lemma evaluateTier3_models (e : CouncilEngine) (ctx : EvalContext) :
    (e.evaluateTier3 c ctx).1.models = e.models := by
  simp only [evaluateTier3]
  split_ifs <;> rfl

@[simp] lemma evaluateTier2_models (e : CouncilEngine) (ctx : EvalContext) :
    (e.evaluateTier2 c ctx).1.models = e.models := by
  simp only [evaluateTier2]
  split_ifs
  · rfl
  · rfl
  · exact evaluateTier3_models _ ctx
  · rfl

lemma evaluateTier3_decision_of_tampered {e : CouncilEngine} {m : SimulatedModel}
    (hm : m ∈ e.models) (htampered : m.verifyIntegrity c = false) (ctx : EvalContext) :
    (e.evaluateTier3 c ctx).2.decision = .deny := by
  have hvote : vote c ctx m = (.deny, 0, true) := by simp [vote, htampered]
  have hcount : 0 < (e.models.map (vote c ctx)).toList.countP (·.2.2) := by
    rw [List.countP_pos_iff]
    refine ⟨vote c ctx m, ?_, by rw [hvote]⟩
    rw [toList_map]
    exact List.mem_map_of_mem (mem_toList_iff.mpr hm)
  unfold evaluateTier3
  simp only [gt_iff_lt, hcount, if_true]

end CouncilEngine

/-! ### Training steps -/

namespace LearningCouncil

variable {c : Crypto}

def trains (e : LearningCouncil) (id : ModelId) : Bool :=
  (e.learner id).canUpdate e.currentTick && !(e.detector id).frozen

def rollsBack (c : Crypto) (e : LearningCouncil) (id : ModelId) (rules : RuleEngine) : Bool :=
  (GoldenTestSuite.runAll rules).1 < (GoldenTestSuite.runAll rules).2.1 ||
    (e.detector id).drifts (e.trained c id).weights

def trainedModels (c : Crypto) (e : LearningCouncil) (id : ModelId) (rules : RuleEngine) :
    Vector SimulatedModel 3 :=
  if !e.trains id then e.models
  else if e.rollsBack c id rules then e.models.map fun m => .restoreWeights c m.weights
  else e.models.set id.index (e.trained c id)

lemma trainStep_models (e : LearningCouncil) (id : ModelId) (rules : RuleEngine) :
    ∃ e' kept, e.trainStep c id rules = .ok (e', kept) ∧
      e'.models = e.trainedModels c id rules := by
  unfold trainedModels
  have hrestore : (e.models.map (·.weights)).map (restoreWeights c) =
      e.models.map fun m => .restoreWeights c m.weights := map_map ..
  by_cases hcan : (e.learner id).canUpdate e.currentTick = true
  swap
  · exact ⟨e, false, by simp [trainStep, hcan], by simp [trains, hcan]⟩
  by_cases hfrozen : (e.detector id).frozen = true
  · exact ⟨e, false, by simp [trainStep, hcan, hfrozen], by simp [trains, hfrozen]⟩
  have htrains : e.trains id = true := by simp [trains, hcan, hfrozen]
  unfold trainStep
  rw [if_neg (by simp [hcan]), if_neg hfrozen, htrains]
  by_cases hgolden : (GoldenTestSuite.runAll rules).1 < (GoldenTestSuite.runAll rules).2.1
  · have hrolls : e.rollsBack c id rules = true := by simp [rollsBack, hgolden]
    rw [hrolls]
    exact ⟨_, false, if_pos hgolden, hrestore⟩
  obtain ⟨detector, hdrift⟩ := (e.detector id).checkDrift_eq (e.trained c id).weights
  cases hdrifts : (e.detector id).drifts (e.trained c id).weights with
  | true =>
    have hrolls : e.rollsBack c id rules = true := by simp [rollsBack, hdrifts]
    rw [hdrifts] at hdrift
    refine ⟨_, false, (if_neg hgolden).trans (congrArg (· >>= _) hdrift), ?_⟩
    rw [hrolls]
    exact hrestore
  | false =>
    have hrolls : e.rollsBack c id rules = false := by simp [rollsBack, hgolden, hdrifts]
    rw [hdrifts] at hdrift
    refine ⟨_, true, (if_neg hgolden).trans (congrArg (· >>= _) hdrift), ?_⟩
    rw [hrolls]
    rfl

/-- The step stores a new hash for the weights model `i` has: it trains this model, or any
model whose update is taken back. -/
def launders (c : Crypto) (i : ModelId) (e : LearningCouncil) : CouncilOp → Bool
  | .trainStep id rules => e.trains id && (id == i || e.rollsBack c id rules)
  | _ => false

lemma verifyIntegrity_trainedModels (e : LearningCouncil) (id i : ModelId) (rules : RuleEngine) :
    (e.trainedModels c id rules)[i.index.val].verifyIntegrity c =
      (e.launders c i (.trainStep id rules) || (e.model i).verifyIntegrity c) := by
  unfold trainedModels
  cases htrains : e.trains id with
  | false => simp [launders, htrains, model]
  | true =>
    cases hrolls : e.rollsBack c id rules with
    | true => simp [launders, htrains, hrolls]
    | false =>
      by_cases hid : id = i
      · subst hid
        simp [launders, htrains, trained]
      · have hindex : id.index.val ≠ i.index.val := fun h =>
          hid (ModelId.index_inj.mp (Fin.ext h))
        simp [launders, htrains, hrolls, hid, hindex, model]

lemma step_verifyIntegrity (e : LearningCouncil) (i : ModelId) (op : CouncilOp) :
    (e.step c op).Post fun r => (r.1.model i).verifyIntegrity c =
      (e.launders c i op || (e.model i).verifyIntegrity c) := by
  cases op with
  | evaluateTier2 ctx | evaluateTier3 ctx => simp [step, launders, model]
  | recordExample id ex | updateLoadMetrics queueDepth avgLatency | syncTick tick =>
    exact ⟨_, rfl, rfl⟩
  | trainStep id rules =>
    obtain ⟨e', kept, htrain, hmodels⟩ := e.trainStep_models (c := c) id rules
    refine ⟨(e', .flag kept), by simp [step, htrain], ?_⟩
    rw [← verifyIntegrity_trainedModels, ← hmodels]
    rfl

lemma final_verifyIntegrity (e : LearningCouncil) (i : ModelId) (op : CouncilOp) :
    ((final (step c) e [op]).model i).verifyIntegrity c =
      (e.launders c i op || (e.model i).verifyIntegrity c) := by
  obtain ⟨⟨e', reply⟩, hstep, he'⟩ := e.step_verifyIntegrity (c := c) i op
  have hfinal : final (step c) e [op] = e' := by simp [final, Machine.run, hstep]
  rw [hfinal]
  exact he'

lemma verifyIntegrity_freshModels (i : ModelId) :
    (freshModels c)[i.index.val].verifyIntegrity c = true := by
  cases i <;> exact verifyIntegrity_mk c _

variable {e : LearningCouncil}

lemma intact_of_reachable (h : Machine.Reachable (call c) (new.init c) e) (i : ModelId) :
    (e.model i).verifyIntegrity c = true := by
  refine h.inv (P := fun e => (e.model i).verifyIntegrity c = true)
    (verifyIntegrity_freshModels i) fun {e e' cmd reply} hintact hcall => ?_
  cases cmd with
  | op op =>
    obtain ⟨r, hstep, hr⟩ := e.step_verifyIntegrity (c := c) i op
    cases hstep.symm.trans hcall
    rw [hr, hintact, Bool.or_true]
  | init | clear =>
    cases hcall
    exact verifyIntegrity_freshModels i

lemma tampered_overwrite {i : ModelId} {weights : Weights}
    (hintact : (e.model i).verifyIntegrity c = true) (hne : weights ≠ (e.model i).weights)
    (hinj : Set.InjOn c.sha3 {weights.toList, (e.model i).weights.toList}) :
    ((e.overwrite i weights).model i).verifyIntegrity c = false := by
  have hhash : computeHash c (e.model i).weights = (e.model i).weightHash :=
    beq_iff_eq.mp hintact
  have hmodel : (e.overwrite i weights).model i = ⟨weights, (e.model i).weightHash⟩ := by
    simp [overwrite, model]
  rw [hmodel, verifyIntegrity, beq_eq_false_iff_ne, ← hhash]
  intro heq
  exact hne (toList_inj.mp (hinj (by simp) (by simp) heq))

/-- **Tampering stays detected** as long as no operation launders it, and no longer. -/
theorem tampering_detected_iff_not_laundered {e : LearningCouncil}
    (hreach : Machine.Reachable (call c) (new.init c) e) {i : ModelId} {weights : Weights}
    (hne : weights ≠ (e.model i).weights)
    (hinj : Set.InjOn c.sha3 {weights.toList, (e.model i).weights.toList})
    (ops : List CouncilOp) :
    (∀ pre, pre <+: ops →
        (Machine.run (step c) (e.overwrite i weights) pre).Post fun r => r.1.Detected c i) ↔
      guarded (fun e op => !e.launders c i op) (step c) (e.overwrite i weights) ops = true := by
  have hpass : ∀ {e : LearningCouncil} {op}, (e.model i).verifyIntegrity c = false →
      (!e.launders c i op) = true →
      (e.step c op).Post fun r => (r.1.model i).verifyIntegrity c = false := by
    intro e op htampered hguard
    refine (e.step_verifyIntegrity i op).mono fun r hr => ?_
    rw [hr, htampered, Bool.or_false]
    simpa using hguard
  have hfail : ∀ {e : LearningCouncil} {op}, (e.model i).verifyIntegrity c = false →
      (!e.launders c i op) = false → ¬ (e.step c op).Post fun r => r.1.Detected c i := by
    rintro e op - hguard ⟨r, hstep, hdetected, -⟩
    have hlaunders : e.launders c i op = true := by simpa using hguard
    obtain ⟨r', hstep', hr⟩ := e.step_verifyIntegrity (c := c) i op
    cases hstep.symm.trans hstep'
    rw [hr, hlaunders, Bool.true_or] at hdetected
    cases hdetected
  exact @forall_prefix_iff_guarded _ _ _ (step c) (fun e op => !e.launders c i op)
    (fun e => (e.model i).verifyIntegrity c = false) (Detected c i)
    (fun h => ⟨h, CouncilEngine.evaluateTier3_decision_of_tampered (getElem_mem _) h⟩)
    hpass hfail ops _ (tampered_overwrite (intact_of_reachable hreach i) hne hinj)

def leadingByte : Crypto where
  hmac _ := Vector.replicate 32 0
  sha3 bytes := Vector.replicate 32 (bytes.headD 0)

def constitution : RuleEngine := RuleEngine.new.loadRules genesisRules

def message : EvalContext := ⟨5, 2, 1, 100, 0, 5, .normal, .active, false⟩

def forgedWeights : Weights := (SimulatedModel.new leadingByte .sentinel).weights.set 0 0xE9

/-- Another model was trained with rules that fail the golden tests, so its learning is frozen. -/
def frozenArbiter : LearningCouncil :=
  final (call leadingByte) (new.init leadingByte) [.op (.trainStep .arbiter .new)]

lemma forgedWeights_ne : forgedWeights ≠ (frozenArbiter.model .sentinel).weights := by
  intro h
  have hhead : forgedWeights[0] = (frozenArbiter.model .sentinel).weights[0] := by rw [h]
  exact absurd hhead (by decide +kernel)

/-- Evaluations and an attempt to train the frozen model do not hide the forged weights. -/
theorem forged_weights_stay_detected :
    forgedWeights ≠ (frozenArbiter.model .sentinel).weights ∧
      ∀ pre, pre <+: [.evaluateTier3 message, .trainStep .arbiter constitution,
          .syncTick 7, .evaluateTier2 message] →
        (Machine.run (step leadingByte) (frozenArbiter.overwrite .sentinel forgedWeights)
          pre).Post fun r => r.1.Detected leadingByte .sentinel :=
  ⟨forgedWeights_ne, (tampering_detected_iff_not_laundered (.of_returns (by decide +kernel))
    forgedWeights_ne (Set.injOn_pair.mpr fun h => absurd h (by decide +kernel)) _).mpr
      (by decide +kernel)⟩

/-- One training step of the forged sentinel, or one of the arbiter with rules that fail the
golden tests, and the sentinel passes its check; the panel then follows the forged weights. -/
theorem training_launders_forged_weights :
    let forged := (new.init leadingByte).overwrite .sentinel forgedWeights
    let trained := final (step leadingByte) forged [.trainStep .sentinel constitution]
    let rolledBack := final (step leadingByte) forged [.trainStep .arbiter .new]
    (forged.model .sentinel).verifyIntegrity leadingByte = false ∧
      (forged.evaluateTier3 leadingByte message).2.decision = .deny ∧
      (trained.model .sentinel).verifyIntegrity leadingByte = true ∧
      (rolledBack.model .sentinel).verifyIntegrity leadingByte = true ∧
      (rolledBack.evaluateTier3 leadingByte message).2.decision = .allow := by
  refine ⟨by decide +kernel, by decide +kernel, ?_, ?_, by decide +kernel⟩
  · rw [final_verifyIntegrity]
    decide +kernel
  · rw [final_verifyIntegrity]
    decide +kernel

end LearningCouncil

end Fabric
