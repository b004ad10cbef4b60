/-
The integrity of the constitution (`compute_constitution_hash` in `governance/constitution.rs`
and `verify_constitution` in `governance/mod.rs`).

The hash of a list of rules is that of their bytes, one rule after the other: the name, then
the priority, the number of conditions, the conditions and the action.  All but the name can be
told from what follows it (`fieldBytes_inj`).  The name has no length and no end, so that a
longer name can stand for a shorter one and the bytes behind it.

`verify_constitution` hashes the rules that the kernel was compiled with, and compares with the
hash that was taken of the same rules at boot.
-/
import FabricOS.Constitution
import FabricOS.Governance
import FabricOS.RuleEdits

open List

namespace Fabric

open RuleEngine PolicyRule

/-! ### Bytes of a rule -/

def RuleCondition.code : RuleCondition → UInt8
  | .senderEquals => 0
  | .receiverEquals => 1
  | .msgTypeEquals => 2
  | .resourceKindEquals => 3
  | .priorityBelow => 4
  | .always => 5
  | .safetyStateAtLeast => 6
  | .acsStateEquals => 7
  | .senderNotButler => 8
  | .tierEscalated => 9

def RuleAction.code : RuleAction → UInt8
  | .allow => 0
  | .deny => 1
  | .denyAndLog => 2
  | .allowIfCapValid => 3
  | .escalateToChaos => 4
  | .escalateToTier2 => 5

def Condition.bytes (cond : Condition) : List UInt8 :=
  cond.kind.code :: toLeBytes 8 cond.value.toNat

namespace PolicyRule

/-- `name.as_bytes()`. -/
def nameBytes (rule : PolicyRule) : List UInt8 := rule.name.toByteArray.data.toList

/-- Priority, number of conditions, conditions and action. -/
def fieldBytes (rule : PolicyRule) : List UInt8 :=
  toLeBytes 2 rule.priority.toNat ++ [UInt8.ofNat rule.conditions.length] ++
    rule.conditions.flatMap Condition.bytes ++ [rule.action.code]

end PolicyRule

def constitutionBytes (rules : List PolicyRule) : List UInt8 :=
  rules.flatMap fun rule => rule.nameBytes ++ rule.fieldBytes

def computeConstitutionHash (c : Crypto) (rules : List PolicyRule) : Digest :=
  c.sha3 (constitutionBytes rules)

/-! ### What the bytes tell -/

lemma Condition.bytes_inj {a b : Condition} (h : a.bytes = b.bytes) : a = b := by
  obtain ⟨hkind, hvalue⟩ := cons.inj h
  have hkind : a.kind = b.kind := by
    revert hkind
    cases a.kind <;> cases b.kind <;> decide
  have hvalue : a.value = b.value :=
    UInt64.toNat_inj.mp (toLeBytes_inj a.value.toNat_lt b.value.toNat_lt hvalue)
  exact congrArg₂ Condition.mk hkind hvalue

lemma flatMap_bytes_inj {as bs : List Condition} {r r' : List UInt8}
    (hlength : as.length = bs.length)
    (h : as.flatMap Condition.bytes ++ r = bs.flatMap Condition.bytes ++ r') :
    as = bs ∧ r = r' := by
  induction as generalizing bs with
  | nil =>
    obtain rfl := length_eq_zero_iff.mp hlength.symm
    exact ⟨rfl, h⟩
  | cons a as ih =>
    cases bs with
    | nil => simp at hlength
    | cons b bs =>
      rw [flatMap_cons, flatMap_cons, append_assoc, append_assoc] at h
      obtain ⟨hab, hrest⟩ := append_inj h (by simp [Condition.bytes])
      obtain ⟨rfl, hr⟩ := ih (Nat.succ.inj hlength) hrest
      exact ⟨congrArg (· :: as) (Condition.bytes_inj hab), hr⟩

variable {a b : PolicyRule}

lemma PolicyRule.fieldBytes_inj {r r' : List UInt8} (h : a.fieldBytes ++ r = b.fieldBytes ++ r') :
    a.priority = b.priority ∧ a.conditions = b.conditions ∧ a.action = b.action ∧ r = r' := by
  simp only [fieldBytes, append_assoc] at h
  obtain ⟨hpriority, h⟩ := append_inj h (by simp)
  obtain ⟨hcount, h⟩ := cons.inj h
  -- there are at most four conditions, so their number fits in a byte
  have hlength : a.conditions.length = b.conditions.length := by
    have ha := a.conditions_le
    have hb := b.conditions_le
    have hnat := congrArg UInt8.toNat hcount
    simp only [UInt8.toNat_ofNat', maxConditions] at hnat ha hb
    omega
  obtain ⟨hconditions, h⟩ := flatMap_bytes_inj hlength h
  obtain ⟨haction, hr⟩ := cons.inj h
  refine ⟨UInt16.toNat_inj.mp (toLeBytes_inj a.priority.toNat_lt b.priority.toNat_lt hpriority),
    hconditions, ?_, hr⟩
  revert haction
  cases a.action <;> cases b.action <;> decide

lemma PolicyRule.eq_of_fields (hname : a.name = b.name)
    (hpriority : a.priority = b.priority) (hconditions : a.conditions = b.conditions)
    (haction : a.action = b.action) : a = b := by
  cases b
  subst hname hpriority hconditions haction
  rfl

/-- The name of `b` is longer than that of `a`, and stands for it and for bytes that follow. -/
def Swallows (b : PolicyRule) (bs : List PolicyRule) (a : PolicyRule) (as : List PolicyRule) :
    Prop :=
  ∃ swallowed, swallowed ≠ [] ∧ b.nameBytes = a.nameBytes ++ swallowed ∧
    a.fieldBytes ++ constitutionBytes as = swallowed ++ (b.fieldBytes ++ constitutionBytes bs)

lemma constitutionBytes_cons (a : PolicyRule) (as : List PolicyRule) :
    constitutionBytes (a :: as) = a.nameBytes ++ (a.fieldBytes ++ constitutionBytes as) := by
  rw [constitutionBytes, flatMap_cons, append_assoc]
  rfl

lemma constitutionBytes_append (as bs : List PolicyRule) :
    constitutionBytes (as ++ bs) = constitutionBytes as ++ constitutionBytes bs :=
  flatMap_append

lemma Swallows.bytes_eq {as bs : List PolicyRule} (h : Swallows b bs a as) :
    constitutionBytes (a :: as) = constitutionBytes (b :: bs) := by
  obtain ⟨swallowed, -, hname, hrest⟩ := h
  rw [constitutionBytes_cons, constitutionBytes_cons, hname, hrest, append_assoc]

lemma swallows_of_bytes_eq {as bs : List PolicyRule}
    (h : constitutionBytes (a :: as) = constitutionBytes (b :: bs)) :
    a = b ∧ constitutionBytes as = constitutionBytes bs ∨ Swallows b bs a as ∨
      Swallows a as b bs := by
  rw [constitutionBytes_cons, constitutionBytes_cons] at h
  -- without anything swallowed, the names are the same and so are the fields
  have hsame : a.nameBytes = b.nameBytes →
      a.fieldBytes ++ constitutionBytes as = b.fieldBytes ++ constitutionBytes bs →
      a = b ∧ constitutionBytes as = constitutionBytes bs := by
    intro hname hrest
    obtain ⟨hpriority, hconditions, haction, hrest⟩ := fieldBytes_inj hrest
    have hname := String.toByteArray_inj.mp (ByteArray.ext (Array.toList_inj.mp hname))
    exact ⟨eq_of_fields hname hpriority hconditions haction, hrest⟩
  rcases append_eq_append_iff.mp h with ⟨t, hname, hrest⟩ | ⟨t, hname, hrest⟩
  · by_cases ht : t = []
    · subst ht
      exact .inl (hsame (by simpa using hname.symm) hrest)
    · exact .inr (.inl ⟨t, ht, hname, hrest⟩)
  · by_cases ht : t = []
    · subst ht
      exact .inl (hsame (by simpa using hname) hrest.symm)
    · exact .inr (.inr ⟨t, ht, hname, hrest⟩)

/-- A rule with a condition, and one whose name holds most of its bytes. -/
def openRule : PolicyRule := ⟨"x", 1, [⟨.always, 0⟩], .allow, Nat.le_add_left 1 3⟩

def hiddenRule : PolicyRule :=
  ⟨"x\x01\x00\x01\x05\x00\x00\x00\x00\x00", 0, [], .allow, Nat.zero_le _⟩

instance : DecidableEq PolicyRule := fun a b =>
  decidable_of_iff (a.name = b.name ∧ a.priority = b.priority ∧ a.conditions = b.conditions ∧
      a.action = b.action)
    ⟨fun h => PolicyRule.eq_of_fields h.1 h.2.1 h.2.2.1 h.2.2.2,
      fun h => h ▸ ⟨rfl, rfl, rfl, rfl⟩⟩

/-- The governance engine with the hash that was taken at boot. -/
structure SealedGovernance extends GovernanceEngine where
  constitutionHash : Digest

namespace SealedGovernance

variable {c : Crypto} {g : SealedGovernance}

def new : SealedGovernance := ⟨GovernanceEngine.new, Vector.replicate 32 0⟩

def init (c : Crypto) (g : SealedGovernance) : SealedGovernance :=
  ⟨g.toGovernanceEngine.init, computeConstitutionHash c genesisRules⟩

def verifyConstitution (c : Crypto) (g : SealedGovernance) : Bool :=
  computeConstitutionHash c genesisRules == g.constitutionHash

def step (g : SealedGovernance) (ed : RuleEdit) : Exec (SealedGovernance × Bool) :=
  .ok ({ g with rules := (g.rules.edit ed).1 }, (g.rules.edit ed).2)

def InForce (g : SealedGovernance) : Prop := ∀ rule ∈ genesisRules, rule ∈ g.rules.loaded

def dispensable (g : SealedGovernance) (rule : PolicyRule) : Bool :=
  rule ∉ genesisRules || 1 < g.rules.rules.count rule

/-- The edit leaves the constitution in force: it loads all genesis rules, or the rule that it
finds by name is not one of them, or is loaded twice, or replaced by itself. -/
def sparesGenesis (g : SealedGovernance) : RuleEdit → Bool
  | .load rules _ => genesisRules.all (· ∈ rules)
  | .add _ => true
  | .remove name => (g.rules.rules.find? (·.name == name)).all g.dispensable
  | .replace name newRule =>
    (g.rules.rules.find? (·.name == name)).all fun rule => rule == newRule || g.dispensable rule

lemma verifyConstitution_step {g' : SealedGovernance} {ed : RuleEdit} {answer : Bool}
    (h : g.step ed = .ok (g', answer)) : g'.verifyConstitution c = g.verifyConstitution c := by
  cases h
  rfl

variable {rule : PolicyRule}

lemma find?_of_split {rules above below : List PolicyRule} {name : String}
    (h : rules = above ++ rule :: below) (hname : rule.name = name)
    (habove : ∀ r ∈ above, r.name ≠ name) : rules.find? (·.name == name) = some rule := by
  rw [find?_eq_some_iff_append]
  exact ⟨by simp [hname], above, below, h, by simpa using habove⟩

lemma inForce_without {above below after : List PolicyRule}
    (h : g.InForce) (hsplit : g.rules.rules = above ++ rule :: below)
    (hafter : above ++ below ⊆ after) :
    (∀ r ∈ genesisRules, r ∈ after) ↔ (rule ∈ genesisRules → rule ∈ after) := by
  refine ⟨fun hall => hall rule, fun hrule r hr => ?_⟩
  by_cases hne : r = rule
  · subst hne
    exact hrule hr
  · have hloaded : r ∈ above ++ rule :: below := hsplit ▸ Multiset.mem_coe.mp (h r hr)
    exact hafter (by simpa [hne] using hloaded)

lemma dispensable_iff {above below : List PolicyRule}
    (hsplit : g.rules.rules = above ++ rule :: below) :
    g.dispensable rule = true ↔ (rule ∈ genesisRules → rule ∈ above ++ below) := by
  have hcount : 1 < g.rules.rules.count rule ↔ rule ∈ above ++ below := by
    rw [hsplit, count_append, count_cons_self, ← count_pos_iff, count_append]
    omega
  rw [dispensable, Bool.or_eq_true, decide_eq_true_eq, decide_eq_true_eq, hcount, imp_iff_not_or]

lemma inForce_edit_iff (h : g.InForce) (ed : RuleEdit) :
    (∀ r ∈ genesisRules, r ∈ (g.rules.edit ed).1.loaded) ↔ g.sparesGenesis ed = true := by
  have hedits := g.rules.edits_edit ed
  simp only [RuleEngine.loaded]
  generalize (g.rules.edit ed).1.rules = rules', (g.rules.edit ed).2 = answer at hedits ⊢
  cases hedits with
  | load rules fits => simp [coe_sortRules, sparesGenesis]
  | add rule room =>
    refine iff_of_true (fun r hr => ?_) rfl
    rw [coe_sortRules, Multiset.mem_coe, mem_append]
    exact .inl (Multiset.mem_coe.mp (h r hr))
  | full rule full => exact iff_of_true h rfl
  | remove split named first =>
    rw [sparesGenesis, find?_of_split split named first, Option.all_some, dispensable_iff split]
    exact inForce_without h split (List.Subset.refl _)
  | replace split named first =>
    rw [sparesGenesis, find?_of_split split named first, Option.all_some, Bool.or_eq_true,
      beq_iff_eq, dispensable_iff split, coe_sortRules]
    simp only [Multiset.mem_coe]
    -- the rule is still there if it is the new one
    rw [inForce_without h split (by simp)]
    simp only [mem_append, mem_cons]
    tauto
  | notRemoved absent | notReplaced absent =>
    rw [sparesGenesis, find?_eq_none.mpr (by simpa using absent)]
    exact iff_of_true h rfl

lemma inForce_init (c : Crypto) (g : SealedGovernance) : (g.init c).InForce := by
  intro rule hrule
  show rule ∈ ((sortRules (genesisRules.take maxRules) : List PolicyRule) : Multiset PolicyRule)
  rw [coe_sortRules, take_of_length_le (by decide)]
  exact hrule

/-- **When the check tells that the constitution is in force.**  In every state of a sequence of
edits after boot it does, if and only if every edit spares the genesis rules. -/
theorem genesis_in_force_iff (c : Crypto) (g : SealedGovernance) (eds : List RuleEdit) :
    (∀ pre, pre <+: eds → (Machine.run step (g.init c) pre).Post fun r =>
      r.1.verifyConstitution c = true → r.1.InForce) ↔
      Machine.guarded sparesGenesis step (g.init c) eds = true := by
  -- the check succeeds in every state, so that only the rules in force matter
  let Inv : SealedGovernance → Prop := fun g => g.verifyConstitution c = true ∧ g.InForce
  have hinit : Inv (g.init c) := ⟨beq_self_eq_true _, inForce_init c g⟩
  refine Machine.forall_prefix_iff_guarded (P := fun g => g.verifyConstitution c = true →
    g.InForce) (fun h _ => h.2) ?_ ?_ eds hinit
  · intro g ed hg hspares
    exact ⟨_, rfl, (verifyConstitution_step rfl).trans hg.1,
      (inForce_edit_iff hg.2 ed).mpr hspares⟩
  rintro g ed hg hspares ⟨r, hr, hP⟩
  cases hr
  have hspared := (inForce_edit_iff hg.2 ed).mp (hP ((verifyConstitution_step rfl).trans hg.1))
  exact absurd hspared (by simp [hspares])

/-- A message in lockdown, of a process other than Butler. -/
def lockdownContext : EvalContext where
  senderPid := 5
  receiverPid := 6
  msgType := 0
  capabilityId := 0
  resourceKind := 0
  senderPriority := 4
  safetyState := .lockdown
  acsState := .active
  tierEscalated := false

/-- The rule that denies everything in lockdown is removed: the check succeeds as before, and
the message is let through with a capability. -/
theorem lockdown_rule_removed :
    let removed := fun c => Machine.final step (new.init c) [.remove "lockdown-deny-all"]
    (∀ c, (removed c).verifyConstitution c = true) ∧ (∀ c, ¬ (removed c).InForce) ∧
      (∀ c, (new.init c).rules.evaluateWithAction lockdownContext =
        (.denyAndLog, "lockdown-deny-all")) ∧
      ∀ c, (removed c).rules.evaluateWithAction lockdownContext =
        (.allowIfCapValid, "safe-state-allow") := by
  have hmissing : ¬ ∀ rule ∈ genesisRules,
      rule ∈ (genesisEngine.edit (.remove "lockdown-deny-all")).1.rules := by
    decide +kernel
  refine ⟨fun c => beq_self_eq_true _, fun c h => ?_, fun c => ?_, fun c => ?_⟩
  · exact hmissing h
  · show genesisEngine.evaluateWithAction lockdownContext = _
    decide +kernel
  · show (genesisEngine.edit (.remove "lockdown-deny-all")).1.evaluateWithAction
      lockdownContext = _
    decide +kernel

end SealedGovernance

end Fabric
