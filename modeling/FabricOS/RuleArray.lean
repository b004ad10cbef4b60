/-
The rule engine on its array (`governance/rules.rs`).

The engine keeps its rules in an array of 64, of which the first `count` are loaded.  The
edits work in place: a new rule is written behind the others and the loaded part is sorted
again by insertion, a rule that is removed is shifted over.  Seen through the loaded part
(`toEngine`), every operation is the one on lists.
-/
import FabricOS.Machine
import FabricOS.RuleEdits

open ArrayWindow Function

namespace Fabric

open RuleEngine

def PolicyRule.empty : PolicyRule := ⟨"", 0, [], .allow, Nat.zero_le _⟩

/-- The engine; entries behind the first `count` are not in use. -/
structure RuleArray where
  rules : ℕ → PolicyRule
  count : ℕ
  count_le : count ≤ maxRules

namespace RuleArray

variable {e : RuleArray}

/-! ### The operations -/

def new : RuleArray := ⟨fun _ => .empty, 0, Nat.zero_le _⟩

def loadRules (e : RuleArray) (rules : List PolicyRule) : RuleArray :=
  ⟨sort PolicyRule.outranks (copy .empty e.rules rules (min rules.length maxRules))
    (min rules.length maxRules), min rules.length maxRules, Nat.min_le_right _ _⟩

def firstMatch (e : RuleArray) (ctx : EvalContext) : Option ℕ :=
  (List.range e.count).find? fun i => (e.rules i).matchesCtx ctx

def evaluate (e : RuleArray) (ctx : EvalContext) : PolicyVerdict × String × Bool :=
  match e.firstMatch ctx with
  | some i => ((e.rules i).verdict, (e.rules i).name, (e.rules i).action == .denyAndLog)
  | none => (.allow, "default-allow", false)

def evaluateWithAction (e : RuleArray) (ctx : EvalContext) : RuleAction × String :=
  match e.firstMatch ctx with
  | some i => ((e.rules i).action, (e.rules i).name)
  | none => (.allow, "default-allow")

def firstNamed (e : RuleArray) (name : String) : Option ℕ :=
  (List.range e.count).find? fun i => (e.rules i).name == name

def addRule (e : RuleArray) (rule : PolicyRule) : RuleArray × Bool :=
  if h : e.count ≥ maxRules then (e, false)
  else (⟨sort PolicyRule.outranks (update e.rules e.count rule) (e.count + 1),
    e.count + 1, Nat.lt_of_not_ge h⟩, true)

def removeRule (e : RuleArray) (name : String) : RuleArray × Bool :=
  match e.firstNamed name with
  | some i => (⟨update (shift e.rules i (e.count - 1)) (e.count - 1) .empty,
      e.count - 1, (Nat.sub_le _ _).trans e.count_le⟩, true)
  | none => (e, false)

def replaceRule (e : RuleArray) (name : String) (newRule : PolicyRule) : RuleArray × Bool :=
  match e.firstNamed name with
  | some i =>
    (⟨sort PolicyRule.outranks (update e.rules i newRule) e.count, e.count, e.count_le⟩,
      true)
  | none => (e, false)

def edit (e : RuleArray) : RuleEdit → RuleArray × Bool
  | .load rules _ => (e.loadRules rules, true)
  | .add rule => e.addRule rule
  | .remove name => e.removeRule name
  | .replace name newRule => e.replaceRule name newRule

/-! ### Refinement -/

def toEngine (e : RuleArray) : RuleEngine :=
  ⟨window e.rules e.count, (length_window _ _).trans_le e.count_le⟩

lemma toEngine_eq {l : List PolicyRule} {hl : l.length ≤ maxRules}
    (h : window e.rules e.count = l) : e.toEngine = ⟨l, hl⟩ := by
  subst h
  rfl

lemma window_sort_eq (a : ℕ → PolicyRule) (n : ℕ) :
    window (sort PolicyRule.outranks a n) n = sortRules (window a n) := by
  rw [sortRules_eq]
  exact (window_sort a n).1

lemma firstNamed_eq (e : RuleArray) (name : String) :
    e.toEngine.rules.findIdx? (·.name == name) = e.firstNamed name :=
  findIdx?_window e.rules e.count fun rule => rule.name == name

lemma toEngine_edit (e : RuleArray) (ed : RuleEdit) :
    ((e.edit ed).1.toEngine, (e.edit ed).2) = e.toEngine.edit ed := by
  cases ed with
  | load rules fits =>
    have htake : rules.take (min rules.length maxRules) = rules.take maxRules := by
      rw [Nat.min_comm, ← List.take_eq_take_min]
    refine Prod.ext (toEngine_eq ?_) rfl
    refine (window_sort_eq _ _).trans ?_
    rw [window_copy .empty e.rules (Nat.min_le_left rules.length maxRules), htake]
  | add rule =>
    have hlength : e.toEngine.rules.length = e.count := length_window _ _
    simp only [edit, addRule, RuleEngine.edit, RuleEngine.addRule, hlength]
    split_ifs with hfull
    · rfl
    · refine Prod.ext (toEngine_eq ?_) rfl
      rw [window_sort_eq, window_concat]
      rfl
  | remove name =>
    simp only [edit, removeRule, RuleEngine.edit, RuleEngine.removeRule, firstNamed_eq]
    cases hi : e.firstNamed name with
    | none => rfl
    | some i =>
      have hlt := List.mem_range.mp (List.mem_of_find?_eq_some hi)
      have hcount : e.count - 1 + 1 = e.count := by omega
      -- the entry that is cleared is behind the window
      have hclear : window (update (shift e.rules i (e.count - 1)) (e.count - 1) .empty)
          (e.count - 1) = window (shift e.rules i (e.count - 1)) (e.count - 1) :=
        window_congr fun k hk => update_of_ne (Nat.ne_of_lt hk) _ _
      refine Prod.ext (toEngine_eq ?_) rfl
      rw [hclear, window_shift e.rules (by omega), hcount]
      rfl
  | replace name newRule =>
    simp only [edit, replaceRule, RuleEngine.edit, RuleEngine.replaceRule, firstNamed_eq]
    cases hi : e.firstNamed name with
    | none => rfl
    | some i =>
      refine Prod.ext (toEngine_eq ?_) rfl
      rw [window_sort_eq, window_update]
      rfl

lemma selected_eq (e : RuleArray) (ctx : EvalContext) :
    e.toEngine.selected ctx = (e.firstMatch ctx).map e.rules :=
  find?_window e.rules e.count fun rule => rule.matchesCtx ctx

lemma evaluate_eq (e : RuleArray) (ctx : EvalContext) :
    e.evaluate ctx = e.toEngine.evaluate ctx := by
  have hselected := e.selected_eq ctx
  unfold evaluate RuleEngine.evaluate
  rw [show e.toEngine.rules.find? (·.matchesCtx ctx) = e.toEngine.selected ctx from rfl, hselected]
  cases e.firstMatch ctx <;> rfl

lemma evaluateWithAction_eq (e : RuleArray) (ctx : EvalContext) :
    e.evaluateWithAction ctx = e.toEngine.evaluateWithAction ctx := by
  have hselected := e.selected_eq ctx
  unfold evaluateWithAction RuleEngine.evaluateWithAction
  rw [show e.toEngine.rules.find? (·.matchesCtx ctx) = e.toEngine.selected ctx from rfl, hselected]
  cases e.firstMatch ctx <;> rfl

/-! ### Sequences of edits -/

def step (e : RuleArray) (ed : RuleEdit) : Exec (RuleArray × Bool) := .ok (e.edit ed)

def loaded (e : RuleArray) : Multiset PolicyRule := e.toEngine.loaded

/-- The rules that edits and their answers describe, from an empty engine on. -/
inductive Edited : List (RuleEdit × Bool) → Multiset PolicyRule → Prop
  | nil : Edited [] 0
  | snoc {history : List (RuleEdit × Bool)} {m m' : Multiset PolicyRule} {ed : RuleEdit}
      {answer : Bool} (before : Edited history m)
      (last : RuleEngine.Describes m ed answer m') : Edited (history ++ [(ed, answer)]) m'

/-- The answer of `evaluate` for a rule that decides, or none. -/
def answerFor : Option PolicyRule → PolicyVerdict × String × Bool
  | some rule => (rule.verdict, rule.name, rule.action == .denyAndLog)
  | none => (.allow, "default-allow", false)

/-- The answer of `evaluate_with_action`. -/
def actionFor : Option PolicyRule → RuleAction × String
  | some rule => (rule.action, rule.name)
  | none => (.allow, "default-allow")

lemma run_edits (es : List RuleEdit) : ∃ e answers,
    Machine.run step new es = .ok (e, answers) ∧ answers.length = es.length ∧
      Descending e.toEngine.rules ∧ Edited (es.zip answers) e.loaded := by
  induction es using List.reverseRecOn with
  | nil => exact ⟨new, [], rfl, rfl, .nil, .nil⟩
  | append_singleton es ed ih =>
    obtain ⟨e, answers, hrun, hlength, hsorted, hedited⟩ := ih
    have hedit := e.toEngine_edit ed
    refine ⟨(e.edit ed).1, answers ++ [(e.edit ed).2], Machine.run_concat hrun rfl,
      by simp [hlength], ?_, ?_⟩
    · rw [show (e.edit ed).1.toEngine = _ from congrArg Prod.fst hedit]
      exact (e.toEngine.edits_edit ed).descending hsorted
    rw [List.zip_append hlength.symm]
    refine .snoc hedited ?_
    have hdescribes := (e.toEngine.edits_edit ed).describes hsorted
    rwa [← hedit] at hdescribes

/-- **The rules in force.**  After any sequence of edits the loaded rules are those that the
edits describe, none lost and none twice.  For every context `evaluate` and
`evaluate_with_action` answer for the same rule; it is loaded and matches, and no loaded rule
that matches has a higher priority; and they answer for none if and only if no loaded rule
matches.  The name that `evaluate` returns is then "default-allow", which may also be the name
of the rule that decides. -/
theorem rules_edited (es : List RuleEdit) : ∃ e answers,
    Machine.run step new es = .ok (e, answers) ∧ Edited (es.zip answers) e.loaded ∧
    ∀ ctx, ∃ decides : Option PolicyRule,
      e.evaluate ctx = answerFor decides ∧ e.evaluateWithAction ctx = actionFor decides ∧
      (∀ rule, decides = some rule → rule ∈ e.loaded ∧ rule.matchesCtx ctx = true ∧
        ∀ r ∈ e.loaded, r.matchesCtx ctx = true → r.priority ≤ rule.priority) ∧
      (decides = none ↔ ∀ r ∈ e.loaded, r.matchesCtx ctx = false) ∧
      ((e.evaluate ctx).2.1 = "default-allow" ↔ (∀ r ∈ e.loaded, r.matchesCtx ctx = false) ∨
        ∃ rule, decides = some rule ∧ rule.name = "default-allow") := by
  obtain ⟨e, answers, hrun, -, hsorted, hedited⟩ := run_edits es
  refine ⟨e, answers, hrun, hedited, fun ctx => ?_⟩
  have hevaluate : e.evaluate ctx = answerFor (e.toEngine.selected ctx) := by
    rw [evaluate_eq, RuleEngine.evaluate, ← RuleEngine.selected]
    cases e.toEngine.selected ctx <;> rfl
  have haction : e.evaluateWithAction ctx = actionFor (e.toEngine.selected ctx) := by
    rw [evaluateWithAction_eq, RuleEngine.evaluateWithAction, ← RuleEngine.selected]
    cases e.toEngine.selected ctx <;> rfl
  refine ⟨e.toEngine.selected ctx, hevaluate, haction,
    fun rule hrule => selected_highest hsorted hrule, selected_none, ?_⟩
  rw [hevaluate, show (∀ r ∈ e.loaded, r.matchesCtx ctx = false) ↔
    e.toEngine.selected ctx = none from selected_none.symm]
  cases e.toEngine.selected ctx <;> simp [answerFor]

def decoy : PolicyRule := ⟨"default-allow", 1, [], .deny, Nat.zero_le _⟩

/-- "default-allow" is returned although a loaded rule matches and denies. -/
theorem decoy_returned : ∃ e, Machine.run step new [.add decoy] = .ok (e, [true]) ∧
    decoy ∈ e.loaded ∧ ∀ ctx, decoy.matchesCtx ctx = true ∧
      e.evaluate ctx = (.deny, "default-allow", false) := by
  have hloaded : (new.addRule decoy).1.loaded = {decoy} := rfl
  exact ⟨(new.addRule decoy).1, rfl, by simp [hloaded], fun ctx => ⟨rfl, rfl⟩⟩

end RuleArray

end Fabric
