/-
Editing the rules (`add_rule`, `remove_rule` and `replace_rule` of `governance/rules.rs`).

The engine holds its rules sorted by priority, and every edit keeps them so.  Where they stand
does not matter for what is loaded: as a collection without order, an edit adds a rule or takes
one away by its name, that of the highest priority if there are several (`Describes`).
-/
import FabricOS.PolicyRules
import FabricOS.ArrayWindow
import Mathlib.Data.Multiset.AddSub

open List

namespace Fabric

open PolicyRule

/-! ### Sorting -/

def PolicyRule.outranks (rule prev : PolicyRule) : Bool := rule.priority > prev.priority

lemma sink_eq (rule : PolicyRule) (front : List PolicyRule) :
    sink rule front = ArrayWindow.sink PolicyRule.outranks rule front := by
  induction front with
  | nil => rfl
  | cons prev front ih =>
    simp only [sink, ArrayWindow.sink, outranks, decide_eq_true_eq, ih]

lemma sortRules_eq (rules : List PolicyRule) :
    sortRules rules = ArrayWindow.sinkSort PolicyRule.outranks rules := by
  have hsink : (fun front rule => sink rule front) =
      fun front rule => ArrayWindow.sink outranks rule front := by
    funext front rule
    exact sink_eq rule front
  rw [sortRules, hsink]
  rfl

def Descending (rules : List PolicyRule) : Prop :=
  rules.Pairwise fun rule later => later.priority ≤ rule.priority

lemma descending_sortRules (rules : List PolicyRule) : Descending (sortRules rules) := by
  rw [sortRules_eq]
  have hle : ∀ x y : PolicyRule, x.outranks y = false ↔ x.priority ≤ y.priority := by
    simp [outranks]
  refine (ArrayWindow.sinkSort_sorted ?_ ?_ rules).imp fun h => (hle _ _).mp h
  · intro x y z hxy hyz
    rw [hle] at hxy hyz ⊢
    exact UInt16.le_trans hxy hyz
  · intro x y hxy
    rw [hle]
    exact UInt16.le_of_lt (by simpa [outranks] using hxy)

/-! ### Edits -/

namespace RuleEngine

variable {rules : List PolicyRule}

lemma length_added (rule : PolicyRule)
    (h : ¬ rules.length ≥ maxRules) : (sortRules (rules ++ [rule])).length ≤ maxRules := by
  rw [length_sortRules, length_append, length_singleton]
  omega

lemma length_eraseIdx_le (h : rules.length ≤ maxRules) (i : ℕ) :
    (rules.eraseIdx i).length ≤ maxRules := (List.length_eraseIdx_le _ _).trans h

lemma length_replaced (h : rules.length ≤ maxRules) (i : ℕ)
    (rule : PolicyRule) : (sortRules (rules.set i rule)).length ≤ maxRules := by
  rw [length_sortRules, length_set]
  exact h

def addRule (e : RuleEngine) (rule : PolicyRule) : RuleEngine × Bool :=
  if h : e.rules.length ≥ maxRules then (e, false)
  else (⟨sortRules (e.rules ++ [rule]), length_added rule h⟩, true)

def removeRule (e : RuleEngine) (name : String) : RuleEngine × Bool :=
  match e.rules.findIdx? (·.name == name) with
  | some i => (⟨e.rules.eraseIdx i, length_eraseIdx_le e.rules_le i⟩, true)
  | none => (e, false)

def replaceRule (e : RuleEngine) (name : String) (newRule : PolicyRule) : RuleEngine × Bool :=
  match e.rules.findIdx? (·.name == name) with
  | some i => (⟨sortRules (e.rules.set i newRule), length_replaced e.rules_le i newRule⟩, true)
  | none => (e, false)

end RuleEngine

inductive RuleEdit where
  | load (rules : List PolicyRule) (fits : rules.length ≤ maxRules)
  | add (rule : PolicyRule)
  | remove (name : String)
  | replace (name : String) (newRule : PolicyRule)

namespace RuleEngine

variable {e : RuleEngine}

def edit (e : RuleEngine) : RuleEdit → RuleEngine × Bool
  | .load rules _ => (e.loadRules rules, true)
  | .add rule => e.addRule rule
  | .remove name => e.removeRule name
  | .replace name newRule => e.replaceRule name newRule

lemma findIdx?_split {rules : List PolicyRule} {name : String} {i : ℕ}
    (h : rules.findIdx? (·.name == name) = some i) : ∃ above rule below,
      rules = above ++ rule :: below ∧ rule.name = name ∧ (∀ r ∈ above, r.name ≠ name) ∧
      rules.eraseIdx i = above ++ below ∧
      ∀ newRule, rules.set i newRule = above ++ newRule :: below := by
  obtain ⟨hi, hname, hbefore⟩ := findIdx?_eq_some_iff_getElem.mp h
  refine ⟨rules.take i, rules[i], rules.drop (i + 1), ?_, by simpa using hname, ?_,
    eraseIdx_eq_take_drop_succ _ _, fun newRule => ?_⟩
  · rw [← drop_eq_getElem_cons hi, take_append_drop]
  · intro r hr
    obtain ⟨j, hj, rfl⟩ := getElem_of_mem hr
    rw [length_take] at hj
    simpa using hbefore j (by omega)
  · rw [set_eq_take_append_cons_drop, if_pos hi]

lemma highest_of_split {rules above below : List PolicyRule} {rule : PolicyRule}
    (hrules : Descending rules) (hsplit : rules = above ++ rule :: below)
    {P : PolicyRule → Prop} (habove : ∀ r ∈ above, ¬ P r) {r : PolicyRule} (hr : r ∈ rules)
    (hP : P r) : r.priority ≤ rule.priority := by
  subst hsplit
  rcases mem_append.mp hr with hr | hr
  · exact absurd hP (habove r hr)
  · rcases mem_cons.mp hr with rfl | hr
    · exact UInt16.le_refl _
    · exact (pairwise_cons.mp (pairwise_append.mp hrules).2.1).1 r hr

inductive Edits (rules : List PolicyRule) : RuleEdit → Bool → List PolicyRule → Prop
  | load (rules' : List PolicyRule) (fits : rules'.length ≤ maxRules) :
      Edits rules (.load rules' fits) true (sortRules rules')
  | add (rule : PolicyRule) (room : rules.length < maxRules) :
      Edits rules (.add rule) true (sortRules (rules ++ [rule]))
  | full (rule : PolicyRule) (full : maxRules ≤ rules.length) : Edits rules (.add rule) false rules
  | remove {name : String} {above below : List PolicyRule} {rule : PolicyRule}
      (split : rules = above ++ rule :: below) (named : rule.name = name)
      (first : ∀ r ∈ above, r.name ≠ name) : Edits rules (.remove name) true (above ++ below)
  | replace {name : String} {newRule : PolicyRule} {above below : List PolicyRule}
      {rule : PolicyRule} (split : rules = above ++ rule :: below) (named : rule.name = name)
      (first : ∀ r ∈ above, r.name ≠ name) :
      Edits rules (.replace name newRule) true (sortRules (above ++ newRule :: below))
  | notRemoved {name : String} (absent : ∀ r ∈ rules, r.name ≠ name) :
      Edits rules (.remove name) false rules
  | notReplaced {name : String} {newRule : PolicyRule} (absent : ∀ r ∈ rules, r.name ≠ name) :
      Edits rules (.replace name newRule) false rules

lemma absent_of_findIdx? {rules : List PolicyRule} {name : String}
    (h : rules.findIdx? (·.name == name) = none) : ∀ r ∈ rules, r.name ≠ name := by
  simpa using findIdx?_eq_none_iff.mp h

lemma edits_edit (e : RuleEngine) (ed : RuleEdit) :
    Edits e.rules ed (e.edit ed).2 (e.edit ed).1.rules := by
  cases ed with
  | load rules fits =>
    show Edits _ _ true (sortRules (rules.take maxRules))
    rw [take_of_length_le fits]
    exact .load rules fits
  | add rule =>
    simp only [edit, addRule]
    split_ifs with hfull
    · exact .full rule hfull
    · exact .add rule (not_le.mp hfull)
  | remove name =>
    simp only [edit, removeRule]
    cases hi : e.rules.findIdx? (·.name == name) with
    | none => exact .notRemoved (absent_of_findIdx? hi)
    | some i =>
      obtain ⟨above, rule, below, hsplit, hname, habove, herase, -⟩ := findIdx?_split hi
      show Edits _ _ true (e.rules.eraseIdx i)
      rw [herase]
      exact .remove hsplit hname habove
  | replace name newRule =>
    simp only [edit, replaceRule]
    cases hi : e.rules.findIdx? (·.name == name) with
    | none => exact .notReplaced (absent_of_findIdx? hi)
    | some i =>
      obtain ⟨above, rule, below, hsplit, hname, habove, -, hset⟩ := findIdx?_split hi
      show Edits _ _ true (sortRules (e.rules.set i newRule))
      rw [hset]
      exact .replace hsplit hname habove

lemma Edits.descending {rules rules' : List PolicyRule} {ed : RuleEdit} {answer : Bool}
    (h : Edits rules ed answer rules') (hrules : Descending rules) : Descending rules' := by
  cases h with
  | load | add | replace => exact descending_sortRules _
  | full | notRemoved | notReplaced => exact hrules
  | remove split =>
    rw [split] at hrules
    exact hrules.sublist ((sublist_cons_self _ _).append_left _)

/-! ### What is loaded -/

def loaded (e : RuleEngine) : Multiset PolicyRule := e.rules

inductive Describes (m : Multiset PolicyRule) : RuleEdit → Bool → Multiset PolicyRule → Prop
  | loaded (rules : List PolicyRule) (fits : rules.length ≤ maxRules) :
      Describes m (.load rules fits) true rules
  | added (rule : PolicyRule) (room : m.card < maxRules) :
      Describes m (.add rule) true (rule ::ₘ m)
  | full (rule : PolicyRule) (full : maxRules ≤ m.card) : Describes m (.add rule) false m
  | removed {name : String} (rule : PolicyRule) (rest : Multiset PolicyRule)
      (found : m = rule ::ₘ rest) (named : rule.name = name)
      (highest : ∀ r ∈ m, r.name = name → r.priority ≤ rule.priority) :
      Describes m (.remove name) true rest
  | replaced {name : String} {newRule : PolicyRule} (rule : PolicyRule) (rest : Multiset PolicyRule)
      (found : m = rule ::ₘ rest) (named : rule.name = name)
      (highest : ∀ r ∈ m, r.name = name → r.priority ≤ rule.priority) :
      Describes m (.replace name newRule) true (newRule ::ₘ rest)
  | notRemoved {name : String} (absent : ∀ r ∈ m, r.name ≠ name) :
      Describes m (.remove name) false m
  | notReplaced {name : String} {newRule : PolicyRule} (absent : ∀ r ∈ m, r.name ≠ name) :
      Describes m (.replace name newRule) false m

lemma coe_split (above below : List PolicyRule) (rule : PolicyRule) :
    ((above ++ rule :: below : List PolicyRule) : Multiset PolicyRule) =
      rule ::ₘ ↑(above ++ below) := by
  exact Multiset.coe_eq_coe.mpr perm_middle

lemma coe_sortRules (rules : List PolicyRule) : (sortRules rules : Multiset PolicyRule) = rules :=
  Multiset.coe_eq_coe.mpr (sortRules_eq rules ▸ ArrayWindow.sinkSort_perm rules)

lemma Edits.describes {rules rules' : List PolicyRule} {ed : RuleEdit} {answer : Bool}
    (h : Edits rules ed answer rules') (hrules : Descending rules) :
    Describes rules ed answer rules' := by
  cases h with
  | load rules fits =>
    rw [coe_sortRules]
    exact .loaded rules fits
  | add rule room =>
    rw [coe_sortRules, coe_split, append_nil]
    exact .added rule room
  | full rule full => exact .full rule full
  | remove split named first =>
    -- the first rule with the name is the one of the highest priority
    refine .removed _ _ ?_ named fun r hr => highest_of_split hrules split first hr
    rw [split, coe_split]
  | replace split named first =>
    rw [coe_sortRules, coe_split]
    refine .replaced _ _ ?_ named fun r hr => highest_of_split hrules split first hr
    rw [split, coe_split]
  | notRemoved absent => exact .notRemoved absent
  | notReplaced absent => exact .notReplaced absent

/-! ### Which rule decides -/

def selected (e : RuleEngine) (ctx : EvalContext) : Option PolicyRule :=
  e.rules.find? (·.matchesCtx ctx)

lemma selected_highest (h : Descending e.rules) {ctx : EvalContext} {rule : PolicyRule}
    (hrule : e.selected ctx = some rule) : rule ∈ e.loaded ∧ rule.matchesCtx ctx = true ∧
      ∀ r ∈ e.loaded, r.matchesCtx ctx = true → r.priority ≤ rule.priority := by
  obtain ⟨hmatches, above, below, hsplit, habove⟩ := find?_eq_some_iff_append.mp hrule
  have hearlier : ∀ r ∈ above, ¬ r.matchesCtx ctx = true := fun r hr => by
    simpa using habove r hr
  refine ⟨?_, hmatches, fun r hr => highest_of_split h hsplit hearlier hr⟩
  rw [loaded, hsplit]
  simp

lemma selected_none {ctx : EvalContext} :
    e.selected ctx = none ↔ ∀ r ∈ e.loaded, r.matchesCtx ctx = false := by
  simp [selected, loaded, find?_eq_none]

end RuleEngine

end Fabric
