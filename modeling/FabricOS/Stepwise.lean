/-
Runs of a total machine, judged step by step.

A machine that never fails is a function `σ → ι → σ`, and its run on a list of inputs is a fold.
Two properties of steps are compared over a run by comparing them at one step, in a run in which
all steps before have had the second.
-/
import Mathlib.Data.List.Induction

open List

namespace Stepwise

variable {σ ι : Type*} {step : σ → ι → σ} {P Q : σ → ι → Prop} {s : σ} {is : List ι}

/-- Every input has the property in the state in which it is taken. -/
def Always (step : σ → ι → σ) (P : σ → ι → Prop) (s : σ) (is : List ι) : Prop :=
  ∀ before i, before ++ [i] <+: is → P (before.foldl step s) i

lemma always_nil : Always step P s [] := by
  intro before i hpre
  simpa using prefix_nil.mp hpre

lemma always_concat {i : ι} :
    Always step P s (is ++ [i]) ↔ Always step P s is ∧ P (is.foldl step s) i := by
  constructor
  · intro h
    refine ⟨fun before j hpre => h before j ?_, h is i (prefix_refl _)⟩
    exact hpre.trans (prefix_append _ _)
  · rintro ⟨hbefore, hlast⟩ before j hpre
    obtain heq | hpre := prefix_concat_iff.mp hpre
    · obtain ⟨rfl, hj⟩ := append_inj' heq rfl
      rw [singleton_inj.mp hj]
      exact hlast
    · exact hbefore before j hpre

lemma Always.inv (h : Always step P s is) (Inv : σ → Prop) (h0 : Inv s)
    (hstep : ∀ s i, i ∈ is → Inv s → P s i → Inv (step s i)) : Inv (is.foldl step s) := by
  induction is using List.reverseRecOn with
  | nil => exact h0
  | append_singleton is i ih =>
    obtain ⟨hbefore, hlast⟩ := always_concat.mp h
    rw [foldl_append]
    refine hstep _ i (mem_append_right is mem_cons_self) ?_ hlast
    exact ih hbefore fun s j hj => hstep s j (mem_append_left _ hj)

/-- **Exact conditions.**  If after a run with `Q` all along the next step has `P` just when it
has `Q`, then runs have `P` all along just when they have `Q` all along. -/
theorem always_iff (h : ∀ before i, before ++ [i] <+: is → Always step Q s before →
    (P (before.foldl step s) i ↔ Q (before.foldl step s) i)) :
    Always step P s is ↔ Always step Q s is := by
  induction is using List.reverseRecOn with
  | nil => exact ⟨fun _ => always_nil, fun _ => always_nil⟩
  | append_singleton is i ih =>
    have hbefore : Always step P s is ↔ Always step Q s is :=
      ih fun before j hpre => h before j (hpre.trans (prefix_append _ _))
    rw [always_concat, always_concat, hbefore]
    exact and_congr_right fun hQ => h is i (prefix_refl _) hQ

end Stepwise
