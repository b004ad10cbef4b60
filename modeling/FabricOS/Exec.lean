/-
Outcomes of partial imperative code.

A shallowly embedded function that may abort or loop returns `Exec α`:
`ok a` when it returns `a`, `panic` when it aborts (an `expect` or an index
check fails), `diverge` when a loop is still running after as many iterations
as the model allows it.  The two failures are kept apart, so that termination
(`≠ diverge`) and safety (`≠ panic`) can be stated separately.
-/
import Mathlib.Tactic.Common

universe u

/-- The outcome of a computation that may abort or run forever. -/
inductive Exec (α : Type u) where
  | ok (a : α)
  | panic
  | diverge
  deriving DecidableEq, Repr

namespace Exec

variable {α β : Type u}

/-- Sequencing: an aborted or diverging first part is the whole outcome. -/
def bind : Exec α → (α → Exec β) → Exec β
  | .ok a, f => f a
  | .panic, _ => .panic
  | .diverge, _ => .diverge

instance : Monad Exec where
  pure := .ok
  bind := Exec.bind

@[simp] lemma ok_bind (a : α) (f : α → Exec β) : (Exec.ok a >>= f) = f a := rfl

@[simp] lemma panic_bind (f : α → Exec β) : ((Exec.panic : Exec α) >>= f) = .panic := rfl

@[simp] lemma diverge_bind (f : α → Exec β) : ((Exec.diverge : Exec α) >>= f) = .diverge := rfl

@[simp] lemma pure_eq_ok (a : α) : (pure a : Exec α) = .ok a := rfl

instance : LawfulMonad Exec :=
  LawfulMonad.mk' Exec (fun x => by cases x <;> rfl) (fun _ _ => rfl)
    (fun x _ _ => by cases x <;> rfl)

variable {x : Exec α}

lemma bind_eq_ok {f : α → Exec β} {b : β} : x >>= f = .ok b ↔ ∃ a, x = .ok a ∧ f a = .ok b := by
  cases x with
  | ok a | panic | diverge => simp

def returns : Exec α → Bool
  | .ok _ => true
  | _ => false

lemma returns_iff : x.returns = true ↔ ∃ a, x = .ok a := by
  cases x <;> simp [returns]

/-- The computation returns, and its result satisfies `P`. -/
def Post (x : Exec α) (P : α → Prop) : Prop := ∃ a, x = .ok a ∧ P a

variable {P : α → Prop}

@[simp] lemma post_ok {a : α} : (Exec.ok a).Post P ↔ P a := by
  simp [Post]

lemma Post.mono {P Q : α → Prop} (h : x.Post P) (hPQ : ∀ a, P a → Q a) : x.Post Q := by
  obtain ⟨a, ha, hP⟩ := h
  exact ⟨a, ha, hPQ a hP⟩

lemma Post.bind {f : α → Exec β} {Q : β → Prop}
    (h : x.Post P) (hf : ∀ a, P a → (f a).Post Q) : (x >>= f).Post Q := by
  obtain ⟨a, rfl, hP⟩ := h
  exact hf a hP

def get (x : Exec α) (h : ∃ a, x = .ok a) : α :=
  match x, h with
  | .ok a, _ => a
  | .panic, h => absurd h (by simp)
  | .diverge, h => absurd h (by simp)

lemma Post.returns (h : x.Post P) : ∃ a, x = .ok a := by
  obtain ⟨a, ha, -⟩ := h
  exact ⟨a, ha⟩

lemma Post.get (h : x.Post P) : P (x.get h.returns) := by
  obtain ⟨a, rfl, hP⟩ := h
  exact hP

end Exec
