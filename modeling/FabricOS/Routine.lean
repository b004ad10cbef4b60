/-
Code with a state that ends in a value or in an error, or does not end.

A routine that ends in an error keeps the changes it made to the state before; what follows it
is skipped, as with the `?` of Rust.  `do` blocks put routines together, and there is one rule
for each part of a block:

* `Triple P m Q E` — from a state with `P` the routine ends, and then `Q` holds if it ends in a
  value, and `E` if in an error;
* `Keeps R m` — whenever the routine ends, in a value or in an error, its last state is related
  to its first by `R`.
-/
import FabricOS.Exec

namespace Fabric

open Exec

def Routine (σ ε α : Type) : Type := σ → Exec (Except ε α × σ)

namespace Routine

variable {σ ε α β : Type}

def bind (m : Routine σ ε α) (f : α → Routine σ ε β) : Routine σ ε β := fun s => do
  let (r, s') ← m s
  match r with
  | .ok a => f a s'
  | .error e => .ok (.error e, s')

instance : Monad (Routine σ ε) where
  pure a := fun s => .ok (.ok a, s)
  bind := bind

def fail (e : ε) : Routine σ ε α := fun s => .ok (.error e, s)

def read : Routine σ ε σ := fun s => .ok (.ok s, s)

def modify (f : σ → σ) : Routine σ ε Unit := fun s => .ok (.ok (), f s)

/-- Run a part and go on whether or not it ends in an error. -/
def ignore (m : Routine σ ε α) : Routine σ ε Unit := fun s => m s >>= fun r => .ok (.ok (), r.2)

def lift (x : Exec α) : Routine σ ε α := fun s => x >>= fun a => .ok (.ok a, s)

lemma bind_apply (m : Routine σ ε α) (f : α → Routine σ ε β) (s : σ) :
    (m >>= f) s = m s >>= fun r =>
      match r.1 with
      | .ok a => f a r.2
      | .error e => .ok (.error e, r.2) := rfl

variable {m : Routine σ ε α} {f : α → Routine σ ε β}

lemma bind_of_ok {s s' : σ} {a : α} (h : m s = .ok (.ok a, s')) : (m >>= f) s = f a s' := by
  rw [bind_apply, h]
  rfl

lemma bind_of_error {s s' : σ} {e : ε}
    (h : m s = .ok (.error e, s')) : (m >>= f) s = .ok (.error e, s') := by
  rw [bind_apply, h]
  rfl

lemma returns_of_lift_bind {x : Exec α} {s : σ}
    (h : ((lift x >>= f) s).returns = true) : x.returns = true := by
  obtain ⟨r, hr⟩ := returns_iff.mp h
  obtain ⟨r', hlift, -⟩ := bind_eq_ok.mp hr
  obtain ⟨a, ha, -⟩ := bind_eq_ok.mp hlift
  exact returns_iff.mpr ⟨a, ha⟩

/-! ### Routines that end -/

/-- From a state with `P` the routine ends: in a value and a state with `Q`, or in an error and
a state with `E`. -/
def Triple (P : σ → Prop) (m : Routine σ ε α) (Q : α → σ → Prop) (E : ε → σ → Prop) : Prop :=
  ∀ s, P s → (m s).Post fun r =>
    match r.1 with
    | .ok a => Q a r.2
    | .error e => E e r.2

section Triple

variable {P : σ → Prop} {Q : α → σ → Prop} {R : β → σ → Prop} {E : ε → σ → Prop}

lemma Triple.returns {s : σ} (h : Triple P m Q E) (hP : P s) : (m s).returns = true :=
  returns_iff.mpr (h s hP).returns

lemma Triple.pure {a : α} (h : ∀ s, P s → Q a s) : Triple P (pure a) Q E :=
  fun s hP => ⟨_, rfl, h s hP⟩

lemma Triple.bind (hm : Triple P m Q E)
    (hf : ∀ a, Triple (Q a) (f a) R E) : Triple P (m >>= f) R E := by
  intro s hP
  obtain ⟨⟨r, s'⟩, hr, hQ⟩ := hm s hP
  cases r with
  | ok a =>
    rw [bind_of_ok hr]
    exact hf a s' hQ
  | error e =>
    rw [bind_of_error hr]
    exact ⟨_, rfl, hQ⟩

lemma Triple.fail {e : ε} (h : ∀ s, P s → E e s) : Triple P (fail e) Q E :=
  fun s hP => ⟨_, rfl, h s hP⟩

lemma Triple.modify {f : σ → σ} {Q : Unit → σ → Prop} (h : ∀ s, P s → Q () (f s)) :
    Triple P (modify f) Q E :=
  fun s hP => ⟨_, rfl, h s hP⟩

lemma Triple.lift_bind {x : Exec α} {a : α} (hx : x = .ok a)
    (hf : Triple P (f a) R E) : Triple P (lift x >>= f) R E := by
  intro s hP
  subst hx
  exact hf s hP

end Triple

/-! ### What routines keep -/

/-- Where the routine ends is related to where it started. -/
def Keeps (R : σ → σ → Prop) (m : Routine σ ε α) : Prop :=
  ∀ ⦃s s' : σ⦄ ⦃r : Except ε α⦄, m s = .ok (r, s') → R s s'

section Keeps

variable {R : σ → σ → Prop}

lemma Keeps.pure [Std.Refl R] (a : α) : Keeps R (pure a : Routine σ ε α) := by
  intro s s' r h
  cases h
  exact refl s

lemma Keeps.fail [Std.Refl R] (e : ε) : Keeps R (fail e : Routine σ ε α) := by
  intro s s' r h
  cases h
  exact refl s

lemma Keeps.lift [Std.Refl R] (x : Exec α) : Keeps R (lift x : Routine σ ε α) := by
  intro s s' r h
  obtain ⟨a, -, ha⟩ := bind_eq_ok.mp h
  cases ha
  exact refl s

lemma Keeps.modify {f : σ → σ} (h : ∀ s, R s (f s)) : Keeps R (modify f : Routine σ ε Unit) := by
  intro s s' r heq
  cases heq
  exact h s

lemma Keeps.ignore (hm : Keeps R m) : Keeps R (ignore m) := by
  intro s s' r h
  obtain ⟨⟨r', s''⟩, hr', hend⟩ := bind_eq_ok.mp h
  cases hend
  exact hm hr'

lemma Keeps.bind [IsTrans σ R] (hm : Keeps R m) (hf : ∀ a, Keeps R (f a)) : Keeps R (m >>= f) := by
  intro s s' r h
  rw [bind_apply, bind_eq_ok] at h
  obtain ⟨⟨r', s''⟩, hr', h⟩ := h
  cases r' with
  | ok a => exact IsTrans.trans _ _ _ (hm hr') (hf a h)
  | error e =>
    cases h
    exact hm hr'

end Keeps

end Routine

end Fabric
