/-
Runs of a deterministic machine.

A machine is a step function `σ → ι → Exec (σ × ο)`: in state `s` the input
`i` yields a new state and an output, unless the step aborts or diverges.

* `Run.split` — a run is cut at any of its events.
-/
import FabricOS.Exec
import Mathlib.Data.List.Induction

open List Bool Exec

namespace Machine

variable {σ τ ι ο : Type}

/-- Execute the inputs in order; the outcome of the first step that does not
return is the outcome of the whole. -/
def run (step : σ → ι → Exec (σ × ο)) : σ → List ι → Exec (σ × List ο)
  | s, [] => .ok (s, [])
  | s, i :: is => do
      let (s', o) ← step s i
      let (s'', os) ← run step s' is
      .ok (s'', o :: os)

def outputs (step : σ → ι → Exec (σ × ο)) (s : σ) (is : List ι) : Exec (List ο) := do
  let (_, os) ← run step s is
  .ok os

/-- The state after the inputs; the initial one if some step does not return. -/
def final (step : σ → ι → Exec (σ × ο)) (s : σ) (is : List ι) : σ :=
  match run step s is with
  | .ok (s', _) => s'
  | _ => s

/-- One step of a run: the state it was taken in, its input and its output. -/
structure Event (σ ι ο : Type) where
  before : σ
  input : ι
  output : ο

/-- `Run step s₀ evs s`: from `s₀` the events `evs` lead to `s`. -/
inductive Run (step : σ → ι → Exec (σ × ο)) (s₀ : σ) : List (Event σ ι ο) → σ → Prop
  | nil : Run step s₀ [] s₀
  | snoc {evs : List (Event σ ι ο)} {s s' : σ} {i : ι} {o : ο} :
      Run step s₀ evs s → step s i = .ok (s', o) → Run step s₀ (evs ++ [⟨s, i, o⟩]) s'

/-- `s` is the final state of some run from `s₀`. -/
def Reachable (step : σ → ι → Exec (σ × ο)) (s₀ s : σ) : Prop :=
  ∃ evs, Run step s₀ evs s

/-- `s` is the final state of a run from `s₀` whose every step satisfied
`guard` in the state in which it was taken. -/
inductive ReachableVia (guard : σ → ι → Prop) (step : σ → ι → Exec (σ × ο)) (s₀ : σ) :
    σ → Prop
  | refl : ReachableVia guard step s₀ s₀
  | tail {s s' : σ} {i : ι} {o : ο} : ReachableVia guard step s₀ s → guard s i →
      step s i = .ok (s', o) → ReachableVia guard step s₀ s'

section

variable {step : σ → ι → Exec (σ × ο)} {s₀ s s' : σ}

lemma Run.append {evs1 evs2 : List (Event σ ι ο)} (h1 : Run step s₀ evs1 s)
    (h2 : Run step s evs2 s') : Run step s₀ (evs1 ++ evs2) s' := by
  induction h2 with
  | nil => rwa [append_nil]
  | snoc _ hstep ih =>
    rw [← append_assoc]
    exact Run.snoc ih hstep

lemma Run.of_run : ∀ {is : List ι} {os : List ο} {s₀ : σ},
    run step s₀ is = .ok (s, os) →
    ∃ evs, Run step s₀ evs s ∧ evs.map (·.input) = is ∧ evs.map (·.output) = os := by
  intro is
  induction is with
  | nil =>
    intro os s₀ h
    obtain ⟨rfl, rfl⟩ := h
    exact ⟨[], Run.nil, rfl, rfl⟩
  | cons i is ih =>
    intro os s₀ h
    simp only [run, bind_eq_ok] at h
    obtain ⟨⟨s1, o⟩, h1, ⟨s2, os'⟩, h2, h3⟩ := h
    cases h3
    obtain ⟨evs, hrun, hin, hout⟩ := ih h2
    exact ⟨_, Run.append (Run.snoc Run.nil h1) hrun, by simp [hin], by simp [hout]⟩

variable {is : List ι}

lemma run_concat {i : ι} {os : List ο} {o : ο} {s'' : σ} :
    ∀ {s : σ}, run step s is = .ok (s', os) → step s' i = .ok (s'', o) →
      run step s (is ++ [i]) = .ok (s'', os ++ [o]) := by
  induction is generalizing os with
  | nil =>
    intro s hrun hstep
    cases hrun
    simp [run, hstep]
  | cons j is ih =>
    intro s hrun hstep
    obtain ⟨⟨t, p⟩, hj, hrest⟩ := bind_eq_ok.mp hrun
    obtain ⟨⟨t', ps⟩, his, hend⟩ := bind_eq_ok.mp hrest
    cases hend
    simp [run, hj, ih his hstep]

/-- **Ghost state.**  If every step from a state that fits the ghost state returns, to a state
that fits what the ghost state becomes, then so does every execution. -/
theorem run_ghost {γ : Type*} (guard : ι → Prop) (Fits : σ → γ → Prop) (next : γ → ι × ο → γ)
    (hstep : ∀ {s g i}, Fits s g → guard i →
      ∃ s' o, step s i = .ok (s', o) ∧ Fits s' (next g (i, o))) :
    ∀ (is : List ι) {s : σ} {g : γ}, Fits s g → (∀ i ∈ is, guard i) →
      ∃ s' os, run step s is = .ok (s', os) ∧ Fits s' ((is.zip os).foldl next g) := by
  intro is
  induction is with
  | nil => exact fun {s} _ hs _ => ⟨s, [], rfl, hs⟩
  | cons i is ih =>
    intro s g hs hguard
    obtain ⟨hi, his⟩ := forall_mem_cons.mp hguard
    obtain ⟨s1, o, hfirst, hs1⟩ := hstep hs hi
    obtain ⟨s', os, hrun, hs'⟩ := ih hs1 his
    exact ⟨s', o :: os, by simp [run, hfirst, hrun], hs'⟩

lemma outputs_cons {i : ι} {o : ο} {os : List ο} (hi : step s i = .ok (s', o))
    (his : outputs step s' is = .ok os) : outputs step s (i :: is) = .ok (o :: os) := by
  unfold outputs at his ⊢
  rw [bind_eq_ok] at his
  obtain ⟨⟨s'', os'⟩, hrun, hos⟩ := his
  cases hos
  simp [run, hi, hrun]

lemma Run.of_returns (h : (run step s₀ is).returns = true) :
    ∃ evs, Run step s₀ evs (final step s₀ is) ∧ evs.map (·.input) = is := by
  obtain ⟨⟨s, os⟩, hrun⟩ := returns_iff.mp h
  obtain ⟨evs, hevs, hin, -⟩ := Run.of_run hrun
  have hfinal : final step s₀ is = s := by simp [final, hrun]
  exact ⟨evs, hfinal ▸ hevs, hin⟩

lemma Run.split {evs1 evs2 : List (Event σ ι ο)} {ev : Event σ ι ο}
    (h : Run step s₀ (evs1 ++ ev :: evs2) s) :
    ∃ s', Run step s₀ evs1 ev.before ∧ step ev.before ev.input = .ok (s', ev.output) ∧
      Run step s' evs2 s := by
  induction evs2 using List.reverseRecOn generalizing s with
  | nil =>
    generalize hevs : evs1 ++ [ev] = evs at h
    cases h with
    | nil => simp at hevs
    | snoc hrun hstep =>
      obtain ⟨rfl, hlast⟩ := append_inj' hevs rfl
      obtain rfl := singleton_inj.mp hlast
      exact ⟨s, hrun, hstep, Run.nil⟩
  | append_singleton evs2 last ih =>
    generalize hevs : evs1 ++ ev :: (evs2 ++ [last]) = evs at h
    cases h with
    | nil => simp at hevs
    | snoc hrun hstep =>
      rw [← cons_append, ← append_assoc] at hevs
      obtain ⟨rfl, hlast⟩ := append_inj' hevs rfl
      obtain rfl := singleton_inj.mp hlast
      obtain ⟨s', hpre, hev, hpost⟩ := ih hrun
      exact ⟨s', hpre, hev, Run.snoc hpost hstep⟩

lemma Run.reachable {evs : List (Event σ ι ο)} (h : Run step s₀ evs s) :
    Reachable step s₀ s := ⟨evs, h⟩

lemma Reachable.init : Reachable step s₀ s₀ := ⟨[], Run.nil⟩

lemma Reachable.tail {i : ι} {o : ο} (h : Reachable step s₀ s)
    (hi : step s i = .ok (s', o)) : Reachable step s₀ s' := by
  obtain ⟨evs, hrun⟩ := h
  exact ⟨_, Run.snoc hrun hi⟩

lemma Reachable.trans {s'' : σ} (h1 : Reachable step s₀ s') (h2 : Reachable step s' s'') :
    Reachable step s₀ s'' := by
  obtain ⟨evs1, hrun1⟩ := h1
  obtain ⟨evs2, hrun2⟩ := h2
  exact ⟨evs1 ++ evs2, hrun1.append hrun2⟩

lemma Reachable.of_returns (h : (run step s₀ is).returns = true) :
    Reachable step s₀ (final step s₀ is) := by
  obtain ⟨evs, hrun, -⟩ := Run.of_returns h
  exact hrun.reachable

lemma Reachable.inv {P : σ → Prop} (h : Reachable step s₀ s) (h0 : P s₀)
    (hstep : ∀ {s s' i o}, P s → step s i = .ok (s', o) → P s') : P s := by
  obtain ⟨evs, hrun⟩ := h
  induction hrun with
  | nil => exact h0
  | snoc _ hi ih => exact hstep ih hi

variable {guard : σ → ι → Prop}

lemma ReachableVia.inv {P : σ → Prop} (h : ReachableVia guard step s₀ s) (h0 : P s₀)
    (hstep : ∀ {s s' i o}, P s → guard s i → step s i = .ok (s', o) → P s') : P s := by
  induction h with
  | refl => exact h0
  | tail _ hg hi ih => exact hstep ih hg hi

lemma ReachableVia.reachable (h : ReachableVia guard step s₀ s) : Reachable step s₀ s := by
  induction h with
  | refl => exact Reachable.init
  | tail _ _ hi ih => exact ih.tail hi

lemma ReachableVia.tail_final {i : ι} (h : ReachableVia guard step s₀ s) (hguard : guard s i)
    (hreturns : (step s i).returns = true) : ReachableVia guard step s₀ (final step s [i]) := by
  obtain ⟨⟨s', o⟩, hstep⟩ := returns_iff.mp hreturns
  have hfinal : final step s [i] = s' := by simp [final, run, hstep]
  rw [hfinal]
  exact .tail h hguard hstep

lemma ReachableVia.of_returns {guard : ι → Prop}
    (h : (run step s₀ is).returns = true) (hguard : ∀ i ∈ is, guard i) :
    ReachableVia (fun _ => guard) step s₀ (final step s₀ is) := by
  obtain ⟨evs, hrun, hin⟩ := Run.of_returns h
  have hevs : ∀ ev ∈ evs, guard ev.input := fun ev hev =>
    hguard ev.input (hin ▸ mem_map_of_mem hev)
  generalize final step s₀ is = s at hrun
  clear hin
  induction hrun with
  | nil => exact .refl
  | snoc _ hstep ih =>
    refine .tail (ih fun ev hev => hevs ev (mem_append_left _ hev)) ?_ hstep
    exact hevs ⟨_, _, _⟩ (mem_append_right _ mem_cons_self)

end

/-- Two steps agree up to `R`: both abort, or both return with equal outputs
and related states.  A diverging step agrees with nothing. -/
def Agree (R : σ → τ → Prop) : Exec (σ × ο) → Exec (τ × ο) → Prop
  | .ok (s, o), .ok (t, o') => R s t ∧ o = o'
  | .panic, .panic => True
  | _, _ => False

variable {R : σ → τ → Prop}

lemma Agree.rename {ο' : Type} {x : Exec (σ × ο)} {y : Exec (τ × ο)}
    (h : Agree R x y) (f : ο → ο') :
    Agree R (x >>= fun p => .ok (p.1, f p.2)) (y >>= fun p => .ok (p.1, f p.2)) := by
  rcases x with ⟨s, o⟩ | _ | _ <;> rcases y with ⟨t, o'⟩ | _ | _ <;> simp only [Agree] at h
  · exact ⟨h.1, by rw [h.2]⟩
  · trivial

variable {P : σ → Prop}

lemma Agree.and {Q : τ → Prop} {x : Exec (σ × ο)}
    {y : Exec (τ × ο)} (h : Agree R x y) (hP : ∀ {s o}, x = .ok (s, o) → P s)
    (hQ : ∀ {t o}, y = .ok (t, o) → Q t) : Agree (fun s t => R s t ∧ P s ∧ Q t) x y := by
  rcases x with ⟨s, o⟩ | _ | _ <;> rcases y with ⟨t, o'⟩ | _ | _ <;> simp only [Agree] at h
  · exact ⟨⟨h.1, hP rfl, hQ rfl⟩, h.2⟩
  · trivial

/-- Every input passes the test in the state in which it is taken. -/
def guarded (guard : σ → ι → Bool) (step : σ → ι → Exec (σ × ο)) : σ → List ι → Bool
  | _, [] => true
  | s, i :: is =>
    guard s i &&
      match step s i with
      | .ok (s', _) => guarded guard step s' is
      | _ => true

variable {step : σ → ι → Exec (σ × ο)} {guard : σ → ι → Bool}

lemma returns_iff_guarded (hpass : ∀ {s i}, P s → guard s i = true → (step s i).Post fun r => P r.1)
    (hfail : ∀ {s i}, P s → guard s i = false → (step s i).returns = false) :
    ∀ (is : List ι) {s : σ}, P s →
      ((run step s is).returns = true ↔ guarded guard step s is = true) := by
  intro is
  induction is with
  | nil => exact fun _ => ⟨fun _ => rfl, fun _ => rfl⟩
  | cons i is ih =>
    intro s hP
    cases hguard : guard s i with
    | true =>
      obtain ⟨⟨s', o⟩, hstep, hP'⟩ := hpass hP hguard
      have hrest := ih hP'
      simp only [run, guarded, hguard, hstep, ok_bind, Bool.true_and, ← hrest]
      cases run step s' is <;> simp [returns]
    | false =>
      have hstep := hfail hP hguard
      cases h : step s i with
      | ok r => simp [h, returns] at hstep
      | panic | diverge => simp [run, guarded, h, hguard, returns]

/-- **Exact guards for invariants.**  If `Inv` is kept by the steps that pass the test, and no
other step leads to a state in which `P` holds, then `P` holds all along just when all steps
pass. -/
theorem forall_prefix_iff_guarded {Inv P : σ → Prop} (hInv : ∀ {s}, Inv s → P s)
    (hpass : ∀ {s i}, Inv s → guard s i = true → (step s i).Post fun r => Inv r.1)
    (hfail : ∀ {s i}, Inv s → guard s i = false → ¬ (step s i).Post fun r => P r.1) :
    ∀ (is : List ι) {s : σ}, Inv s →
      ((∀ pre, pre <+: is → (run step s pre).Post fun r => P r.1) ↔
        guarded guard step s is = true) := by
  intro is
  induction is with
  | nil =>
    intro s hs
    refine ⟨fun _ => rfl, fun _ pre hpre => ?_⟩
    rw [prefix_nil.mp hpre]
    exact ⟨_, rfl, hInv hs⟩
  | cons i is ih =>
    intro s hs
    cases hguard : guard s i with
    | true =>
      obtain ⟨⟨s', o⟩, hstep, hs'⟩ := hpass hs hguard
      simp only [guarded, hguard, hstep, Bool.true_and, ← ih hs']
      constructor
      · intro hall pre hpre
        obtain ⟨⟨s'', os⟩, hrun, hP⟩ := hall (i :: pre) (cons_prefix_cons.mpr ⟨rfl, hpre⟩)
        simp only [run, hstep, ok_bind, bind_eq_ok] at hrun
        obtain ⟨⟨t, os'⟩, hrun, hok⟩ := hrun
        cases hok
        exact ⟨_, hrun, hP⟩
      · intro hall pre hpre
        cases pre with
        | nil => exact ⟨_, rfl, hInv hs⟩
        | cons j pre =>
          obtain ⟨rfl, htail⟩ := cons_prefix_cons.mp hpre
          obtain ⟨⟨s'', os⟩, hrun, hP⟩ := hall pre htail
          exact ⟨(s'', o :: os), by simp [run, hstep, hrun], hP⟩
    | false =>
      simp only [guarded, hguard, Bool.false_and, Bool.false_eq_true, iff_false]
      intro hall
      obtain ⟨⟨s', os⟩, hrun, hP⟩ := hall [i] (cons_prefix_cons.mpr ⟨rfl, nil_prefix⟩)
      simp only [run, ok_bind, bind_eq_ok] at hrun
      obtain ⟨⟨t, o⟩, hstep, hok⟩ := hrun
      cases hok
      exact hfail hs hguard ⟨_, hstep, hP⟩

/-- **Exact guards, as far as executions return.**  If `Inv` is kept by the steps that pass the
test, and any other step leads to a state in which `P` fails, then `P` holds all along just
when all steps pass. -/
theorem forall_ok_prefix_iff_guarded {Inv P : σ → Prop} (hInv : ∀ {s}, Inv s → P s)
    (hpass : ∀ {s i s' o}, Inv s → guard s i = true → step s i = .ok (s', o) → Inv s')
    (hfail : ∀ {s i}, Inv s → guard s i = false → ∃ r, step s i = .ok r ∧ ¬ P r.1) :
    ∀ (is : List ι) {s : σ}, Inv s →
      ((∀ pre, pre <+: is → ∀ s' os, run step s pre = .ok (s', os) → P s') ↔
        guarded guard step s is = true) := by
  intro is
  induction is with
  | nil =>
    intro s hs
    refine ⟨fun _ => rfl, fun _ pre hpre s' os hrun => ?_⟩
    rw [prefix_nil.mp hpre] at hrun
    cases hrun
    exact hInv hs
  | cons i is ih =>
    intro s hs
    have hcons : (∀ pre, pre <+: i :: is → ∀ s' os, run step s pre = .ok (s', os) → P s') ↔
        ∀ s1 o, step s i = .ok (s1, o) →
          ∀ pre, pre <+: is → ∀ s' os, run step s1 pre = .ok (s', os) → P s' := by
      constructor
      · intro hall s1 o hstep pre hpre s' os hrun
        refine hall (i :: pre) (cons_prefix_cons.mpr ⟨rfl, hpre⟩) s' (o :: os) ?_
        simp [run, hstep, hrun]
      · intro hall pre hpre s' os hrun
        cases pre with
        | nil =>
          cases hrun
          exact hInv hs
        | cons j pre =>
          obtain ⟨rfl, htail⟩ := cons_prefix_cons.mp hpre
          obtain ⟨⟨s1, o⟩, hstep, hrest⟩ := bind_eq_ok.mp hrun
          obtain ⟨⟨t, os'⟩, hpre, hend⟩ := bind_eq_ok.mp hrest
          obtain ⟨rfl, -⟩ := Prod.mk.inj (ok.inj hend)
          exact hall s1 o hstep pre htail t os' hpre
    rw [hcons]
    cases hguard : guard s i with
    | true =>
      rcases hstep : step s i with ⟨s1, o⟩ | _ | _
      · simp only [guarded, hguard, hstep, Bool.true_and, ← ih (hpass hs hguard hstep)]
        exact ⟨fun hall => hall s1 o rfl, fun hall s2 o2 heq => by
          cases heq
          exact hall⟩
      · simp [guarded, hguard, hstep]
      · simp [guarded, hguard, hstep]
    | false =>
      obtain ⟨⟨s1, o⟩, hstep, hP⟩ := hfail hs hguard
      simp only [guarded, hguard, Bool.false_and, Bool.false_eq_true, iff_false]
      intro hall
      exact hP (hall s1 o hstep [] nil_prefix s1 [] rfl)

variable {step1 : σ → ι → Exec (σ × ο)} {step2 : τ → ι → Exec (τ × ο)}

/-- **Simulation rule for guarded executions.**  If related states agree on every step that
passes the test, then executions of such steps agree. -/
theorem run_agree_of_guarded
    (hsim : ∀ {s t} i, R s t → guard s i = true → Agree R (step1 s i) (step2 t i)) :
    ∀ (is : List ι) {s : σ} {t : τ}, R s t → guarded guard step1 s is = true →
      Agree R (run step1 s is) (run step2 t is) := by
  intro is
  induction is with
  | nil => exact fun hR _ => ⟨hR, rfl⟩
  | cons i is ih =>
    intro s t hR hguarded
    simp only [guarded, and_eq_true] at hguarded
    have h := hsim i hR hguarded.1
    rcases h1 : step1 s i with ⟨s', o⟩ | _ | _ <;> rcases h2 : step2 t i with ⟨t', o'⟩ | _ | _ <;>
      simp only [h1, h2, Agree] at h
    · obtain ⟨hR', rfl⟩ := h
      have hrest := ih hR' (by simpa only [h1] using hguarded.2)
      simp only [run, h1, h2, ok_bind]
      rcases h3 : run step1 s' is with ⟨s'', os⟩ | _ | _ <;>
        rcases h4 : run step2 t' is with ⟨t'', os'⟩ | _ | _ <;>
        simp only [h3, h4, Agree] at hrest
      · exact ⟨hrest.1, by rw [hrest.2]⟩
      · trivial
    · simp only [run, h1, h2, panic_bind, Agree]

lemma run_eq_of_guarded {step1 step2 : σ → ι → Exec (σ × ο)}
    (hstep : ∀ {s i}, P s → guard s i = true → step1 s i = step2 s i)
    (hP : ∀ {s i s' o}, P s → step1 s i = .ok (s', o) → P s') :
    ∀ (is : List ι) {s : σ}, P s → guarded guard step1 s is = true →
      run step1 s is = run step2 s is := by
  intro is
  induction is with
  | nil => exact fun _ _ => rfl
  | cons i is ih =>
    intro s hs hguard
    rw [guarded, and_eq_true] at hguard
    obtain ⟨hi, htail⟩ := hguard
    rw [run, run, ← hstep hs hi]
    rcases hs' : step1 s i with ⟨s', o⟩ | _ | _
    · rw [hs'] at htail
      rw [ok_bind, ok_bind]
      dsimp only
      rw [ih (hP hs hs') htail]
    · rfl
    · rfl

lemma guard_of_guarded {i : ι} : ∀ {pre is : List ι} {s s' : σ}
    {os : List ο}, guarded guard step s is = true → pre ++ [i] <+: is →
      run step s pre = .ok (s', os) → guard s' i = true := by
  intro pre
  induction pre with
  | nil =>
    rintro is s s' os hguard ⟨rest, rfl⟩ hrun
    cases hrun
    exact (and_eq_true _ _ ▸ hguard).1
  | cons j pre ih =>
    rintro is s s' os hguard ⟨rest, rfl⟩ hrun
    rw [run, bind_eq_ok] at hrun
    obtain ⟨⟨t, o⟩, hj, hrun⟩ := hrun
    obtain ⟨⟨t', os'⟩, hpre, hend⟩ := bind_eq_ok.mp hrun
    cases hend
    rw [cons_append, cons_append, guarded, hj, and_eq_true] at hguard
    exact ih hguard.2 ⟨rest, rfl⟩ hpre

lemma guarded_of_prefix : ∀ {pre is : List ι} {s : σ},
    guarded guard step s is = true → pre <+: is → guarded guard step s pre = true := by
  intro pre
  induction pre with
  | nil => exact fun _ _ => rfl
  | cons i pre ih =>
    rintro is s hguard ⟨rest, rfl⟩
    rw [cons_append, guarded, and_eq_true] at hguard
    rw [guarded, and_eq_true]
    refine ⟨hguard.1, ?_⟩
    cases hi : step s i with
    | ok r =>
      rw [hi] at hguard
      exact ih hguard.2 ⟨rest, rfl⟩
    | panic | diverge => rfl

lemma guarded_true (step : σ → ι → Exec (σ × ο)) (s : σ) (is : List ι) :
    guarded (fun _ _ => true) step s is = true := by
  induction is generalizing s with
  | nil => rfl
  | cons i is ih =>
    rcases h : step s i with ⟨s', o⟩ | _ | _
    · simp [guarded, h, ih]
    · simp [guarded, h]
    · simp [guarded, h]

/-- **Simulation rule.**  If related states agree on every step, then from
related states every list of inputs has the same outputs in both machines, and
neither diverges. -/
theorem run_eq_of_sim (hsim : ∀ {s t} i, R s t → Agree R (step1 s i) (step2 t i)) :
    ∀ (is : List ι) {s : σ} {t : τ}, R s t → Agree R (run step1 s is) (run step2 t is) :=
  fun is s _ hR =>
    run_agree_of_guarded (fun i hR _ => hsim i hR) is hR (guarded_true step1 s is)

lemma Agree.outputs_eq {s : σ} {t : τ} {is : List ι}
    (h : Agree R (run step1 s is) (run step2 t is)) : outputs step1 s is = outputs step2 t is := by
  unfold outputs
  rcases h1 : run step1 s is with ⟨s', os⟩ | _ | _ <;>
    rcases h2 : run step2 t is with ⟨t', os'⟩ | _ | _ <;>
    simp only [h1, h2, Agree] at h
  · simp [h.2]
  · rfl

lemma Agree.outputs_ne_diverge {s : σ} {t : τ} {is : List ι}
    (h : Agree R (run step1 s is) (run step2 t is)) : outputs step1 s is ≠ .diverge := by
  unfold outputs
  rcases h1 : run step1 s is with ⟨s', os⟩ | _ | _
  · simp
  · simp
  · simp [h1, Agree] at h

end Machine
