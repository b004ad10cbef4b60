/-
Amendments to the constitution (`AmendmentTracker` in `governance/constitution.rs`).

An amendment is proposed in `Normal`, cools for 86400000 ticks and is then applied.  The tracker
keeps a flag and the tick of the last proposal.  The safety state is asked for when an amendment
is proposed, and not again when it is applied.
-/
import FabricOS.PolicyRules

open List

namespace Fabric

def amendmentCoolingTicks : ℕ := 86400000

structure AmendmentTracker where
  lastProposalTick : ℕ
  totalAmendments : ℕ
  cooling : Bool

namespace AmendmentTracker

def new : AmendmentTracker := ⟨0, 0, false⟩

/-- Propose an amendment; the answer is whether cooling starts. -/
def propose (a : AmendmentTracker) (safetyState : SafetyState) (currentTick : ℕ) :
    AmendmentTracker × Bool :=
  if safetyState ≠ .normal then (a, false)
  else if a.cooling ∧ currentTick - a.lastProposalTick < amendmentCoolingTicks then (a, false)
  else ({ a with lastProposalTick := currentTick, cooling := true }, true)

/-- Apply the amendment; the answer is whether it was ready. -/
def apply (a : AmendmentTracker) (currentTick : ℕ) : AmendmentTracker × Bool :=
  if !a.cooling then (a, false)
  else if currentTick - a.lastProposalTick < amendmentCoolingTicks then (a, false)
  else ({ a with totalAmendments := a.totalAmendments + 1, cooling := false }, true)

def Cooled (a : AmendmentTracker) (currentTick : ℕ) : Prop :=
  a.cooling = true ∧ amendmentCoolingTicks ≤ currentTick - a.lastProposalTick

variable {a : AmendmentTracker} {safetyState : SafetyState} {now : ℕ}

lemma apply_iff : (a.apply now).2 = true ↔ a.Cooled now := by
  unfold apply Cooled
  cases a.cooling with
  | false => simp
  | true =>
    by_cases hlt : now - a.lastProposalTick < amendmentCoolingTicks
    · simp [hlt]
    · simp [hlt, not_lt.mp hlt]

lemma apply_cases (a : AmendmentTracker) (now : ℕ) :
    ((a.apply now).2 = true ∧ (a.apply now).1.cooling = false) ∨
      ((a.apply now).2 = false ∧ (a.apply now).1 = a) := by
  unfold apply
  split_ifs <;> simp

lemma propose_cases (a : AmendmentTracker) (safetyState : SafetyState) (now : ℕ) :
    ((a.propose safetyState now).2 = true ∧ safetyState = .normal ∧
      (a.propose safetyState now).1.lastProposalTick = now) ∨
      ((a.propose safetyState now).2 = false ∧ (a.propose safetyState now).1 = a) := by
  unfold propose
  split_ifs with hstate <;> simp_all

end AmendmentTracker

/-! ### Runs -/

/-- The tracker, and the safety state at the time. -/
structure Amendments where
  safety : SafetyState
  tracker : AmendmentTracker

namespace Amendments

inductive Call
  | propose (now : ℕ)
  | apply (now : ℕ)
  /-- The safety state changes. -/
  | safety (state : SafetyState)

def Call.now : Call → Option ℕ
  | .propose now => some now
  | .apply now => some now
  | .safety _ => none

def step (s : Amendments) : Call → Amendments
  | .propose now => { s with tracker := (s.tracker.propose s.safety now).1 }
  | .apply now => { s with tracker := (s.tracker.apply now).1 }
  | .safety state => { s with safety := state }

def Ordered (calls : List Call) : Prop :=
  calls.Pairwise fun c c' => ∀ t ∈ c.now, ∀ t' ∈ c'.now, t ≤ t'

def stateAt (s₀ : Amendments) (calls : List Call) (n : ℕ) : Amendments :=
  (calls.take n).foldl step s₀

/-- A proposal is accepted, in `Normal`. -/
def ProposedAt (s₀ : Amendments) (calls : List Call) (n now : ℕ) : Prop :=
  calls[n]? = some (.propose now) ∧
    ((stateAt s₀ calls n).tracker.propose (stateAt s₀ calls n).safety now).2 = true ∧
    (stateAt s₀ calls n).safety = .normal

def AppliedAt (s₀ : Amendments) (calls : List Call) (n now : ℕ) : Prop :=
  calls[n]? = some (.apply now) ∧ ((stateAt s₀ calls n).tracker.apply now).2 = true

structure Sound (s₀ : Amendments) (calls : List Call) : Prop where
  /-- Each application has its own proposal, which has cooled. -/
  matched : ∃ proposal : ℕ → ℕ, Set.InjOn proposal {n | ∃ now, AppliedAt s₀ calls n now} ∧
    ∀ n now, AppliedAt s₀ calls n now → proposal n < n ∧
      ∃ proposed, ProposedAt s₀ calls (proposal n) proposed ∧
        proposed + amendmentCoolingTicks ≤ now
  spaced : ∀ m n now now', m < n → AppliedAt s₀ calls m now → AppliedAt s₀ calls n now' →
    now + amendmentCoolingTicks ≤ now'
  normal : ∀ n now, AppliedAt s₀ calls n now → (stateAt s₀ calls n).safety = .normal

variable {s₀ : Amendments} {calls : List Call} {n now : ℕ} {c : Call}

lemma stateAt_succ_of_none (h : calls[n]? = none) :
    stateAt s₀ calls (n + 1) = stateAt s₀ calls n := by
  rw [stateAt, take_add_one, h, Option.toList_none, append_nil]
  rfl

lemma exists_proposal (hnew : s₀.tracker = .new)
    (hcooling : (stateAt s₀ calls n).tracker.cooling = true) :
    ∃ k < n, ProposedAt s₀ calls k (stateAt s₀ calls n).tracker.lastProposalTick ∧
      ∀ m now, k ≤ m → m < n → ¬ AppliedAt s₀ calls m now := by
  induction n with
  | zero =>
    have hstart : (stateAt s₀ calls 0).tracker = .new := hnew
    rw [hstart] at hcooling
    cases hcooling
  | succ n ih =>
    -- a call that leaves the tracker alone leaves the proposal behind it
    have hkeep : (stateAt s₀ calls (n + 1)).tracker = (stateAt s₀ calls n).tracker →
        (∀ now, ¬ AppliedAt s₀ calls n now) →
        ∃ k < n + 1, ProposedAt s₀ calls k (stateAt s₀ calls (n + 1)).tracker.lastProposalTick ∧
          ∀ m now, k ≤ m → m < n + 1 → ¬ AppliedAt s₀ calls m now := by
      intro hsame hnone
      rw [hsame] at hcooling ⊢
      obtain ⟨k, hk, hproposed, hsince⟩ := ih hcooling
      refine ⟨k, by omega, hproposed, fun m now hkm hm => ?_⟩
      obtain rfl | hlt := Nat.eq_or_lt_of_le (Nat.le_of_lt_succ hm)
      · exact hnone now
      · exact hsince m now hkm hlt
    cases hcall : calls[n]? with
    | none =>
      refine hkeep (by rw [stateAt_succ_of_none hcall]) fun now happlied => ?_
      cases hcall.symm.trans happlied.1
    | some c =>
      have hnext : stateAt s₀ calls (n + 1) = (stateAt s₀ calls n).step c := by
        rw [stateAt, take_add_one, hcall, foldl_append]
        rfl
      cases c with
      | propose t =>
        have hother : ∀ now, ¬ AppliedAt s₀ calls n now := fun now happlied => by
          cases hcall.symm.trans happlied.1
        obtain ⟨hok, hnormal, htick⟩ | ⟨-, hsame⟩ :=
          (stateAt s₀ calls n).tracker.propose_cases (stateAt s₀ calls n).safety t
        · refine ⟨n, by omega, ?_, fun m now hnm hm => ?_⟩
          · rw [hnext]
            show ProposedAt s₀ calls n ((stateAt s₀ calls n).tracker.propose _ t).1.lastProposalTick
            rw [htick]
            exact ⟨hcall, hok, hnormal⟩
          · obtain rfl : m = n := by omega
            exact hother now
        · refine hkeep ?_ hother
          rw [hnext]
          exact hsame
      | apply t =>
        obtain ⟨-, hstopped⟩ | ⟨hno, hsame⟩ := (stateAt s₀ calls n).tracker.apply_cases t
        · rw [hnext] at hcooling
          cases hstopped.symm.trans hcooling
        refine hkeep ?_ fun now happlied => ?_
        · rw [hnext]
          exact hsame
        · cases hcall.symm.trans happlied.1
          cases hno.symm.trans happlied.2
      | safety state =>
        refine hkeep (by rw [hnext]; rfl) fun now happlied => ?_
        cases hcall.symm.trans happlied.1

lemma AppliedAt.proposal (hnew : s₀.tracker = .new) (h : AppliedAt s₀ calls n now) :
    ∃ k < n, (∃ proposed, ProposedAt s₀ calls k proposed ∧
      proposed + amendmentCoolingTicks ≤ now) ∧
      ∀ m now, k ≤ m → m < n → ¬ AppliedAt s₀ calls m now := by
  obtain ⟨hcooling, hcooled⟩ := AmendmentTracker.apply_iff.mp h.2
  obtain ⟨k, hk, hproposed, hsince⟩ := exists_proposal hnew hcooling
  refine ⟨k, hk, ⟨_, hproposed, ?_⟩, hsince⟩
  have hpos : 0 < amendmentCoolingTicks := by decide
  omega

lemma Ordered.le (h : Ordered calls) {m k t t' : ℕ} {c c' : Call} (hlt : m < k)
    (hm : calls[m]? = some c) (hk : calls[k]? = some c') (ht : t ∈ c.now) (ht' : t' ∈ c'.now) :
    t ≤ t' := by
  obtain ⟨hmlen, rfl⟩ := List.getElem?_eq_some_iff.mp hm
  obtain ⟨hklen, rfl⟩ := List.getElem?_eq_some_iff.mp hk
  exact pairwise_iff_getElem.mp h m k hmlen hklen hlt t ht t' ht'

/-- **Amendments are sound** exactly if the state is `Normal` whenever one is ready and applied. -/
theorem amendments_sound_iff (safety : SafetyState) (calls : List Call) (hordered : Ordered calls) :
    Sound ⟨safety, .new⟩ calls ↔ ∀ n now, calls[n]? = some (.apply now) →
      (stateAt ⟨safety, .new⟩ calls n).tracker.Cooled now →
      (stateAt ⟨safety, .new⟩ calls n).safety = .normal := by
  constructor
  · intro h n now hcall hcooled
    exact h.normal n now ⟨hcall, AmendmentTracker.apply_iff.mpr hcooled⟩
  · intro h
    have hproposal : ∀ n, ∃ k, ∀ now, AppliedAt ⟨safety, .new⟩ calls n now → k < n ∧
        (∃ proposed, ProposedAt ⟨safety, .new⟩ calls k proposed ∧
          proposed + amendmentCoolingTicks ≤ now) ∧
        ∀ m now, k ≤ m → m < n → ¬ AppliedAt ⟨safety, .new⟩ calls m now := by
      intro n
      by_cases happlied : ∃ now, AppliedAt ⟨safety, .new⟩ calls n now
      · obtain ⟨now, happlied⟩ := happlied
        obtain ⟨k, hk, hproposed, hsince⟩ := happlied.proposal rfl
        refine ⟨k, fun now' happlied' => ?_⟩
        cases happlied.1.symm.trans happlied'.1
        exact ⟨hk, hproposed, hsince⟩
      · exact ⟨0, fun now hnow => absurd ⟨now, hnow⟩ happlied⟩
    choose proposal hproposal using hproposal
    refine ⟨⟨proposal, ?_, fun n now happlied => ?_⟩, ?_, fun n now happlied => ?_⟩
    · -- of two applications, the later has a proposal after the earlier
      have hne : ∀ m n, m < n → (∃ now, AppliedAt ⟨safety, .new⟩ calls m now) →
          (∃ now, AppliedAt ⟨safety, .new⟩ calls n now) → proposal m ≠ proposal n := by
        rintro m n hlt ⟨now, hm⟩ ⟨now', hn⟩ heq
        have hbefore := (hproposal m now hm).1
        exact (hproposal n now' hn).2.2 m now (by omega) hlt hm
      intro m hm n hn heq
      obtain hlt | rfl | hlt := lt_trichotomy m n
      · exact absurd heq (hne m n hlt hm hn)
      · rfl
      · exact absurd heq.symm (hne n m hlt hn hm)
    · exact ⟨(hproposal n now happlied).1, (hproposal n now happlied).2.1⟩
    · intro m n now now' hlt hm hn
      obtain ⟨hk, ⟨proposed, hproposed, hcooled⟩, hsince⟩ := hproposal n now' hn
      have hafter : m < proposal n := by
        by_contra hle
        exact hsince m now (not_lt.mp hle) hlt hm
      have hle : now ≤ proposed := hordered.le hafter hm.1 hproposed.1 rfl rfl
      omega
    · exact h n now happlied.1 (AmendmentTracker.apply_iff.mp happlied.2)

/-- An amendment that is proposed and applied in `Normal`. -/
theorem cooled_amendment_sound :
    Sound ⟨.normal, .new⟩ [.propose 0, .apply amendmentCoolingTicks] := by
  refine (amendments_sound_iff .normal _ ?_).mpr fun n now _ _ => ?_
  · simp [Ordered, Call.now]
  · obtain _ | _ | n := n <;> simp [stateAt, step]

/-- An amendment is applied in `Lockdown`. -/
theorem applied_in_lockdown :
    AppliedAt ⟨.normal, .new⟩ [.propose 0, .safety .lockdown, .apply amendmentCoolingTicks] 2
        amendmentCoolingTicks ∧
      ¬ Sound ⟨.normal, .new⟩
        [.propose 0, .safety .lockdown, .apply amendmentCoolingTicks] := by
  have happlied : AppliedAt ⟨.normal, .new⟩
      [.propose 0, .safety .lockdown, .apply amendmentCoolingTicks] 2 amendmentCoolingTicks :=
    ⟨rfl, by decide⟩
  refine ⟨happlied, fun h => ?_⟩
  exact absurd (h.normal 2 amendmentCoolingTicks happlied) (by decide)

end Amendments

end Fabric
