/-
Escalation of crashes.

A supervisor whose children crash too often is terminated, and its own supervisor answers for
it as for a crashed child.  On a supervision tree this runs up the chain of supervisors, along
which process ids fall, until one is within its restart intensity or Butler has ended too.
Whether a supervisor is within its intensity can be read before the crash, for the chain has
no supervisor twice: the answer to a crash is to end the supervisors up to the first that is
within its intensity, and to let that one apply its strategy (`crash_eq`).

Each supervisor's record of restarts is a limiter that logs its attempts (`SlidingWindow`);
over a run it is that limiter on the ticks at which children of the supervisor have crashed
(`run_logged`).
-/
import FabricOS.Lifecycle
import FabricOS.SlidingWindow
import Mathlib.Data.List.TakeWhile

open Machine List Option Nat

namespace Fabric.ProcessSystem

variable {s s' : ProcessSystem} {p q pid : ProcessId} {now fuel : ℕ}

/-! ### The chain of supervisors -/

/-- The supervisors from a process id up, as far as there are any. -/
def supervisors : ℕ → ProcessSystem → ProcessId → List ProcessId
  | 0, _, _ => []
  | fuel + 1, s, p =>
    match s.linksOf p with
    | some l => p :: supervisors fuel s l.supervisor
    | none => []

def chain (s : ProcessSystem) (p : ProcessId) : List ProcessId := supervisors (escalationFuel p) s p

/-- One more crash is more than the restart intensity of a supervisor allows. -/
def exceeds (s : ProcessSystem) (now : ℕ) (p : ProcessId) : Bool :=
  match s.table.get p with
  | some sup => (sup.restartTracker.recordRestart now).2
  | none => false

lemma supervisors_some {l : Links} (hl : s.linksOf p = some l) :
    supervisors (fuel + 1) s p = p :: supervisors fuel s l.supervisor := by rw [supervisors, hl]

lemma supervisors_none (hl : s.linksOf p = none) : supervisors fuel s p = [] := by
  cases fuel with
  | zero => rfl
  | succ fuel => rw [supervisors, hl]

lemma supervisors_congr (h : ∀ q, s'.linksOf q = s.linksOf q) (fuel : ℕ) (p : ProcessId) :
    supervisors fuel s' p = supervisors fuel s p := by
  induction fuel generalizing p with
  | zero => rfl
  | succ fuel ih =>
    cases hl : s.linksOf p with
    | none => rw [supervisors_none hl, supervisors_none ((h p).trans hl)]
    | some l => rw [supervisors_some hl, supervisors_some ((h p).trans hl), ih]

lemma supervisors_eq_chain (htree : Tree s.linksOf s.table.nextPid) (hfuel : p.toNat < fuel) :
    supervisors fuel s p = s.chain p := by
  -- one step more changes nothing, for the chain has ended before
  have hmore : ∀ n p, p.toNat < n → supervisors (n + 1) s p = supervisors n s p := by
    intro n
    induction n with
    | zero => exact fun p hp => absurd hp (not_lt_zero _)
    | succ n ih =>
      intro p hp
      cases hl : s.linksOf p with
      | none => rw [supervisors_none hl, supervisors_none hl]
      | some l =>
        have hlt := htree.supervisor_lt p l hl
        rw [supervisors_some hl, supervisors_some hl, ih l.supervisor (by omega)]
  induction fuel with
  | zero => exact absurd hfuel (not_lt_zero _)
  | succ fuel ih =>
    by_cases hlt : p.toNat < fuel
    · rw [hmore fuel p hlt, ih hlt]
    · have hsame : fuel = p.toNat := by omega
      rw [hsame]
      rfl

lemma lt_of_mem_supervisors (htree : Tree s.linksOf s.table.nextPid)
    (h : q ∈ supervisors fuel s p) : q.toNat ≤ p.toNat ∧ ∃ l, s.linksOf q = some l := by
  induction fuel generalizing p with
  | zero => exact absurd h (not_mem_nil)
  | succ fuel ih =>
    cases hl : s.linksOf p with
    | none =>
      rw [supervisors_none hl] at h
      exact absurd h (not_mem_nil)
    | some l =>
      rw [supervisors_some hl] at h
      rcases mem_cons.mp h with rfl | h
      · exact ⟨le_rfl, l, hl⟩
      · obtain ⟨hle, hfound⟩ := ih h
        exact ⟨(hle.trans_lt (htree.supervisor_lt p l hl)).le, hfound⟩

lemma nodup_supervisors (htree : Tree s.linksOf s.table.nextPid) (fuel : ℕ) (p : ProcessId) :
    (supervisors fuel s p).Nodup := by
  induction fuel generalizing p with
  | zero => exact .nil
  | succ fuel ih =>
    cases hl : s.linksOf p with
    | none =>
      rw [supervisors_none hl]
      exact .nil
    | some l =>
      rw [supervisors_some hl]
      refine nodup_cons.mpr ⟨fun hmem => ?_, ih _⟩
      have hle := (lt_of_mem_supervisors htree hmem).1
      have hlt := htree.supervisor_lt p l hl
      omega

/-! ### The answer to a crash -/

def note (now : ℕ) (s : ProcessSystem) (p : ProcessId) : ProcessSystem :=
  match s.table.get p with
  | some sup => s.modify p fun sup' =>
      { sup' with restartTracker := (sup.restartTracker.recordRestart now).1 }
  | none => s

def overrun (now : ℕ) (s : ProcessSystem) (p : ProcessId) : ProcessSystem :=
  (note now s p).stop p .intensityExceeded

/-- A supervisor notes a crash and answers it by its strategy. -/
def respond (now : ℕ) (s : ProcessSystem) (p crashed : ProcessId) : ProcessSystem :=
  match s.table.get p with
  | some sup => ((note now s p).applyStrategy sup crashed now).1
  | none => s

/-- The answer to a crash, along a chain of supervisors. -/
def climb (now : ℕ) : ProcessSystem → List ProcessId → ProcessId → ProcessSystem
  | s, [], _ => s
  | s, p :: ps, crashed =>
    if s.exceeds now p then climb now (overrun now s p) ps p else respond now s p crashed

lemma leaves_note (h : Leaves (·.links) s s') : Leaves (·.links) s (note now s' p) := by
  unfold note
  split
  · exact leaves_record h _
  · exact h

lemma leaves_overrun (h : Leaves (·.links) s s') : Leaves (·.links) s (overrun now s' p) :=
  (leaves_note h).trans ((leaves_stop (.refl _)).comp Prod.fst)

lemma leaves_respond (s : ProcessSystem) (p crashed : ProcessId) :
    Leaves (·.supervision) (note now s p) (respond now s p crashed) := by
  unfold respond
  cases hsup : s.table.get p with
  | none =>
    rw [note, hsup]
    exact .refl s
  | some sup => exact leaves_applyStrategy (.refl _)

lemma handleChildCrash_eq {crashed : ProcessId} (htree : Tree s.linksOf s.table.nextPid)
    (hfuel : supervisor.toNat < fuel) :
    ∃ result, handleChildCrash now fuel s supervisor crashed =
      .ok (climb now s (supervisors fuel s supervisor) crashed, result) := by
  induction fuel generalizing s supervisor crashed with
  | zero => exact absurd hfuel (not_lt_zero _)
  | succ fuel ih =>
    unfold handleChildCrash
    cases hsup : s.table.get supervisor with
    | none =>
      have hl : s.linksOf supervisor = none := by rw [linksOf, hsup]; rfl
      rw [supervisors_none hl]
      exact ⟨_, rfl⟩
    | some sup =>
      have hl : s.linksOf supervisor = some sup.links := by rw [linksOf, hsup]; rfl
      have hexceeds : s.exceeds now supervisor = (sup.restartTracker.recordRestart now).2 := by
        rw [exceeds, hsup]
      have hnote : note now s supervisor = s.modify supervisor fun sup' =>
          { sup' with restartTracker := (sup.restartTracker.recordRestart now).1 } := by
        rw [note, hsup]
      rw [supervisors_some hl, climb, hexceeds]
      simp only []
      rw [← hnote]
      split_ifs with hover hroot
      · -- the supervisor ends, and the rest of the chain is that of its own supervisor
        have hkept : Leaves (·.links) s (overrun now s supervisor) := leaves_overrun (.refl s)
        have hchain : supervisors fuel (overrun now s supervisor) sup.links.supervisor =
            supervisors fuel s sup.links.supervisor := supervisors_congr hkept.part fuel _
        have hlt := htree.supervisor_lt supervisor sup.links hl
        obtain ⟨result, hresult⟩ := @ih _ sup.links.supervisor supervisor (htree.leaves hkept)
          (by omega)
        rw [hchain] at hresult
        refine ⟨.error .intensityExceeded, ?_⟩
        rw [show (note now s supervisor).stop supervisor .intensityExceeded =
          overrun now s supervisor from rfl, show sup.supervisor = sup.links.supervisor from rfl,
          hresult]
        rfl
      · have hroot : sup.links.supervisor = .kernel := not_not.mp hroot
        rw [hroot, supervisors_none htree.kernel]
        exact ⟨_, rfl⟩
      · rw [respond, hsup]
        exact ⟨_, rfl⟩

def overran (now : ℕ) (sup : ProcessControlBlock) : ProcessControlBlock :=
  { sup.ended .intensityExceeded with
    restartTracker := (sup.restartTracker.recordRestart now).1 }

lemma get_note : (note now s p).table.get q = if q = p then (s.table.get q).map fun sup =>
    { sup with restartTracker := (sup.restartTracker.recordRestart now).1 }
    else s.table.get q := by
  unfold note
  cases hsup : s.table.get p with
  | none =>
    split_ifs with hq
    · rw [hq, hsup]; rfl
    · rfl
  | some sup =>
    refine ProcessTable.get_modify.trans ?_
    split_ifs with hq
    · rw [hq, hsup]; rfl
    · rfl

lemma get_overrun : (overrun now s p).table.get q =
    if q = p then (s.table.get q).map (overran now) else s.table.get q := by
  unfold overrun
  rw [get_stop, get_note]
  split_ifs
  · rw [Option.map_map]; rfl
  · rfl

lemma get_foldl_overrun {ended : List ProcessId} (hnodup : ended.Nodup) :
    (ended.foldl (overrun now) s).table.get q =
      if q ∈ ended then (s.table.get q).map (overran now) else s.table.get q := by
  induction ended generalizing s with
  | nil => simp
  | cons p ended ih =>
    obtain ⟨hp, hnodup⟩ := nodup_cons.mp hnodup
    rw [foldl_cons, ih hnodup, get_overrun]
    by_cases hq : q = p
    · subst hq
      simp [hp]
    · simp [hq]

lemma climb_eq {ends : ProcessId → Bool} {ps : List ProcessId} {crashed : ProcessId}
    (hnodup : ps.Nodup) (hends : ∀ q ∈ ps, s.exceeds now q = ends q) :
    climb now s ps crashed =
      match (ps.dropWhile ends).head? with
      | some p => respond now ((ps.takeWhile ends).foldl (overrun now) s) p
          ((ps.takeWhile ends).getLast?.getD crashed)
      | none => (ps.takeWhile ends).foldl (overrun now) s := by
  induction ps generalizing s crashed with
  | nil => rfl
  | cons p ps ih =>
    -- `p` does not occur again, so that its end is not seen further up
    obtain ⟨hp, hnodup⟩ := nodup_cons.mp hnodup
    rw [climb, hends p mem_cons_self]
    cases hpo : ends p with
    | false => simp [hpo]
    | true =>
      have hrest : ∀ q ∈ ps, (overrun now s p).exceeds now q = ends q := by
        intro q hq
        have hne : q ≠ p := fun heq => hp (heq ▸ hq)
        rw [exceeds, get_overrun, if_neg hne]
        exact hends q (mem_cons_of_mem _ hq)
      rw [if_pos rfl, ih hnodup hrest, dropWhile_cons_of_pos hpo,
        takeWhile_cons_of_pos hpo, foldl_cons, getLast?_cons, getD_some]

/-- The supervisors that end for a crash under a supervisor. -/
def overruns (s : ProcessSystem) (supervisor : ProcessId) : List ProcessId :=
  (s.chain supervisor).takeWhile (s.exceeds s.sched.currentTick)

/-- The supervisor at which the escalation of a crash stops. -/
def responder (s : ProcessSystem) (supervisor : ProcessId) : Option ProcessId :=
  ((s.chain supervisor).dropWhile (s.exceeds s.sched.currentTick)).head?

/-- The state after the crash of `pid`, when the supervisors that are to end have ended. -/
def overrunState (s : ProcessSystem) (pid supervisor : ProcessId) : ProcessSystem :=
  (s.overruns supervisor).foldl (overrun s.sched.currentTick) (s.stop pid .crash)

/-- The state after the crash of `pid` has been answered. -/
def answeredState (s : ProcessSystem) (pid supervisor : ProcessId) : ProcessSystem :=
  match s.responder supervisor with
  | some p => respond s.sched.currentTick (s.overrunState pid supervisor) p
      ((s.overruns supervisor).getLast?.getD pid)
  | none => s.overrunState pid supervisor

lemma exceeds_stop (reason : ExitReason) : (s.stop p reason).exceeds now q = s.exceeds now q := by
  rw [exceeds, exceeds, get_stop]
  by_cases hq : q = p
  · rw [if_pos hq]
    cases s.table.get q <;> rfl
  · rw [if_neg hq]

/-- **A crash is answered**: the supervisors end that exceed their intensity, up to the first
that does not, and that one applies its strategy. -/
theorem crash_eq {pcb : ProcessControlBlock} (htree : Tree s.linksOf s.table.nextPid)
    (hpcb : s.table.get pid = some pcb) :
    s.crash pid = .ok (s.answeredState pid pcb.supervisor, .ok ()) := by
  have hleaves : Leaves (·.links) s (s.stop pid .crash) := (leaves_stop (.refl s)).comp Prod.fst
  obtain ⟨result, hhandled⟩ := @handleChildCrash_eq (s.stop pid .crash) s.sched.currentTick
    (escalationFuel pcb.supervisor) pcb.supervisor pid (htree.leaves hleaves) (lt_succ_self _)
  have hclimb : climb s.sched.currentTick (s.stop pid .crash)
      (supervisors (escalationFuel pcb.supervisor) (s.stop pid .crash) pcb.supervisor) pid =
      s.answeredState pid pcb.supervisor := by
    rw [supervisors_congr hleaves.part]
    exact climb_eq (nodup_supervisors htree _ _) fun q _ => exceeds_stop .crash
  unfold crash
  simp only [hpcb]
  rw [show (s.stop pid .crash).sched.currentTick = s.sched.currentTick from rfl, hhandled, hclimb]
  rfl

/-! ### Who takes part -/

def noted (s : ProcessSystem) (supervisor : ProcessId) : List ProcessId :=
  s.overruns supervisor ++ (s.responder supervisor).toList

/-- The processes that the crash of `pid` restarts. -/
def restartedFor (s : ProcessSystem) (pid supervisor : ProcessId) : List ProcessId :=
  match s.responder supervisor with
  | some p =>
    match (s.overrunState pid supervisor).table.get p with
    | some sup => (note s.sched.currentTick (s.overrunState pid supervisor) p).restartedBy sup
        ((s.overruns supervisor).getLast?.getD pid)
    | none => []
  | none => []

lemma chain_eq (s : ProcessSystem) (supervisor : ProcessId) :
    ∃ above, s.chain supervisor = s.noted supervisor ++ above := by
  refine ⟨((s.chain supervisor).dropWhile (s.exceeds s.sched.currentTick)).tail, ?_⟩
  rw [noted, append_assoc, responder, overruns]
  conv_lhs => rw [← takeWhile_append_dropWhile (p := s.exceeds s.sched.currentTick)
    (l := s.chain supervisor)]
  cases (s.chain supervisor).dropWhile (s.exceeds s.sched.currentTick) <;> rfl

lemma nodup_noted (htree : Tree s.linksOf s.table.nextPid) (supervisor : ProcessId) :
    (s.noted supervisor).Nodup := by
  obtain ⟨above, hchain⟩ := s.chain_eq supervisor
  have hnodup : (s.chain supervisor).Nodup := nodup_supervisors htree _ _
  rw [hchain] at hnodup
  exact hnodup.sublist (sublist_append_left _ _)

variable {supervisor : ProcessId}

lemma get_of_mem_noted (htree : Tree s.linksOf s.table.nextPid)
    (hp : p ∈ s.noted supervisor) : ∃ sup, s.table.get p = some sup := by
  obtain ⟨above, hchain⟩ := s.chain_eq supervisor
  have hmem : p ∈ s.chain supervisor := hchain ▸ mem_append_left _ hp
  obtain ⟨-, l, hl⟩ := lt_of_mem_supervisors htree hmem
  obtain ⟨sup, hsup, -⟩ := map_eq_some_iff.mp hl
  exact ⟨sup, hsup⟩

lemma exceeds_of_mem_overruns (hp : p ∈ s.overruns supervisor) :
    s.exceeds s.sched.currentTick p = true := mem_takeWhile_imp hp

lemma within_of_responder (hp : s.responder supervisor = some p) :
    s.exceeds s.sched.currentTick p = false := by
  have hhead := head?_dropWhile_not (s.exceeds s.sched.currentTick) (s.chain supervisor)
  rw [show ((s.chain supervisor).dropWhile (s.exceeds s.sched.currentTick)).head? = some p
    from hp] at hhead
  simpa using hhead

lemma getLast?_supervisors (htree : Tree s.linksOf s.table.nextPid) {l : Links}
    (hl : s.linksOf p = some l) (hfuel : p.toNat < fuel) :
    (supervisors fuel s p).getLast? = some .butler := by
  induction fuel generalizing p l with
  | zero => exact absurd hfuel (not_lt_zero _)
  | succ fuel ih =>
    rw [supervisors_some hl, getLast?_cons]
    by_cases hp : p = .butler
    · obtain ⟨lb, hlb, hroot⟩ := htree.butler
      cases hlb.symm.trans (hp ▸ hl)
      rw [hroot, supervisors_none htree.kernel, hp]
      rfl
    · obtain ⟨sup, hsup⟩ := htree.supervised p l hl hp
      have hlt := htree.supervisor_lt p l hl
      rw [ih hsup (by omega)]
      rfl

/-! ### What changes -/

section Answer

variable {supervisor : ProcessId}

lemma get_overrunState (htree : Tree s.linksOf s.table.nextPid) :
    (s.overrunState pid supervisor).table.get q = (s.table.get q).map fun a =>
      let a := if q = pid then a.ended .crash else a
      if q ∈ s.overruns supervisor then overran s.sched.currentTick a else a := by
  have hnodup := (nodup_noted htree supervisor).sublist (sublist_append_left _ _)
  rw [overrunState, get_foldl_overrun hnodup, get_stop]
  cases s.table.get q with
  | none => simp
  | some a => split_ifs <;> rfl

lemma leaves_overrunState : Leaves (·.links) s (s.overrunState pid supervisor) :=
  foldlRecOn (motive := Leaves (·.links) s) _ _ ((leaves_stop (.refl s)).comp Prod.fst)
    fun _ h _ _ => leaves_overrun h

lemma get_answeredState : ((s.answeredState pid supervisor).table.get q).map (·.untracked) =
    ((s.overrunState pid supervisor).table.get q).map fun a =>
      (if q ∈ s.restartedFor pid supervisor then a.resetForRestart s.sched.currentTick
        else a).untracked := by
  unfold answeredState restartedFor respond
  cases s.responder supervisor with
  | none => simp
  | some p =>
    cases hsup : (s.overrunState pid supervisor).table.get p with
    | none => simp [hsup]
    | some sup =>
      simp only [hsup, get_applyStrategy, get_note]
      split_ifs <;> simp [Option.map_map, Function.comp_def, ProcessControlBlock.untracked,
        ProcessControlBlock.resetForRestart]

lemma tracker_answeredState (htree : Tree s.linksOf s.table.nextPid) :
    ((s.answeredState pid supervisor).table.get q).map (·.restartTracker) =
      (s.table.get q).map fun a =>
        if q ∈ s.noted supervisor then (a.restartTracker.recordRestart s.sched.currentTick).1
        else a.restartTracker := by
  -- those that have ended have noted the crash before
  have hended : ((s.overrunState pid supervisor).table.get q).map (·.restartTracker) =
      (s.table.get q).map fun a => if q ∈ s.overruns supervisor then
        (a.restartTracker.recordRestart s.sched.currentTick).1 else a.restartTracker := by
    rw [get_overrunState htree, Option.map_map]
    split_ifs <;> rfl
  unfold answeredState noted
  cases hp : s.responder supervisor with
  | none => simpa using hended
  | some p =>
    -- the one that answers is not among those that have ended
    have hnodup := nodup_noted htree supervisor
    rw [noted, hp] at hnodup
    have hnot : p ∉ s.overruns supervisor := fun hmem =>
      disjoint_of_nodup_append hnodup hmem (by simp)
    refine (((leaves_respond _ p _).comp Prod.snd).part q).trans ?_
    show ((note s.sched.currentTick (s.overrunState pid supervisor) p).table.get q).map
      (·.restartTracker) = _
    rw [get_note]
    by_cases hq : q = p
    · subst hq
      have hsame := congrArg (Option.map fun r : RestartTracker =>
        (r.recordRestart s.sched.currentTick).1) hended
      simpa [hnot, Function.comp_def] using hsame
    · rw [if_neg hq, hended]
      simp [hq]

lemma restartedFor_scope {c : ProcessId} (hc : c ∈ s.restartedFor pid supervisor) :
    ∃ p sup, s.responder supervisor = some p ∧ s.table.get p = some sup ∧
      (c ∈ sup.children ∨ c = (s.overruns supervisor).getLast?.getD pid) := by
  unfold restartedFor at hc
  cases hp : s.responder supervisor with
  | none => simp [hp] at hc
  | some p =>
    cases hsup' : (s.overrunState pid supervisor).table.get p with
    | none => simp [hp, hsup'] at hc
    | some sup' =>
      simp only [hp, hsup'] at hc
      -- the children it has then are those it had before the crash
      obtain ⟨sup, hsup, hlinks⟩ := leaves_overrunState.back hsup'
      have hchildren : sup.children = sup'.children := congrArg (·.children) hlinks
      refine ⟨p, sup, rfl, hsup, ?_⟩
      rw [hchildren]
      unfold restartedBy at hc
      split at hc
      · exact .inr (mem_singleton.mp hc)
      · exact .inl hc
      · exact .inl (mem_of_mem_filter hc)

/-- How far the crash of a process under a supervisor reaches. -/
structure Escalated (s : ProcessSystem) (pid supervisor : ProcessId) (s' : ProcessSystem) :
    Prop where
  /-- The supervisors that end and the one that answers are the first of the chain to Butler. -/
  chain : ∃ above, s.chain supervisor =
    s.overruns supervisor ++ (s.responder supervisor).toList ++ above
  butler : pid ≠ .butler → (s.chain supervisor).getLast? = some .butler
  /-- If none answers, then all have ended. -/
  top : s.responder supervisor = none → s.overruns supervisor = s.chain supervisor
  exceeded : ∀ p ∈ s.overruns supervisor, s.exceeds s.sched.currentTick p = true
  within : ∀ p, s.responder supervisor = some p → s.exceeds s.sched.currentTick p = false
  /-- The supervisors that have exceeded their intensity end, and then the crash is answered. -/
  ended : ∀ p ∈ s.overruns supervisor, ∃ sup, (s.overrunState pid supervisor).table.get p =
    some sup ∧ sup.state = .terminated ∧ sup.exitReason = some .intensityExceeded
  answer : s' = s.answeredState pid supervisor
  /-- They stay so, unless the one that answers restarts them. -/
  remain : ∀ p ∈ s.overruns supervisor, p ∉ s.restartedFor pid supervisor →
    ∃ sup, s'.table.get p = some sup ∧
      sup.state = .terminated ∧ sup.exitReason = some .intensityExceeded
  /-- It restarts children of its own, or the process for which it answers. -/
  restarted : ∀ c ∈ s.restartedFor pid supervisor, ∃ p sup, s.responder supervisor = some p ∧
    s.table.get p = some sup ∧
      (c ∈ sup.children ∨ c = (s.overruns supervisor).getLast?.getD pid)
  untouched : ∀ q, q ≠ pid → q ∉ s.overruns supervisor → q ∉ s.restartedFor pid supervisor →
    (s'.table.get q).map (·.untracked) = (s.table.get q).map (·.untracked)

lemma escalated {pcb : ProcessControlBlock} (htree : Tree s.linksOf s.table.nextPid)
    (hpcb : s.table.get pid = some pcb) :
    Escalated s pid pcb.supervisor (s.answeredState pid pcb.supervisor) where
  chain := s.chain_eq pcb.supervisor
  butler hne := by
    have hl : s.linksOf pid = some pcb.links := by rw [linksOf, hpcb]; rfl
    obtain ⟨sup, hsup⟩ := htree.supervised pid _ hl hne
    exact getLast?_supervisors htree hsup (lt_succ_self _)
  top hnone := by
    have hnil := head?_eq_none_iff.mp hnone
    have hsplit := takeWhile_append_dropWhile (p := s.exceeds s.sched.currentTick)
      (l := s.chain pcb.supervisor)
    rwa [hnil, append_nil] at hsplit
  exceeded _ := exceeds_of_mem_overruns
  within _ := within_of_responder
  ended p hp := by
    obtain ⟨a, ha⟩ := get_of_mem_noted htree (mem_append_left _ hp)
    rw [get_overrunState htree, ha, map_some]
    simp only [hp, if_true]
    exact ⟨_, rfl, rfl, rfl⟩
  answer := rfl
  remain p hp hrestarted := by
    obtain ⟨a, ha⟩ := get_of_mem_noted htree (mem_append_left _ hp)
    have hget := @get_answeredState s p pid pcb.supervisor
    rw [get_overrunState htree, ha, map_some, map_some] at hget
    obtain ⟨sup, hsup, hsame⟩ := map_eq_some_iff.mp hget
    simp only [hrestarted, hp, if_false, if_true] at hsame
    exact ⟨sup, hsup, congrArg (·.state) hsame, congrArg (·.exitReason) hsame⟩
  restarted _ := restartedFor_scope
  untouched q hne hended hrestarted := by
    rw [get_answeredState, get_overrunState htree]
    simp [hne, hended, hrestarted]

end Answer

/-! ### The record of restarts -/

/-- The supervisor under which a process crashes in an event. -/
def crashedUnder (ev : Event ProcessSystem Call Ans) : Option ProcessId :=
  match ev.input with
  | .op (.crash pid) => (ev.before.table.get pid).map (·.supervisor)
  | _ => none

def Notes (p : ProcessId) (ev : Event ProcessSystem Call Ans) : Prop :=
  ∃ supervisor ∈ crashedUnder ev, p ∈ ev.before.noted supervisor

/-- A supervisor answers a crash by restarting processes. -/
def Answers (p : ProcessId) (ev : Event ProcessSystem Call Ans) : Prop :=
  ∃ supervisor ∈ crashedUnder ev, ev.before.responder supervisor = some p

instance (p : ProcessId) : DecidablePred (Notes p) := fun ev =>
  inferInstanceAs (Decidable (∃ supervisor ∈ crashedUnder ev, p ∈ ev.before.noted supervisor))

instance (p : ProcessId) : DecidablePred (Answers p) := fun ev => inferInstanceAs
  (Decidable (∃ supervisor ∈ crashedUnder ev, ev.before.responder supervisor = some p))

/-- The ticks of those events of a run in which something happens. -/
def ticksOf (P : Event ProcessSystem Call Ans → Prop) [DecidablePred P]
    (evs : List (Event ProcessSystem Call Ans)) : List ℕ :=
  (evs.filter (P ·)).map (·.before.sched.currentTick)

lemma ticksOf_append (P : Event ProcessSystem Call Ans → Prop) [DecidablePred P]
    (evs : List (Event ProcessSystem Call Ans)) (ev : Event ProcessSystem Call Ans) :
    ticksOf P (evs ++ [ev]) =
      ticksOf P evs ++ if P ev then [ev.before.sched.currentTick] else [] := by
  unfold ticksOf
  split_ifs with hev <;> simp [hev]

variable {c : Call} {ans : Ans}

lemma call_tick (h : s.call c = .ok (s', ans)) : s.sched.currentTick ≤ s'.sched.currentTick := by
  cases call_cases h with
  | spawn _ _ _ hspawn => exact (spawn_links hspawn).1.ge
  | terminate pid =>
    cases hpcb : s.table.get pid with
    | none => rw [terminate, hpcb]
    | some pcb => exact (terminate_eq hpcb).symm ▸ le_rfl
  | crash hcrash => exact (leaves_crash hcrash).tick
  | other hleaves _ _ => exact hleaves.tick

variable {evs : List (Event ProcessSystem Call Ans)}

lemma run_ticks (h : Run call init evs s) :
    (evs.map (·.before.sched.currentTick)).Pairwise (· ≤ ·) ∧
      ∀ t ∈ evs.map (·.before.sched.currentTick), t ≤ s.sched.currentTick := by
  induction h with
  | nil => exact ⟨.nil, by simp⟩
  | @snoc evs s s' c ans hrun hcall ih =>
    have htick := call_tick hcall
    rw [map_append]
    refine ⟨pairwise_append.mpr ⟨ih.1, pairwise_singleton _ _, ?_⟩, ?_⟩
    · intro t ht t' ht'
      rw [mem_singleton.mp ht']
      exact ih.2 t ht
    intro t ht
    rcases mem_append.mp ht with ht | ht
    · exact (ih.2 t ht).trans htick
    · rw [mem_singleton.mp ht]
      exact htick

lemma answers_iff {ev : Event ProcessSystem Call Ans} :
    Answers p ev ↔ Notes p ev ∧ ev.before.exceeds ev.before.sched.currentTick p = false := by
  constructor
  · rintro ⟨supervisor, hcrashed, hp⟩
    refine ⟨⟨supervisor, hcrashed, mem_append_right _ ?_⟩, within_of_responder hp⟩
    rw [hp]
    exact mem_singleton.mpr rfl
  · rintro ⟨⟨supervisor, hcrashed, hp⟩, hwithin⟩
    refine ⟨supervisor, hcrashed, ?_⟩
    rcases mem_append.mp hp with hp | hp
    · exact absurd (exceeds_of_mem_overruns hp) (by simp [hwithin])
    · exact mem_toList.mp hp

lemma not_notes (hcrash : ∀ pid, c ≠ .op (.crash pid)) : ¬ Notes p ⟨s, c, ans⟩ := by
  rintro ⟨supervisor, hcrashed, -⟩
  unfold crashedUnder at hcrashed
  split at hcrashed
  · next heq => exact hcrash _ heq
  · simp at hcrashed

lemma call_trackers (htree : Tree s.linksOf s.table.nextPid) (h : s.call c = .ok (s', ans))
    (p : ProcessId) :
    ((s'.table.get p).map (·.restartTracker) = (s.table.get p).map fun a =>
        if Notes p ⟨s, c, ans⟩ then (a.restartTracker.recordRestart s.sched.currentTick).1
        else a.restartTracker) ∨
      s.table.get p = none ∧ (s'.table.get p).map (·.restartTracker) = some .default := by
  have hquiet : ¬ Notes p ⟨s, c, ans⟩ →
      (s'.table.get p).map (·.restartTracker) = (s.table.get p).map (·.restartTracker) →
      (s'.table.get p).map (·.restartTracker) = (s.table.get p).map fun a =>
        if Notes p ⟨s, c, ans⟩ then (a.restartTracker.recordRestart s.sched.currentTick).1
        else a.restartTracker := by
    intro hnot hsame
    simp only [hnot, if_false]
    exact hsame
  cases call_cases h with
  | spawn supervisor intent strategy hspawn =>
    obtain ⟨-, ⟨e, rfl, hsame, -⟩ | ⟨sup, rfl, -, -, hsup, hfresh, hget⟩⟩ := spawn_links hspawn
    · exact .inl (hquiet (not_notes (by simp)) (congrArg (Option.map _) (hsame p)))
    by_cases hnew : p = s.table.nextPid
    · refine .inr ⟨hnew ▸ hfresh, ?_⟩
      rw [hget, if_pos hnew]
      rfl
    refine .inl (hquiet (not_notes (by simp)) ?_)
    rw [hget, if_neg hnew]
    split_ifs with hp
    · rw [hp, hsup]; rfl
    · rfl
  | terminate pid =>
    refine .inl (hquiet (not_notes (by simp)) ?_)
    cases hpcb : s.table.get pid with
    | none => rw [terminate, hpcb]
    | some pcb =>
      rw [terminate_eq hpcb]
      have hstop : Leaves (·.restartTracker) s (s.stop pid .normal) :=
        (leaves_stop (.refl s)).comp Prod.snd
      exact (hstop.modify fun _ => by rfl).part p
  | @crash pid result s' hcrash =>
    refine .inl ?_
    cases hpcb : s.table.get pid with
    | none =>
      have hnot : ¬ Notes p ⟨s, .op (.crash pid), .done result⟩ := by
        rintro ⟨supervisor, hcrashed, -⟩
        simp [crashedUnder, hpcb] at hcrashed
      unfold crash at hcrash
      simp only [hpcb, Exec.ok.injEq, Prod.mk.injEq] at hcrash
      exact hquiet hnot (by rw [hcrash.1])
    | some pcb =>
      have hnotes : Notes p ⟨s, .op (.crash pid), .done result⟩ ↔ p ∈ s.noted pcb.supervisor := by
        simp [Notes, crashedUnder, hpcb]
      rw [crash_eq htree hpcb] at hcrash
      cases hcrash
      simp only [hnotes]
      exact tracker_answeredState htree
  | other hleaves _ hcrash =>
    exact .inl (hquiet (not_notes hcrash) ((hleaves.comp Prod.snd).part p))

/-- A record of restarts is the log of a limiter. -/
structure Logged (r : RestartTracker) (noted answered : List ℕ) : Prop where
  log : r.restartTimestamps = SlidingWindow.after r.windowTicks [] noted
  answered : answered = SlidingWindow.accepted r.maxRestarts r.windowTicks [] noted

lemma Logged.record {r : RestartTracker} {noted answered : List ℕ} (h : Logged r noted answered)
    (now : ℕ) : Logged (r.recordRestart now).1 (noted ++ [now])
      (answered ++ if (r.recordRestart now).2 = false then [now] else []) where
  log := by
    rw [SlidingWindow.after_append]
    exact congrArg (SlidingWindow.record r.windowTicks now) h.log
  answered := by
    have hlen : (r.recordRestart now).2 = false ↔
        (SlidingWindow.record r.windowTicks now (SlidingWindow.after r.windowTicks [] noted)).length
          ≤ r.maxRestarts := by
      rw [← h.log]
      simp [RestartTracker.recordRestart, SlidingWindow.record]
    rw [h.answered]
    refine Eq.trans ?_ (SlidingWindow.accepted_append [] noted now).symm
    simp only [hlen]
    rfl

lemma ticksOf_of_not_notes {ev : Event ProcessSystem Call Ans} (hnot : ¬ Notes p ev)
    (evs : List (Event ProcessSystem Call Ans)) :
    ticksOf (Notes p) (evs ++ [ev]) = ticksOf (Notes p) evs ∧
      ticksOf (Answers p) (evs ++ [ev]) = ticksOf (Answers p) evs := by
  have hnot' : ¬ Answers p ev := fun hanswers => hnot (answers_iff.mp hanswers).1
  rw [ticksOf_append, ticksOf_append, if_neg hnot, if_neg hnot', append_nil, append_nil]
  exact ⟨rfl, rfl⟩

lemma run_logged (h : Run call init evs s) (p : ProcessId) : (∀ a, s.table.get p = some a →
      Logged a.restartTracker (ticksOf (Notes p) evs) (ticksOf (Answers p) evs)) ∧
      (s.table.get p = none → ticksOf (Notes p) evs = [] ∧ ticksOf (Answers p) evs = []) := by
  induction h with
  | nil =>
    refine ⟨fun a ha => ?_, fun _ => ⟨rfl, rfl⟩⟩
    have hl : init.linksOf p = some a.links := by rw [linksOf, ha]; rfl
    rw [(linksOf_init hl).1] at ha
    cases ha
    exact ⟨rfl, rfl⟩
  | @snoc evs s s' c ans hrun hcall ih =>
    have htree : Tree s.linksOf s.table.nextPid := CallReachable.tree hrun.reachable
    -- nobody notes a crash who is not there
    have habsent : s.table.get p = none → ¬ Notes p ⟨s, c, ans⟩ := by
      rintro hnone ⟨supervisor, -, hp⟩
      obtain ⟨a, ha⟩ := get_of_mem_noted htree hp
      cases hnone.symm.trans ha
    rcases call_trackers htree hcall p with hkept | ⟨hnone, hnew⟩
    · cases ha : s.table.get p with
      | none =>
        obtain ⟨hnotes, hanswers⟩ := ticksOf_of_not_notes (habsent ha) evs
        rw [ha, map_none, map_eq_none_iff] at hkept
        refine ⟨fun b hb => absurd (hkept.symm.trans hb) (by simp), fun _ => ?_⟩
        rw [hnotes, hanswers]
        exact ih.2 ha
      | some a =>
        rw [ha, map_some] at hkept
        obtain ⟨b, hb, htracker⟩ := map_eq_some_iff.mp hkept
        refine ⟨fun b' hb' => ?_, fun hnone => absurd (hb.symm.trans hnone) (by simp)⟩
        cases hb.symm.trans hb'
        rw [htracker]
        by_cases hnotes : Notes p ⟨s, c, ans⟩
        · -- the attempt is answered if the log it has then is not too long
          have hexceeds : s.exceeds s.sched.currentTick p =
              (a.restartTracker.recordRestart s.sched.currentTick).2 := by rw [exceeds, ha]
          rw [ticksOf_append, ticksOf_append, if_pos hnotes, if_pos hnotes]
          simp only [answers_iff, hnotes, true_and, hexceeds]
          exact (ih.1 a ha).record s.sched.currentTick
        · obtain ⟨hsame, hsame'⟩ := ticksOf_of_not_notes hnotes evs
          rw [if_neg hnotes, hsame, hsame']
          exact ih.1 a ha
    · -- a process that is spawned begins with an empty record
      obtain ⟨hnotes, hanswers⟩ := ticksOf_of_not_notes (habsent hnone) evs
      obtain ⟨b, hb, htracker⟩ := map_eq_some_iff.mp hnew
      refine ⟨fun b' hb' => ?_, fun habs => absurd (hb.symm.trans habs) (by simp)⟩
      cases hb.symm.trans hb'
      rw [htracker, hnotes, hanswers, (ih.2 hnone).1, (ih.2 hnone).2]
      exact ⟨rfl, rfl⟩

/-- **Escalation ends and keeps to its scope.**  In every state of a run a crash is handled, for
every supervisor, with the same outcome for any bound on the depth; the crash of a process
reaches as far as `Escalated` says; and a supervisor answers no more crashes by restarts in
any window of ticks than its intensity allows. -/
theorem crash_escalation {evs : List (Event ProcessSystem Call Ans)} (hrun : Run call init evs s) :
    (∀ supervisor crashed, ∃ s', ∀ fuel, escalationFuel supervisor ≤ fuel → ∃ result,
      handleChildCrash s.sched.currentTick fuel s supervisor crashed = .ok (s', result)) ∧
    (∀ pid pcb, s.table.get pid = some pcb → ∃ s', s.crash pid = .ok (s', .ok ()) ∧
      Escalated s pid pcb.supervisor s') ∧
    ∀ p sup, s.table.get p = some sup → ∀ a, (ticksOf (Answers p) evs).countP
      (fun x => a ≤ x ∧ x < a + sup.restartTracker.windowTicks) ≤
        sup.restartTracker.maxRestarts := by
  have htree : Tree s.linksOf s.table.nextPid := CallReachable.tree hrun.reachable
  refine ⟨fun supervisor crashed => ?_, fun pid pcb hpcb => ?_, fun p sup hsup a => ?_⟩
  · refine ⟨climb s.sched.currentTick s (s.chain supervisor) crashed, fun fuel hfuel => ?_⟩
    have hlt : supervisor.toNat < fuel := hfuel
    rw [← supervisors_eq_chain htree hlt]
    exact handleChildCrash_eq htree hlt
  · exact ⟨_, crash_eq htree hpcb, escalated htree hpcb⟩
  · rw [((run_logged hrun p).1 sup hsup).answered]
    exact SlidingWindow.countP_accepted_window_le
      ((run_ticks hrun).1.sublist (filter_sublist.map _)) a

/-- A supervisor below Butler whose child has crashed as often as is allowed. -/
def crashedOften : List Call :=
  [.op (.spawn .butler .default none), .op (.spawn 2 .default none), .op (.crash 3),
    .op (.crash 3), .op (.crash 3), .op (.crash 3), .op (.crash 3)]

/-- One more crash ends the supervisor, and Butler restarts it. -/
theorem further_crash_escalates : ∃ evs, Run call init evs (final call init crashedOften) ∧
    (final call init crashedOften).overruns 2 = [2] ∧
    (final call init crashedOften).responder 2 = some .butler ∧
    (∃ s', (final call init crashedOften).crash 3 = .ok (s', .ok ()) ∧
      Escalated (final call init crashedOften) 3 2 s') ∧
    (ticksOf (Answers 2) evs).countP (fun x => 0 ≤ x ∧ x < 0 + defaultIntensityWindow) ≤
      defaultMaxRestarts := by
  have hreturns : (run call init crashedOften).returns = true := by decide +kernel
  obtain ⟨evs, hevs, -⟩ := Run.of_returns hreturns
  obtain ⟨-, hcrash, hcount⟩ := crash_escalation hevs
  have hchild : ((final call init crashedOften).table.get 3).map (·.supervisor) = some 2 := by
    decide +kernel
  obtain ⟨pcb, hpcb, hsupervisor⟩ := map_eq_some_iff.mp hchild
  have hsup : ((final call init crashedOften).table.get 2).map (fun sup =>
    (sup.restartTracker.maxRestarts, sup.restartTracker.windowTicks)) =
      some (defaultMaxRestarts, defaultIntensityWindow) := by decide +kernel
  obtain ⟨sup, hsup, hlimits⟩ := map_eq_some_iff.mp hsup
  obtain ⟨hmax, hwindow⟩ := Prod.mk.inj hlimits
  refine ⟨evs, hevs, by decide +kernel, by decide +kernel, hsupervisor ▸ hcrash 3 pcb hpcb, ?_⟩
  have hbound := hcount 2 sup hsup 0
  rwa [hmax, hwindow] at hbound

end Fabric.ProcessSystem
