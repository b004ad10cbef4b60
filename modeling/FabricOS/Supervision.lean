/-
The answer to a crash, seen as a whole (`process/supervisor.rs`).

Handling a crash walks up the supervisors and writes to the table and the run queues as it
goes.  `crashPlan` says beforehand which supervisors end for exceeding their restart intensity
and which processes are restarted; `get_handleChildCrash` says that these are the processes
that change, and how, but for the restart trackers of the supervisors.
-/
import FabricOS.Processes

open Option Exec

namespace Fabric

namespace ProcessControlBlock

def ended (reason : ExitReason) (pcb : ProcessControlBlock) : ProcessControlBlock :=
  { pcb with state := .terminated, exitReason := some reason }

def untracked (pcb : ProcessControlBlock) : ProcessControlBlock :=
  { pcb with restartTracker := .default }

lemma fields_of_untracked {a b : ProcessControlBlock} (h : a.untracked = b.untracked) :
    a.state = b.state ∧ a.blockedOn = b.blockedOn ∧
      a.effectivePriority = b.effectivePriority :=
  ⟨congrArg (·.state) h, congrArg (·.blockedOn) h, congrArg (·.effectivePriority) h⟩

end ProcessControlBlock

/-- The processes that change in the answer to a crash. -/
structure CrashPlan where
  ended : List ProcessId
  restarted : List ProcessId

def CrashPlan.outcome (plan : CrashPlan) (now : ℕ) (q : ProcessId) (pcb : ProcessControlBlock) :
    ProcessControlBlock :=
  if q ∈ plan.restarted then pcb.resetForRestart now
  else if q ∈ plan.ended then pcb.ended .intensityExceeded
  else pcb

namespace CrashPlan

lemma untracked_outcome (plan : CrashPlan) (now : ℕ) (q : ProcessId) (pcb : ProcessControlBlock) :
    (plan.outcome now q pcb).untracked = plan.outcome now q pcb.untracked := by
  unfold outcome
  split_ifs <;> rfl

lemma map_outcome (plan : CrashPlan) {now : ℕ} {q : ProcessId}
    {x y : Option ProcessControlBlock} (h : x.map (·.untracked) = y.map (·.untracked)) :
    x.map (fun pcb => (plan.outcome now q pcb).untracked) =
      y.map fun pcb => (plan.outcome now q pcb).untracked := by
  simpa [untracked_outcome, map_map, Function.comp_def] using
    congrArg (Option.map (plan.outcome now q)) h

lemma outcome_ended (plan : CrashPlan) (now : ℕ) (p : ProcessId) (pcb : ProcessControlBlock) :
    plan.outcome now p (pcb.ended .intensityExceeded) =
      outcome ⟨p :: plan.ended, plan.restarted⟩ now p pcb := by
  unfold outcome
  simp only [List.mem_cons_self, if_true]
  split_ifs <;> rfl

lemma outcome_of_ne (plan : CrashPlan) (now : ℕ) {p q : ProcessId} (h : q ≠ p)
    (pcb : ProcessControlBlock) :
    outcome ⟨p :: plan.ended, plan.restarted⟩ now q pcb = plan.outcome now q pcb := by
  simp [outcome, h]

end CrashPlan

namespace ProcessSystem

/-- The processes that the supervisor's strategy restarts. -/
def restartedBy (s : ProcessSystem) (sup : ProcessControlBlock) (crashedPid : ProcessId) :
    List ProcessId :=
  match sup.strategy with
  | .oneForOne => [crashedPid]
  | .oneForAll => sup.children
  | .restForOne => s.restOf sup.children crashedPid

/-- The supervisors that end and the processes that are restarted for a crash. -/
def crashPlan (now : ℕ) : ℕ → ProcessSystem → (supervisorPid crashedPid : ProcessId) → CrashPlan
  | 0, _, _, _ => ⟨[], []⟩
  | fuel + 1, s, supervisorPid, crashedPid =>
    match s.table.get supervisorPid with
    | none => ⟨[], []⟩
    | some sup =>
      let (tracker, exceeded) := sup.restartTracker.recordRestart now
      let s := s.modify supervisorPid fun sup => { sup with restartTracker := tracker }
      if exceeded then
        if sup.supervisor ≠ ProcessId.kernel then
          let plan := crashPlan now fuel (s.stop supervisorPid .intensityExceeded) sup.supervisor
            supervisorPid
          ⟨supervisorPid :: plan.ended, plan.restarted⟩
        else ⟨[supervisorPid], []⟩
      else ⟨[], s.restartedBy sup crashedPid⟩

variable {s s' : ProcessSystem} {p q : ProcessId}

lemma get_applyStrategy {sup : ProcessControlBlock} {crashed : ProcessId} {now : ℕ} :
    (s.applyStrategy sup crashed now).1.table.get q =
      if q ∈ s.restartedBy sup crashed then (s.table.get q).map (·.resetForRestart now)
      else s.table.get q := by
  unfold applyStrategy restartedBy
  cases sup.strategy with
  | oneForOne => simp only [get_restartProcess, List.mem_singleton]
  | oneForAll | restForOne => simp only [get_restartGroup]

lemma untracked_modify (s : ProcessSystem) (p : ProcessId) (tracker : RestartTracker)
    (q : ProcessId) :
    ((s.modify p fun sup => { sup with restartTracker := tracker }).table.get q).map
      (·.untracked) = (s.table.get q).map (·.untracked) := by
  simp only [modify, ProcessTable.get_modify]
  split_ifs
  · rw [map_map]; rfl
  · rfl

lemma get_handleChildCrash {now fuel : ℕ} {supervisor crashed : ProcessId}
    {result : Except ProcessError ℕ}
    (hcall : handleChildCrash now fuel s supervisor crashed = .ok (s', result)) (q : ProcessId) :
    (s'.table.get q).map (·.untracked) = (s.table.get q).map fun pcb =>
      ((crashPlan now fuel s supervisor crashed).outcome now q pcb).untracked := by
  induction fuel generalizing s s' supervisor crashed result with
  | zero => simp [handleChildCrash] at hcall
  | succ fuel ih =>
    unfold handleChildCrash at hcall
    unfold crashPlan
    cases hsup : s.table.get supervisor with
    | none =>
      simp only [hsup, ok.injEq, Prod.mk.injEq] at hcall
      rw [hcall.1]
      rfl
    | some sup =>
      simp only [hsup] at hcall ⊢
      generalize sup.restartTracker.recordRestart now = recorded at hcall ⊢
      obtain ⟨tracker, exceeded⟩ := recorded
      have htracked := untracked_modify s supervisor tracker q
      split_ifs at hcall ⊢ with hexceeded hroot
      · -- the supervisor ends, and its own supervisor answers for it
        simp only [bind_eq_ok, ok.injEq, Prod.mk.injEq] at hcall
        obtain ⟨⟨s2, result2⟩, hcall, rfl, -⟩ := hcall
        rw [ih hcall, CrashPlan.map_outcome _ htracked.symm, get_stop]
        split_ifs with hq
        · rw [map_map, hq]
          exact congrArg (Option.map · _) (funext fun pcb =>
            congrArg _ (CrashPlan.outcome_ended _ now supervisor pcb))
        · exact congrArg (Option.map · _) (funext fun pcb =>
            congrArg _ (CrashPlan.outcome_of_ne _ now hq pcb).symm)
      · simp only [ok.injEq, Prod.mk.injEq] at hcall
        rw [← hcall.1, CrashPlan.map_outcome _ htracked.symm, get_stop]
        split_ifs with hq
        · rw [map_map, hq]
          simp [Function.comp_def, CrashPlan.outcome, ProcessControlBlock.ended]
        · simp [CrashPlan.outcome, hq]
      · simp only [ok.injEq, Prod.mk.injEq] at hcall
        rw [← hcall.1, CrashPlan.map_outcome _ htracked.symm, get_applyStrategy]
        split_ifs with hq
        · simp [CrashPlan.outcome, hq, map_map, Function.comp_def]
        · simp [CrashPlan.outcome, hq]

def planFor (s : ProcessSystem) (pid : ProcessId) (pcb : ProcessControlBlock) : CrashPlan :=
  crashPlan s.sched.currentTick (escalationFuel pcb.supervisor) (s.stop pid .crash) pcb.supervisor
    pid

/-- A control block when the crash of process `pid` has been answered. -/
def afterCrash (s : ProcessSystem) (pid : ProcessId) (pcb : ProcessControlBlock) (q : ProcessId)
    (a : ProcessControlBlock) : ProcessControlBlock :=
  (s.planFor pid pcb).outcome s.sched.currentTick q (if q = pid then a.ended .crash else a)

section AfterCrash

variable {pid : ProcessId} {pcb a b : ProcessControlBlock} {result : Except ProcessError Unit}

lemma afterCrash_state : (s.afterCrash pid pcb q a).state =
    if q ∈ (s.planFor pid pcb).restarted then .ready
    else if q ∈ (s.planFor pid pcb).ended ∨ q = pid then .terminated else a.state := by
  unfold afterCrash CrashPlan.outcome
  split_ifs <;> first | rfl | tauto

lemma afterCrash_blockedOn : (s.afterCrash pid pcb q a).blockedOn =
    if q ∈ (s.planFor pid pcb).restarted then none else a.blockedOn := by
  unfold afterCrash CrashPlan.outcome
  split_ifs <;> rfl

lemma afterCrash_priority : (s.afterCrash pid pcb q a).effectivePriority =
    if q ∈ (s.planFor pid pcb).restarted then a.basePriority else a.effectivePriority := by
  unfold afterCrash CrashPlan.outcome
  split_ifs <;> rfl

lemma get_crash (hpcb : s.table.get pid = some pcb) (hcall : s.crash pid = .ok (s', result))
    (q : ProcessId) : (s'.table.get q).map (·.untracked) =
      (s.table.get q).map fun a => (s.afterCrash pid pcb q a).untracked := by
  unfold crash at hcall
  simp only [hpcb, bind_eq_ok, ok.injEq, Prod.mk.injEq] at hcall
  obtain ⟨⟨s1, result1⟩, hcall, rfl, -⟩ := hcall
  refine (get_handleChildCrash hcall q).trans ?_
  rw [get_stop]
  unfold afterCrash
  by_cases hq : q = pid
  · simp only [if_pos hq, map_map]
    rfl
  · simp only [if_neg hq]
    rfl

lemma get_crash_back (hpcb : s.table.get pid = some pcb)
    (hcall : s.crash pid = .ok (s', result)) (hb : s'.table.get q = some b) :
    ∃ a, s.table.get q = some a ∧ b.untracked = (s.afterCrash pid pcb q a).untracked := by
  have hq := get_crash hpcb hcall q
  rw [hb, map_some] at hq
  obtain ⟨a, ha, hab⟩ := map_eq_some_iff.mp hq.symm
  exact ⟨a, ha, hab.symm⟩

lemma get_crash_forth (hpcb : s.table.get pid = some pcb)
    (hcall : s.crash pid = .ok (s', result)) (ha : s.table.get q = some a) :
    ∃ b, s'.table.get q = some b ∧ b.untracked = (s.afterCrash pid pcb q a).untracked := by
  have hq := get_crash hpcb hcall q
  rw [ha, map_some] at hq
  exact map_eq_some_iff.mp hq

end AfterCrash

end ProcessSystem

end Fabric
