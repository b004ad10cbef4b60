/-
Processes that have exited.

A process ends normally when it is terminated or calls `SYS_EXIT`.  Of all that happens later,
only the answer to a crash can bring it back: the scheduler never finds it in a queue, and
blocking and unblocking refuse it.  The supervisor that answers a crash restarts by its
strategy whatever is in its list of children, however it has ended, and the child that has
ended for exceeding its intensity.  `terminate` takes a process from the list of its
supervisor, but `SYS_EXIT` does not.
-/
import FabricOS.Escalation
import FabricOS.QueueSafety

open Machine Option

namespace Fabric.ProcessSystem

open ProcessTable ProcessControlBlock

variable {s s' : ProcessSystem} {p q pid : ProcessId}
  {f : ProcessControlBlock → ProcessControlBlock}

/-! ### Calls that are no crash -/

def Ended (s : ProcessSystem) (p : ProcessId) : Prop :=
  (s.table.get p).map (·.state) = some .terminated

lemma Ended.leaves (h : s.Ended p) (hleaves : Leaves (·.state) s s') : s'.Ended p :=
  (hleaves.part p).trans h

lemma Ended.modify (h : s.Ended p) (hf : ∀ pcb, s.table.get p = some pcb →
    pcb.state = .terminated → p = q → (f pcb).state = .terminated) : (s.modify q f).Ended p := by
  obtain ⟨pcb, hpcb, hstate⟩ := map_eq_some_iff.mp h
  refine (congrArg (Option.map _) get_modify).trans ?_
  split_ifs with hpq
  · rw [hpcb]
    exact congrArg some (hf pcb hpcb hstate hpq)
  · exact h

lemma Ended.keeps {r : ℕ → ℕ → Prop} (h : s.Ended p) (hkeeps : s.table.Keeps r s'.table) :
    s'.Ended p := by
  obtain ⟨pcb, hpcb, hstate⟩ := map_eq_some_iff.mp h
  obtain ⟨pcb', hpcb', hkept⟩ := hkeeps.forth p pcb hpcb
  rw [Ended, hpcb', map_some]
  obtain hsame | ⟨hactive, -⟩ := hkept.state
  · rw [hsame, hstate]
  · simp [ProcessControlBlock.Active, hstate] at hactive

lemma Ended.spawn (h : s.Ended p) {supervisor : ProcessId} {intent : Intent}
    {strategy : Option SupervisionStrategy} {result : Except ProcessError ProcessId}
    (hspawn : s.spawn supervisor intent strategy = .ok (s', result)) : s'.Ended p := by
  obtain ⟨-, ⟨e, -, hsame, -⟩ | ⟨sup, -, -, -, hsup, hfresh, hget⟩⟩ := spawn_links hspawn
  · exact (congrArg (Option.map _) (hsame p)).trans h
  have hne : p ≠ s.table.nextPid := by
    rintro rfl
    rw [Ended, hfresh] at h
    cases h
  rw [Ended, hget, if_neg hne]
  split_ifs with hp
  · rw [Ended, hp, hsup] at h
    exact h
  · exact h

lemma Ended.stop (h : s.Ended p) (reason : ExitReason) : (s.stop q reason).Ended p :=
  h.modify fun _ _ _ _ => rfl

lemma Ended.terminate (h : s.Ended p) : (s.terminate q).1.Ended p := by
  cases hpcb : s.table.get q with
  | none => rwa [ProcessSystem.terminate, hpcb]
  | some pcb =>
    rw [terminate_eq hpcb]
    exact (h.stop .normal).modify fun _ _ hstate _ => hstate

lemma Ended.block (h : s.Ended p) (waitingOn : Option ProcessId) :
    (s.block q waitingOn).1.Ended p := by
  unfold ProcessSystem.block
  cases hpcb : s.table.get q with
  | none => exact h
  | some pcb =>
    simp only []
    split_ifs with hactive
    · exact h
    have hsuspend : (s.suspend q waitingOn).Ended p := by
      refine h.modify fun pcb' hpcb' hstate hpq => ?_
      cases hpcb.symm.trans (hpq ▸ hpcb')
      exact absurd hactive (by simp [hstate])
    split
    · exact hsuspend.leaves (leaves_applyPriorityInheritance (fun _ _ => rfl) _ _ (.refl _))
    · exact hsuspend

lemma Ended.unblock (h : s.Ended p) : (s.unblock q).1.Ended p := by
  unfold ProcessSystem.unblock
  cases hpcb : s.table.get q with
  | none => exact h
  | some pcb =>
    simp only []
    split_ifs with hblocked
    · exact h
    have hwoken : ∀ priority, ((s.modify q (wake s.sched)).enqueue q priority).Ended p := by
      refine fun priority => h.modify fun pcb' hpcb' hstate hpq => ?_
      cases hpcb.symm.trans (hpq ▸ hpcb')
      exact absurd hblocked (by simp [hstate])
    split
    · exact (hwoken _).leaves (leaves_revertPriorityInheritance (fun _ _ => rfl) (.refl _))
    · exact hwoken _

lemma Ended.sysExit (h : s.Ended p) {exitCode : ℕ} {schedFree tableFree : Bool} :
    (s.sysExit exitCode schedFree tableFree).Ended p := by
  unfold ProcessSystem.sysExit
  split_ifs
  · split
    · exact Ended.modify h fun _ _ _ _ => rfl
    · exact h
  · split <;> exact h
  · exact h

lemma Ended.call {c : Call} {ans : Ans} (h : s.Ended p) (hqueued : QueuedActive s)
    (hcrash : ∀ pid, c ≠ .op (.crash pid)) (hcall : s.call c = .ok (s', ans)) : s'.Ended p := by
  cases c with
  | sysExit exitCode schedFree tableFree =>
    cases hcall
    exact h.sysExit
  | op op =>
    cases op with
    | spawn supervisor intent strategy =>
      simp only [ProcessSystem.call, step, Exec.bind_eq_ok, Exec.ok.injEq, Prod.mk.injEq] at hcall
      obtain ⟨⟨s1, result⟩, hspawn, rfl, -⟩ := hcall
      exact h.spawn hspawn
    | terminate pid =>
      cases hcall
      exact h.terminate
    | crash pid => exact absurd rfl (hcrash pid)
    | installContext pid stackBase stackTop rsp =>
      cases hcall
      exact h.modify fun _ _ hstate _ => hstate
    | block pid waitingOn =>
      cases hcall
      exact h.block waitingOn
    | unblock pid =>
      cases hcall
      exact h.unblock
    | scheduleNext =>
      -- only processes that can run are in the queues, and only those are written to
      cases hcall
      exact h.keeps hqueued.scheduleNext.2.1
    | tick =>
      cases hcall
      exact h
    | timer frameRsp =>
      cases hcall
      exact h.keeps (hqueued.timerHandler frameRsp).2
    | runAging =>
      cases hcall
      exact h.keeps hqueued.runAging.2

lemma QueuedActive.call {c : Call} {ans : Ans} (h : QueuedActive s)
    (hcall : s.call c = .ok (s', ans)) : QueuedActive s' := by
  cases c with
  | op op => exact h.step hcall
  | sysExit exitCode schedFree tableFree =>
    cases hcall
    -- the process leaves the queues in any case
    have hretire : ∀ p f, QueuedActive ((s.dequeue p).modify p f) := fun p f => h.retire
    unfold sysExit
    split_ifs
    · split
      · exact hretire _ _
      · exact h
    · split
      · intro l q hq
        exact h l q (List.mem_of_mem_filter hq)
      · exact h
    · exact h

/-! ### Crashes -/

/-- The processes that a crash restarts, as its state tells beforehand: those that the
supervisor at which the escalation stops restarts by its strategy. -/
def restartedOn (s : ProcessSystem) (pid : ProcessId) : List ProcessId :=
  match s.table.get pid with
  | some pcb =>
    match (s.responder pcb.supervisor).bind s.table.get with
    | some sup => s.restartedBy sup ((s.overruns pcb.supervisor).getLast?.getD pid)
    | none => []
  | none => []

lemma restartedFor_eq {pcb : ProcessControlBlock} (hpcb : s.table.get pid = some pcb) :
    s.restartedFor pid pcb.supervisor = s.restartedOn pid := by
  unfold restartedFor restartedOn
  simp only [hpcb]
  cases s.responder pcb.supervisor with
  | none => rfl
  | some p =>
    simp only [bind_some]
    -- whoever answers has the strategy and the children that it had before the crash
    have hlinks : Leaves (·.links) s (s.overrunState pid pcb.supervisor) := leaves_overrunState
    cases hsup' : (s.overrunState pid pcb.supervisor).table.get p with
    | none =>
      have hnone := hlinks.part p
      rw [hsup', map_none, eq_comm, map_eq_none_iff] at hnone
      rw [hnone]
    | some sup' =>
      obtain ⟨sup, hsup, hsame⟩ := hlinks.back hsup'
      have hstrategy : sup'.strategy = sup.strategy := congrArg (·.strategy) hsame.symm
      have hchildren : sup'.children = sup.children := congrArg (·.children) hsame.symm
      simp only [hsup, restartedBy, hstrategy, hchildren]
      rw [restOf_congr (leaves_note hlinks).part]

lemma ended_crash_iff {pcb : ProcessControlBlock} (htree : Tree s.linksOf s.table.nextPid)
    (hpcb : s.table.get pid = some pcb) (hp : s.Ended p) :
    (s.answeredState pid pcb.supervisor).Ended p ↔ p ∉ s.restartedOn pid := by
  obtain ⟨a, ha, hstate⟩ := map_eq_some_iff.mp hp
  have hget := @get_answeredState s p pid pcb.supervisor
  rw [get_overrunState htree, ha, map_some, map_some, restartedFor_eq hpcb] at hget
  obtain ⟨b, hb, hsame⟩ := map_eq_some_iff.mp hget
  have hb_state := congrArg (·.state) hsame
  rw [Ended, hb, map_some, Option.some.injEq, show b.state = _ from hb_state]
  split_ifs with hrestarted <;>
    simp [hrestarted, untracked, resetForRestart, overran,
      ended, hstate]

/-! ### Exits -/

/-- The call ends the process normally. -/
inductive Exits (s : ProcessSystem) (p : ProcessId) : Call → Prop
  | terminate {pcb : ProcessControlBlock} (found : s.table.get p = some pcb) :
      Exits s p (.op (.terminate p))
  | sysExit {pcb : ProcessControlBlock} {exitCode : ℕ} (found : s.table.get p = some pcb)
      (current : s.sched.current = some p) : Exits s p (.sysExit exitCode true true)

lemma Exits.ended {c : Call} {ans : Ans} (h : Exits s p c) (hcall : s.call c = .ok (s', ans)) :
    ∃ pcb, s'.table.get p = some pcb ∧ pcb.state = .terminated ∧
      pcb.exitReason = some .normal := by
  cases h with
  | @terminate pcb hfound =>
    have hs' : (s.terminate p).1 = s' := (Prod.mk.inj (Exec.ok.inj hcall)).1
    rw [← hs', terminate_eq hfound]
    have hstop : (s.stop p .normal).table.get p = some (pcb.ended .normal) := by
      rw [get_stop, if_pos rfl, hfound]
      rfl
    simp only [ProcessSystem.modify, get_modify, hstop]
    split_ifs <;> exact ⟨_, rfl, rfl, rfl⟩
  | @sysExit pcb exitCode hfound hcurrent =>
    cases hcall
    have hget : (s.sysExit exitCode true true).table.get p = some { pcb with
        state := .terminated, exitReason := some .normal, exitCode := exitCode } := by
      simp only [ProcessSystem.sysExit, hcurrent, if_true]
      refine get_modify.trans ?_
      rw [if_pos rfl]
      exact congrArg (Option.map _) hfound
    exact ⟨_, hget, rfl, rfl⟩

def sparesEnded (p : ProcessId) (s : ProcessSystem) : Call → Bool
  | .op (.crash pid) => p ∉ s.restartedOn pid
  | _ => true

/-- **When a process that has exited stays ended.**  Whatever is called later, a process that
has exited, by `terminate` or by `SYS_EXIT`, is ended in all states that follow if and only if
none of the later crashes is answered by a supervisor whose strategy restarts it. -/
theorem exited_stays_terminated_iff {c : Call} {ans : Ans} (hs : CallReachable s)
    (hexit : Exits s p c) (hcall : s.call c = .ok (s', ans)) (later : List Call) :
    (∀ pre, pre <+: later → ∀ s'' anss, run call s' pre = .ok (s'', anss) →
        (s''.table.get p).map (·.state) = some .terminated) ↔
      guarded (sparesEnded p) call s' later = true := by
  have hqueued : QueuedActive s := Machine.Reachable.inv hs queuedActive_init QueuedActive.call
  obtain ⟨pcb, hpcb, hstate, -⟩ := hexit.ended hcall
  refine @forall_ok_prefix_iff_guarded _ _ _ call (sparesEnded p)
    (fun s => CallReachable s ∧ QueuedActive s ∧ s.Ended p) (·.Ended p) (fun h => h.2.2) ?_ ?_ later
    s' ⟨hs.tail hcall, hqueued.call hcall, by rw [Ended, hpcb, map_some, hstate]⟩
  · rintro s c s' ans ⟨hs, hqueued, hp⟩ hspares hcall
    refine ⟨hs.tail hcall, hqueued.call hcall, ?_⟩
    cases call_cases hcall with
    | crash hcrash =>
      next pid result =>
      cases hpcb : s.table.get pid with
      | none =>
        unfold crash at hcrash
        simp only [hpcb, Exec.ok.injEq, Prod.mk.injEq] at hcrash
        exact hcrash.1 ▸ hp
      | some pcb =>
        rw [crash_eq hs.tree hpcb] at hcrash
        cases hcrash
        exact (ended_crash_iff hs.tree hpcb hp).mpr (by simpa [sparesEnded] using hspares)
    | spawn | terminate => exact hp.call hqueued (by simp) hcall
    | other _ _ hcrash => exact hp.call hqueued hcrash hcall
  · rintro s c ⟨hs, hqueued, hp⟩ hspares
    -- only a crash can fail the test, and it returns
    match c, hspares with
    | .op (.crash pid), hspares =>
      have hmem : p ∈ s.restartedOn pid := by simpa [sparesEnded] using hspares
      cases hpcb : s.table.get pid with
      | none => simp [restartedOn, hpcb] at hmem
      | some pcb =>
        refine ⟨(s.answeredState pid pcb.supervisor, .done (.ok ())), ?_, ?_⟩
        · simp [ProcessSystem.call, step, crash_eq hs.tree hpcb]
        · exact fun hended => (ended_crash_iff hs.tree hpcb hp).mp hended hmem

/-- A supervisor that restarts all of its children, with two of them. -/
def allForOne : List Call :=
  [.op (.spawn .butler .default (some .oneForAll)), .op (.spawn 2 .default none),
    .op (.spawn 2 .default none)]

/-- The state after the first child has been terminated. -/
def childTerminated : ProcessSystem := final call init (allForOne ++ [.op (.terminate 3)])

/-- A child that has been terminated is not restarted with its sibling. -/
theorem terminated_child_stays :
    guarded (sparesEnded 3) call childTerminated [.op (.crash 4)] = true ∧
    ∀ pre, pre <+: [Call.op (.crash 4)] → ∀ s'' anss,
      run call childTerminated pre = .ok (s'', anss) →
        (s''.table.get 3).map (·.state) = some .terminated := by
  have hs : CallReachable (final call init allForOne) := .of_returns (by decide +kernel)
  have hfound : ((final call init allForOne).table.get 3).isSome = true := by decide +kernel
  obtain ⟨pcb, hpcb⟩ := isSome_iff_exists.mp hfound
  have hcall : (final call init allForOne).call (.op (.terminate 3)) =
    .ok (childTerminated, .done (.ok ())) := rfl
  have hguarded : guarded (sparesEnded 3) call childTerminated [.op (.crash 4)] = true := by
    decide +kernel
  exact ⟨hguarded, (exited_stays_terminated_iff hs (.terminate hpcb) hcall _).mpr hguarded⟩

def childRuns : List Call :=
  allForOne ++ [.op (.block .butler none), .op (.block 2 none), .op .scheduleNext]

/-- A child that has called `SYS_EXIT` is restarted with its sibling. -/
theorem exited_child_restarted : CallReachable (final call init childRuns) ∧
    (∃ pcb, (final call init childRuns).table.get 3 = some pcb) ∧
    (final call init childRuns).sched.current = some 3 ∧
    ((final call init (childRuns ++ [.sysExit 0 true true])).table.get 3).map
      (fun pcb => (pcb.state, pcb.exitReason)) = some (.terminated, some .normal) ∧
    (run call init (childRuns ++ [.sysExit 0 true true, .op (.crash 4)])).returns = true ∧
    ((final call init (childRuns ++ [.sysExit 0 true true, .op (.crash 4)])).table.get 3).map
      (·.state) = some .ready := by
  have hfound : ((final call init childRuns).table.get 3).isSome = true := by decide +kernel
  exact ⟨.of_returns (by decide +kernel), isSome_iff_exists.mp hfound, by decide +kernel,
    by decide +kernel, by decide +kernel, by decide +kernel⟩

end Fabric.ProcessSystem
