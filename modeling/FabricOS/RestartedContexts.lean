/-
User processes that have been restarted.

`spawn_user` gives a process a kernel stack and places on it the context from which it is to
run; the timer switches to a process only if there is such a context.  A restart keeps the
stack and forgets the context, and nothing places a new one.  So the process is ready, is
chosen again and again by the timer, and is set aside each time.
-/
import FabricOS.NormalExits
import FabricOS.RunQueues

open Machine Option

namespace Fabric.ProcessSystem

open ProcessTable

variable {s s' : ProcessSystem} {p q pid : ProcessId} {base : Option ℕ}
  {f : ProcessControlBlock → ProcessControlBlock}

/-! ### The timer -/

/-- The process has a kernel stack, or none, and no context on it. -/
def Contextless (s : ProcessSystem) (p : ProcessId) (base : Option ℕ) : Prop :=
  (s.table.get p).map (fun pcb => (pcb.kernelStackBase, pcb.savedRsp)) = some (base, 0)

/-- The process waits to be switched to, without a context. -/
structure Stranded (s : ProcessSystem) (p : ProcessId) (base : Option ℕ) : Prop where
  contextless : Contextless s p base
  ready : (s.table.get p).map (·.state) = some .ready
  notCurrent : s.sched.current ≠ some p

lemma Contextless.not_switched (h : Contextless s p base) : switchToProcess s.table p = false := by
  obtain ⟨pcb, hpcb, hfields⟩ := map_eq_some_iff.mp h
  rw [switchToProcess, hpcb]
  simp [(Prod.mk.inj hfields).2]

lemma Contextless.modify (h : Contextless s p base) (hf : ∀ pcb,
      ((f pcb).kernelStackBase, (f pcb).savedRsp) = (pcb.kernelStackBase, pcb.savedRsp)) :
    Contextless (s.modify q f) p base := by
  refine (congrArg (Option.map _) get_modify).trans ?_
  split_ifs
  · rw [map_map]
    exact (congrArg (Option.map · _) (funext hf)).trans h
  · exact h

lemma get_modify_of_ne (hne : p ≠ q) : (s.modify q f).table.get p = s.table.get p :=
  get_modify_ne hne

lemma Stranded.modify_ne (h : Stranded s p base) (hne : p ≠ q) :
    Stranded (s.modify q f) p base where
  contextless := (congrArg (Option.map _) (get_modify_of_ne hne)).trans h.contextless
  ready := (congrArg (Option.map _) (get_modify_of_ne hne)).trans h.ready
  notCurrent := h.notCurrent

lemma dequeue_current_ne (h : s.sched.current ≠ some p) : (s.dequeue q).sched.current ≠ some p := by
  simp only [dequeue, Scheduler.dequeue]
  split_ifs
  · simp
  · exact h

lemma Stranded.enqueue (h : Stranded s p base) {priority : ℕ} :
    Stranded (s.enqueue q priority) p base :=
  ⟨h.contextless, h.ready, enqueue_current.symm ▸ h.notCurrent⟩

lemma Stranded.dequeue (h : Stranded s p base) : Stranded (s.dequeue q) p base :=
  ⟨h.contextless, h.ready, dequeue_current_ne h.notCurrent⟩

lemma Stranded.reenqueue (h : Stranded s p base) (skipped : List (ProcessId × ℕ)) :
    Stranded (s.reenqueue skipped) p base :=
  List.foldlRecOn (motive := (Stranded · p base)) skipped _ h fun _ h _ _ => h.enqueue

lemma Stranded.requeueCurrent (h : Stranded s p base) : Stranded s.requeueCurrent p base := by
  have hcleared : Stranded { s with sched := { s.sched with current := none } } p base :=
    ⟨h.contextless, h.ready, by simp⟩
  unfold ProcessSystem.requeueCurrent
  split
  · exact h
  next q hq =>
  have hne : p ≠ q := fun heq => h.notCurrent (heq ▸ hq)
  simp only []
  split
  · split_ifs
    · exact (hcleared.modify_ne hne).enqueue
    · exact hcleared
  · exact hcleared

lemma Stranded.pickNext (levels : List Level) (h : Stranded s p base) :
    Contextless (pickNext levels s).1 p base ∧
      ((pickNext levels s).2 ≠ some p → Stranded (pickNext levels s).1 p base) := by
  induction levels generalizing s with
  | nil => exact ⟨h.contextless, fun _ => h⟩
  | cons l levels ih =>
    unfold ProcessSystem.pickNext
    split
    · exact ih h
    next q rest hqueue =>
    -- to be in a queue or not makes no difference
    have hpopped : Stranded { s with sched := { s.sched with
        runQueues := Function.update s.sched.runQueues l rest } } p base :=
      ⟨h.contextless, h.ready, h.notCurrent⟩
    simp only []
    split
    · refine ⟨Contextless.modify hpopped.contextless fun _ => rfl, fun hchosen => ?_⟩
      have hne : p ≠ q := fun heq => hchosen (heq ▸ rfl)
      have hpicked := hpopped.modify_ne (f := fun pcb => { pcb with
        state := .running
        timeSliceRemaining := sliceForPriority pcb.effectivePriority
        lastScheduled := s.sched.currentTick }) hne
      exact ⟨hpicked.contextless, hpicked.ready, fun heq => hne (some.inj heq).symm⟩
    · exact ih hpopped

lemma Stranded.scheduleNext (h : Stranded s p base) :
    Contextless s.scheduleNext.1 p base ∧
      (s.scheduleNext.2 ≠ some p → Stranded s.scheduleNext.1 p base) := by
  unfold ProcessSystem.scheduleNext
  split
  · exact ⟨h.contextless, fun _ => h⟩
  · exact h.requeueCurrent.pickNext levelsDown

lemma Contextless.setAside (h : Contextless s p base) :
    Stranded ((s.dequeue p).modify p fun pcb => { pcb with state := .ready }) p base where
  contextless := Contextless.modify (s := s.dequeue p) h fun _ => rfl
  ready := by
    obtain ⟨pcb, hpcb, -⟩ := map_eq_some_iff.mp h
    refine (congrArg (Option.map _) get_modify).trans ?_
    rw [if_pos rfl, map_map]
    exact (congrArg (Option.map _) hpcb).trans rfl
  notCurrent := by
    simp only [ProcessSystem.modify, ProcessSystem.dequeue, Scheduler.dequeue]
    split_ifs with hcurrent
    · simp
    · exact hcurrent

lemma Stranded.trySwitchLoop (n : ℕ) (skipped : List (ProcessId × ℕ)) (h : Stranded s p base) :
    Stranded (trySwitchLoop n s skipped) p base := by
  induction n generalizing s skipped with
  | zero => exact h.reenqueue skipped
  | succ n ih =>
    obtain ⟨hcontext, hothers⟩ := h.scheduleNext
    unfold ProcessSystem.trySwitchLoop
    split
    · next heq =>
      rw [heq] at hothers
      exact (hothers (by simp)).reenqueue skipped
    next s1 chosen heq =>
    rw [heq] at hcontext hothers
    by_cases hchosen : chosen = p
    · -- it is chosen, cannot be switched to, and is set aside
      subst hchosen
      rw [if_neg (by simp [hcontext.not_switched])]
      exact ih _ hcontext.setAside
    · have hs1 : Stranded s1 p base := hothers fun heq => hchosen (some.inj heq)
      split_ifs
      · exact hs1.reenqueue skipped
      · exact ih _ (hs1.dequeue.modify_ne (Ne.symm hchosen))

lemma Stranded.timerHandler (h : Stranded s p base) (frameRsp : ℕ) :
    Stranded (s.timerHandler frameRsp) p base := by
  have htick : Stranded s.tick p base := ⟨h.contextless, h.ready, h.notCurrent⟩
  refine timerHandler_induct (P := fun s => Stranded s p base) htick frameRsp
    (fun hcurrent _ h => h.modify_ne ?_) fun h => h.trySwitchLoop 8 []
  rintro rfl
  exact h.notCurrent hcurrent

/-! ### The restart -/

section NotCurrent

variable {now : ℕ} {reason : ExitReason}

lemma stop_current_ne (h : s.sched.current ≠ some p) :
    (s.stop q reason).sched.current ≠ some p := dequeue_current_ne h

lemma note_current : (note now s q).sched.current = s.sched.current := by
  unfold note
  split <;> rfl

lemma restartProcess_current : (restartProcess now s q).sched.current = s.sched.current := by
  unfold restartProcess
  split
  · exact enqueue_current
  · rfl

lemma respond_current_ne {crashed : ProcessId} (h : s.sched.current ≠ some p) :
    (respond now s q crashed).sched.current ≠ some p := by
  unfold respond
  split
  · next sup hsup =>
    have hnote : (note now s q).sched.current ≠ some p := note_current.symm ▸ h
    exact applyStrategy_induct (P := fun s => s.sched.current ≠ some p) hnote
      (fun _ h => stop_current_ne h) (fun _ h => restartProcess_current.symm ▸ h) sup crashed
  · exact h

lemma answeredState_current_ne (s : ProcessSystem) (pid supervisor : ProcessId) :
    (s.answeredState pid supervisor).sched.current ≠ some pid := by
  have hstop : (s.stop pid .crash).sched.current ≠ some pid := by
    simp only [stop, dequeue, Scheduler.dequeue]
    split_ifs with hcurrent
    · simp
    · exact hcurrent
  have hended : (s.overrunState pid supervisor).sched.current ≠ some pid :=
    List.foldlRecOn (motive := fun s : ProcessSystem => s.sched.current ≠ some pid) _ _ hstop
      fun _ h _ _ => stop_current_ne (note_current.symm ▸ h)
  unfold answeredState
  split
  · exact respond_current_ne hended
  · exact hended

end NotCurrent

lemma stranded_of_crash {pcb : ProcessControlBlock} {result : Except ProcessError Unit}
    (htree : Tree s.linksOf s.table.nextPid) (hpcb : s.table.get p = some pcb)
    (hcrash : s.crash p = .ok (s', result))
    (hready : (s'.table.get p).map (·.state) = some .ready) :
    Stranded s' p pcb.kernelStackBase := by
  rw [crash_eq htree hpcb] at hcrash
  cases hcrash
  refine ⟨?_, hready, answeredState_current_ne s p pcb.supervisor⟩
  have hget := @get_answeredState s p p pcb.supervisor
  rw [get_overrunState htree, hpcb, map_some, map_some] at hget
  obtain ⟨b, hb, hsame⟩ := map_eq_some_iff.mp hget
  rw [hb, map_some, some.injEq] at hready
  rw [Contextless, hb, map_some, some.injEq]
  by_cases hrestarted : p ∈ s.restartedFor p pcb.supervisor
  · simp only [hrestarted, if_true] at hsame
    refine Prod.ext ((congrArg (·.kernelStackBase) hsame).trans ?_) (congrArg (·.savedRsp) hsame)
    split_ifs <;> rfl
  -- otherwise it has ended
  have hstate : b.state = .terminated := by
    simp only [hrestarted, if_false, if_true] at hsame
    refine (congrArg (·.state) hsame).trans ?_
    split_ifs <;> rfl
  cases hready.symm.trans hstate

/-- **Restarted user processes are skipped forever.**  When a user process, which has a kernel
stack, crashes and its supervisor restarts it, then in that state and after any number of timer
interrupts it is ready and has its stack, but it cannot be switched to and does not run. -/
theorem restarted_process_skipped {pcb : ProcessControlBlock} {result : Except ProcessError Unit}
    (hs : CallReachable s) (hpcb : s.table.get p = some pcb)
    (huser : pcb.kernelStackBase.isSome = true) (hcrash : s.crash p = .ok (s', result))
    (hready : (s'.table.get p).map (·.state) = some .ready) (frames : List ℕ) :
    ((frames.foldl timerHandler s').table.get p).map
        (fun pcb => (pcb.state, pcb.kernelStackBase.isSome)) = some (.ready, true) ∧
      switchToProcess (frames.foldl timerHandler s').table p = false ∧
      (frames.foldl timerHandler s').sched.current ≠ some p := by
  -- by induction on the interrupts
  have hstranded : Stranded (frames.foldl timerHandler s') p pcb.kernelStackBase :=
    List.foldlRecOn (motive := (Stranded · p _)) frames _
      (stranded_of_crash hs.tree hpcb hcrash hready) fun _ h frameRsp _ => h.timerHandler frameRsp
  refine ⟨?_, hstranded.contextless.not_switched, hstranded.notCurrent⟩
  obtain ⟨b, hb, hfields⟩ := map_eq_some_iff.mp hstranded.contextless
  have hstate := hstranded.ready
  rw [hb, map_some, some.injEq] at hstate
  rw [hb, map_some, hstate, (Prod.mk.inj hfields).1, huser]

def userProcess : List Call :=
  [.op (.spawn .butler .default none), .op (.installContext 2 0x10000 0x12000 0x11f50)]

/-- It could be switched to before it crashed. -/
theorem restarted_process_not_switched : CallReachable (final call init userProcess) ∧
    switchToProcess (final call init userProcess).table 2 = true ∧
    ((final call init (userProcess ++ [.op (.crash 2)])).table.get 2).map
      (fun pcb => (pcb.state, pcb.kernelStackBase.isSome)) = some (.ready, true) ∧
    switchToProcess (final call init (userProcess ++ [.op (.crash 2)])).table 2 = false :=
  ⟨.of_returns (by decide +kernel), by decide +kernel, by decide +kernel, by decide +kernel⟩

theorem userProcess_skipped :
    switchToProcess ([0, 0, 0].foldl timerHandler
      (final call init (userProcess ++ [.op (.crash 2)]))).table 2 = false ∧
    ([0, 0, 0].foldl timerHandler
      (final call init (userProcess ++ [.op (.crash 2)]))).sched.current ≠ some 2 := by
  have hs : CallReachable (final call init userProcess) := .of_returns (by decide +kernel)
  have huser : ((final call init userProcess).table.get 2).map (·.kernelStackBase.isSome) =
    some true := by decide +kernel
  obtain ⟨pcb, hpcb, huser⟩ := map_eq_some_iff.mp huser
  have hcrash : (final call init userProcess).crash 2 =
    .ok (final call init (userProcess ++ [.op (.crash 2)]), .ok ()) := rfl
  exact (restarted_process_skipped hs hpcb huser hcrash (by decide +kernel) [0, 0, 0]).2

end Fabric.ProcessSystem
