/-
Scheduler and process table agree, unless inheritance gets in the way.

Most calls keep the records of every process in agreement.  Priority inheritance does so
only where it leaves the running process alone: it moves the process whose priority it
changes from one queue to another, also if it is in none because it runs.
-/
import FabricOS.RunQueues

open Machine Option

namespace Fabric.ProcessSystem

open ProcessSystem ProcessTable

variable {s s' : ProcessSystem} {p q : ProcessId} {pcb : ProcessControlBlock} {priority : ℕ}

/-! ### Blocking -/

variable {state : ProcessState}

lemma setPriority_current : (s.setPriority p state priority).sched.current =
      if s.sched.current = some p then none else s.sched.current := by
  have hdequeue : ((s.modify p fun pcb => { pcb with effectivePriority := priority }).dequeue
      p).sched.current = if s.sched.current = some p then none else s.sched.current := rfl
  rw [← hdequeue, setPriority]
  by_cases hstate : state = .ready ∨ state = .running
  · simp only [if_pos hstate, enqueue_current]
  · simp only [if_neg hstate]

lemma view_setPriority_ne (h : q ≠ p) : (s.setPriority p state priority).view q = s.view q := by
  unfold setPriority
  split_ifs
  · rw [view_enqueue_ne h, view_dequeue_ne h, view_modify_ne h]
  · rw [view_dequeue_ne h, view_modify_ne h]

lemma Agree.setPriority (h : Agree s) (hpcb : s.table.get p = some pcb)
    (hidle : pcb.state ≠ .running) : Agree (s.setPriority p pcb.state priority) := by
  refine h.change p (fun q => view_setPriority_ne) ?_
  have hview : ((s.view p).modify fun pcb => { pcb with effectivePriority := priority }).pcb =
      some { pcb with effectivePriority := priority } := by
    simp [View.modify, view, hpcb]
  unfold ProcessSystem.setPriority
  simp only [hidle, or_false]
  split_ifs with hready
  · rw [view_enqueue_self, view_dequeue_self, view_modify_self]
    exact View.Parked.enqueue ⟨⟨_, hview, hready, rfl⟩, fun _ => rfl⟩
  rw [view_dequeue_self, view_modify_self]
  refine View.good_dequeue fun pcb' hpcb' => ?_
  cases hview.symm.trans hpcb'
  exact ⟨hready, hidle⟩

lemma setPriority_state (q : ProcessId) :
    ((s.setPriority p state priority).table.get q).map (·.state) =
      (s.table.get q).map (·.state) := by
  rw [setPriority_table, get_modify]
  split_ifs
  · rw [map_map]; rfl
  · rfl

lemma applyPriorityInheritance_state (boostPriority depth : ℕ) (s : ProcessSystem)
    (target q : ProcessId) :
    ((applyPriorityInheritance boostPriority depth s target).table.get q).map (·.state) =
      (s.table.get q).map (·.state) := by
  rw [get_applyPriorityInheritance]
  split_ifs
  · rw [map_map]; rfl
  · rfl

def Running (s : ProcessSystem) (p : ProcessId) : Prop :=
  (s.table.get p).map (·.state) = some .running

lemma Agree.applyPriorityInheritance {boostPriority depth : ℕ} (h : Agree s)
    {target : ProcessId} (hidle : ∀ q ∈ boosted boostPriority depth s target, ¬ s.Running q) :
    Agree (applyPriorityInheritance boostPriority depth s target) := by
  refine (applyPriorityInheritance_induct (P := fun s rest => Agree s ∧ ∀ q ∈ rest, ¬ s.Running q)
    (fun {s p rest pcb} hpcb ⟨h, hidle⟩ => ?_) ⟨h, hidle⟩).1
  rw [List.forall_mem_cons] at hidle
  refine ⟨h.setPriority hpcb fun hrunning => ?_, fun q hq hrunning => hidle.2 q hq ?_⟩
  · exact hidle.1 (by simp [Running, hpcb, hrunning])
  · rwa [Running, setPriority_state] at hrunning

lemma current_applyPriorityInheritance {boostPriority depth : ℕ} {target : ProcessId}
    (h : (applyPriorityInheritance boostPriority depth s target).sched.current = some q) :
    s.sched.current = some q ∧ q ∉ boosted boostPriority depth s target := by
  refine Exists.elim (applyPriorityInheritance_induct
    (P := fun s' rest => ∃ done, boosted boostPriority depth s target = done ++ rest ∧
      (s'.sched.current = some q → s.sched.current = some q ∧ q ∉ done))
    ?_ ⟨[], rfl, fun h => ⟨h, by simp⟩⟩) ?_
  · rintro s' p rest pcb - ⟨done, hdone, hcurrent⟩
    refine ⟨done ++ [p], by rw [hdone, List.append_assoc]; rfl, fun hset => ?_⟩
    rw [setPriority_current] at hset
    split_ifs at hset with hp
    obtain ⟨hs, hnot⟩ := hcurrent hset
    have hne : q ≠ p := fun heq => hp (heq ▸ hset)
    exact ⟨hs, by simp [hnot, hne]⟩
  · rintro done ⟨hdone, hcurrent⟩
    rw [hdone, List.append_nil]
    exact hcurrent h

/-! ### Supervision -/

/-- A process that can be reset and enqueued without being in a queue twice. -/
def Restartable (s : ProcessSystem) (p : ProcessId) : Prop :=
  ∀ pcb, s.table.get p = some pcb → pcb.state = .terminated ∨
    pcb.state = .ready ∧ pcb.effectivePriority = pcb.basePriority

lemma Agree.restartProcess (h : Agree s) (hrestartable : s.Restartable p) (now : ℕ) :
    Agree (restartProcess now s p) := by
  unfold ProcessSystem.restartProcess
  cases hpcb : s.table.get p with
  | none => exact h
  | some pcb =>
    obtain hterminated | ⟨hready, hbase⟩ := hrestartable pcb hpcb
    · exact h.admit hpcb (by simp [hterminated]) rfl
    -- already in the queue of its base priority
    refine h.change p (fun q hq => by rw [view_enqueue_ne hq, view_modify_ne hq]) ?_
    have hview : (s.view p).pcb = some pcb := hpcb
    have hcount := (h p).counts
    simp only [View.expected_some hview, hready, true_and] at hcount
    rw [view_enqueue_self, view_modify_self]
    have hreset : (((s.view p).modify (·.resetForRestart now)).enqueue
        (level (pcb.resetForRestart now).effectivePriority)).pcb =
          some (pcb.resetForRestart now) := by
      simp [View.enqueue, View.modify, hview]
    refine ⟨fun l => ?_, fun pcb' hpcb' hrunning => ?_⟩
    · rw [View.expected_some hreset]
      simp [View.enqueue, View.modify, ProcessControlBlock.resetForRestart, hcount, hbase]
    · cases hreset.symm.trans hpcb'
      exact absurd hrunning (by simp [ProcessControlBlock.resetForRestart])

lemma Agree.stop (h : Agree s) (reason : ExitReason) : Agree (s.stop p reason) :=
  h.retire fun _ => by simp

lemma Agree.killChild (h : Agree s) (p : ProcessId) : Agree (s.killChild p) := by
  unfold ProcessSystem.killChild
  split
  · split_ifs
    · exact h.stop _
    · exact h
  · exact h

lemma Restartable.restartProcess (h : s.Restartable p) (now : ℕ) (q : ProcessId) :
    (ProcessSystem.restartProcess now s q).Restartable p := by
  intro pcb hpcb
  rw [get_restartProcess] at hpcb
  split_ifs at hpcb with hq
  · obtain ⟨pcb', -, rfl⟩ := map_eq_some_iff.mp hpcb
    exact .inr ⟨rfl, rfl⟩
  · exact h pcb hpcb

lemma Agree.foldl_restartProcess {children : List ProcessId} (h : Agree s)
    (hrestartable : ∀ child ∈ children, s.Restartable child) (now : ℕ) :
    Agree (children.foldl (ProcessSystem.restartProcess now) s) := by
  induction children generalizing s with
  | nil => exact h
  | cons child children ih =>
    refine ih (h.restartProcess (hrestartable child List.mem_cons_self) now) fun c hc => ?_
    exact (hrestartable c (List.mem_cons_of_mem _ hc)).restartProcess now child

lemma Agree.restartGroup (h : Agree s) (children : List ProcessId) (now : ℕ) :
    Agree (s.restartGroup children now) := by
  have hkilled := List.foldlRecOn (motive := Agree) children _ h fun _ h p _ => h.killChild p
  refine hkilled.foldl_restartProcess (fun child hchild pcb hpcb => ?_) now
  rw [get_foldl_killChild, if_pos hchild] at hpcb
  obtain ⟨pcb', -, rfl⟩ := map_eq_some_iff.mp hpcb
  exact .inl pcb'.killed_state

lemma Agree.applyStrategy (h : Agree s) {sup : ProcessControlBlock} {crashed : ProcessId}
    (hcrashed : s.Restartable crashed) (now : ℕ) : Agree (s.applyStrategy sup crashed now).1 := by
  unfold ProcessSystem.applyStrategy
  split
  · exact h.restartProcess hcrashed now
  · exact h.restartGroup _ now
  · exact h.restartGroup _ now

lemma Agree.handleChildCrash {now fuel : ℕ} {supervisor crashed : ProcessId}
    {result : Except ProcessError ℕ} (h : Agree s) (hcrashed : s.Restartable crashed)
    (hcall : handleChildCrash now fuel s supervisor crashed = .ok (s', result)) : Agree s' := by
  refine handleChildCrash_induct (P := fun s crashed => Agree s ∧ s.Restartable crashed)
    And.left ?_ ?_ (fun _ hs => hs.1.applyStrategy hs.2 now) ⟨h, hcrashed⟩ hcall
  · rintro s crashed p tracker ⟨h, hcrashed⟩
    refine ⟨h.modify (fun _ => rfl) (fun _ => rfl), fun pcb hpcb => ?_⟩
    simp only [ProcessSystem.modify, get_modify] at hpcb
    split_ifs at hpcb
    · obtain ⟨pcb', hpcb', rfl⟩ := map_eq_some_iff.mp hpcb
      exact hcrashed pcb' hpcb'
    · exact hcrashed pcb hpcb
  · -- a supervisor that has ended can be restarted
    rintro s crashed p ⟨h, -⟩
    refine ⟨h.stop _, fun pcb hpcb => ?_⟩
    rw [get_stop, if_pos rfl] at hpcb
    obtain ⟨pcb', -, rfl⟩ := map_eq_some_iff.mp hpcb
    exact .inl rfl

lemma Agree.crash (h : Agree s) {pid : ProcessId} {result : Except ProcessError Unit}
    (hcall : s.crash pid = .ok (s', result)) : Agree s' := by
  unfold ProcessSystem.crash at hcall
  cases hpcb : s.table.get pid with
  | none =>
    simp only [hpcb, Exec.ok.injEq, Prod.mk.injEq] at hcall
    exact hcall.1 ▸ h
  | some pcb =>
    simp only [hpcb, Exec.bind_eq_ok, Exec.ok.injEq, Prod.mk.injEq] at hcall
    obtain ⟨⟨s1, result1⟩, hcall, rfl, -⟩ := hcall
    refine (h.stop _).handleChildCrash (fun pcb' hpcb' => ?_) hcall
    rw [get_stop, if_pos rfl] at hpcb'
    obtain ⟨pcb'', -, rfl⟩ := map_eq_some_iff.mp hpcb'
    exact .inl rfl

/-! ### Every call -/

/-- Scheduler and process table agree: at most one process is running, and it is the
current one; the processes in the run queues are the ready ones; each is there once, in the
queue of its priority. -/
structure Agreement (s : ProcessSystem) : Prop where
  one_running : ∀ p q, s.Running p → s.Running q → p = q
  running_current : ∀ p, s.Running p → s.sched.current = some p
  queued_iff_ready : ∀ p, (∃ l, p ∈ s.sched.runQueues l) ↔
    (s.table.get p).map (·.state) = some .ready
  queued_once : ∀ p pcb, s.table.get p = some pcb → (∃ l, p ∈ s.sched.runQueues l) →
    ∀ l, (s.sched.runQueues l).count p = if l = level pcb.effectivePriority then 1 else 0

lemma agreement_iff : Agreement s ↔ Agree s := by
  constructor
  · intro h p
    refine ⟨fun l => ?_, fun pcb hpcb hrunning => ?_⟩
    · show (s.sched.runQueues l).count p = (s.view p).expected l
      by_cases hready : (s.table.get p).map (·.state) = some .ready
      · obtain ⟨pcb, hpcb, hstate⟩ := map_eq_some_iff.mp hready
        rw [h.queued_once p pcb hpcb ((h.queued_iff_ready p).mpr hready) l, View.expected_some hpcb]
        simp [hstate]
      rw [View.expected_of_not_ready]
      · refine List.count_eq_zero.mpr fun hmem => hready ?_
        exact (h.queued_iff_ready p).mp ⟨l, hmem⟩
      · rintro pcb hpcb hstate
        exact hready (map_eq_some_iff.mpr ⟨pcb, hpcb, hstate⟩)
    · exact h.running_current p (map_eq_some_iff.mpr ⟨pcb, hpcb, hrunning⟩)
  · intro h
    have hcurrent : ∀ p, s.Running p → s.sched.current = some p := by
      intro p hrunning
      obtain ⟨pcb, hpcb, hstate⟩ := map_eq_some_iff.mp hrunning
      exact (h p).running pcb hpcb hstate
    have hready : ∀ p l, p ∈ s.sched.runQueues l →
        (s.table.get p).map (·.state) = some .ready := by
      intro p l hmem
      obtain ⟨pcb, hpcb, hstate, -⟩ := (h p).of_count_pos (List.count_pos_iff.mpr hmem)
      exact map_eq_some_iff.mpr ⟨pcb, hpcb, hstate⟩
    have hcount : ∀ p pcb, s.table.get p = some pcb → pcb.state = .ready → ∀ l,
        (s.sched.runQueues l).count p = if l = level pcb.effectivePriority then 1 else 0 := by
      intro p pcb hpcb hstate l
      have hexpected : (s.sched.runQueues l).count p = _ := (h p).counts l
      rw [View.expected_some hpcb] at hexpected
      simpa [hstate] using hexpected
    refine ⟨fun p q hp hq => ?_, hcurrent, fun p => ⟨fun ⟨l, hmem⟩ => hready p l hmem, ?_⟩, ?_⟩
    · exact some.inj ((hcurrent p hp).symm.trans (hcurrent q hq))
    · intro hmap
      obtain ⟨pcb, hpcb, hstate⟩ := map_eq_some_iff.mp hmap
      refine ⟨level pcb.effectivePriority, List.count_pos_iff.mp ?_⟩
      rw [hcount p pcb hpcb hstate, if_pos rfl]
      exact Nat.one_pos
    · rintro p pcb hpcb ⟨l, hmem⟩
      refine hcount p pcb hpcb ?_
      have hmap := hready p l hmem
      rw [hpcb] at hmap
      exact some.inj hmap

/-- The call changes no priority of a running process through inheritance: `block` boosts no
running process, and `unblock` finds the process that was waited for not running, or at its
base priority. -/
def Undisturbed (s : ProcessSystem) : Op → Prop
  | .block pid (some target) => ∀ pcb, s.table.get pid = some pcb →
    pcb.state = .running ∨ pcb.state = .ready →
    ∀ q ∈ boosted pcb.effectivePriority maxInheritanceDepth (s.suspend pid (some target)) target,
      q = pid ∨ ¬ s.Running q
  | .unblock pid => ∀ pcb target tcb, s.table.get pid = some pcb → pcb.state = .blocked →
    pcb.blockedOn = some target → s.table.get target = some tcb → tcb.state = .running →
    tcb.effectivePriority = tcb.basePriority
  | _ => True

lemma Agree.suspend (h : Agree s) {waitingOn : Option ProcessId} : Agree (s.suspend p waitingOn) :=
  h.retire fun _ => by simp

lemma running_suspend {waitingOn : Option ProcessId} :
    (s.suspend p waitingOn).Running q ↔ q ≠ p ∧ s.Running q := by
  unfold Running
  rw [get_suspend]
  split_ifs with hq
  · simp [hq, map_map]
  · simp [hq]

lemma Agree.block_iff (h : Agree s) (pid : ProcessId) (waitingOn : Option ProcessId) :
    Agree (s.block pid waitingOn).1 ↔ s.Undisturbed (.block pid waitingOn) := by
  unfold block
  cases waitingOn with
  | none =>
    refine iff_of_true ?_ trivial
    split
    · exact h
    · split_ifs
      · exact h
      · exact h.suspend
  | some target =>
    cases hpcb : s.table.get pid with
    | none => simp [h, Undisturbed, hpcb]
    | some pcb =>
      simp only []
      split_ifs with hstate
      · refine iff_of_true h fun pcb' hpcb' hstate' => ?_
        cases hpcb.symm.trans hpcb'
        exact absurd hstate' (not_or.mpr hstate)
      have hrunning : ∀ q, q = pid ∨ ¬ s.Running q ↔
          ¬ (s.suspend pid (some target)).Running q := by
        intro q
        rw [running_suspend, not_and_or, not_not]
      constructor
      · -- a boosted process that runs is no longer current
        intro hagree pcb' hpcb' _ q hq
        cases hpcb.symm.trans hpcb'
        refine (hrunning q).mpr fun hq' => ?_
        have hstill : (ProcessSystem.applyPriorityInheritance pcb.effectivePriority
            maxInheritanceDepth (s.suspend pid (some target)) target).Running q := by
          rwa [Running, applyPriorityInheritance_state]
        exact (current_applyPriorityInheritance
          ((agreement_iff.mpr hagree).running_current q hstill)).2 hq
      · intro hundisturbed
        refine h.suspend.applyPriorityInheritance fun q hq => (hrunning q).mp ?_
        exact hundisturbed pcb hpcb (by tauto) q hq

lemma Agree.revert_iff (h : Agree s) (target : ProcessId) :
    Agree (s.revertPriorityInheritance target) ↔ ∀ tcb, s.table.get target = some tcb →
      tcb.state = .running → tcb.effectivePriority = tcb.basePriority := by
  unfold revertPriorityInheritance
  cases htcb : s.table.get target with
  | none => simp [h]
  | some tcb =>
    simp only [some.injEq, forall_eq', ne_eq]
    split_ifs with hbase
    · simp [h, hbase]
    simp only [hbase, imp_false]
    constructor
    · intro hagree hrunning
      have hstill : (s.setPriority target tcb.state tcb.basePriority).Running target := by
        rw [Running, setPriority_state, htcb, map_some, hrunning]
      have hcurrent := (agreement_iff.mpr hagree).running_current target hstill
      rw [setPriority_current] at hcurrent
      split_ifs at hcurrent with hwas
      exact hwas hcurrent
    · exact h.setPriority htcb

lemma Agree.unblock_iff (h : Agree s) (pid : ProcessId) :
    Agree (s.unblock pid).1 ↔ s.Undisturbed (.unblock pid) := by
  unfold unblock
  cases hpcb : s.table.get pid with
  | none => simp [h, Undisturbed, hpcb]
  | some pcb =>
    simp only []
    split_ifs with hstate
    · refine iff_of_true h fun pcb' _ _ hpcb' hblocked => ?_
      cases hpcb.symm.trans hpcb'
      exact absurd hblocked hstate
    rw [not_not] at hstate
    have hwoken : Agree ((s.modify pid (wake s.sched)).enqueue pid
        (wake s.sched pcb).effectivePriority) :=
      h.admit hpcb (by simp [hstate]) rfl
    cases hwait : pcb.blockedOn with
    | none =>
      refine iff_of_true hwoken fun pcb' target _ hpcb' _ htarget => ?_
      cases hpcb.symm.trans hpcb'
      cases hwait.symm.trans htarget
    | some target =>
      refine (hwoken.revert_iff target).trans ?_
      -- the woken process itself was not running and is not running now
      have hget : ∀ tcb, tcb.state = .running →
          (((s.modify pid (wake s.sched)).enqueue pid
            (wake s.sched pcb).effectivePriority).table.get target = some tcb ↔
              s.table.get target = some tcb) := by
        intro tcb hrunning
        simp only [enqueue, ProcessSystem.modify, get_modify]
        split_ifs with htarget
        · rw [htarget, hpcb]
          refine iff_of_false (fun heq => ?_) (fun heq => ?_)
          · rw [← some.inj heq] at hrunning
            exact absurd hrunning (by simp [wake, Scheduler.applyIntentBoost])
          · rw [← some.inj heq, hstate] at hrunning
            cases hrunning
        · rfl
      constructor
      · intro hrevert pcb' target' tcb hpcb' _ htarget htcb hrunning
        cases hpcb.symm.trans hpcb'
        cases hwait.symm.trans htarget
        exact hrevert tcb ((hget tcb hrunning).mpr htcb) hrunning
      · intro hundisturbed tcb htcb hrunning
        exact hundisturbed pcb target tcb hpcb hstate hwait ((hget tcb hrunning).mp htcb)
          hrunning

lemma Agree.step_iff (h : Agree s) {op : Op} {ans : Ans} (hstep : s.step op = .ok (s', ans)) :
    Agree s' ↔ s.Undisturbed op := by
  cases op with
  | spawn supervisor intent strategy =>
    obtain ⟨⟨s1, result⟩, hspawn, hok⟩ := Exec.bind_eq_ok.mp hstep
    cases hok
    exact iff_of_true (h.spawn hspawn) trivial
  | crash pid =>
    obtain ⟨⟨s1, result⟩, hcrash, hok⟩ := Exec.bind_eq_ok.mp hstep
    cases hok
    exact iff_of_true (h.crash hcrash) trivial
  | block pid waitingOn =>
    cases hstep
    exact h.block_iff pid waitingOn
  | unblock pid =>
    cases hstep
    exact h.unblock_iff pid
  | installContext =>
    cases hstep
    exact iff_of_true (h.modify (fun _ => rfl) (fun _ => rfl)) trivial
  | terminate pid =>
    cases hstep
    exact iff_of_true (h.terminate pid) trivial
  | scheduleNext =>
    cases hstep
    exact iff_of_true (h.scheduleNext) trivial
  | tick =>
    cases hstep
    exact iff_of_true (h) trivial
  | timer frameRsp =>
    cases hstep
    exact iff_of_true (h.timerHandler frameRsp) trivial
  | runAging =>
    cases hstep
    exact iff_of_true (h.runAging) trivial

/-- **Scheduler and process table agree** in every state of every run from `process::init`
in which no call changes the priority of a running process through inheritance; and a call
of any other kind in a state in which they agree destroys the agreement. -/
theorem agreement_of_undisturbed (s : ProcessSystem) :
    (ReachableVia Undisturbed step init s → Agreement s) ∧
    ∀ s' op ans, Agreement s → step s op = .ok (s', ans) →
      (Agreement s' ↔ s.Undisturbed op) := by
  constructor
  · intro hreach
    exact agreement_iff.mpr (hreach.inv agree_init fun hs hguard hstep =>
      (hs.step_iff hstep).mpr hguard)
  · intro s' op ans hs hstep
    rw [agreement_iff] at hs ⊢
    exact hs.step_iff hstep

/-! ### A disturbance -/

/-- Process 2 runs while Butler, which has a higher priority, is ready. -/
def holder : ProcessSystem := final step init
  [.spawn .butler .default none, .block .butler none, .scheduleNext, .unblock .butler]

/-- Butler waits for the running process, which is put into a run queue for that and is no
longer current. -/
theorem running_holder_requeued :
    Reachable holder ∧ step holder (.block .butler (some 2)) =
      .ok ((holder.block .butler (some 2)).1, .done (.ok ())) ∧
    (holder.block .butler (some 2)).1.Running 2 ∧
    (holder.block .butler (some 2)).1.sched.current = none ∧
    2 ∈ (holder.block .butler (some 2)).1.sched.runQueues 4 ∧
    ¬ Agreement (holder.block .butler (some 2)).1 := by
  refine ⟨Machine.Reachable.of_returns rfl, rfl, rfl, rfl, by decide, fun hagree => ?_⟩
  have hcurrent := hagree.running_current 2 rfl
  exact absurd hcurrent (by decide)

/-- Up to that call, and after one more choice of a process, the records agree. -/
theorem holder_agreement : Agreement holder ∧ Agreement holder.scheduleNext.1 := by
  have hunblock : Undisturbed (final step init
      [.spawn .butler .default none, .block .butler none, .scheduleNext]) (.unblock .butler) := by
    intro pcb target tcb hpcb _ hwait
    cases hpcb
    cases hwait
  have hspawned : ReachableVia Undisturbed step init _ :=
    .tail (i := Op.spawn .butler .default none) .refl trivial rfl
  have hblocked := hspawned.tail (i := Op.block .butler none) trivial rfl
  have hchosen := hblocked.tail (i := Op.scheduleNext) trivial rfl
  have hholder : Agreement holder :=
    (agreement_of_undisturbed holder).1 (hchosen.tail (i := Op.unblock .butler) hunblock rfl)
  exact ⟨hholder,
    ((agreement_of_undisturbed holder).2 _ .scheduleNext _ hholder rfl).mpr trivial⟩

end Fabric.ProcessSystem
