/-
The scheduler (`process/scheduler.rs`) and the timer interrupt that drives it
(`x86/idt.rs`).

Five run queues, one for each priority level, are drained from the highest level down.
The scheduler works on the process table as well: what it decides is written to the
control blocks.  `ProcessSystem` is the pair of the two, as the kernel holds both locks.

A context switch is modelled by its decision; the register and page-table writes that
carry it out do not touch table or scheduler and are left out.
-/
import FabricOS.ProcessTable

open Function

namespace Fabric

abbrev Level := Fin 5

def level (effectivePriority : ℕ) : Level := ⟨min effectivePriority 4, by omega⟩

def agingInterval : ℕ := 100
def deadlineUrgency : ℕ := 10

def sliceForPriority : ℕ → ℕ
  | 4 => 20
  | 3 => 15
  | 2 => 10
  | 1 => 5
  | _ => 2

structure Scheduler where
  runQueues : Level → List ProcessId
  current : Option ProcessId
  currentTick : ℕ
  totalDecisions : ℕ

namespace Scheduler

def new : Scheduler := ⟨fun _ => [], none, 0, 0⟩

def tick (s : Scheduler) : Scheduler := { s with currentTick := s.currentTick + 1 }

/-- Enqueue a process, unless it is already in that queue. -/
def enqueue (s : Scheduler) (pid : ProcessId) (effectivePriority : ℕ) : Scheduler :=
  let l := level effectivePriority
  if pid ∈ s.runQueues l then s
  else { s with runQueues := update s.runQueues l (s.runQueues l ++ [pid]) }

def dequeue (s : Scheduler) (pid : ProcessId) : Scheduler :=
  { s with
    runQueues := fun l => (s.runQueues l).filter (· ≠ pid)
    current := if s.current = some pid then none else s.current }

def applyIntentBoost (s : Scheduler) (pcb : ProcessControlBlock) : ProcessControlBlock :=
  let now := s.currentTick
  let capped := if pcb.intent.category = .compute ∧ pcb.intent.priority = .background then
      min pcb.effectivePriority Priority.low.code
    else pcb.effectivePriority
  let woken := match pcb.intent.category with
    | .io | .network | .storage =>
      if pcb.wakeTick = now then min (capped + 1) Priority.critical.code else capped
    | _ => capped
  let shown := if pcb.intent.category = .display ∧ now - pcb.wakeTick < 5 then
      min (woken + 1) Priority.critical.code
    else woken
  let urgent := if 0 < pcb.intent.deadline ∧ pcb.intent.deadline - now ≤ deadlineUrgency then
      Priority.critical.code
    else shown
  { pcb with effectivePriority := urgent }

end Scheduler

structure ProcessSystem where
  table : ProcessTable
  sched : Scheduler

namespace ProcessSystem

/-! ### Writes -/

def modify (s : ProcessSystem) (pid : ProcessId)
    (f : ProcessControlBlock → ProcessControlBlock) : ProcessSystem :=
  { s with table := s.table.modify pid f }

def enqueue (s : ProcessSystem) (pid : ProcessId) (effectivePriority : ℕ) : ProcessSystem :=
  { s with sched := s.sched.enqueue pid effectivePriority }

def dequeue (s : ProcessSystem) (pid : ProcessId) : ProcessSystem :=
  { s with sched := s.sched.dequeue pid }

/-! ### Choosing the next process -/

/-- The current process, if it is running and has some of its time slice left. -/
def keptCurrent (s : ProcessSystem) : Option ProcessId :=
  s.sched.current.filter fun pid =>
    match s.table.get pid with
    | some pcb => pcb.state = .running ∧ 0 < pcb.timeSliceRemaining
    | none => false

lemma keptCurrent_eq_some {s : ProcessSystem} {pid : ProcessId} (h : s.keptCurrent = some pid) :
    ∃ pcb, s.table.get pid = some pcb ∧ pcb.state = .running := by
  obtain ⟨-, hrunning⟩ := Option.filter_eq_some_iff.mp h
  cases hpcb : s.table.get pid with
  | none => simp [hpcb] at hrunning
  | some pcb =>
    simp only [hpcb, decide_eq_true_eq] at hrunning
    exact ⟨pcb, rfl, hrunning.1⟩

def requeueCurrent (s : ProcessSystem) : ProcessSystem :=
  match s.sched.current with
  | none => s
  | some pid =>
    let s := { s with sched := { s.sched with current := none } }
    match s.table.get pid with
    | some pcb =>
      if pcb.state = .running then
        (s.modify pid fun pcb => { pcb with state := .ready }).enqueue pid pcb.effectivePriority
      else s
    | none => s

def pickNext : List Level → ProcessSystem → ProcessSystem × Option ProcessId
  | [], s => (s, none)
  | l :: levels, s =>
    match s.sched.runQueues l with
    | [] => pickNext levels s
    | pid :: rest =>
      let s := { s with
        sched := { s.sched with runQueues := update s.sched.runQueues l rest } }
      match s.table.get pid with
      | some _ =>
        let s := s.modify pid fun pcb =>
          { pcb with
            state := .running
            timeSliceRemaining := sliceForPriority pcb.effectivePriority
            lastScheduled := s.sched.currentTick }
        ({ s with sched := { s.sched with
            current := some pid, totalDecisions := s.sched.totalDecisions + 1 } }, some pid)
      | none => pickNext levels s

def levelsDown : List Level := [4, 3, 2, 1, 0]

def scheduleNext (s : ProcessSystem) : ProcessSystem × Option ProcessId :=
  match s.keptCurrent with
  | some pid => (s, some pid)
  | none => pickNext levelsDown s.requeueCurrent

/-! ### Aging -/

/-- The processes that have waited too long, with their level and new priority. -/
def starved (s : ProcessSystem) : List (ProcessId × Level × ℕ) :=
  ([0, 1, 2, 3] : List Level).flatMap fun l =>
    (s.sched.runQueues l).filterMap fun pid =>
      match s.table.get pid with
      | some pcb =>
        if pcb.state = .ready ∧ s.sched.currentTick - pcb.lastScheduled ≥ agingInterval ∧
            pcb.effectivePriority < 4 then
          some (pid, l, pcb.effectivePriority + 1)
        else none
      | none => none

def promote (s : ProcessSystem) (b : ProcessId × Level × ℕ) : ProcessSystem :=
  let (pid, oldLevel, newPriority) := b
  let removed := update s.sched.runQueues oldLevel
    ((s.sched.runQueues oldLevel).filter (· ≠ pid))
  let s := s.modify pid fun pcb => { pcb with effectivePriority := newPriority }
  { s with sched := { s.sched with
      runQueues := update removed (level newPriority)
        (removed (level newPriority) ++ [pid]) } }

def runAging (s : ProcessSystem) : ProcessSystem := s.starved.foldl promote s

/-! ### The timer interrupt -/

/-- Consume a tick of the current time slice; the flag tells whether some is left. -/
def consumeTick (s : ProcessSystem) : ProcessSystem × Bool :=
  match s.sched.current with
  | none => (s, false)
  | some pid =>
    match s.table.get pid with
    | none => (s, false)
    | some pcb =>
      if 0 < pcb.timeSliceRemaining then
        (s.modify pid fun pcb =>
          { pcb with
            timeSliceRemaining := pcb.timeSliceRemaining - 1
            totalTicksRun := pcb.totalTicksRun + 1 },
          decide (0 < pcb.timeSliceRemaining - 1))
      else (s, false)

def switchToProcess (t : ProcessTable) (pid : ProcessId) : Bool :=
  match t.get pid with
  | some pcb => pcb.kernelStackBase.isSome && pcb.savedRsp ≠ 0
  | none => false

def reenqueue (s : ProcessSystem) (skipped : List (ProcessId × ℕ)) : ProcessSystem :=
  skipped.foldl (fun s p => s.enqueue p.1 p.2) s

/-- The loop of `try_switch_next`: choose processes until one can be switched to.  The
others are set aside, so that they are not chosen again. -/
def trySwitchLoop : ℕ → ProcessSystem → List (ProcessId × ℕ) → ProcessSystem
  | 0, s, skipped => s.reenqueue skipped
  | n + 1, s, skipped =>
    match s.scheduleNext with
    | (s, none) => s.reenqueue skipped
    | (s, some pid) =>
      if switchToProcess s.table pid then s.reenqueue skipped
      else
        let priority := ((s.table.get pid).map (·.effectivePriority)).getD 0
        let s := (s.dequeue pid).modify pid fun pcb => { pcb with state := .ready }
        trySwitchLoop n s (skipped ++ [(pid, priority)])

/-- Find a process to switch to, in at most eight attempts. -/
def trySwitchNext (s : ProcessSystem) : ProcessSystem := trySwitchLoop 8 s []

def tick (s : ProcessSystem) : ProcessSystem := { s with sched := s.sched.tick }

/-- The timer interrupt, with the interrupted context at `frameRsp`. -/
def timerHandler (s : ProcessSystem) (frameRsp : ℕ) : ProcessSystem :=
  let s := s.tick
  match s.sched.current with
  | none => s.trySwitchNext
  | some pid =>
    if (s.table.get pid).map (·.state) = some .terminated then s.trySwitchNext
    else
      match s.consumeTick with
      | (s, true) => s
      | (s, false) =>
        (s.modify pid fun pcb =>
          if pcb.kernelStackBase.isSome then { pcb with savedRsp := frameRsp }
          else pcb).trySwitchNext

/-- What is kept when a process is charged for a tick or its context saved, and when the timer
switches, is kept by the timer interrupt. -/
lemma timerHandler_induct {P : ProcessSystem → Prop} {s : ProcessSystem} (h : P s.tick)
    (frameRsp : ℕ) (charge : ∀ {s : ProcessSystem} {pid f}, s.sched.current = some pid →
      (∀ pcb : ProcessControlBlock, ∃ slice total rsp, f pcb = { pcb with
        timeSliceRemaining := slice, totalTicksRun := total, savedRsp := rsp }) →
      P s → P (s.modify pid f))
    (switch : ∀ {s : ProcessSystem}, P s → P s.trySwitchNext) : P (s.timerHandler frameRsp) := by
  unfold timerHandler
  simp only []
  split
  · exact switch h
  next pid hpid =>
  have hconsumed : P s.tick.consumeTick.1 ∧
      s.tick.consumeTick.1.sched.current = some pid := by
    simp only [consumeTick, hpid]
    split
    · exact ⟨h, hpid⟩
    · split_ifs
      · exact ⟨charge hpid (fun _ => ⟨_, _, _, rfl⟩) h, hpid⟩
      · exact ⟨h, hpid⟩
  split_ifs
  · exact switch h
  split
  · next heq =>
    rw [heq] at hconsumed
    exact hconsumed.1
  next heq =>
  rw [heq] at hconsumed
  refine switch (charge hconsumed.2 (fun pcb => ?_) hconsumed.1)
  split_ifs <;> exact ⟨_, _, _, rfl⟩

end ProcessSystem

end Fabric
