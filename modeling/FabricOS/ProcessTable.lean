/-
Processes and the process table (`process/pcb.rs`, `process/table.rs`, and the restart
tracker of `process/supervisor.rs`).

A control block keeps what scheduling and supervision use of it; its description,
capabilities, behavioural profile, handle table and address space take no part in either
and are left out.  Entries are never removed from the table: a process that ends stays in
it as `Terminated`.

`next_pid` aborts when it overflows.  Ticks and priorities are numbers without a bound;
priorities never exceed 4.
-/
import FabricOS.Exec
import FabricOS.WireTypes
import Mathlib.Data.Finmap

namespace Fabric

/-! ### Wire types -/

inductive ProcessState where
  | ready
  | running
  | blocked
  | suspended
  | terminated
  deriving DecidableEq

inductive IntentCategory where
  | compute
  | io
  | network
  | storage
  | display
  | ai
  deriving DecidableEq

inductive Priority where
  | background
  | low
  | normal
  | high
  | critical
  deriving DecidableEq

def Priority.code : Priority → ℕ
  | .background => 0
  | .low => 1
  | .normal => 2
  | .high => 3
  | .critical => 4

inductive SupervisionStrategy where
  | oneForOne
  | oneForAll
  | restForOne
  deriving DecidableEq

structure Intent where
  category : IntentCategory
  priority : Priority
  /-- Tick of the deadline; 0 is none. -/
  deadline : ℕ
  deriving DecidableEq

def Intent.default : Intent := ⟨.compute, .normal, 0⟩

/-- The kernel as a supervisor, which has no control block. -/
def ProcessId.kernel : ProcessId := 0

def ProcessId.butler : ProcessId := 1

inductive ExitReason where
  | normal
  | crash
  | killed
  | intensityExceeded
  deriving DecidableEq

inductive ProcessError where
  | tableFull
  | notFound
  | alreadyExists
  | invalidState
  | supervisorNotFound
  | intensityExceeded
  deriving DecidableEq

/-! ### Restart intensity -/

def defaultMaxRestarts : ℕ := 5
def defaultIntensityWindow : ℕ := 60

structure RestartTracker where
  maxRestarts : ℕ
  windowTicks : ℕ
  restartTimestamps : List ℕ
  deriving DecidableEq

namespace RestartTracker

def new (maxRestarts windowTicks : ℕ) : RestartTracker := ⟨maxRestarts, windowTicks, []⟩

def default : RestartTracker := new defaultMaxRestarts defaultIntensityWindow

/-- Record a restart; the flag tells whether the intensity has been exceeded. -/
def recordRestart (r : RestartTracker) (now : ℕ) : RestartTracker × Bool :=
  let timestamps := r.restartTimestamps.filter (fun ts => now - ts < r.windowTicks) ++ [now]
  ({ r with restartTimestamps := timestamps }, timestamps.length > r.maxRestarts)

end RestartTracker

/-! ### Control blocks -/

structure ProcessControlBlock where
  intent : Intent
  state : ProcessState
  effectivePriority : ℕ
  basePriority : ℕ
  timeSliceRemaining : ℕ
  totalTicksRun : ℕ
  blockedOn : Option ProcessId
  lastScheduled : ℕ
  wakeTick : ℕ
  supervisor : ProcessId
  children : List ProcessId
  strategy : SupervisionStrategy
  spawnOrder : ℕ
  restartTracker : RestartTracker
  exitReason : Option ExitReason
  createdAt : ℕ
  savedRsp : ℕ
  kernelStackBase : Option ℕ
  kernelStackTop : ℕ
  hasRun : Bool
  isUser : Bool
  exitCode : ℕ
  deriving DecidableEq

namespace ProcessControlBlock

def new (intent : Intent) (supervisor : ProcessId) (strategy : SupervisionStrategy)
    (spawnOrder createdAt : ℕ) : ProcessControlBlock where
  intent := intent
  state := .ready
  effectivePriority := intent.priority.code
  basePriority := intent.priority.code
  timeSliceRemaining := 0
  totalTicksRun := 0
  blockedOn := none
  lastScheduled := 0
  wakeTick := 0
  supervisor := supervisor
  children := []
  strategy := strategy
  spawnOrder := spawnOrder
  restartTracker := .default
  exitReason := none
  createdAt := createdAt
  savedRsp := 0
  kernelStackBase := none
  kernelStackTop := 0
  hasRun := false
  isUser := false
  exitCode := 0

/-- Reset for a restart; identity, supervision links and the kernel stack are kept. -/
def resetForRestart (pcb : ProcessControlBlock) (now : ℕ) : ProcessControlBlock :=
  { pcb with
    state := .ready
    effectivePriority := pcb.basePriority
    timeSliceRemaining := 0
    blockedOn := none
    lastScheduled := 0
    wakeTick := 0
    exitReason := none
    createdAt := now
    savedRsp := 0
    hasRun := false }

/-- Killed by the supervisor, unless it has ended already. -/
def killed (pcb : ProcessControlBlock) : ProcessControlBlock :=
  if pcb.state ≠ .terminated then
    { pcb with state := .terminated, exitReason := some .killed }
  else pcb

lemma killed_state (pcb : ProcessControlBlock) : pcb.killed.state = .terminated := by
  unfold killed
  split_ifs with h
  · rfl
  · exact not_not.mp h

lemma killed_killed (pcb : ProcessControlBlock) : pcb.killed.killed = pcb.killed := by
  rw [killed, if_neg (not_not.mpr pcb.killed_state)]

lemma resetForRestart_killed (pcb : ProcessControlBlock) (now : ℕ) :
    pcb.killed.resetForRestart now = pcb.resetForRestart now := by
  unfold killed
  split_ifs <;> rfl

end ProcessControlBlock

/-! ### The table -/

structure ProcessTable where
  processes : Finmap fun _ : ProcessId => ProcessControlBlock
  nextPid : ProcessId

namespace ProcessTable

def maxProcesses : ℕ := 1024

variable {t : ProcessTable} {p q : ProcessId} {pcb : ProcessControlBlock}
  {f : ProcessControlBlock → ProcessControlBlock}

def new : ProcessTable := ⟨∅, 1⟩

def allocPid (t : ProcessTable) : Exec (ProcessTable × ProcessId) :=
  if t.nextPid.toNat + 1 < 2 ^ 32 then .ok ({ t with nextPid := t.nextPid + 1 }, t.nextPid)
  else .panic

def get (t : ProcessTable) (pid : ProcessId) : Option ProcessControlBlock :=
  t.processes.lookup pid

def insert (t : ProcessTable) (pid : ProcessId) (pcb : ProcessControlBlock) :
    ProcessTable × Except ProcessError Unit :=
  if t.processes.keys.card ≥ maxProcesses then (t, .error .tableFull)
  else if pid ∈ t.processes then (t, .error .alreadyExists)
  else ({ t with processes := t.processes.insert pid pcb }, .ok ())

/-- Write to a control block through `get_mut`, if there is one. -/
def modify (t : ProcessTable) (pid : ProcessId) (f : ProcessControlBlock → ProcessControlBlock) :
    ProcessTable :=
  match t.processes.lookup pid with
  | some pcb => { t with processes := t.processes.insert pid (f pcb) }
  | none => t

lemma get_modify : (t.modify p f).get q = if q = p then (t.get q).map f else t.get q := by
  unfold modify get
  by_cases hqp : q = p
  · subst hqp
    cases hget : t.processes.lookup q with
    | some pcb => simp
    | none => simp [hget]
  · cases hget : t.processes.lookup p with
    | some pcb => simp [hqp, Finmap.lookup_insert_of_ne _ hqp]
    | none => simp [hqp]

@[simp] lemma get_modify_self : (t.modify p f).get p = (t.get p).map f := by
  rw [get_modify, if_pos rfl]

lemma get_modify_ne (h : q ≠ p) : (t.modify p f).get q = t.get q := by
  rw [get_modify, if_neg h]

variable {t' : ProcessTable}

lemma insert_error {e : ProcessError} (h : t.insert p pcb = (t', .error e)) : t' = t := by
  unfold insert at h
  split_ifs at h
  · exact (Prod.mk.inj h).1.symm
  · exact (Prod.mk.inj h).1.symm
  · simp at h

lemma insert_nextPid {result : Except ProcessError Unit}
    (h : t.insert p pcb = (t', result)) : t'.nextPid = t.nextPid := by
  unfold insert at h
  split_ifs at h <;> exact congrArg (·.1.nextPid) h.symm

lemma insert_ok (h : t.insert p pcb = (t', .ok ())) :
    t.get p = none ∧ ∀ q, t'.get q = if q = p then some pcb else t.get q := by
  unfold insert at h
  split_ifs at h with hfull hmem
  · simp at h
  · simp at h
  simp only [Prod.mk.injEq, and_true] at h
  subst h
  refine ⟨Finmap.lookup_eq_none.mpr hmem, fun q => ?_⟩
  by_cases hqp : q = p
  · subst hqp; simp [get]
  · simp [get, hqp, Finmap.lookup_insert_of_ne _ hqp]

end ProcessTable

end Fabric
