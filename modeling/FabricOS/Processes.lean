/-
The life cycle of processes (`process/mod.rs`, `process/butler.rs`) and their supervision
(`process/supervisor.rs`).

Every call holds the locks of table and scheduler, so it is one step of a machine on
`ProcessSystem`.  Registration on the message bus and the release of sockets happen
outside of these two and are left out.

A blocked process lends its priority to the process it waits for, and on along the chain
of waits, to a depth of four.  A crash is answered by the supervisor's strategy; a
supervisor whose children crash too often is terminated, and its own supervisor answers
for it.  This escalation follows the chain of supervisors, which is as long as the model's
fuel allows.
-/
import FabricOS.Machine
import FabricOS.Scheduler

open Exec

namespace Fabric

open ProcessTable ProcessControlBlock

namespace ProcessSystem

/-! ### Spawning and ending -/

def butlerMaxRestarts : ℕ := 1000
def butlerIntensityWindow : ℕ := 60

def butlerPcb : ProcessControlBlock :=
  { ProcessControlBlock.new ⟨.compute, .critical, 0⟩ .kernel .oneForOne 0 0 with
    restartTracker := .new butlerMaxRestarts butlerIntensityWindow }

/-- The system after `process::init`: Butler has taken the process id 1. -/
def init : ProcessSystem where
  table := { processes := (∅ : Finmap _).insert .butler butlerPcb, nextPid := 2 }
  sched := Scheduler.new.enqueue .butler Priority.critical.code

def spawn (s : ProcessSystem) (supervisor : ProcessId) (intent : Intent)
    (strategy : Option SupervisionStrategy) :
    Exec (ProcessSystem × Except ProcessError ProcessId) :=
  match s.table.get supervisor with
  | none => .ok (s, .error .supervisorNotFound)
  | some sup => do
    let (table, pid) ← s.table.allocPid
    let pcb := ProcessControlBlock.new intent supervisor (strategy.getD .oneForOne)
      sup.children.length s.sched.currentTick
    match table.insert pid pcb with
    | (table, .error e) => .ok ({ s with table := table }, .error e)
    | (table, .ok ()) =>
      let s := { s with table := table }
      let s := s.modify supervisor fun sup => { sup with children := sup.children ++ [pid] }
      .ok (s.enqueue pid pcb.effectivePriority, .ok pid)

/-- Store the initial context of a user process, as `spawn_user` does after `spawn`. -/
def installContext (s : ProcessSystem) (pid : ProcessId) (stackBase stackTop rsp : ℕ) :
    ProcessSystem :=
  s.modify pid fun pcb =>
    { pcb with
      savedRsp := rsp
      kernelStackBase := some stackBase
      kernelStackTop := stackTop
      hasRun := false
      isUser := true }

def terminate (s : ProcessSystem) (pid : ProcessId) : ProcessSystem × Except ProcessError Unit :=
  match s.table.get pid with
  | none => (s, .error .notFound)
  | some pcb =>
    let s := s.modify pid fun pcb =>
      { pcb with state := .terminated, exitReason := some .normal }
    let s := s.dequeue pid
    (s.modify pcb.supervisor fun sup =>
      { sup with children := sup.children.filter (· ≠ pid) }, .ok ())

/-! ### Blocking -/

def maxInheritanceDepth : ℕ := 4

def setPriority (s : ProcessSystem) (pid : ProcessId) (state : ProcessState) (priority : ℕ) :
    ProcessSystem :=
  let s := (s.modify pid fun pcb => { pcb with effectivePriority := priority }).dequeue pid
  if state = .ready ∨ state = .running then s.enqueue pid priority else s

/-- Priority inheritance along the chain of waits, for the given number of processes. -/
def applyPriorityInheritance (boostPriority : ℕ) : ℕ → ProcessSystem → ProcessId → ProcessSystem
  | 0, s, _ => s
  | depth + 1, s, targetPid =>
    match s.table.get targetPid with
    | none => s
    | some target =>
      if target.effectivePriority < boostPriority then
        let s := s.setPriority targetPid target.state boostPriority
        match target.blockedOn with
        | some next => applyPriorityInheritance boostPriority depth s next
        | none => s
      else s

def suspend (s : ProcessSystem) (pid : ProcessId) (waitingOn : Option ProcessId) : ProcessSystem :=
  (s.modify pid fun pcb => { pcb with state := .blocked, blockedOn := waitingOn }).dequeue pid

/-- Block a process, which may declare what process it waits for. -/
def block (s : ProcessSystem) (pid : ProcessId) (waitingOn : Option ProcessId) :
    ProcessSystem × Except ProcessError Unit :=
  match s.table.get pid with
  | none => (s, .error .notFound)
  | some pcb =>
    if pcb.state ≠ .running ∧ pcb.state ≠ .ready then (s, .error .invalidState)
    else
      let s := s.suspend pid waitingOn
      match waitingOn with
      | some targetPid =>
        (applyPriorityInheritance pcb.effectivePriority maxInheritanceDepth s targetPid, .ok ())
      | none => (s, .ok ())

def revertPriorityInheritance (s : ProcessSystem) (targetPid : ProcessId) : ProcessSystem :=
  match s.table.get targetPid with
  | none => s
  | some target =>
    if target.effectivePriority ≠ target.basePriority then
      s.setPriority targetPid target.state target.basePriority
    else s

def wake (sched : Scheduler) (pcb : ProcessControlBlock) : ProcessControlBlock :=
  sched.applyIntentBoost
    { pcb with blockedOn := none, state := .ready, wakeTick := sched.currentTick }

/-- Unblock a process; the process it waited for returns to its base priority. -/
def unblock (s : ProcessSystem) (pid : ProcessId) : ProcessSystem × Except ProcessError Unit :=
  match s.table.get pid with
  | none => (s, .error .notFound)
  | some pcb =>
    if pcb.state ≠ .blocked then (s, .error .invalidState)
    else
      let s := (s.modify pid (wake s.sched)).enqueue pid (wake s.sched pcb).effectivePriority
      match pcb.blockedOn with
      | some targetPid => (s.revertPriorityInheritance targetPid, .ok ())
      | none => (s, .ok ())

/-! ### Supervision -/

def restartProcess (now : ℕ) (s : ProcessSystem) (pid : ProcessId) : ProcessSystem :=
  match s.table.get pid with
  | some pcb =>
    (s.modify pid (·.resetForRestart now)).enqueue pid (pcb.resetForRestart now).effectivePriority
  | none => s

def stop (s : ProcessSystem) (pid : ProcessId) (reason : ExitReason) : ProcessSystem :=
  (s.modify pid fun pcb =>
    { pcb with state := .terminated, exitReason := some reason }).dequeue pid

def killChild (s : ProcessSystem) (pid : ProcessId) : ProcessSystem :=
  match s.table.get pid with
  | some pcb => if pcb.state ≠ .terminated then s.stop pid .killed else s
  | none => s

/-- Terminate a group of children, then restart all of them. -/
def restartGroup (s : ProcessSystem) (children : List ProcessId) (now : ℕ) : ProcessSystem :=
  children.foldl (restartProcess now) (children.foldl killChild s)

/-- The children that `RestForOne` restarts: those spawned no earlier than the crashed one. -/
def restOf (s : ProcessSystem) (children : List ProcessId) (crashedPid : ProcessId) :
    List ProcessId :=
  let crashedOrder := ((s.table.get crashedPid).map (·.spawnOrder)).getD 0
  children.filter fun child =>
    match s.table.get child with
    | some pcb => crashedOrder ≤ pcb.spawnOrder
    | none => false

/-- The supervisor's answer to the crash of a child, within the restart intensity. -/
def applyStrategy (s : ProcessSystem) (sup : ProcessControlBlock) (crashedPid : ProcessId)
    (now : ℕ) : ProcessSystem × ℕ :=
  match sup.strategy with
  | .oneForOne => (restartProcess now s crashedPid, 1)
  | .oneForAll => (s.restartGroup sup.children now, sup.children.length)
  | .restForOne =>
    let affected := s.restOf sup.children crashedPid
    (s.restartGroup affected now, affected.length)

/-- Handle the crash of a child: restart by the strategy of the supervisor or, if children
have crashed too often, terminate the supervisor and escalate. -/
def handleChildCrash (now : ℕ) : ℕ → ProcessSystem → (supervisorPid crashedPid : ProcessId) →
    Exec (ProcessSystem × Except ProcessError ℕ)
  | 0, _, _, _ => .diverge
  | fuel + 1, s, supervisorPid, crashedPid =>
    match s.table.get supervisorPid with
    | none => .ok (s, .error .supervisorNotFound)
    | some sup =>
      let (tracker, exceeded) := sup.restartTracker.recordRestart now
      let s := s.modify supervisorPid fun sup => { sup with restartTracker := tracker }
      if exceeded then
        let s := s.stop supervisorPid .intensityExceeded
        if sup.supervisor ≠ ProcessId.kernel then do
          let (s, _) ← handleChildCrash now fuel s sup.supervisor supervisorPid
          .ok (s, .error .intensityExceeded)
        else .ok (s, .error .intensityExceeded)
      else
        let (s, restarted) := s.applyStrategy sup crashedPid now
        .ok (s, .ok restarted)

variable {now : ℕ}

/-- What stopping and restarting a process keeps, the strategies keep. -/
lemma applyStrategy_induct {P : ProcessSystem → Prop} (h : P s)
    (hstop : ∀ {s} p, P s → P (s.stop p .killed))
    (hrestart : ∀ {s} p, P s → P (restartProcess now s p)) (sup : ProcessControlBlock)
    (crashed : ProcessId) : P (s.applyStrategy sup crashed now).1 := by
  have hgroup : ∀ children, P (s.restartGroup children now) := by
    intro children
    refine List.foldlRecOn children _ (List.foldlRecOn children _ h fun s h p _ => ?_)
      fun _ h p _ => hrestart p h
    unfold killChild
    split
    · split_ifs
      · exact hstop p h
      · exact h
    · exact h
  unfold applyStrategy
  split
  · exact hrestart crashed h
  · exact hgroup _
  · exact hgroup _

/-- **What the answer to a crash keeps** is kept by its steps: a note of the restart, the end of
a supervisor, for which its own supervisor then answers, and what the strategy does. -/
theorem handleChildCrash_induct {P : ProcessSystem → ProcessId → Prop} {Q : ProcessSystem → Prop}
    (hdone : ∀ {s crashed}, P s crashed → Q s) (hnote : ∀ {s crashed} p tracker, P s crashed →
      P (s.modify p fun sup => { sup with restartTracker := tracker }) crashed)
    (hstop : ∀ {s crashed} p, P s crashed → P (s.stop p .intensityExceeded) p)
    (happly : ∀ {s crashed} sup, P s crashed → Q (s.applyStrategy sup crashed now).1) {fuel : ℕ}
    {supervisor crashed : ProcessId} {result : Except ProcessError ℕ} (h : P s crashed)
    (hcall : handleChildCrash now fuel s supervisor crashed = .ok (s', result)) : Q s' := by
  induction fuel generalizing s s' supervisor crashed result with
  | zero => simp [handleChildCrash] at hcall
  | succ fuel ih =>
    unfold handleChildCrash at hcall
    cases hsup : s.table.get supervisor with
    | none =>
      simp only [hsup, ok.injEq, Prod.mk.injEq] at hcall
      exact hcall.1 ▸ hdone h
    | some sup =>
      simp only [hsup] at hcall
      generalize sup.restartTracker.recordRestart now = recorded at hcall
      obtain ⟨tracker, exceeded⟩ := recorded
      have hnoted := hnote supervisor tracker h
      split_ifs at hcall with hexceeded hroot
      · -- the supervisor ends, and its own supervisor answers for it
        simp only [bind_eq_ok, ok.injEq, Prod.mk.injEq] at hcall
        obtain ⟨⟨s1, result1⟩, hcall, rfl, -⟩ := hcall
        exact ih (hstop supervisor hnoted) hcall
      · cases hcall
        exact hdone (hstop supervisor hnoted)
      · cases hcall
        exact happly sup hnoted

def escalationFuel (supervisorPid : ProcessId) : ℕ := supervisorPid.toNat + 1

def crash (s : ProcessSystem) (pid : ProcessId) : Exec (ProcessSystem × Except ProcessError Unit) :=
  match s.table.get pid with
  | none => .ok (s, .error .notFound)
  | some pcb => do
    let s := s.stop pid .crash
    let (s, _) ← handleChildCrash s.sched.currentTick (escalationFuel pcb.supervisor) s
      pcb.supervisor pid
    .ok (s, .ok ())

/-! ### The machine -/

inductive Op where
  | spawn (supervisor : ProcessId) (intent : Intent) (strategy : Option SupervisionStrategy)
  | installContext (pid : ProcessId) (stackBase stackTop rsp : ℕ)
  | terminate (pid : ProcessId)
  | block (pid : ProcessId) (waitingOn : Option ProcessId)
  | unblock (pid : ProcessId)
  | crash (pid : ProcessId)
  | scheduleNext
  | tick
  | timer (frameRsp : ℕ)
  | runAging

inductive Ans where
  | spawned (result : Except ProcessError ProcessId)
  | done (result : Except ProcessError Unit)
  | chosen (pid : Option ProcessId)
  | none

def step (s : ProcessSystem) : Op → Exec (ProcessSystem × Ans)
  | .spawn supervisor intent strategy => do
    let (s, result) ← s.spawn supervisor intent strategy
    .ok (s, .spawned result)
  | .installContext pid stackBase stackTop rsp =>
    .ok (s.installContext pid stackBase stackTop rsp, .none)
  | .terminate pid => let (s, result) := s.terminate pid; .ok (s, .done result)
  | .block pid waitingOn => let (s, result) := s.block pid waitingOn; .ok (s, .done result)
  | .unblock pid => let (s, result) := s.unblock pid; .ok (s, .done result)
  | .crash pid => do
    let (s, result) ← s.crash pid
    .ok (s, .done result)
  | .scheduleNext => let (s, pid) := s.scheduleNext; .ok (s, .chosen pid)
  | .tick => .ok (s.tick, .none)
  | .timer frameRsp => .ok (s.timerHandler frameRsp, .none)
  | .runAging => .ok (s.runAging, .none)

def Reachable (s : ProcessSystem) : Prop := Machine.Reachable step init s

/-! ### What the calls do to the control blocks -/

variable {s s' : ProcessSystem} {p q : ProcessId}

lemma allocPid_get {t t' : ProcessTable} (h : t.allocPid = .ok (t', p)) (q : ProcessId) :
    t'.get q = t.get q := by
  unfold allocPid at h
  split_ifs at h
  cases h
  rfl

lemma spawn_cases {supervisor : ProcessId} {intent : Intent}
    {strategy : Option SupervisionStrategy} {result : Except ProcessError ProcessId}
    (h : s.spawn supervisor intent strategy = .ok (s', result)) :
    ((∃ e, result = .error e) ∧ s'.sched = s.sched ∧ ∀ q, s'.table.get q = s.table.get q) ∨
    ∃ s1 : ProcessSystem, ∃ pid pcb sup, result = .ok pid ∧
      s.table.get supervisor = some sup ∧ s.table.get pid = none ∧ s1.sched = s.sched ∧
      pcb = .new intent supervisor (strategy.getD .oneForOne) sup.children.length
        s.sched.currentTick ∧
      (∀ q, s1.table.get q = if q = pid then some pcb else s.table.get q) ∧
      s' = (s1.modify supervisor fun sup => { sup with children := sup.children ++ [pid] }).enqueue
        pid pcb.effectivePriority := by
  unfold ProcessSystem.spawn at h
  cases hsup : s.table.get supervisor with
  | none =>
    simp only [hsup, ok.injEq, Prod.mk.injEq] at h
    exact .inl ⟨⟨_, h.2.symm⟩, h.1 ▸ ⟨rfl, fun _ => rfl⟩⟩
  | some sup =>
    simp only [hsup, bind_eq_ok] at h
    obtain ⟨⟨table, pid⟩, halloc, h⟩ := h
    generalize hpcb : new intent supervisor (strategy.getD .oneForOne)
      sup.children.length s.sched.currentTick = pcb at h
    generalize hinsert : table.insert pid pcb = inserted at h
    obtain ⟨table', _ | _⟩ := inserted
    · simp only [ok.injEq, Prod.mk.injEq] at h
      refine .inl ⟨⟨_, h.2.symm⟩, ?_⟩
      have hsame : table' = table := by
        unfold ProcessTable.insert at hinsert
        split_ifs at hinsert <;> simp_all
      rw [← h.1, hsame]
      exact ⟨rfl, allocPid_get halloc⟩
    · simp only [ok.injEq, Prod.mk.injEq] at h
      obtain ⟨hfresh, hget⟩ := insert_ok hinsert
      rw [allocPid_get halloc] at hfresh
      refine .inr ⟨{ s with table := table' }, pid, pcb, sup, h.2.symm, rfl, hfresh, rfl,
        hpcb.symm, ?_, h.1.symm⟩
      intro q
      rw [← allocPid_get halloc q]
      exact hget q

lemma setPriority_table {state : ProcessState} {priority : ℕ} :
    (s.setPriority p state priority).table =
      s.table.modify p fun pcb => { pcb with effectivePriority := priority } := by
  unfold setPriority
  split_ifs <;> rfl

def boosted (boostPriority : ℕ) : ℕ → ProcessSystem → ProcessId → List ProcessId
  | 0, _, _ => []
  | depth + 1, s, targetPid =>
    match s.table.get targetPid with
    | none => []
    | some target =>
      if target.effectivePriority < boostPriority then
        targetPid :: match target.blockedOn with
          | some next =>
            boosted boostPriority depth (s.setPriority targetPid target.state boostPriority) next
          | none => []
      else []

/-- Priority inheritance sets the priorities of the boosted processes, one after the other. -/
lemma applyPriorityInheritance_induct {boostPriority : ℕ}
    {P : ProcessSystem → List ProcessId → Prop}
    (set : ∀ {s q rest pcb}, s.table.get q = some pcb → P s (q :: rest) →
      P (s.setPriority q pcb.state boostPriority) rest) {depth : ℕ} {target : ProcessId}
    (h : P s (boosted boostPriority depth s target)) :
    P (applyPriorityInheritance boostPriority depth s target) [] := by
  induction depth generalizing s target with
  | zero => exact h
  | succ depth ih =>
    unfold boosted at h
    unfold applyPriorityInheritance
    cases hpcb : s.table.get target with
    | none =>
      rw [hpcb] at h
      exact h
    | some pcb =>
      simp only [hpcb] at h ⊢
      split_ifs at h ⊢
      · have hset := set hpcb h
        cases hnext : pcb.blockedOn with
        | none =>
          rw [hnext] at hset
          exact hset
        | some next =>
          rw [hnext] at hset
          exact ih hset
      · exact h

lemma get_applyPriorityInheritance {boostPriority depth : ℕ} {target : ProcessId} :
    (applyPriorityInheritance boostPriority depth s target).table.get q =
      if q ∈ boosted boostPriority depth s target then
        (s.table.get q).map fun pcb => { pcb with effectivePriority := boostPriority }
      else s.table.get q := by
  refine Exists.elim (applyPriorityInheritance_induct
    (P := fun s' rest => ∃ done, boosted boostPriority depth s target = done ++ rest ∧
      s'.table.get q = if q ∈ done then
        (s.table.get q).map fun pcb => { pcb with effectivePriority := boostPriority }
      else s.table.get q) ?_ ⟨[], rfl, by simp⟩) ?_
  · rintro s' p rest pcb - ⟨done, hdone, hget⟩
    refine ⟨done ++ [p], by rw [hdone, List.append_assoc]; rfl, ?_⟩
    rw [setPriority_table, get_modify, hget]
    by_cases hp : q = p <;> by_cases hmem : q ∈ done <;> simp_all [Function.comp_def]
  · rintro done ⟨hdone, hget⟩
    rw [hdone, List.append_nil]
    exact hget

lemma get_suspend {waitingOn : Option ProcessId} : (s.suspend p waitingOn).table.get q =
    if q = p then (s.table.get q).map fun pcb =>
      { pcb with state := .blocked, blockedOn := waitingOn }
    else s.table.get q :=
  get_modify

lemma get_stop {reason : ExitReason} : (s.stop p reason).table.get q =
    if q = p then (s.table.get q).map fun pcb =>
      { pcb with state := .terminated, exitReason := some reason }
    else s.table.get q :=
  get_modify

lemma get_restartProcess : (restartProcess now s p).table.get q =
    if q = p then (s.table.get q).map (·.resetForRestart now) else s.table.get q := by
  unfold restartProcess
  cases hpcb : s.table.get p with
  | none =>
    split_ifs with hq
    · simp [hq, hpcb]
    · rfl
  | some pcb => exact get_modify

lemma get_killChild : (s.killChild p).table.get q =
    if q = p then (s.table.get q).map (·.killed) else s.table.get q := by
  unfold killChild
  cases hpcb : s.table.get p with
  | none =>
    split_ifs with hq
    · simp [hq, hpcb]
    · rfl
  | some pcb =>
    by_cases hended : pcb.state = .terminated
    · simp only [hended, ne_eq, not_true_eq_false, if_false]
      split_ifs with hq
      · simp [hq, hpcb, killed, hended]
      · rfl
    · simp only [ne_eq, hended, not_false_eq_true, if_true, get_stop]
      split_ifs with hq
      · simp [hq, hpcb, killed, hended]
      · rfl

lemma get_foldl {g : ProcessSystem → ProcessId → ProcessSystem}
    {f : ProcessControlBlock → ProcessControlBlock}
    (hget : ∀ s p q, (g s p).table.get q =
      if q = p then (s.table.get q).map f else s.table.get q)
    (hidem : ∀ pcb, f (f pcb) = f pcb) (pids : List ProcessId) :
    (pids.foldl g s).table.get q = if q ∈ pids then (s.table.get q).map f else s.table.get q := by
  induction pids generalizing s with
  | nil => simp
  | cons p pids ih =>
    rw [List.foldl_cons, ih, hget]
    by_cases hq : q = p
    · subst hq
      simp [Option.map_map, Function.comp_def, hidem]
    · simp [hq]

lemma get_foldl_killChild {children : List ProcessId} : (children.foldl killChild s).table.get q =
      if q ∈ children then (s.table.get q).map (·.killed) else s.table.get q :=
  get_foldl (fun _ _ _ => get_killChild) killed_killed children

lemma get_restartGroup {children : List ProcessId} :
    (s.restartGroup children now).table.get q =
      if q ∈ children then (s.table.get q).map (·.resetForRestart now) else s.table.get q := by
  unfold restartGroup
  rw [get_foldl (fun _ _ _ => get_restartProcess) (fun _ => rfl), get_foldl_killChild]
  split_ifs with hmem
  · simp [Option.map_map, Function.comp_def, resetForRestart_killed]
  · rfl

end ProcessSystem

end Fabric
