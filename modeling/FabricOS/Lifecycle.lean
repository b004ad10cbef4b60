/-
The tree of supervisors, over everything that happens to processes.

Besides the calls of `Processes` a process can end itself: `SYS_EXIT` (`x86/syscall.rs`)
writes to scheduler and table directly.  It takes both locks by `try_lock`, and does what it
can with those it gets.

Scheduling, blocking and restarting write to control blocks all the time, but not to what
supervision rests on: who supervises whom, the lists of children, and the order of spawning.
`Leaves` says that a change leaves such a part of every control block as it is.
-/
import FabricOS.Supervision

open List Nat Exec

namespace Fabric

open ProcessTable ProcessSystem

/-! ### Parts of control blocks -/

/-- Who supervises a process, whom it supervises and how, and when it was spawned. -/
structure Links where
  supervisor : ProcessId
  children : List ProcessId
  strategy : SupervisionStrategy
  spawnOrder : ℕ

namespace ProcessControlBlock

def links (pcb : ProcessControlBlock) : Links :=
  ⟨pcb.supervisor, pcb.children, pcb.strategy, pcb.spawnOrder⟩

def supervision (pcb : ProcessControlBlock) : Links × RestartTracker :=
  (pcb.links, pcb.restartTracker)

end ProcessControlBlock

namespace ProcessSystem

variable {s s' s'' : ProcessSystem} {p q : ProcessId} {pcb : ProcessControlBlock}

lemma modify_nextPid (f : ProcessControlBlock → ProcessControlBlock) :
    (s.modify p f).table.nextPid = s.table.nextPid := by
  simp only [modify, ProcessTable.modify]
  split <;> rfl

lemma enqueue_currentTick {priority : ℕ} :
    (s.enqueue p priority).sched.currentTick = s.sched.currentTick := by
  simp only [enqueue, Scheduler.enqueue]
  split_ifs <;> rfl

/-- A change leaves a part of every control block, and gives out no process id. -/
structure Leaves {α : Type} (part : ProcessControlBlock → α) (s s' : ProcessSystem) : Prop where
  part : ∀ q, (s'.table.get q).map part = (s.table.get q).map part
  nextPid : s'.table.nextPid = s.table.nextPid
  tick : s.sched.currentTick ≤ s'.sched.currentTick

section Leaves

variable {α β : Type} {part : ProcessControlBlock → α}
  {f : ProcessControlBlock → ProcessControlBlock}

lemma Leaves.refl (s : ProcessSystem) : Leaves part s s := ⟨fun _ => rfl, rfl, le_rfl⟩

lemma Leaves.trans (h : Leaves part s s') (h' : Leaves part s' s'') : Leaves part s s'' :=
  ⟨fun q => (h'.part q).trans (h.part q), h'.nextPid.trans h.nextPid, h.tick.trans h'.tick⟩

lemma Leaves.comp (h : Leaves part s s') (g : α → β) : Leaves (fun pcb => g (part pcb)) s s' where
  part q := by
    have hq := congrArg (Option.map g) (h.part q)
    rwa [Option.map_map, Option.map_map] at hq
  nextPid := h.nextPid
  tick := h.tick

lemma Leaves.modify (h : Leaves part s s') (hf : ∀ pcb, part (f pcb) = part pcb) :
    Leaves part s (s'.modify p f) where
  part q := by
    rw [← h.part q]
    simp only [ProcessSystem.modify, get_modify]
    split_ifs
    · rw [Option.map_map]
      exact congrArg (Option.map · _) (funext hf)
    · rfl
  nextPid := (modify_nextPid f).trans h.nextPid
  tick := h.tick

lemma Leaves.sched (h : Leaves part s s') {sched : Scheduler}
    (htick : sched.currentTick = s'.sched.currentTick) :
    Leaves part s { s' with sched := sched } := ⟨h.part, h.nextPid, htick ▸ h.tick⟩

lemma Leaves.enqueue (h : Leaves part s s') {priority : ℕ} :
    Leaves part s (s'.enqueue p priority) := h.sched enqueue_currentTick

lemma Leaves.dequeue (h : Leaves part s s') : Leaves part s (s'.dequeue p) := h.sched rfl

lemma Leaves.back (h : Leaves part s s') {b : ProcessControlBlock}
    (hb : s'.table.get q = some b) : ∃ a, s.table.get q = some a ∧ part a = part b := by
  have hq := h.part q
  rw [hb, Option.map_some] at hq
  exact Option.map_eq_some_iff.mp hq.symm

end Leaves

/-! ### Calls that leave supervision alone -/

lemma leaves_requeueCurrent (h : Leaves (·.supervision) s s') :
    Leaves (·.supervision) s s'.requeueCurrent := by
  unfold requeueCurrent
  split
  · exact h
  simp only []
  split
  · split_ifs
    · refine .enqueue (.modify (.sched h ?_) fun _ => ?_) <;> rfl
    · exact h.sched rfl
  · exact h.sched rfl

lemma leaves_pickNext (levels : List Level) (h : Leaves (·.supervision) s s') :
    Leaves (·.supervision) s (pickNext levels s').1 := by
  induction levels generalizing s' with
  | nil => exact h
  | cons l levels ih =>
    unfold pickNext
    split
    · exact ih h
    simp only []
    split
    · refine .sched (.modify (.sched h ?_) fun _ => ?_) ?_ <;> rfl
    · exact ih (h.sched rfl)

lemma leaves_scheduleNext (h : Leaves (·.supervision) s s') :
    Leaves (·.supervision) s s'.scheduleNext.1 := by
  unfold scheduleNext
  split
  · exact h
  · exact leaves_pickNext _ (leaves_requeueCurrent h)

lemma leaves_runAging (h : Leaves (·.supervision) s s') : Leaves (·.supervision) s s'.runAging := by
  refine foldlRecOn (motive := Leaves (·.supervision) s) s'.starved _ h fun _ h _ _ => ?_
  refine .sched (.modify h fun _ => ?_) ?_ <;> rfl

lemma leaves_trySwitchLoop (n : ℕ) (skipped : List (ProcessId × ℕ))
    (h : Leaves (·.supervision) s s') : Leaves (·.supervision) s (trySwitchLoop n s' skipped) := by
  have hreenqueue : ∀ {s'} skipped, Leaves (·.supervision) s s' →
      Leaves (·.supervision) s (reenqueue s' skipped) := fun skipped h =>
    foldlRecOn skipped _ h fun _ h _ _ => h.enqueue
  induction n generalizing s' skipped with
  | zero => exact hreenqueue skipped h
  | succ n ih =>
    have hnext := leaves_scheduleNext h
    unfold trySwitchLoop
    split
    · next heq =>
      rw [heq] at hnext
      exact hreenqueue skipped hnext
    next heq =>
    rw [heq] at hnext
    split_ifs
    · exact hreenqueue skipped hnext
    · exact ih _ (hnext.dequeue.modify fun _ => rfl)

lemma leaves_tick (h : Leaves (·.supervision) s s') : Leaves (·.supervision) s s'.tick :=
  ⟨h.part, h.nextPid, h.tick.trans (le_succ _)⟩

lemma leaves_timerHandler (h : Leaves (·.supervision) s s') (frameRsp : ℕ) :
    Leaves (·.supervision) s (s'.timerHandler frameRsp) := by
  refine timerHandler_induct (leaves_tick h) frameRsp (fun _ hf h => h.modify fun pcb => ?_)
    (leaves_trySwitchLoop 8 [])
  obtain ⟨_, _, _, heq⟩ := hf pcb
  rw [heq]
  rfl

variable {α : Type} {part : ProcessControlBlock → α} {now : ℕ} {supervisor : ProcessId} {ans : Ans}

lemma leaves_setPriority
    (hpart : ∀ pcb priority, part { pcb with effectivePriority := priority } = part pcb)
    {state : ProcessState} {priority : ℕ} (h : Leaves part s s') :
    Leaves part s (s'.setPriority p state priority) := by
  have hset : Leaves part s
      ((s'.modify p fun pcb => { pcb with effectivePriority := priority }).dequeue p) :=
    .dequeue (.modify h fun pcb => hpart pcb priority)
  unfold setPriority
  split_ifs
  · exact hset.enqueue
  · exact hset

lemma leaves_applyPriorityInheritance
    (hpart : ∀ pcb priority, part { pcb with effectivePriority := priority } = part pcb)
    {boostPriority : ℕ} (depth : ℕ) (target : ProcessId) (h : Leaves part s s') :
    Leaves part s (applyPriorityInheritance boostPriority depth s' target) :=
  applyPriorityInheritance_induct (P := fun s' _ => Leaves part s s')
    (fun _ h => leaves_setPriority hpart h) h

lemma leaves_revertPriorityInheritance
    (hpart : ∀ pcb priority, part { pcb with effectivePriority := priority } = part pcb)
    (h : Leaves part s s') : Leaves part s (s'.revertPriorityInheritance p) := by
  unfold revertPriorityInheritance
  split
  · exact h
  · split_ifs
    · exact leaves_setPriority hpart h
    · exact h

lemma leaves_block (h : Leaves (·.supervision) s s') (waitingOn : Option ProcessId) :
    Leaves (·.supervision) s (s'.block p waitingOn).1 := by
  have hsuspend : Leaves (·.supervision) s (s'.suspend p waitingOn) :=
    .dequeue (.modify h fun _ => by rfl)
  unfold block
  split
  · exact h
  split_ifs
  · exact h
  split
  · exact leaves_applyPriorityInheritance (fun _ _ => rfl) _ _ hsuspend
  · exact hsuspend

lemma leaves_unblock (h : Leaves (·.supervision) s s') :
    Leaves (·.supervision) s (s'.unblock p).1 := by
  unfold unblock
  split
  · exact h
  split_ifs
  · exact h
  have hwoken : ∀ priority, Leaves (·.supervision) s
      ((s'.modify p (wake s'.sched)).enqueue p priority) := fun _ =>
    .enqueue (.modify h fun _ => by rfl)
  split
  · exact leaves_revertPriorityInheritance (fun _ _ => rfl) (hwoken _)
  · exact hwoken _

/-! ### Crashes -/

lemma leaves_stop (h : Leaves (·.supervision) s s') {reason : ExitReason} :
    Leaves (·.supervision) s (s'.stop p reason) :=
  .dequeue (.modify h fun _ => by rfl)

lemma leaves_restartProcess (h : Leaves (·.supervision) s s') :
    Leaves (·.supervision) s (restartProcess now s' p) := by
  unfold restartProcess
  split
  · exact .enqueue (.modify h fun _ => by rfl)
  · exact h

lemma leaves_applyStrategy (h : Leaves (·.supervision) s s') {sup : ProcessControlBlock}
    {crashed : ProcessId} : Leaves (·.supervision) s (s'.applyStrategy sup crashed now).1 :=
  applyStrategy_induct h (fun _ h => leaves_stop h) (fun _ h => leaves_restartProcess h) sup
    crashed

lemma leaves_record (h : Leaves (·.links) s s') (tracker : RestartTracker) :
    Leaves (·.links) s (s'.modify p fun sup => { sup with restartTracker := tracker }) :=
  .modify h fun _ => by rfl

lemma leaves_handleChildCrash {fuel : ℕ} {crashed : ProcessId} {result : Except ProcessError ℕ}
    (hcall : handleChildCrash now fuel s supervisor crashed = .ok (s', result)) :
    Leaves (·.links) s s' :=
  handleChildCrash_induct (P := fun s1 _ => Leaves (·.links) s s1) id
    (fun _ tracker h => leaves_record h tracker)
    (fun _ h => h.trans ((leaves_stop (.refl _)).comp Prod.fst))
    (fun _ h => h.trans ((leaves_applyStrategy (.refl _)).comp Prod.fst)) (.refl s) hcall

lemma leaves_crash {result : Except ProcessError Unit} (hcall : s.crash p = .ok (s', result)) :
    Leaves (·.links) s s' := by
  unfold crash at hcall
  split at hcall
  · cases hcall
    exact .refl s
  · simp only [bind_eq_ok, ok.injEq, Prod.mk.injEq] at hcall
    obtain ⟨⟨s1, result1⟩, hcall, rfl, -⟩ := hcall
    exact ((leaves_stop (.refl s)).comp Prod.fst).trans (leaves_handleChildCrash hcall)

/-! ### Ending from within -/

/-- `SYS_EXIT`: the current process leaves the queues and is marked as ended.  The two flags
tell whether the locks of scheduler and table were free. -/
def sysExit (s : ProcessSystem) (exitCode : ℕ) (schedFree tableFree : Bool) : ProcessSystem :=
  if schedFree then
    match s.sched.current with
    | some pid =>
      let s := s.dequeue pid
      if tableFree then
        s.modify pid fun pcb =>
          { pcb with state := .terminated, exitReason := some .normal, exitCode := exitCode }
      else s
    | none => s
  else s

lemma leaves_sysExit {exitCode : ℕ} {schedFree tableFree : Bool} (h : Leaves (·.supervision) s s') :
    Leaves (·.supervision) s (s'.sysExit exitCode schedFree tableFree) := by
  unfold sysExit
  cases schedFree with
  | false => exact h
  | true =>
    simp only [if_true]
    split
    · split_ifs
      · exact .modify h.dequeue fun _ => by rfl
      · exact h.dequeue
    · exact h

/-! ### All calls -/

/-- What happens to processes: the calls of the kernel, and a process that ends itself. -/
inductive Call where
  | op (op : Op)
  | sysExit (exitCode : ℕ) (schedFree tableFree : Bool)

def call (s : ProcessSystem) : Call → Exec (ProcessSystem × Ans)
  | .op op => s.step op
  | .sysExit exitCode schedFree tableFree => .ok (s.sysExit exitCode schedFree tableFree, .none)

def CallReachable (s : ProcessSystem) : Prop := Machine.Reachable call init s

lemma spawn_links {intent : Intent} {strategy : Option SupervisionStrategy}
    {result : Except ProcessError ProcessId}
    (h : s.spawn supervisor intent strategy = .ok (s', result)) :
    s'.sched.currentTick = s.sched.currentTick ∧
    ((∃ e, result = .error e ∧ (∀ q, s'.table.get q = s.table.get q) ∧
        (s'.table.nextPid = s.table.nextPid ∨ s.table.nextPid.toNat + 1 < 2 ^ 32 ∧
          s'.table.nextPid = s.table.nextPid + 1)) ∨
      ∃ sup, result = .ok s.table.nextPid ∧ s.table.nextPid.toNat + 1 < 2 ^ 32 ∧
        s'.table.nextPid = s.table.nextPid + 1 ∧ s.table.get supervisor = some sup ∧
        s.table.get s.table.nextPid = none ∧
        ∀ q, s'.table.get q = if q = s.table.nextPid then
            some (.new intent supervisor (strategy.getD .oneForOne) sup.children.length
              s.sched.currentTick)
          else if q = supervisor then
            some { sup with children := sup.children ++ [s.table.nextPid] }
          else s.table.get q) := by
  unfold spawn at h
  cases hsup : s.table.get supervisor with
  | none =>
    simp only [hsup] at h
    cases h
    exact ⟨rfl, .inl ⟨_, rfl, fun _ => rfl, .inl rfl⟩⟩
  | some sup =>
    simp only [hsup, allocPid] at h
    split_ifs at h with hroom
    · simp only [ok_bind] at h
      generalize hpcb : ProcessControlBlock.new intent supervisor (strategy.getD .oneForOne)
        sup.children.length s.sched.currentTick = pcb at h ⊢
      generalize hinsert : insert { s.table with nextPid := s.table.nextPid + 1 }
        s.table.nextPid pcb = inserted at h
      obtain ⟨table, e | _⟩ := inserted
      · -- the id has been given out although there was no room
        cases h
        obtain rfl := insert_error hinsert
        exact ⟨rfl, .inl ⟨e, rfl, fun _ => rfl, .inr ⟨hroom, rfl⟩⟩⟩
      · cases h
        obtain ⟨hfresh, hget⟩ := insert_ok hinsert
        have hnext := insert_nextPid hinsert
        have hne : s.table.nextPid ≠ supervisor := by
          intro heq
          cases (heq ▸ hfresh).symm.trans hsup
        refine ⟨enqueue_currentTick, .inr ⟨sup, rfl, hroom, (modify_nextPid _).trans hnext, rfl,
          hfresh, fun q => ?_⟩⟩
        refine get_modify.trans ?_
        by_cases hq : q = s.table.nextPid
        · rw [if_pos hq, if_neg (hq ▸ hne), hget, if_pos hq, ← hpcb]
        rw [if_neg hq, hget, if_neg hq]
        split_ifs with hqs
        · rw [hqs]
          exact congrArg (Option.map _) hsup
        · rfl
    · simp at h

def linksOf (s : ProcessSystem) (q : ProcessId) : Option Links := (s.table.get q).map (·.links)

lemma restOf_congr (h : ∀ q, s'.linksOf q = s.linksOf q) (children : List ProcessId)
    (c : ProcessId) : s'.restOf children c = s.restOf children c := by
  have horder : ∀ q, (s'.table.get q).map (·.spawnOrder) = (s.table.get q).map (·.spawnOrder) := by
    intro q
    have hq := congrArg (Option.map (·.spawnOrder)) (h q)
    rwa [linksOf, linksOf, Option.map_map, Option.map_map] at hq
  unfold restOf
  refine filter_congr fun child _ => ?_
  have hchild := horder child
  cases hs' : s'.table.get child <;> cases hs : s.table.get child <;> simp_all

/-- The process that was spawned, if the answer is that of a spawn that succeeded. -/
def Ans.newPid : Ans → Option ProcessId
  | .spawned (.ok pid) => some pid
  | _ => Option.none

inductive LinkStep (s : ProcessSystem) (ans : Ans) (s' : ProcessSystem) : Prop
  | kept (newPid : ans.newPid = none) (links : ∀ q, s'.linksOf q = s.linksOf q)
      (nextPid : s'.table.nextPid = s.table.nextPid ∨ s.table.nextPid.toNat + 1 < 2 ^ 32 ∧
        s'.table.nextPid = s.table.nextPid + 1)
  | spawned (supervisor : ProcessId) (sup : Links) (strategy : SupervisionStrategy)
      (newPid : ans.newPid = some s.table.nextPid)
      (found : s.linksOf supervisor = some sup) (fresh : s.linksOf s.table.nextPid = none)
      (room : s.table.nextPid.toNat + 1 < 2 ^ 32) (nextPid : s'.table.nextPid = s.table.nextPid + 1)
      (links : ∀ q, s'.linksOf q = if q = s.table.nextPid then
          some ⟨supervisor, [], strategy, sup.children.length⟩
        else if q = supervisor then
          some { sup with children := sup.children ++ [s.table.nextPid] }
        else s.linksOf q)
  | unlisted (pid supervisor : ProcessId) (newPid : ans.newPid = none)
      (nextPid : s'.table.nextPid = s.table.nextPid)
      (links : ∀ q, s'.linksOf q = if q = supervisor then
          (s.linksOf q).map fun sup => { sup with children := sup.children.filter (· ≠ pid) }
        else s.linksOf q)

lemma Leaves.linkStep (h : Leaves (·.supervision) s s') (hans : ans.newPid = none) :
    LinkStep s ans s' := .kept hans (h.comp Prod.fst).part (.inl h.nextPid)

lemma terminate_eq (hpcb : s.table.get p = some pcb) :
    s.terminate p = ((s.stop p .normal).modify pcb.supervisor fun sup =>
      { sup with children := sup.children.filter (· ≠ p) }, .ok ()) := by
  unfold terminate
  rw [hpcb]
  rfl

lemma linkStep_terminate (s : ProcessSystem) (pid : ProcessId) :
    LinkStep s (.done (s.terminate pid).2) (s.terminate pid).1 := by
  cases hpcb : s.table.get pid with
  | none =>
    have hsame : (s.terminate pid).1 = s := by rw [terminate, hpcb]
    exact hsame.symm ▸ (Leaves.refl s).linkStep rfl
  | some pcb =>
    rw [terminate_eq hpcb]
    have hnext := (modify_nextPid (s := s.stop pid .normal) (p := pcb.supervisor) fun sup =>
      { sup with children := sup.children.filter (· ≠ pid) }).trans (modify_nextPid _)
    refine .unlisted pid pcb.supervisor rfl hnext fun q => ?_
    have hq : (s.stop pid .normal).linksOf q = s.linksOf q :=
      ((leaves_stop (.refl s)).comp Prod.fst).part q
    rw [← hq]
    refine (congrArg (Option.map _) get_modify).trans ?_
    split_ifs
    · rw [linksOf, Option.map_map, Option.map_map]
      rfl
    · rfl

/-- Everything that a call can do: spawn, terminate or crash a process, or leave supervision
alone. -/
inductive CallStep (s : ProcessSystem) : Call → Ans → ProcessSystem → Prop
  | spawn (supervisor : ProcessId) (intent : Intent) (strategy : Option SupervisionStrategy)
      {result : Except ProcessError ProcessId} {s' : ProcessSystem}
      (call : s.spawn supervisor intent strategy = .ok (s', result)) :
      CallStep s (.op (.spawn supervisor intent strategy)) (.spawned result) s'
  | terminate (pid : ProcessId) :
      CallStep s (.op (.terminate pid)) (.done (s.terminate pid).2) (s.terminate pid).1
  | crash {pid : ProcessId} {result : Except ProcessError Unit} {s' : ProcessSystem}
      (call : s.crash pid = .ok (s', result)) : CallStep s (.op (.crash pid)) (.done result) s'
  | other {c : Call} {ans : Ans} {s' : ProcessSystem} (leaves : Leaves (·.supervision) s s')
      (newPid : ans.newPid = none) (noCrash : ∀ pid, c ≠ .op (.crash pid)) : CallStep s c ans s'

lemma call_cases {c : Call} (h : s.call c = .ok (s', ans)) : CallStep s c ans s' := by
  cases c with
  | sysExit exitCode schedFree tableFree =>
    cases h
    exact .other (leaves_sysExit (.refl s)) rfl (by simp)
  | op op =>
    cases op with
    | spawn supervisor intent strategy =>
      simp only [call, step, bind_eq_ok, ok.injEq, Prod.mk.injEq] at h
      obtain ⟨⟨s1, result⟩, hspawn, rfl, rfl⟩ := h
      exact .spawn supervisor intent strategy hspawn
    | terminate pid =>
      cases h
      exact .terminate pid
    | crash pid =>
      simp only [call, step, bind_eq_ok, ok.injEq, Prod.mk.injEq] at h
      obtain ⟨⟨s1, result⟩, hcrash, rfl, rfl⟩ := h
      exact .crash hcrash
    | installContext pid stackBase stackTop rsp =>
      cases h
      exact .other (.modify (.refl s) fun _ => by rfl) rfl (by simp)
    | block pid waitingOn =>
      cases h
      exact .other (leaves_block (.refl s) waitingOn) rfl (by simp)
    | unblock pid =>
      cases h
      exact .other (leaves_unblock (.refl s)) rfl (by simp)
    | scheduleNext =>
      cases h
      exact .other (leaves_scheduleNext (.refl s)) rfl (by simp)
    | tick =>
      cases h
      exact .other (leaves_tick (.refl s)) rfl (by simp)
    | timer frameRsp =>
      cases h
      exact .other (leaves_timerHandler (.refl s) frameRsp) rfl (by simp)
    | runAging =>
      cases h
      exact .other (leaves_runAging (.refl s)) rfl (by simp)

lemma call_links {c : Call} (h : s.call c = .ok (s', ans)) : LinkStep s ans s' := by
  cases call_cases h with
  | spawn supervisor intent strategy hspawn =>
    obtain ⟨-, ⟨e, rfl, hsame, hnext⟩ | ⟨sup, rfl, hroom, hnext, hsup, hfresh, hget⟩⟩ :=
      spawn_links hspawn
    · exact .kept rfl (fun q => congrArg (Option.map _) (hsame q)) hnext
    refine .spawned supervisor sup.links (strategy.getD .oneForOne) rfl ?_ ?_ hroom hnext ?_
    · rw [linksOf, hsup]; rfl
    · rw [linksOf, hfresh]; rfl
    · intro q
      rw [linksOf, hget]
      split_ifs <;> rfl
  | terminate pid => exact linkStep_terminate s pid
  | crash hcrash => exact .kept rfl (leaves_crash hcrash).part (.inl (leaves_crash hcrash).nextPid)
  | other hleaves hnew _ => exact hleaves.linkStep hnew

/-! ### The tree -/

/-- The links form a tree: process ids grow from supervisor to child, and the root is Butler,
which the kernel supervises.  Every list of children is in the order of spawning. -/
structure Tree (links : ProcessId → Option Links) (nextPid : ProcessId) : Prop where
  butler_lt : ProcessId.butler.toNat < nextPid.toNat
  kernel : links .kernel = none
  butler : ∃ l, links .butler = some l ∧ l.supervisor = .kernel
  fresh : ∀ p l, links p = some l → p.toNat < nextPid.toNat
  supervisor_lt : ∀ p l, links p = some l → l.supervisor.toNat < p.toNat
  supervised : ∀ p l, links p = some l → p ≠ .butler → ∃ sup, links l.supervisor = some sup
  children : ∀ p l, links p = some l → ∀ c ∈ l.children,
    ∃ lc, links c = some lc ∧ lc.supervisor = p
  sorted : ∀ p l, links p = some l → l.children.Pairwise (·.toNat < ·.toNat)

lemma linksOf_init {l : Links} (h : init.linksOf p = some l) :
    p = .butler ∧ l = butlerPcb.links := by
  by_cases hp : p = .butler
  · subst hp
    exact ⟨rfl, (Option.some.inj h).symm⟩
  · simp [linksOf, ProcessTable.get, init, Finmap.lookup_insert_of_ne _ hp] at h

lemma tree_init : Tree init.linksOf init.table.nextPid := by
  constructor
  case butler_lt => decide
  case kernel =>
    by_contra hsome
    obtain ⟨l, hl⟩ := Option.ne_none_iff_exists'.mp hsome
    exact absurd (linksOf_init hl).1 (by decide)
  case butler => exact ⟨_, rfl, rfl⟩
  case fresh =>
    intro p l h
    rw [(linksOf_init h).1]
    decide
  case supervisor_lt =>
    intro p l h
    rw [(linksOf_init h).1, (linksOf_init h).2]
    decide
  case supervised => exact fun p l h hne => absurd (linksOf_init h).1 hne
  case children =>
    intro p l h c hc
    rw [(linksOf_init h).2] at hc
    exact absurd hc (not_mem_nil)
  case sorted =>
    intro p l h
    rw [(linksOf_init h).2]
    exact .nil

lemma toNat_succ {pid : ProcessId} (h : pid.toNat + 1 < 2 ^ 32) :
    (pid + 1).toNat = pid.toNat + 1 := by
  exact mod_eq_of_lt h

lemma Tree.unlist {links links' : ProcessId → Option Links} {next pid : ProcessId}
    (h : Tree links next) (hlinks : ∀ q, links' q = if q = supervisor then
        (links q).map fun sup => { sup with children := sup.children.filter (· ≠ pid) }
      else links q) : Tree links' next := by
  -- every process keeps its supervisor, and a part of its children in their order
  have hback : ∀ q l', links' q = some l' → ∃ l, links q = some l ∧ l'.supervisor = l.supervisor ∧
      l'.children.Sublist l.children := by
    intro q l' hq
    rw [hlinks] at hq
    split_ifs at hq
    · obtain ⟨l, hl, rfl⟩ := Option.map_eq_some_iff.mp hq
      exact ⟨l, hl, rfl, filter_sublist⟩
    · exact ⟨l', hq, rfl, .refl _⟩
  have hforth : ∀ q l, links q = some l → ∃ l', links' q = some l' ∧
      l'.supervisor = l.supervisor := by
    intro q l hq
    rw [hlinks, hq]
    split_ifs
    · exact ⟨_, rfl, rfl⟩
    · exact ⟨l, rfl, rfl⟩
  constructor
  case butler_lt => exact h.butler_lt
  case kernel =>
    rw [hlinks, h.kernel]
    simp
  case butler =>
    obtain ⟨l, hl, hroot⟩ := h.butler
    obtain ⟨l', hl', hsame⟩ := hforth _ l hl
    exact ⟨l', hl', hsame.trans hroot⟩
  case fresh =>
    intro q l' hq
    obtain ⟨l, hl, -⟩ := hback q l' hq
    exact h.fresh q l hl
  case supervisor_lt =>
    intro q l' hq
    obtain ⟨l, hl, hsame, -⟩ := hback q l' hq
    exact hsame ▸ h.supervisor_lt q l hl
  case supervised =>
    intro q l' hq hne
    obtain ⟨l, hl, hsame, -⟩ := hback q l' hq
    obtain ⟨sup, hsup⟩ := h.supervised q l hl hne
    obtain ⟨sup', hsup', -⟩ := hforth _ sup hsup
    exact ⟨sup', hsame ▸ hsup'⟩
  case children =>
    intro q l' hq c hc
    obtain ⟨l, hl, -, hsub⟩ := hback q l' hq
    obtain ⟨lc, hlc, hparent⟩ := h.children q l hl c (hsub.subset hc)
    obtain ⟨lc', hlc', hsame⟩ := hforth c lc hlc
    exact ⟨lc', hlc', hsame.trans hparent⟩
  case sorted =>
    intro q l' hq
    obtain ⟨l, hl, -, hsub⟩ := hback q l' hq
    exact (h.sorted q l hl).sublist hsub

lemma Tree.spawn {links links' : ProcessId → Option Links} {next next' : ProcessId} {sup : Links}
    {strategy : SupervisionStrategy} (h : Tree links next) (hfound : links supervisor = some sup)
    (hnext : next'.toNat = next.toNat + 1) (hlinks : ∀ q, links' q = if q = next then
        some ⟨supervisor, [], strategy, sup.children.length⟩
      else if q = supervisor then some { sup with children := sup.children ++ [next] }
      else links q) : Tree links' next' := by
  have hold : ∀ q l, links q = some l → q ≠ next := by
    rintro q l hq rfl
    exact absurd (h.fresh q l hq) (lt_irrefl _)
  -- a process of the new tree is the new leaf, or was there, perhaps with one child less
  have hback : ∀ q l', links' q = some l' →
      q = next ∧ l'.supervisor = supervisor ∧ l'.children = [] ∨
      ∃ l, links q = some l ∧ l'.supervisor = l.supervisor ∧
        (l'.children = l.children ∨ q = supervisor ∧ l'.children = l.children ++ [next]) := by
    intro q l' hq
    rw [hlinks] at hq
    split_ifs at hq with hnew hsup
    · cases hq
      exact .inl ⟨hnew, rfl, rfl⟩
    · cases hq
      exact .inr ⟨sup, hsup ▸ hfound, rfl, .inr ⟨hsup, rfl⟩⟩
    · exact .inr ⟨l', hq, rfl, .inl rfl⟩
  have hforth : ∀ q l, links q = some l → ∃ l', links' q = some l' ∧
      l'.supervisor = l.supervisor := by
    intro q l hq
    rw [hlinks, if_neg (hold q l hq)]
    split_ifs with hsup
    · obtain rfl : sup = l := Option.some.inj (hfound.symm.trans (hsup ▸ hq))
      exact ⟨_, rfl, rfl⟩
    · exact ⟨l, hq, rfl⟩
  constructor
  case butler_lt =>
    rw [hnext]
    exact h.butler_lt.trans (lt_succ_self _)
  case kernel =>
    -- the kernel has the id 0, which is never given out
    have hkernel : ProcessId.kernel ≠ next := by
      rintro rfl
      exact absurd h.butler_lt (by decide)
    have hsup : ProcessId.kernel ≠ supervisor := by
      rintro rfl
      cases h.kernel.symm.trans hfound
    rw [hlinks, if_neg hkernel, if_neg hsup]
    exact h.kernel
  case butler =>
    obtain ⟨l, hl, hroot⟩ := h.butler
    obtain ⟨l', hl', hsame⟩ := hforth _ l hl
    exact ⟨l', hl', hsame.trans hroot⟩
  case fresh =>
    intro q l' hq
    rw [hnext]
    obtain ⟨rfl, -⟩ | ⟨l, hl, -⟩ := hback q l' hq
    · exact lt_succ_self _
    · exact (h.fresh q l hl).trans (lt_succ_self _)
  case supervisor_lt =>
    intro q l' hq
    obtain ⟨rfl, hsup, -⟩ | ⟨l, hl, hsame, -⟩ := hback q l' hq
    · exact hsup ▸ h.fresh _ sup hfound
    · exact hsame ▸ h.supervisor_lt q l hl
  case supervised =>
    intro q l' hq hne
    obtain ⟨-, hsup, -⟩ | ⟨l, hl, hsame, -⟩ := hback q l' hq
    · obtain ⟨sup', hsup', -⟩ := hforth _ sup hfound
      exact ⟨sup', hsup.symm ▸ hsup'⟩
    · obtain ⟨sup1, hsup1⟩ := h.supervised q l hl hne
      obtain ⟨sup', hsup', -⟩ := hforth _ sup1 hsup1
      exact ⟨sup', hsame ▸ hsup'⟩
  case children =>
    intro q l' hq c hc
    have hlisted : ∀ l, links q = some l → c ∈ l.children →
        ∃ lc, links' c = some lc ∧ lc.supervisor = q := by
      intro l hl hmem
      obtain ⟨lc, hlc, hparent⟩ := h.children q l hl c hmem
      obtain ⟨lc', hlc', hsame⟩ := hforth c lc hlc
      exact ⟨lc', hlc', hsame.trans hparent⟩
    obtain ⟨-, -, hnil⟩ | ⟨l, hl, -, hsame | ⟨rfl, happend⟩⟩ := hback q l' hq
    · simp [hnil] at hc
    · exact hlisted l hl (hsame ▸ hc)
    rw [happend] at hc
    rcases mem_append.mp hc with hc | hc
    · exact hlisted l hl hc
    · rw [mem_singleton.mp hc, hlinks, if_pos rfl]
      exact ⟨_, rfl, rfl⟩
  case sorted =>
    -- the new child has an id above all that were given out
    intro q l' hq
    obtain ⟨-, -, hnil⟩ | ⟨l, hl, -, hsame | ⟨-, happend⟩⟩ := hback q l' hq
    · rw [hnil]
      exact .nil
    · exact hsame ▸ h.sorted q l hl
    rw [happend]
    refine pairwise_append.mpr ⟨h.sorted q l hl, pairwise_singleton _ _, ?_⟩
    intro c hc d hd
    obtain ⟨lc, hlc, -⟩ := h.children q l hl c hc
    rw [mem_singleton.mp hd]
    exact h.fresh c lc hlc

lemma Tree.linkStep (h : Tree s.linksOf s.table.nextPid) (hstep : LinkStep s ans s') :
    Tree s'.linksOf s'.table.nextPid := by
  cases hstep with
  | kept _ links nextPid =>
    have hlinks : s'.linksOf = s.linksOf := funext links
    have hle : s.table.nextPid.toNat ≤ s'.table.nextPid.toNat := by
      obtain hsame | ⟨hroom, hnext⟩ := nextPid
      · rw [hsame]
      · rw [hnext, toNat_succ hroom]
        exact le_succ _
    rw [hlinks]
    exact { h with
      butler_lt := h.butler_lt.trans_le hle
      fresh := fun p l hp => (h.fresh p l hp).trans_le hle }
  | spawned supervisor sup strategy _ found fresh room nextPid links =>
    exact h.spawn found (nextPid ▸ toNat_succ room) links
  | unlisted pid supervisor _ nextPid links => exact nextPid ▸ h.unlist links

lemma Tree.leaves (h : Tree s.linksOf s.table.nextPid) (hleaves : Leaves (·.links) s s') :
    Tree s'.linksOf s'.table.nextPid := by
  have hlinks : s'.linksOf = s.linksOf := funext hleaves.part
  rw [hlinks, hleaves.nextPid]
  exact h

lemma CallReachable.tree (h : CallReachable s) : Tree s.linksOf s.table.nextPid :=
  Machine.Reachable.inv (P := fun s => Tree s.linksOf s.table.nextPid) h tree_init
    fun htree hcall => htree.linkStep (call_links hcall)

/-! ### The order of spawning -/

/-- The processes that a run has spawned, in the order of the calls. -/
def spawnedPids (evs : List (Machine.Event ProcessSystem Call Ans)) : List ProcessId :=
  evs.filterMap fun ev => ev.output.newPid

lemma spawnedPids_eq (evs : List (Machine.Event ProcessSystem Call Ans)) :
    spawnedPids evs = (evs.map (·.output)).filterMap Ans.newPid := by
  rw [filterMap_map]
  rfl

/-- In a run, `q` was spawned after `p`. -/
def SpawnedAfter (evs : List (Machine.Event ProcessSystem Call Ans)) (p q : ProcessId) : Prop :=
  [p, q].Sublist (spawnedPids evs)

lemma run_spawned {evs : List (Machine.Event ProcessSystem Call Ans)}
    (h : Machine.Run call init evs s) :
    (spawnedPids evs).Pairwise (·.toNat < ·.toNat) ∧
      ∀ p, (∃ l, s.linksOf p = some l) ↔ p = .butler ∨ p ∈ spawnedPids evs := by
  induction h with
  | nil =>
    refine ⟨.nil, fun p => ⟨fun ⟨l, hl⟩ => .inl (linksOf_init hl).1, fun hp => ?_⟩⟩
    obtain rfl | hp := hp
    · exact ⟨_, rfl⟩
    · exact absurd hp (not_mem_nil)
  | @snoc evs s s' c ans hrun hcall ih =>
    obtain ⟨hsorted, hmem⟩ := ih
    have htree : Tree s.linksOf s.table.nextPid := CallReachable.tree hrun.reachable
    have hpids : spawnedPids (evs ++ [⟨s, c, ans⟩]) = spawnedPids evs ++ ans.newPid.toList := by
      rw [spawnedPids, filterMap_append, ← spawnedPids]
      cases hans : ans.newPid <;> simp [hans]
    rw [hpids]
    cases call_links hcall with
    | kept newPid links nextPid =>
      rw [newPid, Option.toList_none, append_nil]
      exact ⟨hsorted, fun p => by rw [links]; exact hmem p⟩
    | unlisted pid supervisor newPid nextPid links =>
      rw [newPid, Option.toList_none, append_nil]
      refine ⟨hsorted, fun p => ?_⟩
      rw [links, ← hmem]
      split_ifs
      · simp
      · rfl
    | spawned supervisor sup strategy newPid found fresh room nextPid links =>
      rw [newPid, Option.toList_some]
      constructor
      · refine pairwise_append.mpr ⟨hsorted, pairwise_singleton _ _, fun a ha b hb => ?_⟩
        obtain ⟨l, hl⟩ := (hmem a).mpr (.inr ha)
        rw [mem_singleton.mp hb]
        exact htree.fresh a l hl
      · intro p
        rw [links, mem_append, mem_singleton, ← or_assoc, ← hmem]
        split_ifs with hnew hsup
        · simp [hnew]
        · simp [hsup, found]
        · simp [hnew]

lemma spawnedAfter_iff {evs : List (Machine.Event ProcessSystem Call Ans)}
    (h : Machine.Run call init evs s) (hp : p ∈ spawnedPids evs) (hq : q ∈ spawnedPids evs) :
    SpawnedAfter evs p q ↔ p.toNat < q.toNat := by
  have hsorted := (run_spawned h).1
  constructor
  · intro hafter
    exact (pairwise_cons.mp (hsorted.sublist hafter)).1 q mem_cons_self
  · intro hlt
    obtain ⟨before, after, hsplit⟩ := append_of_mem hp
    unfold SpawnedAfter
    rw [hsplit] at hsorted hq ⊢
    have hq : q ∈ after := by
      rcases mem_append.mp hq with hq | hq
      · have := (pairwise_append.mp hsorted).2.2 q hq p mem_cons_self
        omega
      · rcases mem_cons.mp hq with rfl | hq
        · exact absurd hlt (lt_irrefl _)
        · exact hq
    refine List.Sublist.trans ?_ (sublist_append_right _ _)
    exact (singleton_sublist.mpr hq).cons_cons p

/-! ### Supervisors lead to Butler -/

def supervisorOf (s : ProcessSystem) (p : ProcessId) : ProcessId :=
  ((s.linksOf p).map (·.supervisor)).getD .kernel

variable {l : Links}

lemma Tree.reaches_butler (h : Tree s.linksOf s.table.nextPid) (hp : s.linksOf p = some l) :
    ∃ n, s.supervisorOf^[n] p = .butler := by
  -- supervisors have smaller numbers
  induction hn : p.toNat using Nat.strong_induction_on generalizing p l with
  | _ n ih =>
    by_cases hbutler : p = .butler
    · exact ⟨0, hbutler⟩
    obtain ⟨sup, hsup⟩ := h.supervised p l hp hbutler
    obtain ⟨m, hm⟩ := ih _ (hn ▸ h.supervisor_lt p l hp) hsup rfl
    have hnext : s.supervisorOf p = l.supervisor := by simp [supervisorOf, hp]
    exact ⟨m + 1, by rwa [Function.iterate_succ_apply, hnext]⟩

/-- **Supervision is a tree**: whatever calls were made, the supervisors of every process lead to
Butler, its children are listed once each, and no child is listed under two processes. -/
theorem supervision_tree (h : CallReachable s) (hp : s.linksOf p = some l) :
    (∃ n, s.supervisorOf^[n] p = .butler) ∧ l.children.Nodup ∧
      ∀ q lq, s.linksOf q = some lq → q ≠ p → l.children.Disjoint lq.children := by
  have htree := h.tree
  refine ⟨htree.reaches_butler hp, ?_, fun q lq hq hne c hc hc' => hne ?_⟩
  · exact (htree.sorted p l hp).imp fun hlt heq => hlt.ne (congrArg UInt32.toNat heq)
  -- a child names its supervisor
  obtain ⟨lc, hlc, rfl⟩ := htree.children p l hp c hc
  obtain ⟨lc', hlc', rfl⟩ := htree.children q lq hq c hc'
  cases hlc.symm.trans hlc'
  rfl

theorem below_reaches_butler :
    ∃ n, (Machine.final call init [.op (.spawn .butler .default none),
      .op (.spawn 2 .default none)]).supervisorOf^[n] 3 = .butler :=
  (supervision_tree (.of_returns rfl) rfl).1

end ProcessSystem

end Fabric
