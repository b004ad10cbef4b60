/-
Only processes that can run are in the run queues.

Unlike the full agreement of scheduler and process table, this holds in every reachable
state, also after a running process has been put into a queue.  It is what keeps the
scheduler from choosing a process that waits or has ended: choosing, preempting and boosting
never change who waits for whom.
-/
import FabricOS.Processes

open Function List Option Exec

namespace Fabric

open ProcessTable ProcessSystem

namespace ProcessControlBlock

def Active (pcb : ProcessControlBlock) : Prop := pcb.state = .ready ∨ pcb.state = .running

/-- What scheduling leaves of a control block; its priority changes as `r` allows. -/
structure Kept (r : ℕ → ℕ → Prop) (a b : ProcessControlBlock) : Prop where
  intent : b.intent = a.intent
  basePriority : b.basePriority = a.basePriority
  blockedOn : b.blockedOn = a.blockedOn
  state : b.state = a.state ∨ a.Active ∧ b.Active
  priority : r a.effectivePriority b.effectivePriority

variable {r r' : ℕ → ℕ → Prop} [IsPreorder ℕ r] {a b c : ProcessControlBlock}

lemma Kept.refl (a : ProcessControlBlock) : Kept r a a :=
  ⟨rfl, rfl, rfl, .inl rfl, refl_of r _⟩

omit [IsPreorder ℕ r] in
lemma Kept.active (h : Kept r a b) : b.Active ↔ a.Active := by
  obtain hstate | ⟨ha, hb⟩ := h.state
  · rw [Active, Active, hstate]
  · exact iff_of_true hb ha

lemma Kept.trans (h : Kept r a b) (h' : Kept r b c) : Kept r a c where
  intent := h'.intent.trans h.intent
  basePriority := h'.basePriority.trans h.basePriority
  blockedOn := h'.blockedOn.trans h.blockedOn
  state := by
    obtain hstate' | ⟨hb, hc⟩ := h'.state
    · obtain hstate | ⟨ha, hb⟩ := h.state
      · exact .inl (hstate'.trans hstate)
      · exact .inr ⟨ha, by rwa [Active, hstate']⟩
    · exact .inr ⟨h.active.mp hb, hc⟩
  priority := trans_of r h.priority h'.priority

end ProcessControlBlock

/-- Every process of a table is kept, and none is added. -/
structure ProcessTable.Keeps (r : ℕ → ℕ → Prop) (t t' : ProcessTable) : Prop where
  forth : ∀ q a, t.get q = some a → ∃ b, t'.get q = some b ∧ a.Kept r b
  back : ∀ q b, t'.get q = some b → ∃ a, t.get q = some a ∧ a.Kept r b

namespace ProcessTable

variable {r : ℕ → ℕ → Prop} [IsPreorder ℕ r] {t t' t'' : ProcessTable} {p : ProcessId}
  {f : ProcessControlBlock → ProcessControlBlock}

lemma Keeps.refl (t : ProcessTable) : Keeps r t t :=
  ⟨fun _ a ha => ⟨a, ha, .refl a⟩, fun _ a ha => ⟨a, ha, .refl a⟩⟩

lemma Keeps.trans (h : Keeps r t t') (h' : Keeps r t' t'') : Keeps r t t'' := by
  constructor
  · intro q a ha
    obtain ⟨b, hb, hab⟩ := h.forth q a ha
    obtain ⟨c, hc, hbc⟩ := h'.forth q b hb
    exact ⟨c, hc, hab.trans hbc⟩
  · intro q c hc
    obtain ⟨b, hb, hbc⟩ := h'.back q c hc
    obtain ⟨a, ha, hab⟩ := h.back q b hb
    exact ⟨a, ha, hab.trans hbc⟩

lemma keeps_modify (h : ∀ pcb, t.get p = some pcb → pcb.Kept r (f pcb)) :
    Keeps r t (t.modify p f) := by
  constructor
  · intro q a ha
    rw [get_modify]
    split_ifs with hq
    · subst hq
      exact ⟨f a, by rw [ha, map_some], h a ha⟩
    · exact ⟨a, ha, .refl a⟩
  · intro q b hb
    rw [get_modify] at hb
    split_ifs at hb with hq
    · subst hq
      obtain ⟨a, ha, rfl⟩ := map_eq_some_iff.mp hb
      exact ⟨a, ha, h a ha⟩
    · exact ⟨b, hb, .refl b⟩

end ProcessTable

namespace ProcessSystem

variable {s s' : ProcessSystem} {p q : ProcessId} {f : ProcessControlBlock → ProcessControlBlock}
  {pcb : ProcessControlBlock} {priority : ℕ}

/-! ### The invariant -/

def Active (s : ProcessSystem) (p : ProcessId) : Prop :=
  ∃ pcb, s.table.get p = some pcb ∧ pcb.Active

def QueuedActive (s : ProcessSystem) : Prop := ∀ l, ∀ p ∈ s.sched.runQueues l, s.Active p

lemma Active.keeps {r : ℕ → ℕ → Prop} (h : s.Active p) (hkeeps : s.table.Keeps r s'.table) :
    s'.Active p := by
  obtain ⟨pcb, hpcb, hactive⟩ := h
  obtain ⟨pcb', hpcb', hkept⟩ := hkeeps.forth p pcb hpcb
  exact ⟨pcb', hpcb', hkept.active.mpr hactive⟩

lemma Active.modify (h : s.Active q) (hf : ∀ pcb, pcb.Active → (f pcb).Active) :
    (s.modify p f).Active q := by
  obtain ⟨pcb, hpcb, hactive⟩ := h
  by_cases hq : q = p
  · subst hq
    exact ⟨f pcb, by simp [modify, hpcb], hf pcb hactive⟩
  · exact ⟨pcb, (get_modify_ne hq).trans hpcb, hactive⟩

lemma mem_enqueue {l : Level} (h : q ∈ (s.enqueue p priority).sched.runQueues l) :
    q = p ∨ q ∈ s.sched.runQueues l := by
  simp only [enqueue, Scheduler.enqueue] at h
  split_ifs at h with hmem
  · exact .inr h
  by_cases hl : l = level priority
  · subst hl
    simp only [update_self, mem_append, mem_singleton] at h
    exact h.symm
  · simp only [update_of_ne hl] at h
    exact .inr h

lemma QueuedActive.modify (h : QueuedActive s) (hf : ∀ pcb, pcb.Active → (f pcb).Active) :
    QueuedActive (s.modify p f) :=
  fun l q hq => (h l q hq).modify hf

lemma QueuedActive.retire (h : QueuedActive s) : QueuedActive ((s.modify p f).dequeue p) := by
  intro l q hq
  simp only [dequeue, Scheduler.dequeue, mem_filter, decide_eq_true_eq] at hq
  obtain ⟨pcb, hpcb, hactive⟩ := h l q hq.1
  exact ⟨pcb, (get_modify_ne hq.2).trans hpcb, hactive⟩

lemma QueuedActive.enqueue (h : QueuedActive s) (hp : s.Active p) :
    QueuedActive (s.enqueue p priority) := by
  intro l q hq
  obtain rfl | hmem := mem_enqueue hq
  · exact hp
  · exact h l q hmem

lemma QueuedActive.enter (h : QueuedActive s) (hpcb : s.table.get p = some pcb)
    (hf : ∀ pcb, (f pcb).Active) : QueuedActive ((s.modify p f).enqueue p priority) :=
  (h.modify fun pcb _ => hf pcb).enqueue
    ⟨f pcb, by simp [ProcessSystem.modify, hpcb], hf pcb⟩

/-! ### Choosing the next process -/

lemma QueuedActive.requeueCurrent (h : QueuedActive s) :
    QueuedActive s.requeueCurrent ∧ s.table.Keeps Eq s.requeueCurrent.table := by
  unfold ProcessSystem.requeueCurrent
  cases hcurrent : s.sched.current with
  | none => exact ⟨h, .refl _⟩
  | some p =>
    cases hpcb : s.table.get p with
    | none =>
      simp only [hpcb]
      exact ⟨h, .refl _⟩
    | some pcb =>
      simp only [hpcb]
      split_ifs with hrunning
      · have hcleared : QueuedActive { s with sched := { s.sched with current := none } } := h
        refine ⟨hcleared.enter hpcb fun _ => .inl rfl,
          keeps_modify fun pcb' hpcb' => ?_⟩
        cases hpcb.symm.trans hpcb'
        exact ⟨rfl, rfl, rfl, .inr ⟨.inr hrunning, .inl rfl⟩, rfl⟩
      · exact ⟨h, .refl _⟩

lemma QueuedActive.pickNext (levels : List Level) (h : QueuedActive s) :
    QueuedActive (pickNext levels s).1 ∧ s.table.Keeps Eq (pickNext levels s).1.table ∧
      ∀ pid, (pickNext levels s).2 = some pid → (pickNext levels s).1.Active pid := by
  induction levels with
  | nil => exact ⟨h, .refl _, fun pid hpid => absurd hpid (by simp [ProcessSystem.pickNext])⟩
  | cons l levels ih =>
    rw [ProcessSystem.pickNext]
    cases hqueue : s.sched.runQueues l with
    | nil => exact ih
    | cons p rest =>
      obtain ⟨pcb, hpcb, hactive⟩ := h l p (by simp [hqueue])
      simp only [hpcb]
      have hpopped : QueuedActive { s with
          sched := { s.sched with runQueues := update s.sched.runQueues l rest } } := by
        intro m q hq
        simp only [update_apply] at hq
        split_ifs at hq with hm
        · exact h l q (hqueue ▸ mem_cons_of_mem _ hq)
        · exact h m q hq
      refine ⟨hpopped.modify fun _ _ => .inr rfl, keeps_modify fun pcb' hpcb' => ?_,
        fun pid hpid => ?_⟩
      · cases hpcb.symm.trans hpcb'
        exact ⟨rfl, rfl, rfl, .inr ⟨hactive, .inr rfl⟩, rfl⟩
      · cases hpid
        exact ⟨_, by simp [ProcessSystem.modify, hpcb]; rfl, .inr rfl⟩

lemma QueuedActive.scheduleNext (h : QueuedActive s) :
    QueuedActive s.scheduleNext.1 ∧ s.table.Keeps Eq s.scheduleNext.1.table ∧
      ∀ pid, s.scheduleNext.2 = some pid → s.scheduleNext.1.Active pid := by
  unfold ProcessSystem.scheduleNext
  cases hkept : s.keptCurrent with
  | none =>
    obtain ⟨hrequeued, hkeeps⟩ := h.requeueCurrent
    obtain ⟨hpicked, hkeeps', hactive⟩ := hrequeued.pickNext levelsDown
    exact ⟨hpicked, hkeeps.trans hkeeps', hactive⟩
  | some p =>
    refine ⟨h, .refl _, fun pid hpid => ?_⟩
    cases hpid
    obtain ⟨pcb, hpcb, hrunning⟩ := keptCurrent_eq_some hkept
    exact ⟨pcb, hpcb, .inr hrunning⟩

/-! ### The timer interrupt -/

lemma reenqueue_table (skipped : List (ProcessId × ℕ)) : (s.reenqueue skipped).table = s.table :=
  foldlRecOn (motive := fun s' : ProcessSystem => s'.table = s.table) skipped _ rfl
    fun _ h _ _ => h

lemma QueuedActive.reenqueue {skipped : List (ProcessId × ℕ)} (h : QueuedActive s)
    (hskipped : ∀ b ∈ skipped, s.Active b.1) : QueuedActive (s.reenqueue skipped) := by
  induction skipped generalizing s with
  | nil => exact h
  | cons b skipped ih =>
    exact ih (h.enqueue (hskipped b mem_cons_self))
      fun c hc => hskipped c (mem_cons_of_mem _ hc)

lemma QueuedActive.trySwitchLoop (n : ℕ) {skipped : List (ProcessId × ℕ)} (h : QueuedActive s)
    (hskipped : ∀ b ∈ skipped, s.Active b.1) :
    QueuedActive (trySwitchLoop n s skipped) ∧
      s.table.Keeps Eq (trySwitchLoop n s skipped).table := by
  induction n generalizing s skipped with
  | zero =>
    rw [trySwitchLoop, reenqueue_table]
    exact ⟨h.reenqueue hskipped, .refl _⟩
  | succ n ih =>
    rw [trySwitchLoop]
    obtain ⟨hnext, hkeeps, hpid⟩ := h.scheduleNext
    generalize s.scheduleNext = chosen at hnext hkeeps hpid ⊢
    obtain ⟨s1, chosen⟩ := chosen
    have hskipped1 : ∀ b ∈ skipped, s1.Active b.1 := fun b hb => (hskipped b hb).keeps hkeeps
    cases chosen with
    | none =>
      simp only [reenqueue_table]
      exact ⟨hnext.reenqueue hskipped1, hkeeps⟩
    | some pid =>
      obtain ⟨pcb, hpcb, hactive⟩ := hpid pid rfl
      simp only []
      split_ifs with hswitch
      · rw [reenqueue_table]
        exact ⟨hnext.reenqueue hskipped1, hkeeps⟩
      -- the process is set aside, ready
      have haside : s1.table.Keeps Eq ((s1.dequeue pid).modify pid fun pcb =>
          { pcb with state := .ready }).table := by
        refine keeps_modify fun pcb' hpcb' => ?_
        cases hpcb.symm.trans hpcb'
        exact ⟨rfl, rfl, rfl, .inr ⟨hactive, .inl rfl⟩, rfl⟩
      have hset : ∀ b ∈ skipped ++ [(pid, ((s1.table.get pid).map (·.effectivePriority)).getD 0)],
          ((s1.dequeue pid).modify pid fun pcb => { pcb with state := .ready }).Active b.1 := by
        intro b hb
        obtain hb | hb := mem_append.mp hb
        · exact (hskipped1 b hb).keeps haside
        · rw [mem_singleton.mp hb]
          exact Active.keeps ⟨pcb, hpcb, hactive⟩ haside
      obtain ⟨hloop, hkeeps'⟩ := ih hnext.retire hset
      exact ⟨hloop, (hkeeps.trans haside).trans hkeeps'⟩

lemma QueuedActive.trySwitchNext (h : QueuedActive s) :
    QueuedActive s.trySwitchNext ∧ s.table.Keeps Eq s.trySwitchNext.table :=
  h.trySwitchLoop 8 (by simp)

lemma QueuedActive.timerHandler (h : QueuedActive s) (frameRsp : ℕ) :
    QueuedActive (s.timerHandler frameRsp) ∧
      s.table.Keeps Eq (s.timerHandler frameRsp).table := by
  refine timerHandler_induct (P := fun s' => QueuedActive s' ∧ s.table.Keeps Eq s'.table)
    ⟨h, .refl _⟩ frameRsp (fun _ hf ⟨h, hkeeps⟩ => ?_) fun ⟨h, hkeeps⟩ =>
      ⟨h.trySwitchNext.1, hkeeps.trans h.trySwitchNext.2⟩
  refine ⟨h.modify fun pcb hactive => ?_, hkeeps.trans (keeps_modify fun pcb _ => ?_)⟩ <;>
    obtain ⟨_, _, _, heq⟩ := hf pcb <;> rw [heq]
  · exact hactive
  · exact ⟨rfl, rfl, rfl, .inl rfl, rfl⟩

/-! ### Aging -/

lemma mem_starved {b : ProcessId × Level × ℕ} (h : b ∈ s.starved) :
    ∃ pcb, s.table.get b.1 = some pcb ∧ pcb.state = .ready ∧
      b.2.2 = pcb.effectivePriority + 1 := by
  simp only [starved, mem_flatMap, mem_filterMap] at h
  obtain ⟨l, -, pid, -, h⟩ := h
  cases hpcb : s.table.get pid with
  | none => simp [hpcb] at h
  | some pcb =>
    simp only [hpcb] at h
    split_ifs at h with hcond
    cases h
    exact ⟨pcb, hpcb, hcond.1, rfl⟩

lemma QueuedActive.promote (h : QueuedActive s) {b : ProcessId × Level × ℕ}
    (hb : s.Active b.1) : QueuedActive (s.promote b) := by
  intro l q hq
  have hkeep : ∀ pcb : ProcessControlBlock, pcb.Active →
      ({ pcb with effectivePriority := b.2.2 } : ProcessControlBlock).Active := fun _ hpcb => hpcb
  have hmem : q = b.1 ∨ ∃ m, q ∈ s.sched.runQueues m := by
    simp only [ProcessSystem.promote, ProcessSystem.modify, update_apply] at hq
    split_ifs at hq <;> grind
  obtain rfl | ⟨m, hm⟩ := hmem
  · exact hb.modify hkeep
  · exact (h m q hm).modify hkeep

lemma QueuedActive.foldl_promote (start : ProcessId → ℕ) (boosts : List (ProcessId × Level × ℕ))
    (h : QueuedActive s) (hboosts : ∀ b ∈ boosts, s.Active b.1 ∧ b.2.2 = start b.1 + 1)
    (hstart : ∀ q pcb, s.table.get q = some pcb → pcb.effectivePriority ≤ start q + 1) :
    QueuedActive (boosts.foldl ProcessSystem.promote s) ∧
      s.table.Keeps (· ≤ ·) (boosts.foldl ProcessSystem.promote s).table := by
  induction boosts generalizing s with
  | nil => exact ⟨h, .refl _⟩
  | cons b boosts ih =>
    obtain ⟨hactive, hnew⟩ := hboosts b mem_cons_self
    have hkeeps : s.table.Keeps (· ≤ ·) (s.promote b).table := by
      refine keeps_modify fun pcb hpcb => ⟨rfl, rfl, rfl, .inl rfl, ?_⟩
      rw [hnew]
      exact hstart b.1 pcb hpcb
    have hstart' : ∀ q pcb, (s.promote b).table.get q = some pcb →
        pcb.effectivePriority ≤ start q + 1 := by
      intro q pcb hpcb
      simp only [ProcessSystem.promote, ProcessSystem.modify, get_modify] at hpcb
      split_ifs at hpcb with hq
      · obtain ⟨pcb', -, rfl⟩ := map_eq_some_iff.mp hpcb
        exact hq ▸ hnew.le
      · exact hstart q pcb hpcb
    have hrest : ∀ c ∈ boosts, (s.promote b).Active c.1 ∧ c.2.2 = start c.1 + 1 := by
      intro c hc
      obtain ⟨hactive', hnew'⟩ := hboosts c (mem_cons_of_mem _ hc)
      exact ⟨hactive'.keeps hkeeps, hnew'⟩
    obtain ⟨hqueued, hkeeps'⟩ := ih (h.promote hactive) hrest hstart'
    exact ⟨hqueued, hkeeps.trans hkeeps'⟩

lemma QueuedActive.runAging (h : QueuedActive s) :
    QueuedActive s.runAging ∧ s.table.Keeps (· ≤ ·) s.runAging.table := by
  refine h.foldl_promote (fun q => ((s.table.get q).map (·.effectivePriority)).getD 0)
    s.starved (fun b hb => ?_) (fun q pcb hpcb => ?_)
  · obtain ⟨pcb, hpcb, hready, hnew⟩ := mem_starved hb
    exact ⟨⟨pcb, hpcb, .inl hready⟩, by simp [hpcb, hnew]⟩
  · simp [hpcb]

/-! ### Every call -/

lemma queuedActive_init : QueuedActive init := by
  have hempty : QueuedActive ⟨init.table, .new⟩ := by
    intro l q hq
    simp [Scheduler.new] at hq
  exact hempty.enqueue ⟨butlerPcb, rfl, .inl rfl⟩

lemma QueuedActive.spawn (h : QueuedActive s) {supervisor : ProcessId} {intent : Intent}
    {strategy : Option SupervisionStrategy} {result : Except ProcessError ProcessId}
    (hspawn : s.spawn supervisor intent strategy = .ok (s', result)) : QueuedActive s' := by
  obtain ⟨-, hsched, htable⟩ | ⟨s1, pid, pcb, sup, -, hsup, hfresh, hsched, hpcb, htable, rfl⟩ :=
    spawn_cases hspawn
  · intro l q hq
    obtain ⟨pcb, hpcb, hactive⟩ := h l q (hsched ▸ hq)
    exact ⟨pcb, (htable q).trans hpcb, hactive⟩
  have hinserted : QueuedActive s1 := by
    intro l q hq
    obtain ⟨pcb', hpcb', hactive⟩ := h l q (hsched ▸ hq)
    have hne : q ≠ pid := by
      rintro rfl
      cases hfresh.symm.trans hpcb'
    exact ⟨pcb', by rw [htable, if_neg hne, hpcb'], hactive⟩
  have hnew : s1.Active pid := ⟨pcb, by rw [htable, if_pos rfl], hpcb ▸ .inl rfl⟩
  have hlisted : ∀ sup : ProcessControlBlock, sup.Active →
      ({ sup with children := sup.children ++ [pid] } : ProcessControlBlock).Active :=
    fun _ hactive => hactive
  exact (hinserted.modify hlisted).enqueue (hnew.modify hlisted)

lemma QueuedActive.setPriority (h : QueuedActive s) (hpcb : s.table.get p = some pcb) :
    QueuedActive (s.setPriority p pcb.state priority) := by
  unfold ProcessSystem.setPriority
  split_ifs with hactive
  · refine h.retire.enqueue ⟨{ pcb with effectivePriority := priority }, ?_, hactive⟩
    simp [ProcessSystem.modify, ProcessSystem.dequeue, hpcb]
  · exact h.retire

lemma QueuedActive.applyPriorityInheritance {boostPriority depth : ℕ} {target : ProcessId}
    (h : QueuedActive s) :
    QueuedActive (applyPriorityInheritance boostPriority depth s target) :=
  applyPriorityInheritance_induct (P := fun s _ => QueuedActive s)
    (fun hpcb h => h.setPriority hpcb) h

lemma QueuedActive.block (h : QueuedActive s) (pid : ProcessId) (waitingOn : Option ProcessId) :
    QueuedActive (s.block pid waitingOn).1 := by
  have hsuspended : QueuedActive (s.suspend pid waitingOn) := h.retire
  unfold ProcessSystem.block
  split
  · exact h
  split_ifs
  · exact h
  · split
    · exact hsuspended.applyPriorityInheritance
    · exact hsuspended

lemma QueuedActive.unblock (h : QueuedActive s) (pid : ProcessId) :
    QueuedActive (s.unblock pid).1 := by
  unfold ProcessSystem.unblock
  cases hpcb : s.table.get pid with
  | none => exact h
  | some pcb =>
    simp only []
    split_ifs
    · exact h
    have hwoken : QueuedActive ((s.modify pid (wake s.sched)).enqueue pid
        (wake s.sched pcb).effectivePriority) := h.enter hpcb fun _ => .inl rfl
    split
    · next target _ =>
      simp only [revertPriorityInheritance]
      split
      · exact hwoken
      next tcb htcb =>
      split_ifs
      · exact hwoken.setPriority htcb
      · exact hwoken
    · exact hwoken

lemma QueuedActive.restartProcess (h : QueuedActive s) (now : ℕ) (p : ProcessId) :
    QueuedActive (restartProcess now s p) := by
  unfold ProcessSystem.restartProcess
  cases hpcb : s.table.get p with
  | none => exact h
  | some pcb => exact h.enter hpcb fun _ => .inl rfl

lemma QueuedActive.applyStrategy (h : QueuedActive s) (sup : ProcessControlBlock)
    (crashed : ProcessId) (now : ℕ) : QueuedActive (s.applyStrategy sup crashed now).1 :=
  applyStrategy_induct h (fun _ h => h.retire) (fun p h => h.restartProcess now p) sup crashed

lemma QueuedActive.handleChildCrash {now fuel : ℕ} {supervisor crashed : ProcessId}
    {result : Except ProcessError ℕ} (h : QueuedActive s)
    (hcall : handleChildCrash now fuel s supervisor crashed = .ok (s', result)) : QueuedActive s' :=
  handleChildCrash_induct (P := fun s _ => QueuedActive s) id
    (fun _ _ h => h.modify fun _ hactive => hactive) (fun _ h => h.retire)
    (fun sup h => h.applyStrategy sup _ now) h hcall

lemma QueuedActive.step (h : QueuedActive s) {op : Op} {ans : Ans}
    (hstep : s.step op = .ok (s', ans)) : QueuedActive s' := by
  cases op with
  | spawn supervisor intent strategy =>
    obtain ⟨⟨s1, result⟩, hspawn, hok⟩ := bind_eq_ok.mp hstep
    cases hok
    exact h.spawn hspawn
  | crash pid =>
    obtain ⟨⟨s1, result⟩, hcrash, hok⟩ := bind_eq_ok.mp hstep
    cases hok
    unfold crash at hcrash
    cases hpcb : s.table.get pid with
    | none =>
      simp only [hpcb, ok.injEq, Prod.mk.injEq] at hcrash
      exact hcrash.1 ▸ h
    | some pcb =>
      simp only [hpcb, bind_eq_ok, ok.injEq, Prod.mk.injEq] at hcrash
      obtain ⟨⟨s2, result2⟩, hcall, rfl, -⟩ := hcrash
      exact QueuedActive.handleChildCrash h.retire hcall
  | block pid waitingOn =>
    cases hstep
    exact h.block pid waitingOn
  | unblock pid =>
    cases hstep
    exact h.unblock pid
  | installContext =>
    cases hstep
    exact h.modify fun _ hactive => hactive
  | terminate pid =>
    simp only [ProcessSystem.step, ok.injEq, Prod.mk.injEq] at hstep
    rw [← hstep.1]
    unfold terminate
    split
    · exact h
    · exact h.retire.modify fun _ hactive => hactive
  | scheduleNext =>
    cases hstep
    exact h.scheduleNext.1
  | tick =>
    cases hstep
    exact h
  | timer frameRsp =>
    cases hstep
    exact (h.timerHandler frameRsp).1
  | runAging =>
    cases hstep
    exact h.runAging.1

/-- **What is scheduled may run**: queued processes are active, and so was the one picked. -/
theorem scheduled_active (h : Reachable s) : (∀ l, ∀ q ∈ s.sched.runQueues l, s.Active q) ∧
    ∀ pid, s.scheduleNext.2 = some pid → s.Active pid := by
  have hqueued : QueuedActive s := h.inv queuedActive_init fun hs hstep => hs.step hstep
  obtain ⟨-, hkeeps, hpicked⟩ := hqueued.scheduleNext
  refine ⟨hqueued, fun pid hpid => ?_⟩
  obtain ⟨b, hb, hactive⟩ := hpicked pid hpid
  obtain ⟨a, ha, hkept⟩ := hkeeps.back pid b hb
  exact ⟨a, ha, hkept.active.mp hactive⟩

theorem spawned_scheduled_active :
    (Machine.final step init [.spawn .butler .default none]).Active .butler :=
  (scheduled_active (.of_returns rfl)).2 _ rfl

end ProcessSystem

end Fabric
