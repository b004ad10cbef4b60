/-
Priority inheritance is not lost while a process waits, unless a call takes it back.

`Watched` adds to the system a record of the priority each process had when it last blocked;
the record takes no part in what the system does.
-/
import FabricOS.PriorityInheritance

open Machine Function Option Exec

namespace Fabric

open ProcessControlBlock

/-- The system, and the priority that each process had when it last blocked. -/
structure Watched where
  sys : ProcessSystem
  lent : ProcessId → ℕ

namespace Watched

open ProcessSystem

def init : Watched := ⟨ProcessSystem.init, fun _ => 0⟩

def record (w : Watched) : Op → Ans → ProcessId → ℕ
  | .block pid _, .done (.ok _) =>
    update w.lent pid (((w.sys.table.get pid).map (·.effectivePriority)).getD 0)
  | _, _ => w.lent

def step (w : Watched) (op : Op) : Exec (Watched × Ans) := do
  let (sys, ans) ← w.sys.step op
  .ok (⟨sys, w.record op ans⟩, ans)

variable {w w' : Watched} {op : Op} {ans : Ans}

lemma step_eq_ok : w.step op = .ok (w', ans) ↔
    w.sys.step op = .ok (w'.sys, ans) ∧ w'.lent = w.record op ans := by
  simp only [step, bind_eq_ok, ok.injEq, Prod.mk.injEq]
  constructor
  · rintro ⟨⟨sys, ans'⟩, hstep, rfl, rfl⟩
    exact ⟨hstep, rfl⟩
  · rintro ⟨hstep, hlent⟩
    exact ⟨(w'.sys, ans), hstep, by rw [← hlent], rfl⟩

lemma reachable_iff {s : ProcessSystem} :
    ProcessSystem.Reachable s ↔ ∃ w, Machine.Reachable step init w ∧ w.sys = s := by
  constructor
  · intro h
    refine Machine.Reachable.inv (P := fun s => ∃ w, Machine.Reachable step init w ∧ w.sys = s) h
      ⟨init, .init, rfl⟩ ?_
    rintro _ s' op ans ⟨w, hw, rfl⟩ hstep
    exact ⟨⟨s', w.record op ans⟩, hw.tail (step_eq_ok.mpr ⟨hstep, rfl⟩), rfl⟩
  · rintro ⟨w, hw, rfl⟩
    exact hw.inv (P := fun w : Watched => ProcessSystem.Reachable w.sys) Machine.Reachable.init
      fun hs hstep => Machine.Reachable.tail hs (step_eq_ok.mp hstep).1

/-- **Inheritance is not lost**: a process that is waited for and has not ended has at least
the priority that each of the waiting processes had when it blocked. -/
def Retained (w : Watched) : Prop := ∀ x t tcb, w.sys.Waits x t → w.sys.table.get t = some tcb →
  tcb.state ≠ .terminated → w.lent x ≤ tcb.effectivePriority

/-- The call takes no lent priority back from under a waiting process: a process that is
spawned, reset by `unblock` or restarted after a crash has at least what the processes
waiting for it have lent, and waking up leaves a process as much. -/
def Retains (w : Watched) : Op → Prop
  | .spawn supervisor intent strategy => ∀ s' pid,
    w.sys.spawn supervisor intent strategy = .ok (s', .ok pid) →
    ∀ x, w.sys.Waits x pid → w.lent x ≤ intent.priority.code
  | .unblock pid => ∀ pcb, w.sys.table.get pid = some pcb → pcb.state = .blocked →
    (∀ t tcb, pcb.blockedOn = some t → w.sys.table.get t = some tcb → tcb.state ≠ .terminated →
      ∀ x, x ≠ pid → w.sys.Waits x t → w.lent x ≤ tcb.basePriority) ∧
    (pcb.blockedOn ≠ some pid → ∀ x, w.sys.Waits x pid →
      w.lent x ≤ (wake w.sys.sched pcb).effectivePriority)
  | .crash pid => ∀ pcb, w.sys.table.get pid = some pcb →
    ∀ t ∈ (w.sys.planFor pid pcb).restarted, ∀ tcb, w.sys.table.get t = some tcb →
    ∀ x, x ≠ pid → x ∉ (w.sys.planFor pid pcb).ended → x ∉ (w.sys.planFor pid pcb).restarted →
      w.sys.Waits x t → w.lent x ≤ tcb.basePriority
  | _ => True

variable {s' : ProcessSystem}

lemma Retained.of_eased (h : Retained w)
    (heased : ∀ q b, s'.table.get q = some b → ∃ a, w.sys.table.get q = some a ∧ a.Eased b) :
    Retained ⟨s', w.lent⟩ := by
  rintro x t b ⟨xcb, hxcb, hblocked, hwait⟩ hb hterminated
  obtain ⟨xcb', hxcb', hx⟩ := heased x xcb hxcb
  obtain ⟨a, ha, hab⟩ := heased t b hb
  refine (h x t a ⟨xcb', hxcb', hx.blocked hblocked, hx.blockedOn ▸ hwait⟩ ha ?_).trans hab.priority
  exact fun hended => hterminated (hab.terminated hended)

lemma Retained.of_keeps {r : ℕ → ℕ → Prop} (hr : ∀ m n, r m n → m ≤ n) (h : Retained w)
    (hkeeps : w.sys.table.Keeps r s'.table) : Retained ⟨s', w.lent⟩ := by
  refine h.of_eased fun q b hb => ?_
  obtain ⟨a, ha, hkept⟩ := hkeeps.back q b hb
  exact ⟨a, ha, hkept.eased hr⟩

lemma Retained.terminate (h : Retained w) (pid : ProcessId) :
    Retained ⟨(w.sys.terminate pid).1, w.lent⟩ := by
  refine h.of_eased fun q b hb => ?_
  unfold ProcessSystem.terminate at hb
  cases hpcb : w.sys.table.get pid with
  | none =>
    simp only [hpcb] at hb
    exact ⟨b, hb, rfl, id, id, le_rfl⟩
  | some pcb =>
    simp only [hpcb, ProcessSystem.modify, ProcessSystem.dequeue, ProcessTable.get_modify] at hb
    split_ifs at hb with hsup hq hq
    · obtain ⟨b', hb', rfl⟩ := map_eq_some_iff.mp hb
      obtain ⟨a, ha, rfl⟩ := map_eq_some_iff.mp hb'
      exact ⟨a, ha, rfl, by simp, fun _ => rfl, le_rfl⟩
    · obtain ⟨a, ha, rfl⟩ := map_eq_some_iff.mp hb
      exact ⟨a, ha, rfl, id, id, le_rfl⟩
    · obtain ⟨a, ha, rfl⟩ := map_eq_some_iff.mp hb
      exact ⟨a, ha, rfl, by simp, fun _ => rfl, le_rfl⟩
    · exact ⟨b, hb, rfl, id, id, le_rfl⟩

lemma Retained.block (h : Retained w) {pid : ProcessId} {waitingOn : Option ProcessId}
    (hstep : w.step (.block pid waitingOn) = .ok (w', ans)) : Retained w' := by
  obtain ⟨hsys, hlent⟩ := step_eq_ok.mp hstep
  simp only [ProcessSystem.step, ok.injEq, Prod.mk.injEq] at hsys
  obtain ⟨hsys, hans⟩ := hsys
  by_cases hcan : ∃ pcb, w.sys.table.get pid = some pcb ∧ pcb.Active
  · obtain ⟨pcb, hpcb, hactive⟩ := hcan
    obtain ⟨hdone, hget⟩ := block_of_active waitingOn hpcb hactive
    rw [← hans, hdone] at hlent
    simp only [record, hpcb, map_some, getD_some] at hlent
    intro x t b hwaits hb hended
    rw [← hsys, waits_block hpcb hactive] at hwaits
    rw [← hsys, hget] at hb
    obtain ⟨a, ha, rfl⟩ := map_eq_some_iff.mp hb
    obtain ⟨hle, htarget⟩ := le_afterBlock pid pcb waitingOn ha
    rw [hlent]
    split_ifs at hwaits with hx
    · rw [hx, update_self]
      exact htarget hwaits
    rw [update_of_ne hx]
    refine (h x t a hwaits ha fun hterminated => ?_).trans hle
    by_cases ht : t = pid
    · subst ht
      cases hpcb.symm.trans ha
      simp [ProcessControlBlock.Active, hterminated] at hactive
    · exact hended (by simp [afterBlock, ht, hterminated])
  · obtain ⟨e, hfail⟩ := block_of_not_active waitingOn
      fun pcb hpcb hactive => hcan ⟨pcb, hpcb, hactive⟩
    rw [hfail] at hsys hans
    rw [← hans] at hlent
    have hsame : w' = w := by
      cases w'
      cases w
      simp_all [record]
    exact hsame ▸ h

lemma Retained.spawn_iff (h : Retained w) {supervisor : ProcessId} {intent : Intent}
    {strategy : Option SupervisionStrategy}
    {result : Except ProcessError ProcessId}
    (hspawn : w.sys.spawn supervisor intent strategy = .ok (s', result)) :
    Retained ⟨s', w.lent⟩ ↔ w.Retains (.spawn supervisor intent strategy) := by
  cases result with
  | error e =>
    obtain ⟨-, -, htable⟩ | ⟨_, _, _, _, hok, -⟩ := spawn_cases hspawn
    · refine iff_of_true (h.of_eased fun q b hb => ?_) fun s'' pid hok => ?_
      · exact ⟨b, (htable q).symm.trans hb, rfl, id, id, le_rfl⟩
      · simp [hspawn] at hok
    · simp at hok
  | ok pid =>
    obtain ⟨hfresh, ⟨order, hnew⟩, hframe⟩ := spawn_frame hspawn
    have hwaits : ∀ x t, s'.Waits x t ↔ w.sys.Waits x t := by
      intro x t
      by_cases hx : x = pid
      · subst hx
        refine iff_of_false ?_ ?_
        · rintro ⟨xcb, hxcb, hblocked, -⟩
          cases hnew.symm.trans hxcb
          simp [new] at hblocked
        · rintro ⟨xcb, hxcb, -⟩
          cases hfresh.symm.trans hxcb
      · obtain ⟨f, hf, hget⟩ := hframe x hx
        exact waits_congr hget hf
    constructor
    · intro hretained s'' pid' hok x hx
      simp only [hspawn] at hok
      cases hok
      exact hretained x pid _ ((hwaits x pid).mpr hx) hnew (by simp [new])
    · intro hguard x t b hx hb hended
      rw [hwaits] at hx
      by_cases ht : t = pid
      · subst ht
        cases hnew.symm.trans hb
        exact hguard s' t hspawn x hx
      obtain ⟨f, hf, hget⟩ := hframe t ht
      rw [hget] at hb
      obtain ⟨a, ha, rfl⟩ := map_eq_some_iff.mp hb
      have heased := (hf a).eased fun _ _ => le_of_eq
      exact (h x t a hx ha fun hterminated => hended (heased.terminated hterminated)).trans
        heased.priority

lemma Retained.unblock_iff (h : Retained w) (pid : ProcessId) :
    Retained ⟨(w.sys.unblock pid).1, w.lent⟩ ↔ w.Retains (.unblock pid) := by
  by_cases hcan : ∃ pcb, w.sys.table.get pid = some pcb ∧ pcb.state = .blocked
  · obtain ⟨pcb, hpcb, hblocked⟩ := hcan
    have hget := get_unblock hpcb hblocked
    constructor
    · intro hretained pcb' hpcb' _
      cases hpcb.symm.trans hpcb'
      constructor
      · intro t tcb hwait htcb hended x hx hwaits
        have hle := hretained x t (w.sys.afterUnblock pid pcb t tcb)
          ((waits_unblock hpcb hblocked).mpr ⟨hx, hwaits⟩) (by simp [hget, htcb]) ?_
        · rwa [afterUnblock_priority, if_pos hwait] at hle
        rw [afterUnblock_state]
        split_ifs
        · simp
        · exact hended
      · intro hself x hwaits
        have hx : x ≠ pid := by
          rintro rfl
          obtain ⟨xcb, hxcb, -, hwait⟩ := hwaits
          cases hpcb.symm.trans hxcb
          exact hself hwait
        have hle := hretained x pid (w.sys.afterUnblock pid pcb pid pcb)
          ((waits_unblock hpcb hblocked).mpr ⟨hx, hwaits⟩) (by simp [hget, hpcb])
          (by simp [afterUnblock_state])
        rwa [afterUnblock_priority, if_neg hself, if_pos rfl] at hle
    · intro hguard x t b hwaits' hb hended
      obtain ⟨hwoken, hself⟩ := hguard pcb hpcb hblocked
      obtain ⟨hx, hwaits⟩ := (waits_unblock hpcb hblocked).mp hwaits'
      rw [hget] at hb
      obtain ⟨a, ha, rfl⟩ := map_eq_some_iff.mp hb
      have hlive : a.state ≠ .terminated := by
        by_cases ht : t = pid
        · subst ht
          cases hpcb.symm.trans ha
          simp [hblocked]
        · rwa [afterUnblock_state, if_neg ht] at hended
      rw [afterUnblock_priority]
      split_ifs with hwait ht
      · exact hwoken t a hwait ha hlive x hx hwaits
      · subst ht
        cases hpcb.symm.trans ha
        exact hself hwait x hwaits
      · exact h x t a hwaits ha hlive
  · rw [unblock_of_not_blocked fun pcb hpcb hblocked => hcan ⟨pcb, hpcb, hblocked⟩]
    exact iff_of_true h fun pcb hpcb hblocked => absurd ⟨pcb, hpcb, hblocked⟩ hcan

lemma Retained.crash_iff (h : Retained w) {pid : ProcessId}
    {result : Except ProcessError Unit} (hcrash : w.sys.crash pid = .ok (s', result)) :
    Retained ⟨s', w.lent⟩ ↔ w.Retains (.crash pid) := by
  cases hpcb : w.sys.table.get pid with
  | none =>
    simp only [crash, hpcb, ok.injEq, Prod.mk.injEq] at hcrash
    rw [← hcrash.1]
    exact iff_of_true h fun pcb hpcb' => absurd (hpcb.symm.trans hpcb') (by simp)
  | some pcb =>
    constructor
    · intro hretained pcb' hpcb' t ht tcb htcb x hx hended hrestarted hwaits
      cases hpcb.symm.trans hpcb'
      obtain ⟨b, hb, hab⟩ := get_crash_forth hpcb hcrash htcb
      obtain ⟨hstate, -, hpriority⟩ := fields_of_untracked hab
      rw [afterCrash_state, if_pos ht] at hstate
      rw [afterCrash_priority, if_pos ht] at hpriority
      rw [← hpriority]
      refine hretained x t b ?_ hb (by simp [hstate])
      exact (waits_crash hpcb hcrash).mpr ⟨hx, hended, hrestarted, hwaits⟩
    · intro hguard x t b hwaits' hb hlive
      obtain ⟨hx, hended, hrestarted, hwaits⟩ := (waits_crash hpcb hcrash).mp hwaits'
      obtain ⟨a, ha, hab⟩ := get_crash_back hpcb hcrash hb
      obtain ⟨hstate, -, hpriority⟩ := fields_of_untracked hab
      rw [afterCrash_state] at hstate
      rw [hpriority, afterCrash_priority]
      split_ifs at hstate ⊢ with ht htend
      · exact hguard pcb hpcb t ht a ha x hx hended hrestarted hwaits
      · exact absurd hstate hlive
      · exact h x t a hwaits ha (hstate ▸ hlive)

lemma Retained.step_iff (h : Retained w) (hqueued : QueuedActive w.sys)
    (hstep : w.step op = .ok (w', ans)) : Retained w' ↔ w.Retains op := by
  obtain ⟨hsys, hlent⟩ := step_eq_ok.mp hstep
  obtain ⟨s', lent⟩ := w'
  simp only at hsys hlent
  cases op with
  | block pid waitingOn => exact iff_of_true (h.block hstep) trivial
  | spawn supervisor intent strategy =>
    obtain ⟨⟨s1, result⟩, hspawn, hok⟩ := bind_eq_ok.mp hsys
    cases hok
    exact hlent ▸ h.spawn_iff hspawn
  | crash pid =>
    obtain ⟨⟨s1, result⟩, hcrash, hok⟩ := bind_eq_ok.mp hsys
    cases hok
    exact hlent ▸ h.crash_iff hcrash
  | unblock pid =>
    cases hsys
    exact hlent ▸ h.unblock_iff pid
  | installContext pid stackBase stackTop rsp =>
    cases hsys
    refine iff_of_true (hlent ▸ h.of_keeps (fun _ _ => le_of_eq) ?_) trivial
    exact ProcessTable.keeps_modify fun _ _ => ⟨rfl, rfl, rfl, .inl rfl, rfl⟩
  | terminate pid =>
    cases hsys
    exact iff_of_true (hlent ▸ h.terminate pid) trivial
  | scheduleNext =>
    cases hsys
    refine iff_of_true (hlent ▸ h.of_keeps (fun _ _ => le_of_eq) ?_) trivial
    exact hqueued.scheduleNext.2.1
  | tick =>
    cases hsys
    exact iff_of_true (hlent ▸ h) trivial
  | timer frameRsp =>
    cases hsys
    refine iff_of_true (hlent ▸ h.of_keeps (fun _ _ => le_of_eq) ?_) trivial
    exact (hqueued.timerHandler frameRsp).2
  | runAging =>
    cases hsys
    refine iff_of_true (hlent ▸ h.of_keeps (fun _ _ => id) ?_) trivial
    exact hqueued.runAging.2

lemma not_waits_init {x t : ProcessId} : ¬ ProcessSystem.init.Waits x t := by
  rintro ⟨xcb, hxcb, hblocked, -⟩
  by_cases hx : x = .butler
  · subst hx
    obtain rfl : butlerPcb = xcb := Option.some.inj hxcb
    simp [butlerPcb, new] at hblocked
  · simp [ProcessTable.get, ProcessSystem.init, Finmap.lookup_insert_of_ne _ hx] at hxcb

/-- **Inheritance is not lost while a process waits**, in every state of every run in which
no call takes a lent priority back from under a waiting process; and in a state in which
nothing is lost, a call of any other kind loses something. -/
theorem inheritance_retained (w : Watched) : (ReachableVia Retains step init w → Retained w) ∧
    ∀ w' op ans, Machine.Reachable step init w → Retained w → step w op = .ok (w', ans) →
      (Retained w' ↔ w.Retains op) := by
  constructor
  · intro hreach
    refine (hreach.inv (P := fun w => Retained w ∧ QueuedActive w.sys) ?_ ?_).1
    · exact ⟨fun x t _ hwaits => absurd hwaits not_waits_init, queuedActive_init⟩
    · rintro w w' op ans ⟨hretained, hqueued⟩ hguard hstep
      exact ⟨(hretained.step_iff hqueued hstep).mpr hguard,
        hqueued.step (step_eq_ok.mp hstep).1⟩
  · intro w' op ans hreach hretained hstep
    exact hretained.step_iff (hreach.inv (P := fun w : Watched => QueuedActive w.sys)
      queuedActive_init fun hs hstep => hs.step (step_eq_ok.mp hstep).1) hstep

/-- Butler, with a critical priority, waits for process 2. -/
def oneWaiter : Watched := final step init [.spawn .butler .default none, .block .butler (some 2)]

theorem oneWaiter_retained :
    Retained oneWaiter ∧ Retained ⟨oneWaiter.sys.scheduleNext.1, oneWaiter.lent⟩ ∧
    oneWaiter.sys.Waits .butler 2 ∧ oneWaiter.lent .butler = 4 := by
  have hspawned : ReachableVia Retains step init _ :=
    .tail (i := Op.spawn .butler .default none) .refl
      (fun _ _ _ _ hwaits => absurd hwaits not_waits_init) rfl
  have hblocked := hspawned.tail (i := Op.block .butler (some 2)) trivial rfl
  have hretained : Retained oneWaiter := (inheritance_retained oneWaiter).1 hblocked
  refine ⟨hretained, ?_, ⟨_, rfl, rfl, rfl⟩, rfl⟩
  exact ((inheritance_retained oneWaiter).2 _ .scheduleNext _ hblocked.reachable hretained rfl).mpr
    trivial

/-- Process 3, with a high priority, and Butler wait for process 2. -/
def twoWaiters : Watched := final step init
  [.spawn .butler .default none, .spawn .butler ⟨.compute, .high, 0⟩ none, .block 3 (some 2),
    .block .butler (some 2)]

/-- Process 3 wakes up, and process 2 returns to its base priority while Butler waits. -/
theorem boost_lost_with_first_waiter :
    Machine.Reachable step init twoWaiters ∧
    step twoWaiters (.unblock 3) =
      .ok (⟨(twoWaiters.sys.unblock 3).1, twoWaiters.lent⟩, .done (.ok ())) ∧
    (twoWaiters.sys.unblock 3).1.Waits .butler 2 ∧ twoWaiters.lent .butler = 4 ∧
    ((twoWaiters.sys.unblock 3).1.table.get 2).map (·.effectivePriority) = some 2 ∧
    ¬ Retained ⟨(twoWaiters.sys.unblock 3).1, twoWaiters.lent⟩ := by
  refine ⟨Machine.Reachable.of_returns rfl, rfl, ⟨_, rfl, rfl, rfl⟩, rfl, rfl, fun hretained => ?_⟩
  have hle := hretained .butler 2 _ ⟨_, rfl, rfl, rfl⟩ rfl (by decide)
  exact absurd hle (by decide)

end Watched

end Fabric
