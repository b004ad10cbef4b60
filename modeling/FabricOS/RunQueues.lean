/-
What scheduler and process table record of a process.

The state of a process is kept in three places: its control block, the run queues, and the
scheduler's `current`.  `View` collects what they say about one process.  Every write of
the kernel changes the view of one process only, so agreement is kept process by process.
-/
import FabricOS.Processes

open Function List Option

namespace Fabric

open ProcessTable ProcessSystem

/-! ### What is recorded of one process -/

/-- The control block of a process, how often it is in each run queue, and whether it is
current. -/
@[ext] structure View where
  pcb : Option ProcessControlBlock
  counts : Level → ℕ
  current : Prop

namespace View

/-- The process is in the queue of its priority if it is ready, and in no other. -/
def expected (v : View) (l : Level) : ℕ :=
  match v.pcb with
  | some pcb => if pcb.state = .ready ∧ l = level pcb.effectivePriority then 1 else 0
  | none => 0

structure Good (v : View) : Prop where
  counts : ∀ l, v.counts l = v.expected l
  running : ∀ pcb, v.pcb = some pcb → pcb.state = .running → v.current

/-- A ready process that is in no queue: set aside by the timer interrupt. -/
structure Parked (v : View) (priority : ℕ) : Prop where
  pcb : ∃ pcb, v.pcb = some pcb ∧ pcb.state = .ready ∧ pcb.effectivePriority = priority
  counts : ∀ l, v.counts l = 0

def modify (v : View) (f : ProcessControlBlock → ProcessControlBlock) : View :=
  { v with pcb := v.pcb.map f }

def dequeue (v : View) : View := { v with counts := fun _ => 0, current := False }

def enqueue (v : View) (l : Level) : View :=
  { v with counts := fun m => if m = l ∧ v.counts l = 0 then 1 else v.counts m }

variable {v : View} {f : ProcessControlBlock → ProcessControlBlock} {pcb : ProcessControlBlock}
  {priority : ℕ} {l : Level}

lemma expected_some (h : v.pcb = some pcb) :
    v.expected l = if pcb.state = .ready ∧ l = level pcb.effectivePriority then 1 else 0 := by
  simp [expected, h]

lemma expected_of_not_ready (h : ∀ pcb, v.pcb = some pcb → pcb.state ≠ .ready) :
    v.expected l = 0 := by
  cases hpcb : v.pcb with
  | none => simp [expected, hpcb]
  | some pcb => rw [expected_some hpcb, if_neg fun hready => h pcb hpcb hready.1]

lemma Good.modify (h : v.Good) (hstate : ∀ pcb, (f pcb).state = pcb.state)
    (hpriority : ∀ pcb, (f pcb).effectivePriority = pcb.effectivePriority) : (v.modify f).Good := by
  constructor
  · intro l
    refine (h.counts l).trans ?_
    cases hpcb : v.pcb <;> simp [expected, View.modify, hpcb, hstate, hpriority]
  · intro pcb hpcb hrunning
    simp only [View.modify, map_eq_some_iff] at hpcb
    obtain ⟨pcb', hpcb', rfl⟩ := hpcb
    exact h.running pcb' hpcb' (hstate pcb' ▸ hrunning)

lemma good_dequeue (h : ∀ pcb, v.pcb = some pcb → pcb.state ≠ .ready ∧ pcb.state ≠ .running) :
    v.dequeue.Good where
  counts _ := (expected_of_not_ready fun pcb hpcb => (h pcb hpcb).1).symm
  running pcb hpcb hrunning := absurd hrunning (h pcb hpcb).2

lemma Parked.enqueue (h : v.Parked priority) : (v.enqueue (level priority)).Good := by
  obtain ⟨pcb, hpcb, hready, hpriority⟩ := h.pcb
  constructor
  · intro l
    have hview : (v.enqueue (level priority)).pcb = some pcb := hpcb
    rw [expected_some hview, hpriority]
    simp [View.enqueue, h.counts, hready]
  · intro pcb' hpcb' hrunning
    cases hpcb.symm.trans hpcb'
    cases hready.symm.trans hrunning

lemma Good.counts_eq_zero (h : v.Good) (hnot : ∀ pcb, v.pcb = some pcb → pcb.state ≠ .ready) :
    v.counts l = 0 :=
  (h.counts l).trans (expected_of_not_ready hnot)

lemma Good.of_count_pos (h : v.Good) (hpos : 0 < v.counts l) :
    ∃ pcb, v.pcb = some pcb ∧ pcb.state = .ready ∧ l = level pcb.effectivePriority := by
  rw [h.counts] at hpos
  cases hpcb : v.pcb with
  | none => simp [expected, hpcb] at hpos
  | some pcb =>
    rw [expected_some hpcb] at hpos
    split_ifs at hpos with hready
    · exact ⟨pcb, rfl, hready⟩
    · exact absurd hpos (lt_irrefl _)

end View

namespace ProcessSystem

variable {s s' : ProcessSystem} {p q : ProcessId} {f : ProcessControlBlock → ProcessControlBlock}
  {pcb : ProcessControlBlock} {priority : ℕ}

def view (s : ProcessSystem) (p : ProcessId) : View where
  pcb := s.table.get p
  counts l := (s.sched.runQueues l).count p
  current := s.sched.current = some p

lemma view_eq (htable : s'.table.get q = s.table.get q)
    (hcounts : ∀ l, (s'.sched.runQueues l).count q = (s.sched.runQueues l).count q)
    (hcurrent : s'.sched.current = some q ↔ s.sched.current = some q) : s'.view q = s.view q :=
  View.ext htable (funext hcounts) (propext hcurrent)

lemma view_modify_self : (s.modify p f).view p = (s.view p).modify f :=
  View.ext get_modify_self rfl rfl

lemma view_modify_ne (h : q ≠ p) : (s.modify p f).view q = s.view q :=
  view_eq (get_modify_ne h) (fun _ => rfl) Iff.rfl

lemma view_dequeue_self : (s.dequeue p).view p = (s.view p).dequeue := by
  refine View.ext rfl (funext fun l => ?_) (propext ?_)
  · exact count_eq_zero.mpr (by simp [dequeue, Scheduler.dequeue])
  simp only [view, dequeue, Scheduler.dequeue, View.dequeue, iff_false]
  split_ifs with hp
  · simp
  · exact hp

lemma view_dequeue_ne (h : q ≠ p) : (s.dequeue p).view q = s.view q := by
  refine view_eq rfl (fun l => count_filter (by simpa using h)) ?_
  simp only [dequeue, Scheduler.dequeue]
  split_ifs with hp
  · simp [hp, Ne.symm h]
  · rfl

lemma enqueue_of_mem (h : p ∈ s.sched.runQueues (level priority)) : s.enqueue p priority = s := by
  simp [enqueue, Scheduler.enqueue, h]

lemma enqueue_of_not_mem (h : p ∉ s.sched.runQueues (level priority)) :
    s.enqueue p priority = { s with sched := { s.sched with
      runQueues := update s.sched.runQueues (level priority)
        (s.sched.runQueues (level priority) ++ [p]) } } := by
  simp [enqueue, Scheduler.enqueue, h]

lemma enqueue_current : (s.enqueue p priority).sched.current = s.sched.current := by
  by_cases hmem : p ∈ s.sched.runQueues (level priority)
  · rw [enqueue_of_mem hmem]
  · rw [enqueue_of_not_mem hmem]

lemma view_enqueue_self : (s.enqueue p priority).view p = (s.view p).enqueue (level priority) := by
  by_cases hmem : p ∈ s.sched.runQueues (level priority)
  · rw [enqueue_of_mem hmem]
    simp [view, View.enqueue, count_eq_zero, hmem]
  rw [enqueue_of_not_mem hmem]
  refine View.ext rfl (funext fun l => ?_) rfl
  by_cases hl : l = level priority
  · subst hl
    simp [view, View.enqueue, count_eq_zero.mpr hmem]
  · simp [view, View.enqueue, hl]

lemma view_enqueue_ne (h : q ≠ p) : (s.enqueue p priority).view q = s.view q := by
  by_cases hmem : p ∈ s.sched.runQueues (level priority)
  · rw [enqueue_of_mem hmem]
  rw [enqueue_of_not_mem hmem]
  refine view_eq rfl (fun l => ?_) Iff.rfl
  by_cases hl : l = level priority
  · subst hl
    simp [count_append, Ne.symm h]
  · simp [hl]

/-! ### Agreement -/

def Agree (s : ProcessSystem) : Prop := ∀ p, (s.view p).Good

/-- They agree but for ready processes that have been set aside. -/
def AgreeBut (skipped : List (ProcessId × ℕ)) (s : ProcessSystem) : Prop :=
  ∀ p, (∀ priority, (p, priority) ∈ skipped → (s.view p).Parked priority) ∧
    ((∀ priority, (p, priority) ∉ skipped) → (s.view p).Good)

lemma agreeBut_nil : AgreeBut [] s ↔ Agree s := by simp [AgreeBut, Agree]

lemma Agree.change (h : Agree s) (p : ProcessId) (hframe : ∀ q, q ≠ p → s'.view q = s.view q)
    (hp : (s'.view p).Good) : Agree s' := by
  intro q
  by_cases hq : q = p
  · exact hq ▸ hp
  · exact hframe q hq ▸ h q

lemma AgreeBut.change (h : AgreeBut skipped s) (p : ProcessId)
    (hframe : ∀ q, q ≠ p → s'.view q = s.view q) (hp : ∀ priority, (p, priority) ∉ skipped)
    (hgood : (s'.view p).Good) : AgreeBut skipped s' := by
  intro q
  by_cases hq : q = p
  · subst hq
    exact ⟨fun priority hmem => absurd hmem (hp priority), fun _ => hgood⟩
  · rw [hframe q hq]
    exact h q

lemma Agree.modify (h : Agree s) (hstate : ∀ pcb, (f pcb).state = pcb.state)
    (hpriority : ∀ pcb, (f pcb).effectivePriority = pcb.effectivePriority) :
    Agree (s.modify p f) := by
  refine h.change p (fun q => view_modify_ne) ?_
  rw [view_modify_self]
  exact (h p).modify hstate hpriority

lemma Agree.retire (h : Agree s)
    (hstate : ∀ pcb, (f pcb).state ≠ .ready ∧ (f pcb).state ≠ .running) :
    Agree ((s.modify p f).dequeue p) := by
  refine h.change p (fun q hq => by rw [view_dequeue_ne hq, view_modify_ne hq]) ?_
  rw [view_dequeue_self]
  refine View.good_dequeue fun pcb hpcb => ?_
  rw [view_modify_self] at hpcb
  simp only [View.modify, map_eq_some_iff] at hpcb
  obtain ⟨pcb', -, rfl⟩ := hpcb
  exact hstate pcb'

lemma Agree.admit (h : Agree s) (hpcb : s.table.get p = some pcb)
    (hidle : pcb.state ≠ .ready) (hready : (f pcb).state = .ready) :
    Agree ((s.modify p f).enqueue p (f pcb).effectivePriority) := by
  refine h.change p (fun q hq => by rw [view_enqueue_ne hq, view_modify_ne hq]) ?_
  rw [view_enqueue_self, view_modify_self]
  refine View.Parked.enqueue ⟨⟨f pcb, ?_, hready, rfl⟩, fun l => ?_⟩
  · simp [View.modify, view, hpcb]
  · refine (h p).counts_eq_zero fun pcb' hpcb' => ?_
    cases hpcb.symm.trans hpcb'
    exact hidle

/-! ### Scheduling -/

variable {skipped : List (ProcessId × ℕ)}

lemma AgreeBut.good (h : AgreeBut skipped s) (hpcb : s.table.get p = some pcb)
    (hidle : pcb.state ≠ .ready) : (∀ priority, (p, priority) ∉ skipped) ∧ (s.view p).Good := by
  have hnot : ∀ priority, (p, priority) ∉ skipped := by
    intro priority hmem
    obtain ⟨⟨pcb', hpcb', hready, -⟩, -⟩ := (h p).1 priority hmem
    cases hpcb.symm.trans hpcb'
    exact hidle hready
  exact ⟨hnot, (h p).2 hnot⟩

lemma view_clearCurrent_ne (hcurrent : s.sched.current = some p) (h : q ≠ p) :
    ({ s with sched := { s.sched with current := none } } : ProcessSystem).view q = s.view q :=
  view_eq rfl (fun _ => rfl) (by simp [hcurrent, Ne.symm h])

lemma AgreeBut.clearCurrent (h : AgreeBut skipped s) (hcurrent : s.sched.current = some p)
    (hidle : ∀ pcb, s.table.get p = some pcb → pcb.state ≠ .running) :
    AgreeBut skipped { s with sched := { s.sched with current := none } } := by
  intro q
  by_cases hq : q = p
  · subst hq
    refine ⟨fun priority hmem => ?_, fun hnot => ?_⟩
    · obtain ⟨hparked, hcounts⟩ := (h q).1 priority hmem
      exact ⟨hparked, hcounts⟩
    · exact ⟨((h q).2 hnot).counts, fun pcb hpcb hrunning => absurd hrunning (hidle pcb hpcb)⟩
  · rw [view_clearCurrent_ne hcurrent hq]
    exact h q

lemma AgreeBut.requeueCurrent (h : AgreeBut skipped s) :
    AgreeBut skipped s.requeueCurrent ∧ s.requeueCurrent.sched.current = none := by
  unfold ProcessSystem.requeueCurrent
  cases hcurrent : s.sched.current with
  | none => exact ⟨h, hcurrent⟩
  | some p =>
    cases hpcb : s.table.get p with
    | none =>
      simp only [hpcb]
      exact ⟨h.clearCurrent hcurrent (by simp [hpcb]), trivial⟩
    | some pcb =>
      simp only [hpcb]
      split_ifs with hrunning
      · obtain ⟨hnot, hgood⟩ := h.good hpcb (by simp [hrunning])
        refine ⟨h.change p (fun q hq => ?_) hnot ?_, enqueue_current⟩
        · rw [view_enqueue_ne hq, view_modify_ne hq, view_clearCurrent_ne hcurrent hq]
        rw [view_enqueue_self, view_modify_self]
        refine View.Parked.enqueue ⟨⟨{ pcb with state := .ready }, ?_, rfl, rfl⟩, fun l => ?_⟩
        · simp [View.modify, view, hpcb]
        · refine hgood.counts_eq_zero fun pcb' hpcb' => ?_
          cases hpcb.symm.trans hpcb'
          simp [hrunning]
      · refine ⟨h.clearCurrent hcurrent fun pcb' hpcb' => ?_, rfl⟩
        cases hpcb.symm.trans hpcb'
        exact hrunning

lemma AgreeBut.pickNext (levels : List Level) (h : AgreeBut skipped s)
    (hcurrent : s.sched.current = none) :
    AgreeBut skipped (pickNext levels s).1 ∧ ∀ pid, (pickNext levels s).2 = some pid →
      (∀ priority, (pid, priority) ∉ skipped) ∧
        ∃ pcb, (pickNext levels s).1.table.get pid = some pcb := by
  induction levels with
  | nil => exact ⟨h, fun pid hpid => absurd hpid (by simp [ProcessSystem.pickNext])⟩
  | cons l levels ih =>
    rw [ProcessSystem.pickNext]
    cases hqueue : s.sched.runQueues l with
    | nil => exact ih
    | cons p rest =>
      have hpos : 0 < (s.view p).counts l := by
        simp [view, hqueue]
      have hnot : ∀ priority, (p, priority) ∉ skipped := by
        intro priority hmem
        have hzero := ((h p).1 priority hmem).counts l
        omega
      have hgood := (h p).2 hnot
      obtain ⟨pcb, hpcb, hready, hl⟩ := hgood.of_count_pos hpos
      have hget : s.table.get p = some pcb := hpcb
      simp only [hget]
      refine ⟨h.change p (fun q hq => ?_) hnot ⟨fun m => ?_, fun _ _ _ => rfl⟩, ?_⟩
      · -- only the chosen process moves
        refine view_eq (get_modify_ne hq) (fun m => ?_) ?_
        · by_cases hm : m = l
          · subst hm
            simp [modify, hqueue, Ne.symm hq]
          · simp [modify, hm]
        · simp [hcurrent, Ne.symm hq]
      · rw [View.expected_of_not_ready]
        · by_cases hm : m = l
          · subst hm
            have hone := hgood.counts m
            rw [View.expected_some hpcb, if_pos ⟨hready, hl⟩] at hone
            simp only [view, hqueue, count_cons_self] at hone
            simpa [view, modify] using hone
          · have hnone := hgood.counts m
            rw [View.expected_some hpcb, if_neg (by rw [← hl]; exact fun hm' => hm hm'.2)] at hnone
            simpa [view, modify, hm] using hnone
        · intro pcb' hpcb'
          simp only [view, modify, get_modify_self, hget, map_some,
            Option.some.injEq] at hpcb'
          simp [← hpcb']
      · intro pid hpid
        simp only [Option.some.injEq] at hpid
        subst hpid
        exact ⟨hnot, _, by simp [modify, hget]; rfl⟩

lemma AgreeBut.scheduleNext (h : AgreeBut skipped s) :
    AgreeBut skipped s.scheduleNext.1 ∧ ∀ pid, s.scheduleNext.2 = some pid →
      (∀ priority, (pid, priority) ∉ skipped) ∧
        ∃ pcb, s.scheduleNext.1.table.get pid = some pcb := by
  unfold ProcessSystem.scheduleNext
  cases hkept : s.keptCurrent with
  | none => exact h.requeueCurrent.1.pickNext levelsDown h.requeueCurrent.2
  | some p =>
    refine ⟨h, fun pid hpid => ?_⟩
    cases hpid
    obtain ⟨pcb, hpcb, hrunning⟩ := keptCurrent_eq_some hkept
    exact ⟨(h.good hpcb (by simp [hrunning])).1, pcb, hpcb⟩

lemma Agree.scheduleNext (h : Agree s) : Agree s.scheduleNext.1 :=
  agreeBut_nil.mp (agreeBut_nil.mpr h).scheduleNext.1

/-! ### Aging -/

def Starving (s : ProcessSystem) (b : ProcessId × Level × ℕ) : Prop :=
  ∃ pcb, s.table.get b.1 = some pcb ∧ pcb.state = .ready ∧ b.2.1 = level pcb.effectivePriority ∧
    b.2.2 = pcb.effectivePriority + 1 ∧ pcb.effectivePriority < 4

variable {b : ProcessId × Level × ℕ}

lemma view_promote_ne (h : q ≠ b.1) : (s.promote b).view q = s.view q := by
  refine view_eq (get_modify_ne h) (fun l => ?_) Iff.rfl
  simp only [promote, modify, update_apply]
  split_ifs <;> simp_all [count_append, Ne.symm h]

lemma Agree.promote (h : Agree s) (hb : s.Starving b) : Agree (s.promote b) := by
  obtain ⟨p, l, new⟩ := b
  obtain ⟨pcb, hpcb, hready, hl, hnew, hlt⟩ := hb
  simp only at hpcb hl hnew
  have hview : ((s.promote (p, l, new)).view p).pcb =
      some { pcb with effectivePriority := new } := by
    have htable : ((s.promote (p, l, new)).view p).pcb = (s.table.get p).map _ :=
      get_modify_self
    rw [htable, hpcb]
    rfl
  -- the priority is below the highest, so the new level is another one
  have hne : level new ≠ l := by
    rw [hl, hnew]
    simp only [level, ne_eq, Fin.mk.injEq]
    omega
  refine h.change p (fun q hq => view_promote_ne hq) ⟨fun m => ?_, fun pcb' hpcb' hrunning => ?_⟩
  · have hcount := (h p).counts m
    have hbefore : (s.view p).pcb = some pcb := hpcb
    rw [View.expected_some hbefore, ← hl] at hcount
    rw [View.expected_some hview]
    simp only [view, promote, hready, true_and] at hcount ⊢
    by_cases hm : m = level new
    · subst hm
      simp only [update_self, update_of_ne hne, count_append, count_singleton_self, if_true]
      rw [hcount, if_neg hne]
    rw [update_of_ne hm, if_neg hm]
    by_cases hml : m = l
    · subst hml
      exact count_eq_zero.mpr (by simp)
    · rw [update_of_ne hml, hcount, if_neg hml]
  · cases hview.symm.trans hpcb'
    cases hready.symm.trans hrunning

lemma Starving.promote {b' : ProcessId × Level × ℕ} (h : s.Starving b) (hne : b.1 ≠ b'.1) :
    (s.promote b').Starving b := by
  obtain ⟨pcb, hpcb, hrest⟩ := h
  exact ⟨pcb, (get_modify_ne hne).trans hpcb, hrest⟩

lemma Agree.foldl_promote {boosts : List (ProcessId × Level × ℕ)} (h : Agree s)
    (hstarving : ∀ b ∈ boosts, s.Starving b) (hnodup : (boosts.map Prod.fst).Nodup) :
    Agree (boosts.foldl ProcessSystem.promote s) := by
  induction boosts generalizing s with
  | nil => exact h
  | cons b boosts ih =>
    rw [map_cons, nodup_cons] at hnodup
    refine ih (h.promote (hstarving b mem_cons_self)) (fun b' hb' => ?_) hnodup.2
    refine (hstarving b' (mem_cons_of_mem _ hb')).promote fun heq => hnodup.1 ?_
    exact heq ▸ mem_map_of_mem hb'

def candidate (s : ProcessSystem) (l : Level) (pid : ProcessId) : Option (ProcessId × Level × ℕ) :=
  match s.table.get pid with
  | some pcb =>
    if pcb.state = .ready ∧ s.sched.currentTick - pcb.lastScheduled ≥ agingInterval ∧
        pcb.effectivePriority < 4 then
      some (pid, l, pcb.effectivePriority + 1)
    else none
  | none => none

lemma starved_eq : s.starved =
    ([0, 1, 2, 3] : List Level).flatMap fun l => (s.sched.runQueues l).filterMap (s.candidate l) :=
  rfl

variable {l : Level}

lemma candidate_eq_some {pid : ProcessId} (h : s.candidate l pid = some b) : b.1 = pid ∧ b.2.1 = l ∧
      ∃ pcb, s.table.get pid = some pcb ∧ pcb.state = .ready ∧
        b.2.2 = pcb.effectivePriority + 1 ∧ pcb.effectivePriority < 4 := by
  unfold candidate at h
  cases hpcb : s.table.get pid with
  | none => simp [hpcb] at h
  | some pcb =>
    simp only [hpcb] at h
    split_ifs at h with hcond
    cases h
    exact ⟨rfl, rfl, pcb, rfl, hcond.1, rfl, hcond.2.2⟩

lemma Agree.starving (h : Agree s) (hb : b ∈ s.starved) : s.Starving b := by
  rw [starved_eq, mem_flatMap] at hb
  obtain ⟨l, -, hb⟩ := hb
  obtain ⟨pid, hmem, hcandidate⟩ := mem_filterMap.mp hb
  obtain ⟨hpid, hl, pcb, hpcb, hready, hnew, hlt⟩ := candidate_eq_some hcandidate
  have hpos : 0 < (s.view pid).counts l := count_pos_iff.mpr hmem
  obtain ⟨pcb', hpcb', -, hlevel⟩ := (h pid).of_count_pos hpos
  cases hpcb.symm.trans hpcb'
  exact ⟨pcb, hpid ▸ hpcb, hready, hl.trans hlevel, hnew, hlt⟩

lemma map_fst_candidates (queue : List ProcessId) :
    (queue.filterMap (s.candidate l)).map Prod.fst =
      queue.filter fun pid => (s.candidate l pid).isSome := by
  induction queue with
  | nil => rfl
  | cons pid queue ih =>
    cases hcandidate : s.candidate l pid with
    | none => simp [hcandidate, ih]
    | some b => simp [hcandidate, ih, (candidate_eq_some hcandidate).1]

lemma Agree.nodup_queue (h : Agree s) (l : Level) : (s.sched.runQueues l).Nodup := by
  refine nodup_iff_count_le_one.mpr fun p => ?_
  have hcount : (s.sched.runQueues l).count p = (s.view p).expected l := (h p).counts l
  rw [hcount]
  cases hpcb : (s.view p).pcb with
  | none => simp [View.expected, hpcb]
  | some pcb =>
    rw [View.expected_some hpcb]
    split_ifs <;> simp

lemma Agree.queue_unique (h : Agree s) {m : Level} (hl : p ∈ s.sched.runQueues l)
    (hm : p ∈ s.sched.runQueues m) : l = m := by
  obtain ⟨pcb, hpcb, -, hlevel⟩ := (h p).of_count_pos (count_pos_iff.mpr hl)
  obtain ⟨pcb', hpcb', -, hlevel'⟩ := (h p).of_count_pos (count_pos_iff.mpr hm)
  cases hpcb.symm.trans hpcb'
  rw [hlevel, hlevel']

lemma Agree.nodup_starved (h : Agree s) : (s.starved.map Prod.fst).Nodup := by
  rw [starved_eq, map_flatMap]
  simp only [map_fst_candidates]
  refine nodup_flatMap.mpr ⟨fun l _ => (h.nodup_queue l).filter _, ?_⟩
  have hlevels : ([0, 1, 2, 3] : List Level).Nodup := by decide
  refine hlevels.imp fun {l m} hne p hl hm => hne ?_
  exact h.queue_unique (mem_of_mem_filter hl) (mem_of_mem_filter hm)

lemma Agree.runAging (h : Agree s) : Agree s.runAging :=
  h.foldl_promote (fun _ => h.starving) h.nodup_starved

/-! ### The timer interrupt -/

lemma AgreeBut.reenqueue (h : AgreeBut skipped s) (hnodup : (skipped.map Prod.fst).Nodup) :
    Agree (s.reenqueue skipped) := by
  induction skipped generalizing s with
  | nil => exact agreeBut_nil.mp h
  | cons b skipped ih =>
    obtain ⟨p, priority⟩ := b
    rw [map_cons, nodup_cons] at hnodup
    have hnot : ∀ other, (p, other) ∉ skipped := fun other hmem =>
      hnodup.1 (mem_map.mpr ⟨(p, other), hmem, rfl⟩)
    refine ih (fun q => ?_) hnodup.2
    by_cases hq : q = p
    · subst hq
      refine ⟨fun other hmem => absurd hmem (hnot other), fun _ => ?_⟩
      rw [view_enqueue_self]
      exact ((h q).1 priority mem_cons_self).enqueue
    · rw [view_enqueue_ne hq]
      refine ⟨fun other hmem => (h q).1 other (mem_cons_of_mem _ hmem), fun hnone => ?_⟩
      refine (h q).2 fun other hmem => ?_
      obtain heq | hmem := mem_cons.mp hmem
      · exact hq (congrArg Prod.fst heq)
      · exact hnone other hmem

lemma AgreeBut.park (h : AgreeBut skipped s) (hnot : ∀ priority, (p, priority) ∉ skipped)
    (hpcb : s.table.get p = some pcb) :
    AgreeBut (skipped ++ [(p, pcb.effectivePriority)])
      ((s.dequeue p).modify p fun pcb => { pcb with state := .ready }) := by
  intro q
  by_cases hq : q = p
  · subst hq
    rw [view_modify_self, view_dequeue_self]
    refine ⟨fun priority hmem => ⟨⟨{ pcb with state := .ready }, ?_, rfl, ?_⟩, fun _ => rfl⟩,
      fun hnone => absurd (mem_append_right _ mem_cons_self) (hnone _)⟩
    · simp [View.modify, View.dequeue, view, hpcb]
    · obtain hold | hnew := mem_append.mp hmem
      · exact absurd hold (hnot priority)
      · simpa using (mem_singleton.mp hnew).symm
  · rw [view_modify_ne hq, view_dequeue_ne hq]
    refine ⟨fun priority hmem => (h q).1 priority ?_, fun hnone => (h q).2 fun priority hmem =>
      hnone priority (mem_append_left _ hmem)⟩
    obtain hold | hnew := mem_append.mp hmem
    · exact hold
    · exact absurd (congrArg Prod.fst (mem_singleton.mp hnew)) hq

lemma AgreeBut.trySwitchLoop (n : ℕ) (h : AgreeBut skipped s)
    (hnodup : (skipped.map Prod.fst).Nodup) : Agree (trySwitchLoop n s skipped) := by
  induction n generalizing s skipped with
  | zero => exact h.reenqueue hnodup
  | succ n ih =>
    obtain ⟨hnext, hpid⟩ := h.scheduleNext
    rw [trySwitchLoop]
    generalize s.scheduleNext = next at hnext hpid
    obtain ⟨s1, chosen⟩ := next
    cases chosen with
    | none => exact hnext.reenqueue hnodup
    | some pid =>
      obtain ⟨hnot, pcb, hpcb⟩ := hpid pid rfl
      simp only []
      split_ifs with hswitch
      · exact hnext.reenqueue hnodup
      simp only [hpcb, map_some, getD_some]
      refine ih (hnext.park hnot hpcb) ?_
      rw [map_append, map_singleton, nodup_append']
      refine ⟨hnodup, nodup_singleton _, ?_⟩
      intro q hq hq'
      obtain ⟨⟨q', priority⟩, hmem, rfl⟩ := mem_map.mp hq
      rw [mem_singleton] at hq'
      simp only at hq'
      exact hnot priority (hq' ▸ hmem)

lemma Agree.trySwitchNext (h : Agree s) : Agree s.trySwitchNext :=
  (agreeBut_nil.mpr h).trySwitchLoop 8 nodup_nil

lemma Agree.timerHandler (h : Agree s) (frameRsp : ℕ) : Agree (s.timerHandler frameRsp) := by
  have htick : Agree s.tick := h
  refine timerHandler_induct htick frameRsp (fun _ hf h => h.modify (fun pcb => ?_) fun pcb => ?_)
    Agree.trySwitchNext <;> obtain ⟨_, _, _, heq⟩ := hf pcb <;> rw [heq]

/-! ### Spawning and ending -/

lemma agree_init : Agree init := by
  intro p
  by_cases hp : p = .butler
  · subst hp
    have hview : init.view .butler = _ := view_enqueue_self (s := ⟨init.table, .new⟩)
    rw [hview]
    exact View.Parked.enqueue ⟨⟨butlerPcb, rfl, rfl, rfl⟩, fun _ => rfl⟩
  · have hview : init.view p = _ := view_enqueue_ne (s := ⟨init.table, .new⟩) hp
    have hpcb : (⟨init.table, .new⟩ : ProcessSystem).table.get p = none := by
      simp [ProcessTable.get, init, Finmap.lookup_insert_of_ne _ hp]
    rw [hview]
    refine ⟨fun l => ?_, fun pcb hpcb' => absurd (hpcb.symm.trans hpcb') (by simp)⟩
    exact (View.expected_of_not_ready fun pcb hpcb' =>
      absurd (hpcb.symm.trans hpcb') (by simp)).symm

lemma Agree.spawn (h : Agree s) {supervisor : ProcessId} {intent : Intent}
    {strategy : Option SupervisionStrategy} {result : Except ProcessError ProcessId}
    (hspawn : s.spawn supervisor intent strategy = .ok (s', result)) : Agree s' := by
  obtain ⟨-, hsched, htable⟩ | ⟨s1, pid, pcb, sup, -, hsup, hfresh, hsched, hpcb, htable, rfl⟩ :=
    spawn_cases hspawn
  · intro q
    rw [view_eq (htable q) (fun l => by rw [hsched]) (by rw [hsched])]
    exact h q
  have hne : pid ≠ supervisor := by
    rintro rfl
    cases hfresh.symm.trans hsup
  intro q
  by_cases hq : q = pid
  · subst hq
    rw [view_enqueue_self, view_modify_ne hne]
    refine View.Parked.enqueue ⟨⟨pcb, ?_, ?_, rfl⟩, fun l => ?_⟩
    · exact (htable q).trans (if_pos rfl)
    · rw [hpcb]; rfl
    · have hcount : (s.view q).counts l = 0 := (h q).counts_eq_zero fun pcb' hpcb' =>
        absurd (hfresh.symm.trans hpcb') (by simp)
      simpa [view, hsched] using hcount
  · have hsame : s1.view q = s.view q :=
      view_eq ((htable q).trans (if_neg hq)) (fun l => by rw [hsched]) (by rw [hsched])
    rw [view_enqueue_ne hq]
    by_cases hqs : q = supervisor
    · subst hqs
      rw [view_modify_self, hsame]
      exact (h q).modify (fun _ => rfl) (fun _ => rfl)
    · rw [view_modify_ne hqs, hsame]
      exact h q

lemma Agree.terminate (h : Agree s) (pid : ProcessId) : Agree (s.terminate pid).1 := by
  unfold ProcessSystem.terminate
  cases hpcb : s.table.get pid with
  | none => exact h
  | some pcb => exact (h.retire fun _ => by simp).modify (fun _ => rfl) (fun _ => rfl)

end ProcessSystem

end Fabric
