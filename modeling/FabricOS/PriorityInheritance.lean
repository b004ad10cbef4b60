/-
Priority inheritance (`process/mod.rs`): what the calls do to priorities and waits.

A process that blocks lends its priority along the chain of waits.  When it wakes up, the
process it waited for is reset to its base priority, whoever else still waits for it.

For each call that may change a priority or end a wait, one function gives a control block
after the call (`afterBlock`, `afterUnblock`, `afterCrash`), and one equivalence says who
waits then (`waits_block`, `waits_unblock`, `waits_crash`).
-/
import FabricOS.QueueSafety
import FabricOS.Supervision

open Option

namespace Fabric

open ProcessTable ProcessControlBlock

namespace ProcessControlBlock

def settled (pcb : ProcessControlBlock) : ProcessControlBlock :=
  { pcb with effectivePriority := pcb.basePriority }

lemma settled_eq {pcb : ProcessControlBlock} (h : pcb.effectivePriority = pcb.basePriority) :
    pcb.settled = pcb := by
  cases pcb
  cases h
  rfl

/-- What a call may do to a process without taking a lent priority back. -/
structure Eased (a b : ProcessControlBlock) : Prop where
  blockedOn : b.blockedOn = a.blockedOn
  blocked : b.state = .blocked → a.state = .blocked
  terminated : a.state = .terminated → b.state = .terminated
  priority : a.effectivePriority ≤ b.effectivePriority

lemma Kept.eased {r : ℕ → ℕ → Prop} (hr : ∀ m n, r m n → m ≤ n) {a b : ProcessControlBlock}
    (h : a.Kept r b) : a.Eased b where
  blockedOn := h.blockedOn
  blocked hblocked := by
    obtain hstate | ⟨-, hb⟩ := h.state
    · exact hstate ▸ hblocked
    · simp [Active, hblocked] at hb
  terminated hterminated := by
    obtain hstate | ⟨ha, -⟩ := h.state
    · exact hstate.trans hterminated
    · simp [Active, hterminated] at ha
  priority := hr _ _ h.priority

end ProcessControlBlock

namespace ProcessSystem

variable {s s' : ProcessSystem} {p q : ProcessId} {pcb : ProcessControlBlock}

/-- Process `x` waits for process `t`. -/
def Waits (s : ProcessSystem) (x t : ProcessId) : Prop :=
  ∃ xcb, s.table.get x = some xcb ∧ xcb.state = .blocked ∧ xcb.blockedOn = some t

/-! ### The chain of waits -/

section Chain

variable {boostPriority depth : ℕ} {target : ProcessId}

lemma of_mem_boosted (h : q ∈ boosted boostPriority depth s target) :
    (∃ pcb, s.table.get q = some pcb ∧ pcb.effectivePriority < boostPriority) ∧
      (q = target ∨ ∃ w wcb, s.table.get w = some wcb ∧ wcb.blockedOn = some q) := by
  induction depth generalizing s target with
  | zero => simp [boosted] at h
  | succ depth ih =>
    unfold boosted at h
    cases htcb : s.table.get target with
    | none => simp [htcb] at h
    | some tcb =>
      simp only [htcb] at h
      split_ifs at h with hlt
      · obtain rfl | hrest := List.mem_cons.mp h
        · exact ⟨⟨tcb, htcb, hlt⟩, .inl rfl⟩
        cases hnext : tcb.blockedOn with
        | none => simp [hnext] at hrest
        | some next =>
          simp only [hnext] at hrest
          obtain ⟨⟨pcb, hpcb, hpriority⟩, hwaited⟩ := ih hrest
          rw [setPriority_table, get_modify] at hpcb
          constructor
          · split_ifs at hpcb with hq
            · -- the target has the new priority already, so it is not boosted again
              obtain ⟨pcb', -, rfl⟩ := map_eq_some_iff.mp hpcb
              exact absurd hpriority (lt_irrefl _)
            · exact ⟨pcb, hpcb, hpriority⟩
          · obtain rfl | ⟨w, wcb, hwcb, hwait⟩ := hwaited
            · exact .inr ⟨target, tcb, htcb, hnext⟩
            rw [setPriority_table, get_modify] at hwcb
            split_ifs at hwcb with hw
            · obtain ⟨wcb', hwcb', rfl⟩ := map_eq_some_iff.mp hwcb
              exact .inr ⟨w, wcb', hwcb', hwait⟩
            · exact .inr ⟨w, wcb, hwcb, hwait⟩
      · simp at h

lemma target_mem_boosted {tcb : ProcessControlBlock} (htcb : s.table.get target = some tcb)
    (hlt : tcb.effectivePriority < boostPriority) :
    target ∈ boosted boostPriority (depth + 1) s target := by
  simp [boosted, htcb, hlt]

end Chain

/-! ### Blocking and waking up -/

/-- The processes whose priority is raised when a process blocks. -/
def borrowers (s : ProcessSystem) (pid : ProcessId) (pcb : ProcessControlBlock)
    (waitingOn : Option ProcessId) : List ProcessId :=
  match waitingOn with
  | some target =>
    boosted pcb.effectivePriority maxInheritanceDepth (s.suspend pid (some target)) target
  | none => []

variable {pid : ProcessId}

lemma of_mem_borrowers {waitingOn : Option ProcessId} (h : q ∈ s.borrowers pid pcb waitingOn) :
    (∃ a, s.table.get q = some a ∧ a.effectivePriority < pcb.effectivePriority) ∧
      (waitingOn = some q ∨
        ∃ v vcb, v ≠ pid ∧ s.table.get v = some vcb ∧ vcb.blockedOn = some q) := by
  cases waitingOn with
  | none => simp [borrowers] at h
  | some target =>
    obtain ⟨⟨a, ha, hlt⟩, hwaited⟩ := of_mem_boosted h
    constructor
    · rw [get_suspend] at ha
      split_ifs at ha
      · obtain ⟨a', ha', rfl⟩ := map_eq_some_iff.mp ha
        exact ⟨a', ha', hlt⟩
      · exact ⟨a, ha, hlt⟩
    · obtain rfl | ⟨v, vcb, hvcb, hwait⟩ := hwaited
      · exact .inl rfl
      rw [get_suspend] at hvcb
      split_ifs at hvcb with hv
      · obtain ⟨vcb', -, rfl⟩ := map_eq_some_iff.mp hvcb
        exact .inl hwait
      · exact .inr ⟨v, vcb, hv, hvcb, hwait⟩

lemma target_mem_borrowers {pid target : ProcessId} {tcb : ProcessControlBlock}
    (htcb : s.table.get target = some tcb)
    (hlt : tcb.effectivePriority < pcb.effectivePriority) :
    target ∈ s.borrowers pid pcb (some target) := by
  by_cases htarget : target = pid
  · have hblocked : (s.suspend pid (some target)).table.get target =
        some { tcb with state := .blocked, blockedOn := some target } := by
      rw [get_suspend, if_pos htarget, htcb, map_some]
    exact target_mem_boosted hblocked hlt
  · exact target_mem_boosted (by rw [get_suspend, if_neg htarget, htcb]) hlt

/-- A control block when process `pid` has blocked, and others have inherited its priority. -/
def afterBlock (s : ProcessSystem) (pid : ProcessId) (pcb : ProcessControlBlock)
    (waitingOn : Option ProcessId) (q : ProcessId) (a : ProcessControlBlock) :
    ProcessControlBlock :=
  { a with
    state := if q = pid then .blocked else a.state
    blockedOn := if q = pid then waitingOn else a.blockedOn
    effectivePriority :=
      if q ∈ s.borrowers pid pcb waitingOn then pcb.effectivePriority else a.effectivePriority }

lemma block_of_active (waitingOn : Option ProcessId)
    (hpcb : s.table.get pid = some pcb) (hactive : pcb.Active) :
    (s.block pid waitingOn).2 = .ok () ∧ ∀ q, (s.block pid waitingOn).1.table.get q =
      (s.table.get q).map (s.afterBlock pid pcb waitingOn q) := by
  have hstate : ¬ (pcb.state ≠ .running ∧ pcb.state ≠ .ready) := by
    rintro ⟨hrunning, hready⟩
    exact hactive.elim hready hrunning
  unfold block
  simp only [hpcb, hstate, if_false]
  cases waitingOn with
  | none =>
    refine ⟨rfl, fun q => ?_⟩
    unfold afterBlock
    simp only [get_suspend, borrowers, List.not_mem_nil, if_false]
    by_cases hq : q = pid
    · simp only [if_pos hq]
    · simp only [if_neg hq, map_id']
  | some target =>
    refine ⟨rfl, fun q => ?_⟩
    unfold afterBlock
    by_cases hmem : q ∈ s.borrowers pid pcb (some target)
    · simp only [if_pos hmem]
      refine get_applyPriorityInheritance.trans ((if_pos hmem).trans ?_)
      rw [get_suspend]
      by_cases hq : q = pid
      · simp only [if_pos hq, map_map, Function.comp_def]
      · simp only [if_neg hq]
    · simp only [if_neg hmem]
      refine get_applyPriorityInheritance.trans ((if_neg hmem).trans ?_)
      rw [get_suspend]
      by_cases hq : q = pid
      · simp only [if_pos hq]
      · simp only [if_neg hq, map_id']

lemma block_of_not_active (waitingOn : Option ProcessId)
    (h : ∀ pcb, s.table.get pid = some pcb → ¬ pcb.Active) :
    ∃ e, s.block pid waitingOn = (s, .error e) := by
  unfold block
  cases hpcb : s.table.get pid with
  | none => exact ⟨_, rfl⟩
  | some pcb =>
    have hstate : pcb.state ≠ .running ∧ pcb.state ≠ .ready :=
      ⟨fun hrunning => h pcb hpcb (.inr hrunning), fun hready => h pcb hpcb (.inl hready)⟩
    simp only [hstate, ne_eq, not_false_eq_true, and_self, if_true]
    exact ⟨_, rfl⟩

variable {pid x t : ProcessId}

lemma waits_block {waitingOn : Option ProcessId}
    (hpcb : s.table.get pid = some pcb) (hactive : pcb.Active) :
    (s.block pid waitingOn).1.Waits x t ↔ if x = pid then waitingOn = some t else s.Waits x t := by
  unfold Waits
  simp only [(block_of_active waitingOn hpcb hactive).2, map_eq_some_iff]
  split_ifs with hx
  · subst hx
    simp [hpcb, afterBlock]
  constructor
  · rintro ⟨_, ⟨a, ha, rfl⟩, hblocked, hwait⟩
    exact ⟨a, ha, by simpa [afterBlock, hx] using hblocked, by simpa [afterBlock, hx] using hwait⟩
  · rintro ⟨a, ha, hblocked, hwait⟩
    exact ⟨_, ⟨a, ha, rfl⟩, by simpa [afterBlock, hx] using hblocked,
      by simpa [afterBlock, hx] using hwait⟩

lemma le_afterBlock (pid : ProcessId) (pcb : ProcessControlBlock) (waitingOn : Option ProcessId)
    {a : ProcessControlBlock} (ha : s.table.get q = some a) :
    a.effectivePriority ≤ (s.afterBlock pid pcb waitingOn q a).effectivePriority ∧
      (waitingOn = some q →
        pcb.effectivePriority ≤ (s.afterBlock pid pcb waitingOn q a).effectivePriority) := by
  simp only [afterBlock]
  split_ifs with hq
  · obtain ⟨⟨a', ha', hlt⟩, -⟩ := of_mem_borrowers hq
    cases ha.symm.trans ha'
    exact ⟨hlt.le, fun _ => le_rfl⟩
  · refine ⟨le_rfl, ?_⟩
    rintro rfl
    exact not_lt.mp fun hlt => hq (target_mem_borrowers ha hlt)

lemma get_revertPriorityInheritance {target : ProcessId} :
    (s.revertPriorityInheritance target).table.get q =
      if q = target then (s.table.get q).map (·.settled) else s.table.get q := by
  unfold revertPriorityInheritance
  cases htcb : s.table.get target with
  | none =>
    split_ifs with hq
    · simp [hq, htcb]
    · rfl
  | some tcb =>
    by_cases hbase : tcb.effectivePriority = tcb.basePriority
    · simp only [hbase, ne_eq, not_true_eq_false, if_false]
      split_ifs with hq
      · rw [hq, htcb, map_some, settled_eq hbase]
      · rfl
    · simp only [ne_eq, hbase, not_false_eq_true, if_true, setPriority_table, get_modify]
      split_ifs with hq
      · rw [hq, htcb]
        rfl
      · rfl

/-- A control block when process `pid` has woken up, and the one it waited for has lost what
it inherited. -/
def afterUnblock (s : ProcessSystem) (pid : ProcessId) (pcb : ProcessControlBlock) (q : ProcessId)
    (a : ProcessControlBlock) : ProcessControlBlock :=
  let b := if q = pid then wake s.sched a else a
  if pcb.blockedOn = some q then b.settled else b

section AfterUnblock

variable {pid : ProcessId} {a : ProcessControlBlock}

lemma afterUnblock_intent : (s.afterUnblock pid pcb q a).intent = a.intent := by
  unfold afterUnblock
  split_ifs <;> rfl

lemma afterUnblock_basePriority : (s.afterUnblock pid pcb q a).basePriority = a.basePriority := by
  unfold afterUnblock
  split_ifs <;> rfl

lemma afterUnblock_state :
    (s.afterUnblock pid pcb q a).state = if q = pid then .ready else a.state := by
  unfold afterUnblock
  split_ifs <;> rfl

lemma afterUnblock_blockedOn :
    (s.afterUnblock pid pcb q a).blockedOn = if q = pid then none else a.blockedOn := by
  unfold afterUnblock
  split_ifs <;> rfl

lemma afterUnblock_priority : (s.afterUnblock pid pcb q a).effectivePriority =
    if pcb.blockedOn = some q then a.basePriority
    else if q = pid then (wake s.sched a).effectivePriority else a.effectivePriority := by
  unfold afterUnblock
  split_ifs <;> rfl

end AfterUnblock

lemma get_unblock (hpcb : s.table.get pid = some pcb)
    (hblocked : pcb.state = .blocked) (q : ProcessId) :
    (s.unblock pid).1.table.get q = (s.table.get q).map (s.afterUnblock pid pcb q) := by
  have hwoken : ((s.modify pid (wake s.sched)).enqueue pid
      (wake s.sched pcb).effectivePriority).table.get q =
        (s.table.get q).map fun a => if q = pid then wake s.sched a else a := by
    refine get_modify.trans ?_
    by_cases hq : q = pid
    · simp only [if_pos hq]
    · simp only [if_neg hq, map_id']
  unfold unblock afterUnblock
  simp only [hpcb, hblocked, ne_eq, not_true_eq_false, if_false]
  cases hwait : pcb.blockedOn with
  | none => simpa using hwoken
  | some target =>
    simp only [get_revertPriorityInheritance, hwoken, Option.some.injEq]
    by_cases hq : q = target
    · simp only [if_pos hq, if_pos hq.symm, map_map, Function.comp_def]
    · simp only [if_neg hq, if_neg (Ne.symm hq)]

lemma unblock_of_not_blocked
    (h : ∀ pcb, s.table.get pid = some pcb → pcb.state ≠ .blocked) : (s.unblock pid).1 = s := by
  unfold unblock
  cases hpcb : s.table.get pid with
  | none => rfl
  | some pcb => simp [h pcb hpcb]

lemma waits_unblock (hpcb : s.table.get pid = some pcb) (hblocked : pcb.state = .blocked) :
    (s.unblock pid).1.Waits x t ↔ x ≠ pid ∧ s.Waits x t := by
  unfold Waits
  simp only [get_unblock hpcb hblocked, map_eq_some_iff]
  constructor
  · rintro ⟨_, ⟨a, ha, rfl⟩, hstate, hwait⟩
    rw [afterUnblock_state] at hstate
    rw [afterUnblock_blockedOn] at hwait
    split_ifs at hstate hwait with hx
    exact ⟨hx, a, ha, hstate, hwait⟩
  · rintro ⟨hx, a, ha, hstate, hwait⟩
    refine ⟨_, ⟨a, ha, rfl⟩, ?_, ?_⟩
    · rwa [afterUnblock_state, if_neg hx]
    · rwa [afterUnblock_blockedOn, if_neg hx]

/-! ### Spawning and crashing -/

lemma waits_congr {r : ℕ → ℕ → Prop} {f : ProcessControlBlock → ProcessControlBlock}
    {x t : ProcessId} (hget : s'.table.get x = (s.table.get x).map f)
    (hf : ∀ a : ProcessControlBlock, a.Kept r (f a)) : s'.Waits x t ↔ s.Waits x t := by
  have hblocked : ∀ a, (f a).state = .blocked ↔ a.state = .blocked := by
    intro a
    obtain hstate | ⟨ha, hb⟩ := (hf a).state
    · rw [hstate]
    · refine iff_of_false (fun h => ?_) (fun h => ?_)
      · simp [ProcessControlBlock.Active, h] at hb
      · simp [ProcessControlBlock.Active, h] at ha
  unfold Waits
  simp only [hget, map_eq_some_iff]
  constructor
  · rintro ⟨_, ⟨a, ha, rfl⟩, hstate, hwait⟩
    exact ⟨a, ha, (hblocked a).mp hstate, (hf a).blockedOn ▸ hwait⟩
  · rintro ⟨a, ha, hstate, hwait⟩
    exact ⟨_, ⟨a, ha, rfl⟩, (hblocked a).mpr hstate, (hf a).blockedOn.trans hwait⟩

lemma spawn_frame {supervisor pid : ProcessId} {intent : Intent}
    {strategy : Option SupervisionStrategy}
    (h : s.spawn supervisor intent strategy = .ok (s', .ok pid)) :
    s.table.get pid = none ∧
    (∃ order, s'.table.get pid = some (.new intent supervisor (strategy.getD .oneForOne) order
      s.sched.currentTick)) ∧
    ∀ q, q ≠ pid → ∃ f : ProcessControlBlock → ProcessControlBlock,
      (∀ a : ProcessControlBlock, a.Kept Eq (f a)) ∧ s'.table.get q = (s.table.get q).map f := by
  obtain ⟨⟨e, he⟩, -⟩ | ⟨s1, pid', pcb, sup, hpid, hsup, hfresh, -, rfl, htable, rfl⟩ :=
    spawn_cases h
  · simp at he
  obtain rfl := Except.ok.inj hpid
  have hne : pid ≠ supervisor := by
    rintro rfl
    cases hfresh.symm.trans hsup
  refine ⟨hfresh, ⟨sup.children.length, ?_⟩, fun q hq => ?_⟩
  · exact (get_modify_ne hne).trans ((htable pid).trans (if_pos rfl))
  by_cases hqs : q = supervisor
  · refine ⟨fun sup => { sup with children := sup.children ++ [pid] },
      fun a => ⟨rfl, rfl, rfl, .inl rfl, rfl⟩, ?_⟩
    refine get_modify.trans ?_
    rw [if_pos hqs, htable, if_neg hq]
  · refine ⟨id, fun a => .refl a, ?_⟩
    refine (get_modify_ne hqs).trans ?_
    rw [htable, if_neg hq, map_id_fun, id]

lemma waits_crash {result : Except ProcessError Unit}
    (hpcb : s.table.get pid = some pcb) (hcall : s.crash pid = .ok (s', result)) :
    s'.Waits x t ↔ x ≠ pid ∧ x ∉ (s.planFor pid pcb).ended ∧
      x ∉ (s.planFor pid pcb).restarted ∧ s.Waits x t := by
  constructor
  · rintro ⟨b, hb, hblocked, hwait⟩
    obtain ⟨a, ha, hab⟩ := get_crash_back hpcb hcall hb
    obtain ⟨hstate, hblockedOn, -⟩ := fields_of_untracked hab
    rw [afterCrash_blockedOn, hwait] at hblockedOn
    rw [afterCrash_state, hblocked] at hstate
    split_ifs at hblockedOn hstate with hrestarted hended
    rw [not_or] at hended
    exact ⟨hended.2, hended.1, hrestarted, a, ha, hstate.symm, hblockedOn.symm⟩
  · rintro ⟨hx, hended, hrestarted, a, ha, hblocked, hwait⟩
    obtain ⟨b, hb, hab⟩ := get_crash_forth hpcb hcall ha
    obtain ⟨hstate, hblockedOn, -⟩ := fields_of_untracked hab
    rw [afterCrash_state, if_neg hrestarted, if_neg (not_or.mpr ⟨hended, hx⟩)] at hstate
    rw [afterCrash_blockedOn, if_neg hrestarted] at hblockedOn
    exact ⟨b, hb, hstate.trans hblocked, hblockedOn.trans hwait⟩

end ProcessSystem

end Fabric
