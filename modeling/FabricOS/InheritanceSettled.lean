/-
Inherited priority does not leak.

A process whose priority is not its base priority is waited for, so when no process waits
any more there is none.  `unblock` resets only the process that was waited for directly;
that is enough, because every other boosted process still has its own waiting process.
-/
import FabricOS.PriorityInheritance

open Machine

namespace Fabric

/-- The intent asks for no boost: no deadline, and a category without one. -/
def Intent.Plain (intent : Intent) : Prop :=
  intent.deadline = 0 ∧ (intent.category = .compute ∨ intent.category = .ai)

namespace ProcessSystem

variable {s s' : ProcessSystem} {p q : ProcessId} {pcb : ProcessControlBlock}

/-- Calls that neither end a process nor age it, and spawn only processes without boosts. -/
def Plain (_ : ProcessSystem) : Op → Prop
  | .spawn _ intent _ => intent.Plain
  | .terminate _ | .crash _ | .runAging => False
  | _ => True

structure Accounted (s : ProcessSystem) (p : ProcessId) (pcb : ProcessControlBlock) : Prop where
  plain : pcb.intent.Plain
  base : pcb.basePriority = pcb.intent.priority.code
  blocked : pcb.blockedOn ≠ none → pcb.state = .blocked
  waited : pcb.effectivePriority ≠ pcb.basePriority → ∃ x, s.Waits x p

def AllAccounted (s : ProcessSystem) : Prop :=
  ∀ p pcb, s.table.get p = some pcb → s.Accounted p pcb

lemma Accounted.of_kept {a b : ProcessControlBlock} (h : s.Accounted p a) (hkept : a.Kept Eq b)
    (hwaits : ∀ x, s.Waits x p → ∃ y, s'.Waits y p) : s'.Accounted p b where
  plain := hkept.intent ▸ h.plain
  base := by rw [hkept.basePriority, hkept.intent, h.base]
  blocked hb := by
    have ha := h.blocked (hkept.blockedOn ▸ hb)
    obtain hstate | ⟨hactive, -⟩ := hkept.state
    · exact hstate.trans ha
    · simp [ProcessControlBlock.Active, ha] at hactive
  waited hb := by
    rw [hkept.basePriority, ← hkept.priority] at hb
    obtain ⟨x, hx⟩ := h.waited hb
    exact hwaits x hx

lemma AllAccounted.of_keeps (h : AllAccounted s) (hkeeps : s.table.Keeps Eq s'.table) :
    AllAccounted s' := by
  intro p b hb
  obtain ⟨a, ha, hkept⟩ := hkeeps.back p b hb
  refine (h p a ha).of_kept hkept ?_
  rintro x ⟨xcb, hxcb, hblocked, hwait⟩
  obtain ⟨xcb', hxcb', hx⟩ := hkeeps.forth x xcb hxcb
  refine ⟨x, xcb', hxcb', ?_, hx.blockedOn.trans hwait⟩
  obtain hstate | ⟨hactive, -⟩ := hx.state
  · exact hstate.trans hblocked
  · simp [ProcessControlBlock.Active, hblocked] at hactive

lemma AllAccounted.spawn (h : AllAccounted s) {supervisor : ProcessId} {intent : Intent}
    {strategy : Option SupervisionStrategy} {result : Except ProcessError ProcessId}
    (hplain : intent.Plain)
    (hspawn : s.spawn supervisor intent strategy = .ok (s', result)) : AllAccounted s' := by
  cases result with
  | error e =>
    obtain ⟨-, -, htable⟩ | ⟨_, _, _, _, hok, -⟩ := spawn_cases hspawn
    · refine h.of_keeps ⟨fun q a ha => ?_, fun q b hb => ?_⟩
      · exact ⟨a, (htable q).trans ha, .refl a⟩
      · exact ⟨b, (htable q).symm.trans hb, .refl b⟩
    · simp at hok
  | ok pid =>
    obtain ⟨hfresh, ⟨order, hnew⟩, hframe⟩ := spawn_frame hspawn
    intro p b hb
    by_cases hp : p = pid
    · subst hp
      cases hnew.symm.trans hb
      exact ⟨hplain, rfl, fun hwait => absurd rfl hwait, fun hboost => absurd rfl hboost⟩
    obtain ⟨f, hf, hget⟩ := hframe p hp
    rw [hget] at hb
    obtain ⟨a, ha, rfl⟩ := Option.map_eq_some_iff.mp hb
    refine (h p a ha).of_kept (hf a) fun x hx => ⟨x, ?_⟩
    have hne : x ≠ pid := by
      rintro rfl
      obtain ⟨xcb, hxcb, -⟩ := hx
      cases hfresh.symm.trans hxcb
    obtain ⟨g, hg, hgetx⟩ := hframe x hne
    exact (waits_congr hgetx hg).mpr hx

lemma AllAccounted.block (h : AllAccounted s) (pid : ProcessId) (waitingOn : Option ProcessId) :
    AllAccounted (s.block pid waitingOn).1 := by
  by_cases hcan : ∃ pcb, s.table.get pid = some pcb ∧ pcb.Active
  · obtain ⟨pcb, hpcb, hactive⟩ := hcan
    intro p b hb
    rw [(block_of_active waitingOn hpcb hactive).2] at hb
    obtain ⟨a, ha, rfl⟩ := Option.map_eq_some_iff.mp hb
    have hold : ∀ x, s.Waits x p → (s.block pid waitingOn).1.Waits x p := by
      intro x hx
      have hne : x ≠ pid := by
        rintro rfl
        obtain ⟨xcb, hxcb, hblocked, -⟩ := hx
        cases hpcb.symm.trans hxcb
        simp [ProcessControlBlock.Active, hblocked] at hactive
      rw [waits_block hpcb hactive, if_neg hne]
      exact hx
    refine ⟨(h p a ha).plain, (h p a ha).base, fun hwait => ?_, fun hboost => ?_⟩
    · simp only [afterBlock] at hwait ⊢
      split_ifs at hwait ⊢
      · rfl
      · exact (h p a ha).blocked hwait
    · by_cases hp : p ∈ s.borrowers pid pcb waitingOn
      · obtain hwait | ⟨v, vcb, hv, hvcb, hwait⟩ := (of_mem_borrowers hp).2
        · exact ⟨pid, by rw [waits_block hpcb hactive, if_pos rfl, hwait]⟩
        · refine ⟨v, hold v ⟨vcb, hvcb, (h v vcb hvcb).blocked ?_, hwait⟩⟩
          simp [hwait]
      · simp only [afterBlock, if_neg hp] at hboost
        obtain ⟨x, hx⟩ := (h p a ha).waited hboost
        exact ⟨x, hold x hx⟩
  · obtain ⟨e, hfail⟩ := block_of_not_active waitingOn
      fun pcb hpcb hactive => hcan ⟨pcb, hpcb, hactive⟩
    rw [hfail]
    exact h

lemma wake_priority {sched : Scheduler} (h : pcb.intent.Plain) :
    (wake sched pcb).effectivePriority =
      if pcb.intent.category = .compute ∧ pcb.intent.priority = .background then
        min pcb.effectivePriority 1
      else pcb.effectivePriority := by
  obtain ⟨hdeadline, hcategory⟩ := h
  obtain hcategory | hcategory := hcategory <;>
    simp [wake, Scheduler.applyIntentBoost, hdeadline, hcategory, Priority.code]

lemma Accounted.wake {sched : Scheduler} (h : s.Accounted p pcb)
    (hsettled : pcb.effectivePriority = pcb.basePriority) :
    (wake sched pcb).effectivePriority = pcb.basePriority := by
  rw [wake_priority h.plain, hsettled, h.base]
  split_ifs with hcapped
  · rw [hcapped.2]
    rfl
  · rfl

lemma AllAccounted.unblock (h : AllAccounted s) (pid : ProcessId) :
    AllAccounted (s.unblock pid).1 := by
  by_cases hcan : ∃ pcb, s.table.get pid = some pcb ∧ pcb.state = .blocked
  · obtain ⟨pcb, hpcb, hblocked⟩ := hcan
    intro p b hb
    rw [get_unblock hpcb hblocked] at hb
    obtain ⟨a, ha, rfl⟩ := Option.map_eq_some_iff.mp hb
    have hp := h p a ha
    refine ⟨?_, ?_, fun hwait => ?_, fun hboost => ?_⟩
    · rw [afterUnblock_intent]
      exact hp.plain
    · rw [afterUnblock_basePriority, afterUnblock_intent]
      exact hp.base
    · rw [afterUnblock_blockedOn] at hwait
      rw [afterUnblock_state]
      split_ifs at hwait ⊢
      · exact absurd rfl hwait
      · exact hp.blocked hwait
    · rw [afterUnblock_priority, afterUnblock_basePriority] at hboost
      have hwait : pcb.blockedOn ≠ some p := fun hwait => hboost (if_pos hwait)
      have hbefore : a.effectivePriority ≠ a.basePriority := by
        intro hsettled
        rw [if_neg hwait] at hboost
        split_ifs at hboost
        · exact hboost (hp.wake hsettled)
        · exact hboost hsettled
      -- whoever waits for this process is not the one that woke up
      obtain ⟨x, hx⟩ := hp.waited hbefore
      refine ⟨x, (waits_unblock hpcb hblocked).mpr ⟨?_, hx⟩⟩
      rintro rfl
      obtain ⟨xcb, hxcb, -, hxwait⟩ := hx
      cases hpcb.symm.trans hxcb
      exact hwait hxwait
  · rw [unblock_of_not_blocked fun pcb hpcb hblocked => hcan ⟨pcb, hpcb, hblocked⟩]
    exact h

lemma AllAccounted.step (h : AllAccounted s) (hqueued : QueuedActive s) {op : Op} {ans : Ans}
    (hplain : s.Plain op) (hstep : s.step op = .ok (s', ans)) : AllAccounted s' := by
  cases op with
  | terminate | crash | runAging => exact hplain.elim
  | spawn supervisor intent strategy =>
    obtain ⟨⟨s1, result⟩, hspawn, hok⟩ := Exec.bind_eq_ok.mp hstep
    cases hok
    exact h.spawn hplain hspawn
  | block pid waitingOn =>
    cases hstep
    exact h.block pid waitingOn
  | unblock pid =>
    cases hstep
    exact h.unblock pid
  | installContext pid stackBase stackTop rsp =>
    cases hstep
    exact h.of_keeps (ProcessTable.keeps_modify fun _ _ => ⟨rfl, rfl, rfl, .inl rfl, rfl⟩)
  | scheduleNext =>
    cases hstep
    exact h.of_keeps hqueued.scheduleNext.2.1
  | tick =>
    simp only [ProcessSystem.step, Exec.ok.injEq, Prod.mk.injEq] at hstep
    have htick : AllAccounted s.tick := h.of_keeps (.refl s.table)
    exact hstep.1 ▸ htick
  | timer frameRsp =>
    cases hstep
    exact h.of_keeps (hqueued.timerHandler frameRsp).2

lemma allAccounted_init : AllAccounted init := by
  intro p pcb hpcb
  by_cases hp : p = .butler
  · subst hp
    obtain rfl : butlerPcb = pcb := Option.some.inj hpcb
    exact ⟨⟨rfl, .inl rfl⟩, rfl, fun hwait => absurd rfl hwait, fun hboost => absurd rfl hboost⟩
  · simp [ProcessTable.get, init, Finmap.lookup_insert_of_ne _ hp] at hpcb

/-- **Inherited priority does not leak**: when no process is blocked any more, every process
has its base priority, in every run in which no process ends, none is aged, and no intent
asks for a boost. -/
theorem no_boost_left (h : ReachableVia Plain step init s)
    (hidle : ∀ p pcb, s.table.get p = some pcb → pcb.state ≠ .blocked) :
    ∀ p pcb, s.table.get p = some pcb → pcb.effectivePriority = pcb.basePriority := by
  have haccounted : AllAccounted s := by
    refine (h.inv (P := fun s => AllAccounted s ∧ QueuedActive s)
      ⟨allAccounted_init, queuedActive_init⟩ ?_).1
    rintro s s' op ans ⟨hs, hqueued⟩ hplain hstep
    exact ⟨hs.step hqueued hplain hstep, hqueued.step hstep⟩
  intro p pcb hpcb
  by_contra hboost
  obtain ⟨x, xcb, hxcb, hblocked, -⟩ := (haccounted p pcb hpcb).waited hboost
  exact hidle x xcb hxcb hblocked

/-- A chain of waits, from Butler to process 3 by way of process 2, that is taken apart
beginning with its middle. -/
def chainUndone : ProcessSystem := final step init
  [.spawn .butler .default none, .spawn .butler .default none, .block 2 (some 3),
    .block .butler (some 2), .unblock 2, .unblock .butler]

theorem chainUndone_settled : ReachableVia Plain step init chainUndone ∧
    ∀ p pcb, chainUndone.table.get p = some pcb → pcb.effectivePriority = pcb.basePriority := by
  have hspawned : ReachableVia Plain step init _ :=
    .tail (i := Op.spawn .butler .default none) .refl ⟨rfl, .inl rfl⟩ rfl
  have hspawned' := hspawned.tail (i := Op.spawn .butler .default none) ⟨rfl, .inl rfl⟩ rfl
  have hblocked := hspawned'.tail (i := Op.block 2 (some 3)) trivial rfl
  have hblocked' := hblocked.tail (i := Op.block .butler (some 2)) trivial rfl
  have hunblocked := hblocked'.tail (i := Op.unblock 2) trivial rfl
  have hundone : ReachableVia Plain step init chainUndone :=
    hunblocked.tail (i := Op.unblock .butler) trivial rfl
  have hidle : ∀ e ∈ chainUndone.table.processes.entries, e.2.state ≠ .blocked := by decide
  exact ⟨hundone, no_boost_left hundone fun p pcb hpcb =>
    hidle ⟨p, pcb⟩ (Finmap.mem_lookup_iff.mp hpcb)⟩

end ProcessSystem

end Fabric
