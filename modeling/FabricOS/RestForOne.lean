/-
The strategy `RestForOne`.

A supervisor with this strategy is to restart a crashed child and those that were spawned
after it.  Which these are is read from the spawn order that each child has recorded: the
number of children its supervisor had when it was spawned.  This number grows from one child
to the next only as long as no child is terminated in between.
-/
import FabricOS.Lifecycle

open Machine Option List

namespace Fabric.ProcessSystem

variable {s s' : ProcessSystem} {p q c : ProcessId} {sup : ProcessControlBlock}

/-! ### The children that are restarted -/

lemma mem_restOf {children : List ProcessId} : q ∈ s.restOf children c ↔ q ∈ children ∧
    ∃ l, s.linksOf q = some l ∧ ((s.linksOf c).map (·.spawnOrder)).getD 0 ≤ l.spawnOrder := by
  unfold restOf linksOf
  rw [mem_filter]
  cases s.table.get q with
  | none => simp
  | some qcb => cases s.table.get c <;> simp [ProcessControlBlock.links]

lemma crash_restForOne (htree : Tree s.linksOf s.table.nextPid)
    (hsup : s.table.get p = some sup) (hstrategy : sup.strategy = .restForOne)
    (hc : c ∈ sup.children)
    (hwithin : (sup.restartTracker.recordRestart s.sched.currentTick).2 = false)
    {noted : ProcessSystem} (hnoted : (s.stop c .crash).modify p (fun sup' => { sup' with
      restartTracker := (sup.restartTracker.recordRestart s.sched.currentTick).1 }) = noted) :
    s.crash c = .ok (noted.restartGroup (s.restOf sup.children c) s.sched.currentTick, .ok ()) := by
  have hlinks : s.linksOf p = some sup.links := by rw [linksOf, hsup]; rfl
  obtain ⟨lc, hlc, hparent⟩ := htree.children p sup.links hlinks c hc
  obtain ⟨ccb, hccb, rfl⟩ := map_eq_some_iff.mp hlc
  have hparent : ccb.supervisor = p := hparent
  have hne : p ≠ c := by
    rintro rfl
    have hlt := htree.supervisor_lt p _ hlc
    rw [show ccb.links.supervisor = p from hparent] at hlt
    exact absurd hlt (lt_irrefl _)
  have hsup' : (s.stop c .crash).table.get p = some sup := by rw [get_stop, if_neg hne, hsup]
  -- neither the end of the crashed child nor the note touches the recorded orders
  have hrest : noted.restOf sup.children c = s.restOf sup.children c := hnoted ▸
    restOf_congr (leaves_record ((leaves_stop (.refl s)).comp Prod.fst) _).part _ _
  have htick : (s.stop c .crash).sched.currentTick = s.sched.currentTick := rfl
  unfold crash
  simp only [hccb, hparent, htick, escalationFuel, handleChildCrash, hsup', hwithin,
    Bool.false_eq_true, if_false, Exec.ok_bind, applyStrategy, hstrategy, hnoted, hrest]

/-! ### The recorded order -/

/-- The event spawned a process under a supervisor that had so many children. -/
def SpawnsWith (pid : ProcessId) (n : ℕ) (ev : Event ProcessSystem Call Ans) : Prop :=
  ev.output = .spawned (.ok pid) ∧ ∃ supervisor intent strategy sup,
    ev.input = .op (.spawn supervisor intent strategy) ∧
      ev.before.table.get supervisor = some sup ∧ n = sup.children.length

/-- In a run, the process was spawned when its supervisor had so many children. -/
def SpawnedWith (evs : List (Event ProcessSystem Call Ans)) (pid : ProcessId) (n : ℕ) : Prop :=
  ∃ ev ∈ evs, SpawnsWith pid n ev

lemma SpawnsWith.newPid {ev : Event ProcessSystem Call Ans} {n : ℕ} (h : SpawnsWith q n ev) :
    ev.output.newPid = some q := by rw [h.1]; rfl

lemma SpawnsWith.unique {ev : Event ProcessSystem Call Ans} {m n : ℕ} (hm : SpawnsWith q m ev)
    (hn : SpawnsWith q n ev) : m = n := by
  obtain ⟨-, supervisor, intent, strategy, sup, hinput, hsup, rfl⟩ := hm
  obtain ⟨-, supervisor', intent', strategy', sup', hinput', hsup', rfl⟩ := hn
  rw [hinput, Call.op.injEq, Op.spawn.injEq] at hinput'
  obtain ⟨rfl, -, -⟩ := hinput'
  rw [some.inj (hsup.symm.trans hsup')]

lemma spawnsWith_of_call {call : Call} {ans : Ans} (h : s.call call = .ok (s', ans))
    (hans : ans.newPid = some q) :
    ∃ l, s'.linksOf q = some l ∧ SpawnsWith q l.spawnOrder ⟨s, call, ans⟩ := by
  -- an answer with a new process is that of a spawn
  have hspawned : ans = .spawned (.ok q) := by
    match ans, hans with
    | .spawned (.ok _), hans => rw [some.inj hans]
  subst hspawned
  match call, h with
  | .op (.spawn supervisor intent strategy), h =>
    simp only [ProcessSystem.call, step, Exec.bind_eq_ok, Exec.ok.injEq, Prod.mk.injEq,
      Ans.spawned.injEq] at h
    obtain ⟨⟨s1, result⟩, hspawn, rfl, rfl⟩ := h
    obtain ⟨-, ⟨e, he, -⟩ | ⟨sup, hq, -, -, hsup, -, hget⟩⟩ := spawn_links hspawn
    · cases he
    obtain rfl := Except.ok.inj hq
    refine ⟨⟨supervisor, [], strategy.getD .oneForOne, sup.children.length⟩, ?_, rfl, supervisor,
      intent, strategy, sup, rfl, hsup, rfl⟩
    rw [linksOf, hget, if_pos rfl]
    rfl
  | .op (.crash pid), h =>
    simp [ProcessSystem.call, step, Exec.bind_eq_ok] at h

lemma LinkStep.spawnOrder {ans : Ans} (h : LinkStep s ans s') (hq : ans.newPid ≠ some q)
    {l' : Links} (hl' : s'.linksOf q = some l') :
    ∃ l, s.linksOf q = some l ∧ l.spawnOrder = l'.spawnOrder := by
  cases h with
  | kept _ links nextPid => exact ⟨l', links q ▸ hl', rfl⟩
  | spawned supervisor sup strategy newPid found fresh room nextPid links =>
    have hne : q ≠ s.table.nextPid := fun heq => hq (newPid.trans (congrArg some heq.symm))
    rw [links, if_neg hne] at hl'
    split_ifs at hl' with hsup
    · cases hl'
      exact ⟨sup, hsup ▸ found, rfl⟩
    · exact ⟨l', hl', rfl⟩
  | unlisted pid supervisor _ nextPid links =>
    rw [links] at hl'
    split_ifs at hl'
    · obtain ⟨l, hl, rfl⟩ := map_eq_some_iff.mp hl'
      exact ⟨l, hl, rfl⟩
    · exact ⟨l', hl', rfl⟩

lemma SpawnedWith.mem {evs : List (Event ProcessSystem Call Ans)} {n : ℕ}
    (h : SpawnedWith evs q n) : q ∈ spawnedPids evs := by
  obtain ⟨ev, hev, hspawns⟩ := h
  exact mem_filterMap.mpr ⟨ev, hev, hspawns.newPid⟩

lemma run_spawnedWith {evs : List (Event ProcessSystem Call Ans)} (h : Run call init evs s)
    {l : Links} (hq : q ∈ spawnedPids evs) (hl : s.linksOf q = some l) {n : ℕ} :
    SpawnedWith evs q n ↔ n = l.spawnOrder := by
  induction h generalizing l with
  | nil => exact absurd hq (not_mem_nil)
  | @snoc evs s s' c ans hrun hcall ih =>
    have hsplit : SpawnedWith (evs ++ [⟨s, c, ans⟩]) q n ↔
        SpawnedWith evs q n ∨ SpawnsWith q n ⟨s, c, ans⟩ := by
      simp [SpawnedWith, or_and_right, exists_or]
    have hmem : q ∈ spawnedPids evs ∨ ans.newPid = some q := by
      simpa [spawnedPids, mem_filterMap, or_and_right, exists_or] using hq
    rw [hsplit]
    by_cases hnew : ans.newPid = some q
    · -- it has just been spawned, and not before
      have hnot : ¬ SpawnedWith evs q n := by
        intro hbefore
        have hsorted := (run_spawned (hrun.snoc hcall)).1
        rw [spawnedPids, filterMap_append, pairwise_append] at hsorted
        exact absurd (hsorted.2.2 q hbefore.mem q (by simp [hnew])) (lt_irrefl _)
      obtain ⟨l', hl', hspawns⟩ := spawnsWith_of_call hcall hnew
      cases hl.symm.trans hl'
      rw [or_iff_right hnot]
      exact ⟨fun hn => hn.unique hspawns, fun hn => hn ▸ hspawns⟩
    · obtain ⟨l0, hl0, horder⟩ := (call_links hcall).spawnOrder hnew hl
      have hnot : ¬ SpawnsWith q n ⟨s, c, ans⟩ := fun hspawns => hnew hspawns.newPid
      rw [or_iff_left hnot, ih (hmem.resolve_right hnew) hl0, horder]

/-! ### Exactness -/

/-- **`RestForOne` restarts by the recorded order.**  When a child of a supervisor with this
strategy crashes within the restart intensity, some children are terminated and restarted.
They are the crashed child and the children spawned after it if and only if, of the other
children, those spawned later found at least as many children in the list as the crashed one,
and those spawned earlier found fewer. -/
theorem restForOne_restarts_later_iff {evs : List (Event ProcessSystem Call Ans)}
    (hrun : Run call init evs s) (hsup : s.table.get p = some sup)
    (hstrategy : sup.strategy = .restForOne) (hc : c ∈ sup.children)
    (hwithin : (sup.restartTracker.recordRestart s.sched.currentTick).2 = false) :
    s.crash c = .ok ((((s.stop c .crash).modify p fun sup' => { sup' with
        restartTracker := (sup.restartTracker.recordRestart s.sched.currentTick).1 }).restartGroup
          (s.restOf sup.children c) s.sched.currentTick), .ok ()) ∧
      ((∀ q, q ∈ s.restOf sup.children c ↔
          q = c ∨ q ∈ sup.children ∧ SpawnedAfter evs c q) ↔
        ∀ q ∈ sup.children, q ≠ c → ∀ m n, SpawnedWith evs c m → SpawnedWith evs q n →
          (m ≤ n ↔ SpawnedAfter evs c q)) := by
  have htree : Tree s.linksOf s.table.nextPid := CallReachable.tree hrun.reachable
  refine ⟨crash_restForOne htree hsup hstrategy hc hwithin rfl, ?_⟩
  have hlinks : s.linksOf p = some sup.links := by rw [linksOf, hsup]; rfl
  -- a child has been spawned, for it is not Butler
  have hchild : ∀ q ∈ sup.children, q ∈ spawnedPids evs ∧ ∃ l, s.linksOf q = some l := by
    intro q hq
    obtain ⟨l, hl, hparent⟩ := htree.children p sup.links hlinks q hq
    refine ⟨(((run_spawned hrun).2 q).mp ⟨l, hl⟩).resolve_left ?_, l, hl⟩
    rintro rfl
    obtain ⟨lb, hlb, hroot⟩ := htree.butler
    cases hlb.symm.trans hl
    rw [← hparent, hroot] at hlinks
    cases htree.kernel.symm.trans hlinks
  obtain ⟨hcmem, lc, hlc⟩ := hchild c hc
  constructor
  · intro hexact q hq hne m n hm hn
    obtain ⟨hqmem, lq, hlq⟩ := hchild q hq
    rw [run_spawnedWith hrun hcmem hlc] at hm
    rw [run_spawnedWith hrun hqmem hlq] at hn
    have hiff := hexact q
    rw [mem_restOf, hlc] at hiff
    simp only [hq, hne, true_and, false_or, map_some, getD_some, hlq,
      some.injEq, exists_eq_left'] at hiff
    rw [hm, hn]
    exact hiff
  · intro horder q
    rw [mem_restOf, hlc]
    by_cases hqc : q = c
    · subst hqc
      exact iff_of_true ⟨hc, lc, hlc, le_rfl⟩ (.inl rfl)
    rw [or_iff_right hqc]
    refine and_congr_right fun hq => ?_
    obtain ⟨hqmem, lq, hlq⟩ := hchild q hq
    rw [← horder q hq hqc lc.spawnOrder lq.spawnOrder ((run_spawnedWith hrun hcmem hlc).mpr rfl)
      ((run_spawnedWith hrun hqmem hlq).mpr rfl), hlq]
    simp

/-- A supervisor with two children, the first of which is about to crash. -/
def twoChildren : List Call :=
  [.op (.spawn .butler .default (some .restForOne)), .op (.spawn 2 .default none),
    .op (.spawn 2 .default none)]

theorem later_child_restarted : ∃ evs, Run call init evs (final call init twoChildren) ∧
    ∀ q, q ∈ (final call init twoChildren).restOf [3, 4] 3 ↔
      q = 3 ∨ q ∈ [(3 : ProcessId), 4] ∧ SpawnedAfter evs 3 q := by
  have hrun : run call init twoChildren = .ok (final call init twoChildren,
    [.spawned (.ok 2), .spawned (.ok 3), .spawned (.ok 4)]) := rfl
  obtain ⟨evs, hevs, -, hout⟩ := Run.of_run hrun
  have hpids : spawnedPids evs = [2, 3, 4] := by
    rw [spawnedPids_eq, hout]
    rfl
  have hsup : ((final call init twoChildren).table.get 2).map (fun sup => (sup.strategy,
    sup.children, sup.restartTracker)) = some (.restForOne, [3, 4], .default) := rfl
  obtain ⟨sup, hsup, hfields⟩ := map_eq_some_iff.mp hsup
  obtain ⟨hstrategy, hchildren, htracker⟩ : sup.strategy = .restForOne ∧ sup.children = [3, 4] ∧
    sup.restartTracker = .default := by simpa using hfields
  have hexact := (restForOne_restarts_later_iff (c := 3) hevs hsup hstrategy (by simp [hchildren])
    (by rw [htracker]; rfl)).2
  rw [hchildren] at hexact
  refine ⟨evs, hevs, hexact.mpr ?_⟩
  intro q hq hne m n hm hn
  obtain rfl : q = 4 := by simpa [hne] using hq
  rw [run_spawnedWith hevs (by simp [hpids]) rfl] at hm hn
  rw [SpawnedAfter, hpids, hm, hn]
  decide

/-- A supervisor that has lost its first child and then got a new one, which records the same
order as the third. -/
def staleOrders : List Call :=
  [.op (.spawn .butler .default (some .restForOne)), .op (.spawn 2 .default none),
    .op (.spawn 2 .default none), .op (.spawn 2 .default none), .op (.terminate 3),
    .op (.spawn 2 .default none), .op .tick]

/-- The last child crashes, and the one before it is restarted as well. -/
theorem earlier_child_restarted : ∃ evs, Run call init evs (final call init staleOrders) ∧
    ((final call init staleOrders).table.get 2).map (fun sup => (sup.strategy, sup.children)) =
      some (.restForOne, [4, 5, 6]) ∧
    SpawnedAfter evs 5 6 ∧ ¬ SpawnedAfter evs 6 5 ∧
    5 ∈ (final call init staleOrders).restOf [4, 5, 6] 6 ∧
    ((final call init staleOrders).table.get 5).map (·.createdAt) = some 0 ∧
    ((final call init (staleOrders ++ [.op (.crash 6)])).table.get 5).map (·.createdAt) =
      some 1 := by
  have hrun : run call init staleOrders = .ok (final call init staleOrders,
    [.spawned (.ok 2), .spawned (.ok 3), .spawned (.ok 4), .spawned (.ok 5), .done (.ok ()),
      .spawned (.ok 6), .none]) := rfl
  obtain ⟨evs, hevs, -, hout⟩ := Run.of_run hrun
  have hpids : spawnedPids evs = [2, 3, 4, 5, 6] := by
    rw [spawnedPids_eq, hout]
    rfl
  refine ⟨evs, hevs, rfl, ?_, ?_, by decide, rfl, rfl⟩
  · rw [SpawnedAfter, hpids]
    decide
  · rw [SpawnedAfter, hpids]
    decide

end Fabric.ProcessSystem
