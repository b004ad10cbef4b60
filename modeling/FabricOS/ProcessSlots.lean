/-
The slots of the process table.

The table holds at most 1024 control blocks, and a spawn is refused when there are as many.
Neither `terminate` nor `SYS_EXIT` removes the block of the process that ends, so the table
holds Butler and every process that has ever been spawned.
-/
import FabricOS.Lifecycle

open Machine List Finset

namespace Fabric.ProcessSystem

variable {s s' : ProcessSystem} {p q supervisor : ProcessId} {sup : ProcessControlBlock}
  {evs : List (Event ProcessSystem Call Ans)}

/-! ### Control blocks are never removed -/

lemma butler_not_mem_spawnedPids (h : Run call init evs s) :
    ProcessId.butler ∉ spawnedPids evs := by
  induction h with
  | nil => exact not_mem_nil
  | @snoc evs s s' c ans hrun hcall ih =>
    have htree : Tree s.linksOf s.table.nextPid := CallReachable.tree hrun.reachable
    rw [spawnedPids, filterMap_append, ← spawnedPids, mem_append]
    refine not_or.mpr ⟨ih, fun hmem => ?_⟩
    have hnew : ans.newPid = some ProcessId.butler := by simpa using hmem
    cases call_links hcall with
    | kept newPid | unlisted _ _ newPid => exact absurd (newPid.symm.trans hnew) (by simp)
    | spawned _ _ _ newPid =>
      -- new ids are above Butler's
      have hlt := htree.butler_lt
      rw [Option.some.inj (newPid.symm.trans hnew)] at hlt
      exact absurd hlt (lt_irrefl _)

lemma mem_keys : p ∈ s.table.processes.keys ↔ ∃ l, s.linksOf p = some l := by
  rw [Finmap.mem_keys, ← Finmap.lookup_isSome, linksOf, ProcessTable.get]
  cases s.table.processes.lookup p <;> simp

lemma card_keys (h : Run call init evs s) :
    s.table.processes.keys.card = (spawnedPids evs).length + 1 := by
  obtain ⟨hsorted, hmem⟩ := run_spawned h
  have hkeys : s.table.processes.keys = insert .butler (spawnedPids evs).toFinset := by
    ext p
    rw [mem_keys, hmem, mem_insert, mem_toFinset]
  have hbutler : ProcessId.butler ∉ (spawnedPids evs).toFinset := by
    rw [mem_toFinset]
    exact butler_not_mem_spawnedPids h
  have hnodup : (spawnedPids evs).Nodup := hsorted.imp fun hlt heq =>
    absurd (congrArg UInt32.toNat heq) (Nat.ne_of_lt hlt)
  rw [hkeys, card_insert_of_notMem hbutler, toFinset_card_of_nodup hnodup]

/-! ### Spawning -/

lemma spawn_full_iff (hsup : s.table.get supervisor = some sup) (intent : Intent)
    (strategy : Option SupervisionStrategy) :
    (∃ s', s.spawn supervisor intent strategy = .ok (s', .error .tableFull)) ↔
      ProcessTable.maxProcesses ≤ s.table.processes.keys.card ∧
        s.table.nextPid.toNat + 1 < 2 ^ 32 := by
  unfold spawn
  simp only [hsup, ProcessTable.allocPid]
  split_ifs with hroom
  · simp only [Exec.ok_bind, ProcessTable.insert, hroom, and_true]
    split_ifs with hfull hmem
    · exact iff_of_true ⟨_, rfl⟩ hfull
    · exact iff_of_false (by simp) hfull
    · exact iff_of_false (by simp) hfull
  · exact iff_of_false (by simp) fun hfull => hroom hfull.2

lemma spawn_succeeds (htree : Tree s.linksOf s.table.nextPid)
    (hsup : s.table.get supervisor = some sup)
    (hfree : s.table.processes.keys.card < ProcessTable.maxProcesses)
    (hroom : s.table.nextPid.toNat + 1 < 2 ^ 32) (intent : Intent)
    (strategy : Option SupervisionStrategy) :
    ∃ s', s.spawn supervisor intent strategy = .ok (s', .ok s.table.nextPid) := by
  have hfresh : s.table.nextPid ∉ s.table.processes := by
    intro hmem
    obtain ⟨l, hl⟩ := mem_keys.mp (Finmap.mem_keys.mpr hmem)
    exact absurd (htree.fresh _ l hl) (lt_irrefl _)
  unfold spawn
  simp only [hsup, ProcessTable.allocPid, hroom, if_true, Exec.ok_bind, ProcessTable.insert,
    ge_iff_le, not_le.mpr hfree, hfresh, if_false]
  exact ⟨_, rfl⟩

/-- **When a slot is left.**  After any run, a spawn under a process that is there is not
refused for a full table if and only if fewer than 1023 processes have been spawned in the run,
whether they have ended or not (or the counter of process ids is at its end). -/
theorem spawn_not_full_iff (hrun : Run call init evs s) (hsup : s.table.get supervisor = some sup)
    (intent : Intent) (strategy : Option SupervisionStrategy) :
    (∀ s', s.spawn supervisor intent strategy ≠ .ok (s', .error .tableFull)) ↔
      (spawnedPids evs).length < 1023 ∨ 2 ^ 32 ≤ s.table.nextPid.toNat + 1 := by
  rw [← not_exists, spawn_full_iff hsup, card_keys hrun, not_and_or, not_le, not_lt]
  exact or_congr_left Nat.succ_lt_succ_iff

/-! ### Processes that end -/

def liveCount (s : ProcessSystem) : ℕ :=
  (s.table.processes.keys.filter fun p => (s.table.get p).map (·.state) ≠ some .terminated).card

lemma liveCount_le (pids : Finset ProcessId) (h : ∀ p, p ∉ pids → ∀ pcb,
    s.table.get p = some pcb → pcb.state = .terminated) : s.liveCount ≤ pids.card := by
  refine card_le_card fun p hp => ?_
  obtain ⟨hkey, hlive⟩ := mem_filter.mp hp
  obtain ⟨l, hl⟩ := mem_keys.mp hkey
  obtain ⟨pcb, hpcb, -⟩ := Option.map_eq_some_iff.mp hl
  by_contra hnot
  exact hlive (by rw [hpcb, Option.map_some, h p hnot pcb hpcb])

def OnlyButler (s : ProcessSystem) : Prop :=
  ∀ p, p ≠ .butler → ∀ pcb, s.table.get p = some pcb → pcb.state = .terminated

lemma OnlyButler.liveCount_le (h : OnlyButler s) : s.liveCount ≤ 1 :=
  ProcessSystem.liveCount_le {.butler} fun p hp => h p (by simpa using hp)

lemma spawn_terminate (htree : Tree s.linksOf s.table.nextPid) (honly : OnlyButler s)
    (hfree : s.table.processes.keys.card < ProcessTable.maxProcesses)
    (hroom : s.table.nextPid.toNat + 1 < 2 ^ 32) :
    ∃ s1 s2, s.call (.op (.spawn .butler .default none)) =
        .ok (s1, .spawned (.ok s.table.nextPid)) ∧
      s1.call (.op (.terminate s.table.nextPid)) = .ok (s2, .done (.ok ())) ∧
      s1.liveCount ≤ 2 ∧ s2.table.nextPid = s.table.nextPid + 1 ∧ OnlyButler s2 := by
  obtain ⟨lb, hlb, -⟩ := htree.butler
  obtain ⟨butler, hbutler, -⟩ := Option.map_eq_some_iff.mp hlb
  obtain ⟨s1, hspawn⟩ := spawn_succeeds htree hbutler hfree hroom .default none
  obtain ⟨-, ⟨e, he, -⟩ | ⟨sup, -, -, hnext, -, -, hget⟩⟩ := spawn_links hspawn
  · cases he
  have hcall : s.call (.op (.spawn .butler .default none)) =
      .ok (s1, .spawned (.ok s.table.nextPid)) := by simp [call, step, hspawn]
  -- Butler and the new process may be alive
  have hended : ∀ p, p ∉ ({.butler, s.table.nextPid} : Finset ProcessId) → ∀ pcb,
      s1.table.get p = some pcb → pcb.state = .terminated := by
    intro p hp pcb hpcb
    simp only [mem_insert, Finset.mem_singleton, not_or] at hp
    rw [hget, if_neg hp.2, if_neg hp.1] at hpcb
    exact honly p hp.1 pcb hpcb
  have hnew := hget s.table.nextPid
  rw [if_pos rfl] at hnew
  have hterminate := terminate_eq hnew
  refine ⟨s1, (s1.terminate s.table.nextPid).1, hcall, ?_,
    (liveCount_le _ hended).trans card_le_two, ?_, ?_⟩
  · have hdone : (s1.terminate s.table.nextPid).2 = .ok () := congrArg Prod.snd hterminate
    exact congrArg (fun r => Exec.ok ((s1.terminate s.table.nextPid).1, Ans.done r)) hdone
  · rw [hterminate]
    exact (modify_nextPid _).trans ((modify_nextPid _).trans hnext)
  rw [hterminate]
  intro p hp pcb hpcb
  have hstop : (s1.stop s.table.nextPid .normal).table.get p = some pcb :=
    (ProcessTable.get_modify_ne hp).symm.trans hpcb
  rw [get_stop] at hstop
  split_ifs at hstop with hpid
  · obtain ⟨a, -, rfl⟩ := Option.map_eq_some_iff.mp hstop
    rfl
  · exact hended p (by simp [hp, hpid]) pcb hstop

/-- Processes are spawned under Butler and terminated, one after the other. -/
def rounds (n : ℕ) : List Call :=
  (List.range n).flatMap fun i =>
    [.op (.spawn .butler .default none), .op (.terminate (UInt32.ofNat (i + 2)))]

lemma run_rounds (n : ℕ) (hn : n ≤ 1023) : ∃ evs s, Run call init evs s ∧
    evs.map (·.input) = rounds n ∧ (∀ ev ∈ evs, ev.before.liveCount ≤ 2) ∧ OnlyButler s ∧
    (spawnedPids evs).length = n ∧ s.table.nextPid = UInt32.ofNat (n + 2) := by
  induction n with
  | zero =>
    refine ⟨[], init, .nil, rfl, by simp, fun p hp pcb hpcb => ?_, rfl, rfl⟩
    have hl : init.linksOf p = some pcb.links := by rw [linksOf, hpcb]; rfl
    exact absurd (linksOf_init hl).1 hp
  | succ n ih =>
    obtain ⟨evs, s, hrun, hinputs, hlive, honly, hlength, hnext⟩ := ih (by omega)
    -- Butler and `n` ended processes have a slot, so there is one left for this round
    have hfree : s.table.processes.keys.card < ProcessTable.maxProcesses := by
      rw [card_keys hrun, hlength, ProcessTable.maxProcesses]
      omega
    have hroom : s.table.nextPid.toNat + 1 < 2 ^ 32 := by
      rw [hnext, UInt32.toNat_ofNat']
      omega
    obtain ⟨s1, s2, hspawn, hterminate, hlive1, hnext2, honly2⟩ :=
      spawn_terminate (CallReachable.tree hrun.reachable) honly hfree hroom
    refine ⟨_, s2, (hrun.snoc hspawn).snoc hterminate, ?_, ?_, honly2, ?_, ?_⟩
    · rw [map_append, map_append, hinputs, rounds, rounds, range_succ, flatMap_append, hnext]
      simp
    · intro ev hev
      rw [append_assoc, mem_append] at hev
      obtain hev | hev := hev
      · exact hlive ev hev
      · rcases mem_pair.mp hev with rfl | rfl
        · exact honly.liveCount_le.trans (Nat.le_succ 1)
        · exact hlive1
    · rw [spawnedPids, filterMap_append, filterMap_append, ← spawnedPids,
        length_append, length_append, hlength]
      rfl
    · rw [hnext2, hnext, show n + 1 + 2 = n + 2 + 1 from rfl, UInt32.ofNat_add (n + 2) 1]
      rfl

/-- When 1023 processes have come and gone, there is no slot for another. -/
theorem slots_run_out : ∃ evs s, Run call init evs s ∧ evs.map (·.input) = rounds 1023 ∧
    (∀ ev ∈ evs, ev.before.liveCount ≤ 2) ∧ s.liveCount ≤ 1 ∧
    (∃ sup, s.table.get .butler = some sup) ∧
    ∃ s', s.spawn .butler .default none = .ok (s', .error .tableFull) := by
  obtain ⟨evs, s, hrun, hinputs, hlive, honly, hlength, hnext⟩ := run_rounds 1023 le_rfl
  obtain ⟨lb, hlb, -⟩ := (CallReachable.tree hrun.reachable).butler
  obtain ⟨butler, hbutler, -⟩ := Option.map_eq_some_iff.mp hlb
  refine ⟨evs, s, hrun, hinputs, hlive, honly.liveCount_le, ⟨butler, hbutler⟩, ?_⟩
  rw [spawn_full_iff hbutler, card_keys hrun, hlength, hnext]
  decide

/-- A process that has come and gone leaves enough slots. -/
theorem slot_left : ∃ evs, Run call init evs (final call init (rounds 1)) ∧
    ∀ s', (final call init (rounds 1)).spawn .butler .default none ≠
      .ok (s', .error .tableFull) := by
  have hrun : run call init (rounds 1) =
    .ok (final call init (rounds 1), [.spawned (.ok 2), .done (.ok ())]) := rfl
  obtain ⟨evs, hevs, -, hout⟩ := Run.of_run hrun
  have hbutler : ((final call init (rounds 1)).table.get .butler).isSome = true := rfl
  obtain ⟨butler, hbutler⟩ := Option.isSome_iff_exists.mp hbutler
  refine ⟨evs, hevs, (spawn_not_full_iff hevs hbutler _ _).mpr (.inl ?_)⟩
  rw [spawnedPids_eq, hout]
  decide

end Fabric.ProcessSystem
