/-
Open files and the processes that hold them (`terminate`, `SYS_EXIT`, `setup_stdio`).

Every process starts with three open files, and gets more by `SYS_OPEN`.  Only `SYS_CLOSE` gives
an open file back: neither `terminate` nor `SYS_EXIT` looks at the handles of the process.
-/
import FabricOS.DescriptorUse
import FabricOS.ProcessTable

open Function Machine Option Finset

namespace Fabric

open FdKernel HandleTables OpenFile Vfs Exec OpenFileTable

/-! ### Open files and handles -/

namespace HandleTables

variable {H H' : HandleTables} {F : OpenFileTable} {q : ProcessId} {slot : Fin maxHandles}
  {i : Fin maxOpenFiles} {e : HandleEntry} {waiting : List (Fin maxOpenFiles)}

/-- All handles are for files, and every open file has one, but for those that are `waiting`. -/
structure Accounted (H : HandleTables) (F : OpenFileTable) (waiting : List (Fin maxOpenFiles)) :
    Prop extends Sound H F where
  plain : ∀ {q j e}, entryAt H q j = some e → e.active = true →
    ∃ i, e.capId = fileValue (.ofIndex i)
  held : ∀ {i}, (F.entries i).active = true → i ∈ waiting ∨ ∃ q j, Holds H q j i
  waits : ∀ i ∈ waiting, (F.entries i).active = true ∧ ∀ q j, ¬ Holds H q j i
  distinct : waiting.Nodup

lemma Holds.of_sets {p : ProcessId} {j : Fin maxHandles} (h : Holds H p j i)
    (hsets : Sets H q slot e H') (hne : ¬ (p = q ∧ j = slot)) : Holds H' p j i := by
  obtain ⟨e', he', hactive, hcap⟩ := h
  exact ⟨e', by rw [hsets.of_ne hne, he'], hactive, hcap⟩

lemma Accounted.openFile (h : Accounted H F waiting) (hfree : (F.entries i).active = false)
    (inodeId : InodeId) (flags : OpenFlags) :
    Accounted H (F.set i (.fresh inodeId flags)) (waiting ++ [i]) where
  toSound := h.toSound.setFile (h.toSound.not_holds hfree) fun _ => rfl
  plain := h.plain
  held := by
    intro i' hi'
    by_cases heq : i' = i
    · exact .inl (by simp [heq])
    · simp only [OpenFileTable.set, update_of_ne heq] at hi'
      exact (h.held hi').imp_left fun hmem => List.mem_append_left _ hmem
  waits := by
    intro i' hi'
    rcases List.mem_append.mp hi' with hi' | hi'
    · obtain ⟨hactive, hunheld⟩ := h.waits i' hi'
      have hne : i' ≠ i := by
        rintro rfl
        simp [hfree] at hactive
      exact ⟨by simpa only [OpenFileTable.set, update_of_ne hne] using hactive, hunheld⟩
    · obtain rfl := List.mem_singleton.mp hi'
      exact ⟨by simp [OpenFileTable.set, fresh], h.toSound.not_holds hfree⟩
  distinct := by
    refine List.nodup_append.mpr ⟨h.distinct, by simp, ?_⟩
    rintro a ha b hb rfl
    obtain rfl := List.mem_singleton.mp hb
    have hactive := (h.waits a ha).1
    simp [hfree] at hactive

lemma Accounted.install {old : HandleEntry} (h : Accounted H F (i :: waiting))
    (hold : entryAt H q slot = some old) (hfree : old.active = false)
    (hsets : Sets H q slot e H') (hactive : e.active = true)
    (hcap : e.capId = fileValue (.ofIndex i)) : Accounted H' F waiting := by
  obtain ⟨hopen, hunheld⟩ := h.waits i List.mem_cons_self
  obtain ⟨hnew, hdistinct⟩ := List.nodup_cons.mp h.distinct
  refine ⟨h.toSound.install hsets (.inl ⟨i, hcap, hopen, hunheld⟩), ?_, ?_, ?_, hdistinct⟩
  · intro q' j e' he' hactive'
    by_cases hat : q' = q ∧ j = slot
    · obtain ⟨rfl, rfl⟩ := hat
      rw [hsets.self] at he'
      exact ⟨i, some.inj he' ▸ hcap⟩
    · rw [hsets.of_ne hat] at he'
      exact h.plain he' hactive'
  · intro i' hi'
    obtain hmem | ⟨p, j, hholds⟩ := h.held hi'
    · rcases List.mem_cons.mp hmem with rfl | hmem
      · exact .inr ⟨q, slot, e, hsets.self, hactive, hcap⟩
      · exact .inl hmem
    -- its handle is not the one that is replaced: that was free
    refine .inr ⟨p, j, hholds.of_sets hsets ?_⟩
    rintro ⟨rfl, rfl⟩
    obtain ⟨e', he', hactive', -⟩ := hholds
    rw [hold] at he'
    cases he'
    simp [hfree] at hactive'
  · intro i' hi'
    obtain ⟨hopen', hunheld'⟩ := h.waits i' (List.mem_cons_of_mem _ hi')
    refine ⟨hopen', fun p j hholds => ?_⟩
    obtain ⟨-, -, -, hcap'⟩ | ⟨-, hholds⟩ := hsets.holds hholds
    · obtain rfl := fileValue_ofIndex_inj (hcap.symm.trans hcap')
      exact hnew hi'
    · exact hunheld' p j hholds

lemma Accounted.cancel {f : OpenFile} (h : Accounted H F (i :: waiting))
    (hf : f.active = false) : Accounted H (F.set i f) waiting := by
  obtain ⟨-, hunheld⟩ := h.waits i List.mem_cons_self
  obtain ⟨hnew, hdistinct⟩ := List.nodup_cons.mp h.distinct
  refine ⟨h.toSound.setFile hunheld (by simp [hf]), h.plain, ?_, ?_, hdistinct⟩
  · intro i' hi'
    have hne : i' ≠ i := by
      rintro rfl
      simp [OpenFileTable.set, hf] at hi'
    simp only [OpenFileTable.set, update_of_ne hne] at hi'
    exact (h.held hi').imp_left fun hmem => (List.mem_cons.mp hmem).resolve_left hne
  · intro i' hi'
    have hne : i' ≠ i := fun heq => hnew (heq ▸ hi')
    have hwaits := h.waits i' (List.mem_cons_of_mem _ hi')
    simpa only [OpenFileTable.set, update_of_ne hne] using hwaits

lemma Accounted.close {f : OpenFile} (h : Accounted H F []) (hsets : Sets H q slot e H')
    (he : e.active = false) (hholds : Holds H q slot i) (hf : f.active = false) :
    Accounted H' (F.set i f) [] := by
  have hunheld := h.toSound.not_holds_of_release hsets he hholds
  refine ⟨(h.toSound.release hsets he).setFile hunheld (by simp [hf]), ?_, ?_, by simp,
    List.nodup_nil⟩
  · intro q' j e' he' hactive'
    by_cases hat : q' = q ∧ j = slot
    · obtain ⟨rfl, rfl⟩ := hat
      rw [hsets.self] at he'
      cases he'
      simp [he] at hactive'
    · rw [hsets.of_ne hat] at he'
      exact h.plain he' hactive'
  · intro i' hi'
    have hne : i' ≠ i := by
      rintro rfl
      simp [OpenFileTable.set, hf] at hi'
    simp only [OpenFileTable.set, update_of_ne hne] at hi'
    obtain hmem | ⟨p, j, hother⟩ := h.held hi'
    · simp at hmem
    refine .inr ⟨p, j, hother.of_sets hsets ?_⟩
    rintro ⟨rfl, rfl⟩
    obtain ⟨e1, he1, -, hcap1⟩ := hother
    obtain ⟨e2, he2, -, hcap2⟩ := hholds
    cases he1.symm.trans he2
    exact hne (fileValue_ofIndex_inj (hcap1.symm.trans hcap2))

lemma Accounted.addTable (h : Accounted H F waiting) (hq : H q = none) :
    Accounted (update H q (some .new)) F waiting where
  toSound := h.toSound.addTable hq
  plain he hactive := h.plain (entryAt_addTable he hactive) hactive
  held hi := by
    refine (h.held hi).imp_right ?_
    rintro ⟨p, j, hholds⟩
    exact ⟨p, j, (holds_addTable hq).mpr hholds⟩
  waits i hi := ⟨(h.waits i hi).1, fun p j hholds =>
    (h.waits i hi).2 p j ((holds_addTable hq).mp hholds)⟩
  distinct := h.distinct

lemma accounted_none (hfiles : F = .new) : Accounted (fun _ => none) F [] where
  toSound := sound_none hfiles
  plain he := by simp [entryAt] at he
  held hi := by simp [hfiles, new, empty] at hi
  waits := by simp
  distinct := List.nodup_nil

end HandleTables

/-! ### Room for new files -/

namespace OpenFileTable

variable {t : OpenFileTable}

def room (t : OpenFileTable) : ℕ := (Finset.univ.filter fun i => t.isFree i = true).card

lemma room_new : new.room = maxOpenFiles - 1 := by
  have hfree : (univ.filter fun i => new.isFree i = true) =
      univ.erase ⟨0, by decide⟩ := by
    ext i
    simp [isFree, new, empty, Fin.ext_iff, Nat.one_le_iff_ne_zero]
  rw [room, hfree, card_erase_of_mem (mem_univ _), card_fin]

lemma alloc_room (t : OpenFileTable) (inodeId : InodeId) (flags : OpenFlags) :
    (t.room = 0 ∧ t.alloc inodeId flags = (t, .error .tableFull)) ∨
    ∃ i, t.alloc inodeId flags = (t.set i (.fresh inodeId flags), .ok (.ofIndex i)) ∧
      (t.entries i).active = false ∧ t.room = (t.set i (.fresh inodeId flags)).room + 1 := by
  unfold alloc
  cases hfirst : firstSlot t.isFree with
  | none =>
    have hnone := firstSlot_eq_none.mp hfirst
    exact .inl ⟨by simp [room, hnone], rfl⟩
  | some i =>
    have hi := (firstSlot_eq_some.mp hfirst).1
    have herase : (univ.filter fun j => (t.set i (.fresh inodeId flags)).isFree j = true) =
        (univ.filter fun j => t.isFree j = true).erase i := by
      ext j
      by_cases hj : j = i
      · subst hj
        simp [isFree, set, fresh]
      · simp [isFree, set, hj]
    refine .inr ⟨i, rfl, free_of_firstSlot hfirst, ?_⟩
    rw [room, room, herase]
    exact (card_erase_add_one (by simpa using hi)).symm

end OpenFileTable

/-! ### Processes that start and end -/

structure FdProcs where
  kernel : FdKernel
  /-- The processes in the state `Terminated`; they stay in the process table. -/
  terminated : ProcessId → Bool
  nextPid : ProcessId
  /-- The number of processes in the table. -/
  count : ℕ

inductive ProcOp
  /-- `spawn_user`; whether there is memory for a kernel stack. -/
  | spawnUser (supervisor : ProcessId) (stack : Bool)
  | schedule (next : Option ProcessId)
  | openFile (pathPtr : UInt64) (path : List UInt8) (flags : UInt32)
  | close (fd : UInt64)
  | terminate (pid : ProcessId)
  | exit

namespace FdProcs

def boot (vfs : Vfs) (net : NetStack) : FdProcs where
  kernel := { current := none, handles := Function.update (fun _ => none) .butler (some .new), vfs,
              net }
  terminated := fun _ => false
  nextPid := 2
  count := 1

def runnable (k : FdProcs) (pid : ProcessId) : Bool :=
  (k.kernel.handles pid).isSome && !k.terminated pid

/-- A process ends: it is taken from the queues, and its handles stay as they are. -/
def finish (k : FdProcs) (pid : ProcessId) : FdProcs :=
  { k with
    kernel := { k.kernel with
      current := if k.kernel.current = some pid then none else k.kernel.current }
    terminated := Function.update k.terminated pid true }

def refuses (k : FdProcs) : Bool :=
  k.count ≥ ProcessTable.maxProcesses || (k.kernel.handles k.nextPid).isSome

/-- Start a process.  Without a kernel stack it is terminated before it has descriptors. -/
def spawnUser (k : FdProcs) (supervisor : ProcessId) (stack : Bool) : Exec (FdProcs × SysReply) :=
  if (k.kernel.handles supervisor).isNone then .ok (k, .failed)
  else if k.refuses then .ok ({ k with nextPid := k.nextPid + 1 }, .failed)
  else if stack then do
    let (kernel, _) ← k.kernel.spawnUser k.nextPid
    .ok ({ k with kernel, nextPid := k.nextPid + 1, count := k.count + 1 },
      .value k.nextPid.toUInt64)
  else
    .ok ({ k with
      kernel := k.kernel.setTable k.nextPid .new
      nextPid := k.nextPid + 1
      count := k.count + 1 }.finish k.nextPid, .failed)

def step (k : FdProcs) : ProcOp → Exec (FdProcs × SysReply)
  | .spawnUser supervisor stack => k.spawnUser supervisor stack
  | .schedule next =>
    .ok ({ k with kernel := { k.kernel with current := next.filter k.runnable } }, .value 0)
  | .openFile pathPtr path flags => do
    let (kernel, reply) ← k.kernel.checked (pathPtr < userEnd && path.length ≤ 256)
      (k.kernel.syscallOpen path flags)
    .ok ({ k with kernel }, reply)
  | .close fd =>
    .ok ({ k with kernel := (k.kernel.syscallClose fd).1 }, (k.kernel.syscallClose fd).2)
  | .terminate pid =>
    match k.kernel.handles pid with
    | none => .ok (k, .failed)
    | some _ => .ok (k.finish pid, .value 0)
  | .exit =>
    match k.kernel.current with
    | none => .ok (k, .value 0)
    | some pid => .ok (k.finish pid, .value 0)

/-- **Released files.**  The open files are those that living processes have handles for. -/
def Released (k : FdProcs) : Prop :=
  ∀ i, (k.kernel.vfs.openFiles.entries i).active = true ↔
    ∃ q j, k.terminated q = false ∧ Holds k.kernel.handles q j i

def Idle (k : FdProcs) (pid : ProcessId) : Prop :=
  ∀ t, k.kernel.handles pid = some t → ∀ j, (t.entries j).active = false

/-- The steps that leave nothing behind: processes end when they have closed all their files, and
start when there is room for three more; calls are made by the process that runs. -/
def InOrder (k : FdProcs) : ProcOp → Prop
  | .spawnUser _ stack => stack = true → 3 ≤ k.kernel.vfs.openFiles.room
  | .openFile .. => k.kernel.current.isSome = true
  | .terminate pid => k.Idle pid
  | .exit => ∀ pid, k.kernel.current = some pid → k.Idle pid
  | _ => True

/-! ### The invariant -/

variable {k k' : FdProcs} {reply : SysReply}

/-- All files are accounted for, and the processes that have ended hold none. -/
structure Inv (k : FdProcs) : Prop where
  accounted : Accounted k.kernel.handles k.kernel.vfs.openFiles []
  ended : ∀ {q}, k.terminated q = true → (k.kernel.handles q).isSome ∧ k.Idle q
  runs : ∀ {p}, k.kernel.current = some p → k.runnable p = true

variable {i : Fin maxOpenFiles}

lemma Idle.not_holds {q : ProcessId} {j : Fin maxHandles}
    (h : k.Idle q) : ¬ Holds k.kernel.handles q j i := by
  rintro ⟨e, he, hactive, -⟩
  obtain ⟨t, ht, rfl⟩ := map_eq_some_iff.mp he
  simp [h t ht j] at hactive

lemma Inv.released (h : Inv k) : k.Released := by
  intro i
  constructor
  · intro hactive
    obtain hmem | ⟨q, j, hholds⟩ := h.accounted.held hactive
    · simp at hmem
    · refine ⟨q, j, ?_, hholds⟩
      by_contra hended
      exact (h.ended (by simpa using hended)).2.not_holds hholds
  · rintro ⟨q, j, -, hholds⟩
    by_contra hfree
    exact h.accounted.toSound.not_holds (by simpa using hfree) q j hholds

lemma inv_boot {vfs : Vfs} (hfiles : vfs.openFiles = .new) (net : NetStack) :
    Inv (boot vfs net) where
  accounted := (accounted_none hfiles).addTable rfl
  ended hq := by simp [boot] at hq
  runs hp := by simp [boot] at hp

variable {pid : ProcessId}

lemma Inv.lives (h : Inv k) (hpid : k.kernel.current = some pid) : k.terminated pid = false := by
  have hrunnable := h.runs hpid
  simp only [runnable, Bool.and_eq_true, Bool.not_eq_true'] at hrunnable
  exact hrunnable.2

lemma Inv.hasTable (h : Inv k) (hpid : k.kernel.current = some pid) :
    ∃ t, k.kernel.handles pid = some t := by
  have hrunnable := h.runs hpid
  simp only [runnable, Bool.and_eq_true] at hrunnable
  exact isSome_iff_exists.mp hrunnable.1

lemma Inv.finish (h : Inv k) (hpid : (k.kernel.handles pid).isSome = true)
    (hidle : k.Idle pid) : Inv (k.finish pid) where
  accounted := h.accounted
  ended := by
    intro q hq
    by_cases heq : q = pid
    · subst heq
      exact ⟨hpid, hidle⟩
    · simp only [FdProcs.finish, update_of_ne heq] at hq
      exact h.ended hq
  runs := by
    intro p hp
    simp only [FdProcs.finish] at hp
    split_ifs at hp with hcur
    have hne : p ≠ pid := fun heq => hcur (heq ▸ hp)
    have hruns := h.runs hp
    simpa [runnable, FdProcs.finish, hne] using hruns

lemma Inv.changed (h : Inv k) {K : FdKernel}
    (haccounted : Accounted K.handles K.vfs.openFiles []) (hlive : k.terminated pid = false)
    (hsome : (K.handles pid).isSome = true)
    (hothers : ∀ q, q ≠ pid → K.handles q = k.kernel.handles q)
    (hcurrent : K.current = k.kernel.current) (nextPid : ProcessId) (count : ℕ) :
    Inv ⟨K, k.terminated, nextPid, count⟩ where
  accounted := haccounted
  ended := by
    intro q hq
    have hne : q ≠ pid := by
      rintro rfl
      simp [hlive] at hq
    obtain ⟨hsome, hidle⟩ := h.ended hq
    have hsame := hothers q hne
    exact ⟨hsame ▸ hsome, fun t ht => hidle t (hsame ▸ ht)⟩
  runs := by
    intro p hp
    have hruns := h.runs (hcurrent ▸ hp)
    by_cases hpid : p = pid
    · subst hpid
      simp [runnable, hlive, hsome]
    · simpa [runnable, hothers p hpid] using hruns

lemma accounted_setTable {K : FdKernel} {F : OpenFileTable} {t t' : HandleTable}
    {slot : Fin maxHandles} {e : HandleEntry}
    {waiting : List (Fin maxOpenFiles)} (h : Accounted K.handles F (i :: waiting))
    (ht : K.handles pid = some t) (hfree : (t.entries slot).active = false)
    (hentries : t'.entries = update t.entries slot e) (hactive : e.active = true)
    (hcap : e.capId = fileValue (.ofIndex i)) : Accounted (K.setTable pid t').handles F waiting :=
  h.install (by simp [entryAt, ht]) hfree (sets_of_table ht hentries) hactive hcap

lemma accounted_open {K K' : FdKernel} {path : List UInt8} {flags : UInt32}
    (h : Accounted K.handles K.vfs.openFiles []) (htable : K.currentTable ≠ none)
    (hstep : K.syscallOpen path flags = .ok (K', reply)) :
    Accounted K'.handles K'.vfs.openFiles [] ∧
      (K'.handles = K.handles ∨ ∃ pid t, K.current = some pid ∧
        K'.handles = (K.setTable pid t).handles) ∧ K'.current = K.current := by
  obtain ⟨rfl, -⟩ | ⟨vfs, id, hopen, hcases⟩ := syscallOpen_cases hstep
  · exact ⟨h, .inl rfl, rfl⟩
  obtain ⟨i, inodeId, rfl, -, hfirst, rfl⟩ := vfsOpen_eq_ok hopen
  have hopened := h.openFile (OpenFileTable.free_of_firstSlot hfirst) inodeId ⟨flags⟩
  obtain ⟨hnone, -, -⟩ | ⟨rfl, -⟩ | ⟨pid, t, t', handle, hpid, ht, halloc, rfl, -⟩ := hcases
  · exact absurd hnone htable
  · -- no slot is free: the file is closed again
    rw [vfsClose_ofIndex (by simp [OpenFileTable.set, fresh])]
    refine ⟨hopened.cancel ?_, .inl rfl, rfl⟩
    simp [OpenFileTable.set, drop, fresh]
  · obtain ⟨j, hj, -, -, hentries⟩ := HandleTable.alloc_eq_ok halloc
    have hfree : (t.entries j).active = false := by simpa using (firstSlot_eq_some.mp hj).1
    have hstored := accounted_setTable (K := K) hopened ht hfree hentries rfl rfl
    exact ⟨hstored, .inr ⟨pid, t', hpid, rfl⟩, rfl⟩

lemma Inv.openFile (h : Inv k) (hruns : k.kernel.current.isSome = true) {path : List UInt8}
    {flags : UInt32} {K : FdKernel} (hstep : k.kernel.syscallOpen path flags = .ok (K, reply)) :
    Inv { k with kernel := K } := by
  obtain ⟨p, hp⟩ := isSome_iff_exists.mp hruns
  obtain ⟨t, ht⟩ := h.hasTable hp
  have htable : k.kernel.currentTable ≠ none := by
    simp [currentTable_eq_some.mpr ⟨hp, ht⟩]
  obtain ⟨haccounted, hhandles | ⟨pid, t, hpid, hhandles⟩, hcurrent⟩ :=
    accounted_open h.accounted htable hstep
  · refine h.changed haccounted (h.lives hp) ?_ (fun q _ => ?_) hcurrent k.nextPid k.count
    · rw [hhandles, ht]
      rfl
    · rw [hhandles]
  · refine h.changed haccounted (h.lives hpid) ?_ (fun q hne => ?_) hcurrent k.nextPid k.count
    · rw [hhandles, setTable_self]
      rfl
    · rw [hhandles, setTable_of_ne _ t hne]

lemma Inv.close (h : Inv k) (fd : UInt64) :
    Inv { k with kernel := (k.kernel.syscallClose fd).1 } := by
  cases hresolve : k.kernel.resolveHandle fd with
  | none =>
    rw [syscallClose, resolveFd, hresolve]
    exact h
  | some value =>
    obtain ⟨pid, t, hpid, ht, hlive, -⟩ := resolveHandle_eq_some.mp hresolve
    obtain ⟨t', hentries, hclose⟩ := syscallClose_of_entry hpid ht hlive
    have hentry : entryAt k.kernel.handles pid (slotOf fd) = some (t.entries (slotOf fd)) := by
      simp [entryAt, ht]
    obtain ⟨i, hcap⟩ := h.accounted.plain hentry hlive.1
    have hholds : Holds k.kernel.handles pid (slotOf fd) i := ⟨_, hentry, hlive.1, hcap⟩
    have hactive : (k.kernel.vfs.openFiles.entries i).active = true := by
      by_contra hfree
      exact h.accounted.toSound.not_holds (by simpa using hfree) _ _ hholds
    have hdrop : (k.kernel.vfs.openFiles.entries i).drop.active = false := by
      simp [drop, h.accounted.refs hactive]
    rw [hclose, hcap, fileValue_toUInt32, vfsClose_ofIndex hactive]
    have hclosed := h.accounted.close (sets_of_table ht hentries) rfl hholds hdrop
    refine h.changed ?_ (h.lives hpid) ?_ ?_ ?_ k.nextPid k.count
    · exact hclosed
    · simp [FdKernel.setTable]
    · exact fun q hne => setTable_of_ne _ t' hne
    · rfl

/-! ### Start of a process -/

/-- In the course of the start of `pid` in `K₀`: the open files `waiting` have no handles yet, and
the slots below `n` are taken. -/
structure Starting (K₀ : FdKernel) (pid : ProcessId) (n : ℕ) (waiting : List (Fin maxOpenFiles))
    (K : FdKernel) : Prop where
  accounted : Accounted K.handles K.vfs.openFiles waiting
  table : ∃ t, K.handles pid = some t ∧ t.Filled n
  others : ∀ q, q ≠ pid → K.handles q = K₀.handles q
  current : K.current = K₀.current
  vfs : ∃ openFiles, K.vfs = { K₀.vfs with openFiles }

section

variable {K₀ K : FdKernel} {pid : ProcessId} {n : ℕ} {waiting : List (Fin maxOpenFiles)}

lemma starting_new (h : Accounted K.handles K.vfs.openFiles []) (hpid : K.handles pid = none) :
    Starting K pid 0 [] (K.setTable pid .new) where
  accounted := h.addTable hpid
  table := ⟨.new, setTable_self .., HandleTable.filled_new⟩
  others _ hne := setTable_of_ne K .new hne
  current := rfl
  vfs := ⟨K.vfs.openFiles, rfl⟩

lemma openInode_of_room_eq_zero (h : K.vfs.openFiles.room = 0) (inodeId : InodeId)
    (flags : OpenFlags) : K.openInode inodeId flags = .panic := by
  obtain ⟨-, halloc⟩ | ⟨i, -, -, hroom⟩ := K.vfs.openFiles.alloc_room inodeId flags
  · unfold FdKernel.openInode
    rw [halloc]
  · omega

lemma Starting.openInode (h : Starting K₀ pid n waiting K) (hroom : 0 < K.vfs.openFiles.room)
    (inodeId : InodeId) (flags : OpenFlags) :
    ∃ i K', K.openInode inodeId flags = .ok (K', .ofIndex i) ∧
      Starting K₀ pid n (waiting ++ [i]) K' ∧
      K.vfs.openFiles.room = K'.vfs.openFiles.room + 1 := by
  obtain ⟨hnone, -⟩ | ⟨i, halloc, hfree, hroom'⟩ := K.vfs.openFiles.alloc_room inodeId flags
  · omega
  refine ⟨i, { K with vfs := { K.vfs with
    openFiles := K.vfs.openFiles.set i (.fresh inodeId flags) } }, ?_, ?_, hroom'⟩
  · unfold FdKernel.openInode
    rw [halloc]
  · obtain ⟨openFiles, hvfs⟩ := h.vfs
    exact ⟨h.accounted.openFile hfree inodeId flags, h.table, h.others, h.current,
      _, by rw [hvfs]⟩

lemma Starting.installFile (h : Starting K₀ pid n (i :: waiting) K) (hn : n < maxHandles) :
    Starting K₀ pid (n + 1) waiting (K.installFile pid (.ofIndex i)) := by
  obtain ⟨t, ht, hfilled⟩ := h.table
  obtain ⟨t', halloc, hfilled', hentries⟩ := hfilled.alloc hn (fileValue (.ofIndex i))
  have hfree : (t.entries ⟨n, hn⟩).active = false := by
    rw [Bool.eq_false_iff, ne_eq, hfilled.active]
    simp
  have hinstalled : K.installFile pid (.ofIndex i) = K.setTable pid t' := by
    rw [FdKernel.installFile, ht]
    simp only [halloc]
  rw [hinstalled]
  refine ⟨?_, ⟨t', setTable_self .., hfilled'⟩, fun q hne => ?_, h.current, h.vfs⟩
  · exact accounted_setTable h.accounted ht hfree hentries rfl rfl
  · exact (setTable_of_ne K t' hne).trans (h.others q hne)

lemma spawnUser_of_room (h : Accounted K.handles K.vfs.openFiles [])
    (hpid : K.handles pid = none) (hroom : 3 ≤ K.vfs.openFiles.room) :
    ∃ K' ids, K.spawnUser pid = .ok (K', ids) ∧ Starting K pid 3 [] K' := by
  have hstart := starting_new h hpid
  obtain ⟨i1, K1, h1, hstart, hroom1⟩ := hstart.openInode (by show 0 < K.vfs.openFiles.room; omega)
    K.vfs.devfs.nullInode .read
  have hroom1 : K.vfs.openFiles.room = K1.vfs.openFiles.room + 1 := hroom1
  obtain ⟨i2, K2, h2, hstart, hroom2⟩ := hstart.openInode (by omega) serialInodeId .write
  obtain ⟨i3, K3, h3, hstart, -⟩ := hstart.openInode (by omega) serialInodeId .write
  have hinstalled := ((hstart.installFile (by decide)).installFile (by decide)).installFile
    (by decide)
  refine ⟨_, [.ofIndex i1, .ofIndex i2, .ofIndex i3], ?_, hinstalled⟩
  rw [FdKernel.spawnUser, hpid]
  simp only [setupStdio]
  have h1' : (K.setTable pid .new).openInode (K.setTable pid .new).vfs.devfs.nullInode .read =
    .ok (K1, .ofIndex i1) := h1
  rw [h1', ok_bind, h2, ok_bind, h3, ok_bind]

end

lemma Inv.spawnUser (h : Inv k) {supervisor : ProcessId} {stack : Bool}
    (hroom : k.InOrder (.spawnUser supervisor stack)) :
    ∃ k' reply, k.spawnUser supervisor stack = .ok (k', reply) ∧ Inv k' := by
  rw [FdProcs.spawnUser]
  by_cases hsupervisor : (k.kernel.handles supervisor).isNone
  · exact ⟨k, .failed, if_pos hsupervisor, h⟩
  rw [if_neg hsupervisor]
  by_cases hrefuses : k.refuses
  · rw [if_pos hrefuses]
    exact ⟨_, .failed, rfl, h.accounted, h.ended, h.runs⟩
  rw [if_neg hrefuses]
  have hpid : k.kernel.handles k.nextPid = none := by
    simp only [refuses, Bool.or_eq_true, not_or] at hrefuses
    simpa using hrefuses.2
  have hlive : k.terminated k.nextPid = false := by
    by_contra hended
    have hsome := (h.ended (by simpa using hended)).1
    simp [hpid] at hsome
  cases stack with
  | true =>
    obtain ⟨K, ids, hspawn, hstart⟩ := spawnUser_of_room h.accounted hpid (hroom rfl)
    obtain ⟨t, ht, -⟩ := hstart.table
    refine ⟨⟨K, k.terminated, k.nextPid + 1, k.count + 1⟩, .value k.nextPid.toUInt64, ?_, ?_⟩
    · simp [hspawn]
    · exact h.changed hstart.accounted hlive (by simp [ht]) hstart.others hstart.current _ _
  | false =>
    -- the new process ends at once, with an empty table
    have hadded := h.changed (K := k.kernel.setTable k.nextPid .new) (h.accounted.addTable hpid)
      hlive (by simp) (fun q hne => setTable_of_ne _ .new hne) rfl (k.nextPid + 1) (k.count + 1)
    refine ⟨_, .failed, rfl, hadded.finish (by simp) ?_⟩
    intro t ht j
    rw [← some.inj ((setTable_self ..).symm.trans ht)]
    rfl

lemma Inv.step {op : ProcOp} (h : Inv k) (hop : k.InOrder op)
    (hstep : k.step op = .ok (k', reply)) : Inv k' := by
  cases op with
  | spawnUser supervisor stack =>
    obtain ⟨k1, reply1, hspawn, hinv⟩ := h.spawnUser hop
    rw [FdProcs.step, hspawn] at hstep
    rwa [← (Prod.mk.inj (Exec.ok.inj hstep)).1]
  | schedule next =>
    cases hstep
    refine ⟨h.accounted, h.ended, fun hp => ?_⟩
    exact (filter_eq_some_iff.mp hp).2
  | openFile pathPtr path flags =>
    obtain ⟨⟨K, reply'⟩, hopen, hok⟩ := bind_eq_ok.mp hstep
    cases hok
    rw [checked] at hopen
    split at hopen
    · exact h.openFile hop hopen
    · cases hopen
      exact h
  | close fd =>
    cases hstep
    exact h.close fd
  | terminate pid =>
    rw [FdProcs.step] at hstep
    cases hpid : k.kernel.handles pid with
    | none =>
      rw [hpid] at hstep
      cases hstep
      exact h
    | some t =>
      rw [hpid] at hstep
      cases hstep
      exact h.finish (by simp [hpid]) hop
  | exit =>
    rw [FdProcs.step] at hstep
    cases hcur : k.kernel.current with
    | none =>
      rw [hcur] at hstep
      cases hstep
      exact h
    | some pid =>
      rw [hcur] at hstep
      cases hstep
      obtain ⟨t, ht⟩ := h.hasTable hcur
      exact h.finish (by simp [ht]) (hop pid hcur)

/-- **Released files**, in every state of every run in order; and the next process starts. -/
theorem files_released {vfs : Vfs} (hfiles : vfs.openFiles = .new) (net : NetStack)
    (h : ReachableVia InOrder step (boot vfs net) k) :
    k.Released ∧ ∀ supervisor stack, k.InOrder (.spawnUser supervisor stack) →
      ∃ k' reply, k.step (.spawnUser supervisor stack) = .ok (k', reply) := by
  have hinv : Inv k := h.inv (inv_boot hfiles net) fun hinv hop hstep => hinv.step hop hstep
  refine ⟨hinv.released, fun supervisor stack hroom => ?_⟩
  obtain ⟨k', reply, hspawn, -⟩ := hinv.spawnUser hroom
  exact ⟨k', reply, hspawn⟩

lemma boot_room {vfs : Vfs} (hfiles : vfs.openFiles = .new) (net : NetStack) :
    (boot vfs net).kernel.vfs.openFiles.room = maxOpenFiles - 1 := by
  show vfs.openFiles.room = maxOpenFiles - 1
  rw [hfiles, room_new]

def atBoot : FdProcs := boot .booted (.init none)

def firstStarted : FdProcs := final step atBoot [.spawnUser .butler true]

def firstRuns : FdProcs := final step firstStarted [.schedule (some 2)]

lemma firstRuns_reachable : ReachableVia InOrder step atBoot firstRuns := by
  have hroom : 3 ≤ atBoot.kernel.vfs.openFiles.room := by
    rw [atBoot, boot_room booted_openFiles]
    decide
  have hstarted : ReachableVia InOrder step atBoot firstStarted :=
    ReachableVia.refl.tail_final (fun _ => hroom) (by decide +kernel)
  exact hstarted.tail_final trivial (by decide +kernel)

/-- It has closed its files, one after the other. -/
def closedOne : FdProcs := final step firstRuns [.close 0]

def closedTwo : FdProcs := final step closedOne [.close 1]

def closedAll : FdProcs := final step closedTwo [.close 2]

/-- When it exits after that, nothing is left open. -/
theorem closed_files_released : (final step closedAll [.exit]).Released ∧
      (final step closedAll [.exit]).terminated 2 = true := by
  have hone : ReachableVia InOrder step atBoot closedOne :=
    firstRuns_reachable.tail_final trivial (by decide +kernel)
  have htwo : ReachableVia InOrder step atBoot closedTwo :=
    hone.tail_final trivial (by decide +kernel)
  have hall : ReachableVia InOrder step atBoot closedAll :=
    htwo.tail_final trivial (by decide +kernel)
  have hcurrent : closedAll.kernel.current = some 2 := by decide +kernel
  have hidle : closedAll.Idle 2 := by
    have hfree : ((closedAll.kernel.handles 2).all fun t =>
        decide (∀ j, (t.entries j).active = false)) = true := by decide +kernel
    intro t ht
    simpa [ht] using hfree
  have hexit : ReachableVia InOrder step atBoot (final step closedAll [.exit]) := by
    refine hall.tail_final (fun pid hpid => ?_) (by decide +kernel)
    cases hcurrent.symm.trans hpid
    exact hidle
  exact ⟨(files_released booted_openFiles (.init none) hexit).1, by decide +kernel⟩

/-! ### Processes that leave files behind -/

lemma Inv.not_released (h : Inv k) {j : Fin maxHandles}
    (hholds : Holds k.kernel.handles pid j i) : ¬ (k.finish pid).Released := by
  intro hreleased
  have hopen : (k.kernel.vfs.openFiles.entries i).active = true := by
    by_contra hfree
    exact h.accounted.toSound.not_holds (by simpa using hfree) _ _ hholds
  obtain ⟨q, j', hlive, hother⟩ := (hreleased i).mp hopen
  obtain ⟨rfl, -⟩ := h.accounted.unique hother hholds
  simp [FdProcs.finish] at hlive

lemma resolvePath_openFiles (v : Vfs) (openFiles : OpenFileTable) (path : List UInt8) :
    { v with openFiles }.resolvePath path = v.resolvePath path := rfl

lemma resolvePath_devNull : Vfs.booted.resolvePath FdWatch.devNull = .ok (.ok ⟨3⟩) := by
  decide +kernel

lemma inode_devNull : (Vfs.booted.inodes.get ⟨3⟩).isNone = false := by decide +kernel

/-- A call that is made when no process is current opens a file that nobody can close. -/
lemma openFile_unowned {F F' : OpenFileTable} {id : OpenFileId}
    (hcurrent : k.kernel.current = none) (hvfs : k.kernel.vfs = { Vfs.booted with openFiles := F })
    (halloc : F.alloc ⟨3⟩ ⟨1⟩ = (F', .ok id)) :
    k.step (.openFile 0 FdWatch.devNull 1) = .ok ({ k with kernel := { k.kernel with
      vfs := { Vfs.booted with openFiles := F' } } }, .failed) := by
  have hopen : k.kernel.vfs.vfsOpen FdWatch.devNull ⟨1⟩ =
      .ok ({ Vfs.booted with openFiles := F' }, .ok id) := by
    rw [hvfs, Vfs.vfsOpen, resolvePath_openFiles, resolvePath_devNull]
    simp only [ok_bind, inode_devNull, halloc, Bool.false_eq_true, if_false]
  have htable : { k.kernel with vfs := { Vfs.booted with openFiles := F' } }.currentTable =
      none := by
    simp [currentTable, hcurrent]
  have hcall : k.kernel.syscallOpen FdWatch.devNull 1 = .ok ({ k.kernel with
      vfs := { Vfs.booted with openFiles := F' } }, .failed) := by
    simp only [syscallOpen, hopen, ok_bind, htable]
  simp only [FdProcs.step, checked, hcall]
  rfl

lemma exhausted {F : OpenFileTable} (hcurrent : k.kernel.current = none)
    (hvfs : k.kernel.vfs = { Vfs.booted with openFiles := F }) :
    ∃ F', F'.room = 0 ∧ Reachable step k
      { k with kernel := { k.kernel with vfs := { Vfs.booted with openFiles := F' } } } := by
  -- by induction on the free entries
  induction hroom : F.room generalizing k F with
  | zero =>
    refine ⟨F, hroom, ?_⟩
    rw [← hvfs]
    exact .init
  | succ n ih =>
    obtain ⟨hfull, -⟩ | ⟨i, halloc, -, hless⟩ := F.alloc_room ⟨3⟩ ⟨1⟩
    · omega
    have hstep := openFile_unowned hcurrent hvfs halloc
    obtain ⟨F', hF', hreach⟩ := ih (k := { k with kernel := { k.kernel with
      vfs := { Vfs.booted with openFiles := F.set i (.fresh ⟨3⟩ ⟨1⟩) } } }) hcurrent rfl
      (by omega)
    exact ⟨F', hF', (Reachable.init.tail hstep).trans hreach⟩

/-- **Leaked files.**  The files of a process that exits stay open; and a process that is
terminated while it runs can open all files before the next timer interrupt, so that the start
of another one aborts. -/
theorem exit_leaks :
    ¬ (final step firstRuns [.exit]).Released ∧
      ∃ k, Reachable step atBoot k ∧
        (∀ q, (k.kernel.handles q).isSome = true → q ≠ .butler → k.terminated q = true) ∧
        k.step (.spawnUser .butler true) = .panic := by
  constructor
  · have hinv : Inv firstRuns := firstRuns_reachable.inv (inv_boot booted_openFiles _)
      fun hinv hop hstep => hinv.step hop hstep
    have hcurrent : firstRuns.kernel.current = some 2 := by decide +kernel
    have hentry : entryAt firstRuns.kernel.handles 2 ⟨0, by decide⟩ =
        some ⟨fileValue (.ofIndex ⟨1, by decide⟩), true, 0⟩ := by decide +kernel
    have hexit : final step firstRuns [.exit] = firstRuns.finish 2 := by
      simp [final, Machine.run, FdProcs.step, hcurrent]
    rw [hexit]
    exact hinv.not_released ⟨_, hentry, rfl, rfl⟩
  · have hroom : 3 ≤ atBoot.kernel.vfs.openFiles.room := by
      rw [atBoot, boot_room booted_openFiles]
      decide
    have hnew : atBoot.kernel.handles 2 = none := rfl
    obtain ⟨K, ids, hspawn, hstart⟩ :=
      spawnUser_of_room (inv_boot booted_openFiles (.init none)).accounted hnew hroom
    obtain ⟨t, ht, -⟩ := hstart.table
    obtain ⟨F, hvfs⟩ := hstart.vfs
    have hstarted : atBoot.step (.spawnUser .butler true) =
        .ok (⟨K, fun _ => false, 3, 2⟩, .value 2) := congrArg (· >>= _) hspawn
    have hruns : FdProcs.step ⟨K, fun _ => false, 3, 2⟩ (.schedule (some 2)) =
        .ok (⟨{ K with current := some 2 }, fun _ => false, 3, 2⟩, .value 0) := by
      simp [FdProcs.step, runnable, ht]
    have hended : FdProcs.step ⟨{ K with current := some 2 }, fun _ => false, 3, 2⟩
        (.terminate 2) = .ok (⟨{ K with current := none }, update (fun _ => false) 2 true, 3, 2⟩,
          .value 0) := by
      simp [FdProcs.step, ht, FdProcs.finish]
    have hnone : ∀ q, q ≠ 2 → q ≠ .butler → K.handles q = none := by
      intro q hne hbutler
      rw [hstart.others q hne]
      simp [boot, hbutler]
    have hbutler : K.handles .butler = some .new := hstart.others .butler (by decide)
    obtain ⟨F', hfull, hreach⟩ := exhausted
      (k := ⟨{ K with current := none }, update (fun _ => false) 2 true, 3, 2⟩) rfl hvfs
    refine ⟨_, (((Reachable.init.tail hstarted).tail hruns).tail hended).trans hreach, ?_, ?_⟩
    · intro q hq hq'
      by_cases hne : q = 2
      · simp [hne]
      · simp [hnone q hne hq'] at hq
    · have hopen := openInode_of_room_eq_zero (K := FdKernel.setTable { K with
        current := none, vfs := { Vfs.booted with openFiles := F' } } 3 .new) hfull
      have hthree : K.handles 3 = none := hnone 3 (by decide) (by decide)
      simp [FdProcs.step, FdProcs.spawnUser, refuses, hbutler, hthree, FdKernel.spawnUser,
        setupStdio, hopen, ProcessTable.maxProcesses]

end FdProcs

end Fabric
