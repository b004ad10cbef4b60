/-
Socket descriptors in the calls for files (`resolve_fd` and `SOCKET_FD_FLAG`).

The calls for files take the low half of the value in a handle for the number of an open file,
also if bit 63 says that it is a socket.  The first socket has the number 256.
-/
import FabricOS.DescriptorUse

open Function

namespace Fabric.FdKernel

/-- The calls for files on a descriptor. -/
inductive FileCall (fd : UInt64) : Syscall → Prop
  | read (bufPtr len : UInt64) : FileCall fd (.read fd bufPtr len)
  | write (bufPtr : UInt64) (data : List UInt8) :
      fd ≠ 1 → fd ≠ 2 → FileCall fd (.write fd bufPtr data)
  | close : FileCall fd (.close fd)
  | fstat (statBuf : UInt64) : FileCall fd (.fstat fd statBuf)
  | getdents (bufPtr len : UInt64) : FileCall fd (.getdents fd bufPtr len)

def withFiles (k : FdKernel) (openFiles : OpenFileTable) : FdKernel :=
  { k with vfs := { k.vfs with openFiles } }

/-- The call keeps off the open files: it changes none, and does and replies what it would do and
reply if there were none. -/
def Spares (k : FdKernel) (env : ℕ → Poll) (call : Syscall) : Prop :=
  ∃ k' reply, k.syscall env call = .ok (k', reply) ∧ k'.vfs.openFiles = k.vfs.openFiles ∧
    (k.withFiles .new).syscall env call = .ok (k'.withFiles .new, reply)

variable {k : FdKernel} {fd : UInt64} {call : Syscall}

/-- The state after a call that fails: closing has released the handle all the same. -/
def afterFailure (k : FdKernel) (fd : UInt64) : Syscall → FdKernel
  | .close _ => if (k.resolveFd fd).isSome then k.releaseFd fd else k
  | _ => k

lemma checked_failed (accepted : Bool) :
    k.checked accepted (.ok (k, .failed)) = .ok (k, .failed) := by
  cases accepted <;> rfl

lemma fileCall_fails (h : FileCall fd call) (env : ℕ → Poll)
    (hget : ∀ id, k.resolveFd fd = some id → k.vfs.openFiles.get id = none) :
    k.syscall env call = .ok (k.afterFailure fd call, .failed) := by
  cases hresolve : k.resolveFd fd with
  | none =>
    cases h with
    | read | fstat | getdents =>
      simp only [syscall, syscallRead, syscallFstat, syscallGetdents, hresolve, afterFailure,
        checked_failed]
    | write bufPtr data h1 h2 =>
      simp only [syscall, syscallVfsWrite, hresolve, afterFailure, h1, h2, or_self, if_false,
        checked_failed]
    | close => simp [syscall, syscallClose, hresolve, afterFailure]
  | some id =>
    have hnone := hget id hresolve
    cases h with
    | read bufPtr len =>
      simp only [syscall, syscallRead, hresolve, Vfs.vfsRead_of_get_none hnone, afterFailure,
        checked_failed]
    | fstat =>
      simp only [syscall, syscallFstat, hresolve, Vfs.vfsFstat, hnone, afterFailure,
        checked_failed]
    | getdents =>
      simp only [syscall, syscallGetdents, hresolve, Vfs.vfsReaddir, hnone, afterFailure,
        checked_failed]
    | write bufPtr data h1 h2 =>
      simp only [syscall, syscallVfsWrite, hresolve, hnone, Vfs.vfsWrite_of_get_none hnone,
        afterFailure, h1, h2, or_self, if_false, Option.any_none, Exec.ok_bind, checked_failed,
        Bool.false_eq_true]
    | close =>
      have hvfs : (k.releaseFd fd).vfs = k.vfs := by
        rw [releaseFd]
        split <;> rfl
      have hclose := Vfs.vfsClose_of_get_none hnone
      rw [← hvfs] at hclose
      simp only [syscall, syscallClose, hresolve, hclose, afterFailure, Option.isSome_some, if_true]

lemma afterFailure_withFiles (k : FdKernel) (fd : UInt64) (call : Syscall) (F : OpenFileTable) :
    (k.withFiles F).afterFailure fd call = (k.afterFailure fd call).withFiles F := by
  have hrelease : (k.withFiles F).releaseFd fd = (k.releaseFd fd).withFiles F := by
    simp only [releaseFd]
    cases hcur : k.currentTable with
    | none =>
      have hcur' : (k.withFiles F).currentTable = none := hcur
      rw [hcur']
    | some table =>
      have hcur' : (k.withFiles F).currentTable = some table := hcur
      rw [hcur']
      rfl
  have hresolve : (k.withFiles F).resolveFd fd = k.resolveFd fd := rfl
  cases call with
  | close _ =>
    simp only [afterFailure, hresolve, hrelease]
    split <;> rfl
  | _ => rfl

lemma afterFailure_openFiles (k : FdKernel) (fd : UInt64) (call : Syscall) :
    (k.afterFailure fd call).vfs.openFiles = k.vfs.openFiles := by
  cases call with
  | close _ =>
    simp only [afterFailure]
    split
    · rw [releaseFd]
      split <;> rfl
    · rfl
  | _ => rfl

lemma get_new (id : OpenFileId) : OpenFileTable.new.get id = none := by
  rw [OpenFileTable.get]
  split <;> rfl

lemma drop_ne (f : OpenFile) : f.drop ≠ f := by
  intro h
  have hrefs : f.drop.refCount = f.refCount - 1 := by
    simp only [OpenFile.drop]
    split <;> rfl
  rw [h] at hrefs
  have hnat := congrArg UInt16.toNat hrefs
  simp only [UInt16.toNat_sub, UInt16.reduceToNat] at hnat
  omega

lemma not_spares_close {pid : ProcessId} {t : HandleTable} {id : SocketId} {f : OpenFile}
    (env : ℕ → Poll) (hcur : k.current = some pid) (ht : k.handles pid = some t)
    (hlive : (t.entries (slotOf fd)).Live 0)
    (hvalue : (t.entries (slotOf fd)).capId = socketValue id)
    (hf : k.vfs.openFiles.get ⟨id.raw⟩ = some f) : ¬ Spares k env (.close fd) := by
  rintro ⟨k', reply, hstep, hsame, -⟩
  obtain ⟨i, hid, rfl, hfile⟩ := OpenFileTable.get_eq_some.mp hf
  obtain ⟨t', -, hclose⟩ := syscallClose_of_entry hcur ht hlive
  rw [hvalue, socketValue_toUInt32, hid, Vfs.vfsClose_ofIndex hfile] at hclose
  have hk' := congrArg (fun r => r.1.vfs.openFiles.entries i) (Exec.ok.inj hstep)
  simp only [hclose, hsame, OpenFileTable.set, update_self] at hk'
  exact drop_ne _ hk'

/-- **Socket descriptors** are safe in the calls for files exactly if the handle is of a later
generation or no open file has the number of the socket. -/
theorem socket_fd_spares_iff (k : FdKernel) (pid : ProcessId) (t : HandleTable) (fd : UInt64)
    (id : SocketId) (hcur : k.current = some pid) (ht : k.handles pid = some t)
    (hactive : (t.entries (slotOf fd)).active = true)
    (hvalue : (t.entries (slotOf fd)).capId = socketValue id) :
    (∀ env call, FileCall fd call → Spares k env call) ↔
      (t.entries (slotOf fd)).generation ≠ 0 ∨ k.vfs.openFiles.get ⟨id.raw⟩ = none := by
  constructor
  · intro h
    by_contra hnot
    rw [not_or, not_not] at hnot
    obtain ⟨hgen, hget⟩ := hnot
    obtain ⟨f, hf⟩ := Option.ne_none_iff_exists'.mp hget
    exact not_spares_close (fun _ => ⟨none, 0⟩) hcur ht ⟨hactive, hgen⟩ hvalue hf (h _ _ .close)
  · intro h env call hcall
    have hget : ∀ id', k.resolveFd fd = some id' → k.vfs.openFiles.get id' = none := by
      intro id' hresolve
      obtain ⟨value, hsome, rfl⟩ := Option.map_eq_some_iff.mp hresolve
      obtain ⟨pid', t', hcur', ht', hlive, rfl⟩ := resolveHandle_eq_some.mp hsome
      cases hcur.symm.trans hcur'
      cases ht.symm.trans ht'
      rw [hvalue, socketValue_toUInt32]
      exact h.resolve_left (not_not_intro hlive.2)
    refine ⟨k.afterFailure fd call, .failed, fileCall_fails hcall env hget,
      afterFailure_openFiles k fd call, ?_⟩
    rw [fileCall_fails hcall env fun id' _ => get_new id', afterFailure_withFiles]

/-! ### Two processes -/

def atBoot : FdKernel := (FdWatch.boot .booted (.init none)).kernel

/-- Two processes have been started; the second one has a socket. -/
@[irreducible] def socketOpened : FdKernel :=
  Machine.final step atBoot
    [.spawn 1, .spawn 2, .schedule (some 2), FdWatch.call (.socket 1 6)]

def socketTable : HandleTable := (socketOpened.handles 2).get (by decide +kernel)

lemma socketTable_eq : socketOpened.handles 2 = some socketTable := (Option.some_get _).symm

/-- There are six open files: the socket, descriptor 3, is safe. -/
theorem socketOpened_spares : (socketTable.entries (slotOf 3)).capId = socketValue ⟨256⟩ ∧
    ∀ env call, FileCall 3 call → Spares socketOpened env call := by
  have hvalue : (socketTable.entries (slotOf 3)).capId = socketValue ⟨256⟩ := by decide +kernel
  have hfiles : socketOpened.vfs.openFiles.get ⟨256⟩ = none := by decide +kernel
  exact ⟨hvalue, (socket_fd_spares_iff socketOpened 2 socketTable 3 ⟨256⟩ (by decide +kernel)
    socketTable_eq (by decide +kernel) hvalue).mpr (.inr hfiles)⟩

/-- The first process has opened more files: it has the descriptors below `n`, its descriptor `j`
is for the open file `j + 4`, and nothing else has changed. -/
structure Crowded (k : FdKernel) (n : ℕ) : Prop where
  current : k.current = some 1
  other : k.handles 2 = some socketTable
  table : ∃ t, k.handles 1 = some t ∧ t.Filled n ∧
    ∀ j, 3 ≤ j.val → j.val < n → (t.entries j).capId = .ofNat (j.val + 4)
  vfs : ∃ F, k.vfs = { socketOpened.vfs with openFiles := F } ∧ F.Filled (n + 3) 256

def firstTable : HandleTable := (socketOpened.handles 1).get (by decide +kernel)

lemma crowded_start : Crowded { socketOpened with current := some 1 } 3 where
  current := rfl
  other := socketTable_eq
  table := by
    have hactive : ∀ i, (firstTable.entries i).active = true ↔ i.val < 3 := by decide +kernel
    have hgen : ∀ i, (firstTable.entries i).generation = 0 := by decide +kernel
    exact ⟨firstTable, (Option.some_get _).symm, ⟨hactive, hgen⟩, fun j h1 h2 => by omega⟩
  vfs := by
    have hfilled : ∀ i, (hi : i < 257) →
        ((socketOpened.vfs.openFiles.entries ⟨i, lt_trans hi (by decide)⟩).active = true ↔
          1 ≤ i ∧ i ≤ 6) := by decide +kernel
    exact ⟨socketOpened.vfs.openFiles, rfl, fun i hi => hfilled i (by omega)⟩

lemma Crowded.open {n : ℕ} (h : Crowded k n) (hn : n < 253) :
    ∃ k' reply, k.step (FdWatch.call (.open 0 FdWatch.devNull 1)) = .ok (k', reply) ∧
      Crowded k' (n + 1) := by
  obtain ⟨t, ht, hfilled, hheld⟩ := h.table
  obtain ⟨F, hvfs, hfiles⟩ := h.vfs
  have hslot : n < maxHandles := lt_trans hn (by decide)
  have hfile : n + 3 + 1 < maxOpenFiles := lt_trans (by omega) (by decide : 257 < maxOpenFiles)
  obtain ⟨hopen, hfiles'⟩ := hfiles.alloc (by omega) hfile ⟨3⟩ ⟨1⟩
  obtain ⟨t', halloc, hfilled', hentries⟩ :=
    hfilled.alloc hslot (fileValue (.ofIndex ⟨n + 3 + 1, hfile⟩))
  have hresolve : k.vfs.resolvePath FdWatch.devNull = .ok (.ok ⟨3⟩) := by
    have hstart : socketOpened.vfs.resolvePath FdWatch.devNull = .ok (.ok ⟨3⟩) := by
      decide +kernel
    rw [hvfs]
    exact hstart
  have hinode : (k.vfs.inodes.get ⟨3⟩).isNone = false := by
    have hstart : (socketOpened.vfs.inodes.get ⟨3⟩).isNone = false := by decide +kernel
    rw [hvfs]
    exact hstart
  have hvfsOpen : k.vfs.vfsOpen FdWatch.devNull ⟨1⟩ = .ok ({ socketOpened.vfs with
      openFiles := F.set ⟨n + 3 + 1, hfile⟩ (.fresh ⟨3⟩ ⟨1⟩) },
      .ok (.ofIndex ⟨n + 3 + 1, hfile⟩)) := by
    simp only [Vfs.vfsOpen, hresolve, Exec.ok_bind, hinode]
    rw [hvfs]
    simp only [hopen, Bool.false_eq_true, if_false]
  generalize F.set ⟨n + 3 + 1, hfile⟩ (.fresh ⟨3⟩ ⟨1⟩) = F' at hvfsOpen hfiles'
  have hcur : { k with vfs := { socketOpened.vfs with openFiles := F' } }.currentTable =
      some (1, t) := currentTable_eq_some.mpr ⟨h.current, ht⟩
  refine ⟨{ k with vfs := { socketOpened.vfs with openFiles := F' } }.setTable 1 t',
    .value (.ofNat (HandleId.pack (.ofNat n) 0).slot.val), ?_, h.current, ?_,
    ⟨t', setTable_self .., hfilled', fun j h1 h2 => ?_⟩, F', rfl, hfiles'⟩
  · show k.checked true (k.syscallOpen FdWatch.devNull 1) = _
    simp only [checked, if_true, syscallOpen, hvfsOpen, Exec.ok_bind, hcur, halloc]
  · exact (setTable_of_ne _ t' (by decide)).trans h.other
  rw [hentries]
  by_cases hj : j = ⟨n, hslot⟩
  · subst hj
    rw [update_self]
    apply UInt64.toNat_inj.mp
    simp only [fileValue, OpenFileId.ofIndex, UInt32.toNat_toUInt64, UInt32.toNat_ofNat',
      UInt64.toNat_ofNat']
    omega
  · have hval : j.val ≠ n := fun heq => hj (Fin.ext heq)
    rw [update_of_ne hj]
    exact hheld j h1 (by omega)

lemma reachable_schedule (h : Machine.Reachable step atBoot k) (current : Option ProcessId) :
    Machine.Reachable step atBoot { k with current } :=
  h.tail (show k.step (.schedule current) = .ok _ from rfl)

lemma exists_crowded {n : ℕ} (hn : 3 ≤ n) :
    n ≤ 253 → ∃ k, Machine.Reachable step atBoot k ∧ Crowded k n := by
  induction n, hn using Nat.le_induction with
  | base =>
    intro _
    have hopened : Machine.Reachable step atBoot socketOpened := by
      unfold socketOpened
      exact .of_returns (by decide +kernel)
    exact ⟨_, reachable_schedule hopened (some 1), crowded_start⟩
  | succ n hn ih =>
    intro hle
    obtain ⟨k, hreach, hcrowded⟩ := ih (by omega)
    obtain ⟨k', reply, hstep, hcrowded'⟩ := hcrowded.open (by omega)
    exact ⟨k', hreach.tail hstep, hcrowded'⟩

/-- When the first process has opened 250 files, the second one closes the last of them by closing
its socket. -/
theorem socket_fd_closes_file :
    ∃ k t₁ t₂ f, Machine.Reachable step atBoot k ∧ k.current = some 2 ∧
      k.handles 1 = some t₁ ∧ t₁.entries (slotOf 252) = ⟨fileValue ⟨256⟩, true, 0⟩ ∧
      k.vfs.openFiles.get ⟨256⟩ = some f ∧
      k.handles 2 = some t₂ ∧ t₂.entries (slotOf 3) = ⟨socketValue ⟨256⟩, true, 0⟩ ∧
      FileCall 3 (.close 3) ∧ ¬ Spares k (fun _ => ⟨none, 0⟩) (.close 3) := by
  obtain ⟨k, hreach, hcrowded⟩ := exists_crowded (by decide : 3 ≤ 253) le_rfl
  obtain ⟨t, ht, hfilled, hheld⟩ := hcrowded.table
  obtain ⟨F, hvfs, hfiles⟩ := hcrowded.vfs
  have hsocket : socketTable.entries (slotOf 3) = ⟨socketValue ⟨256⟩, true, 0⟩ := by
    decide +kernel
  have hslot : (slotOf 252).val = 252 := by decide
  have hentry : t.entries (slotOf 252) = ⟨fileValue ⟨256⟩, true, 0⟩ := by
    have hcap := hheld (slotOf 252) (by omega) (by omega)
    have hactive := (hfilled.active (slotOf 252)).mpr (by omega)
    have hgen := hfilled.generation (slotOf 252)
    rw [hslot] at hcap
    cases hrecord : t.entries (slotOf 252)
    simp only [hrecord] at hcap hactive hgen
    rw [hcap, hactive, hgen]
    rfl
  have hactive : (F.entries ⟨256, by decide⟩).active = true := (hfiles _ le_rfl).mpr (by simp)
  have hget : k.vfs.openFiles.get ⟨256⟩ = some (F.entries ⟨256, by decide⟩) := by
    rw [hvfs]
    exact OpenFileTable.get_eq_some.mpr ⟨⟨256, by decide⟩, rfl, rfl, hactive⟩
  refine ⟨{ k with current := some 2 }, t, socketTable, _,
    reachable_schedule hreach (some 2), rfl, ht, hentry, hget,
    hcrowded.other, hsocket, .close, ?_⟩
  exact not_spares_close _ rfl hcrowded.other (by rw [hsocket]; exact ⟨rfl, rfl⟩)
    (by rw [hsocket]) hget

end Fabric.FdKernel
