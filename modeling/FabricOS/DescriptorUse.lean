/-
Which descriptors stay usable (`resolve_fd`, `syscall_open`, `syscall_close`).

The watched machine notes, for one process, what it has been told about its descriptors.  The
resolver asks for generation 0 of the slot in the low byte, so three things go wrong: a slot that
has been released once gives descriptors that never resolve, a descriptor above 255 is taken for
another one, and closing a socket closes the open file with the number of the socket.
-/
import FabricOS.Descriptors

open Function Machine Option

namespace Fabric

open FdKernel OpenFile Exec OpenFileTable OpenFileId Vfs

/-- What a process knows of an open descriptor: the open file that the call created, or that it is
a socket. -/
inductive OpenFd
  | file (id : OpenFileId) (inodeId : InodeId) (flags : OpenFlags)
  | socket
  deriving DecidableEq

structure FdWatch where
  kernel : FdKernel
  /-- The descriptors that the watched process has open. -/
  fds : UInt64 → Option OpenFd

namespace FdWatch

/-- The open file that `SYS_OPEN` creates. -/
def opened (k : FdKernel) (path : List UInt8) (flags : UInt32) : Option OpenFd :=
  match k.vfs.vfsOpen path ⟨flags⟩ with
  | .ok (vfs, .ok id) => (vfs.openFiles.get id).map fun f => .file id f.inodeId f.flags
  | _ => none

def stdio (k : FdKernel) (p : ProcessId) : UInt64 → Option OpenFd :=
  match k.spawnUser p with
  | .ok (_, [stdin, stdout, stderr]) =>
    update (update (update (fun _ => none)
      0 (some (.file stdin k.vfs.devfs.nullInode .read)))
      1 (some (.file stdout serialInodeId .write)))
      2 (some (.file stderr serialInodeId .write))
  | _ => fun _ => none

/-- The descriptors of `p` after a step that was taken in `k`. -/
def note (p : ProcessId) (k : FdKernel) (reply : SysReply) (fds : UInt64 → Option OpenFd) :
    FdStep → UInt64 → Option OpenFd
  | .sys (.open _ path flags) _ =>
    if k.current = some p ∧ reply.rax ≠ u64Max then
      update fds reply.rax (opened k path flags)
    else fds
  | .sys (.socket ..) _ | .sys (.accept ..) _ =>
    if k.current = some p ∧ reply.rax ≠ u64Max then
      update fds reply.rax (some .socket)
    else fds
  | .sys (.close fd) _ => if k.current = some p then update fds fd none else fds
  | .spawn pid => if pid = p ∧ (k.handles p).isNone then stdio k p else fds
  | _ => fds

def step (p : ProcessId) (w : FdWatch) (i : FdStep) : Exec (FdWatch × SysReply) := do
  let (k, reply) ← w.kernel.step i
  .ok (⟨k, note p w.kernel reply w.fds i⟩, reply)

def boot (vfs : Vfs) (net : NetStack) : FdWatch where
  kernel := { current := none, handles := fun _ => none, vfs, net }
  fds := fun _ => none

/-- **Usable descriptors.**  When `p` runs: a descriptor that it has opened for a file resolves to
the open file created then, and closing it succeeds and frees its slot and the open file; one that
is not open does not resolve. -/
@[irreducible] def Usable (p : ProcessId) (w : FdWatch) (fd : UInt64) : Prop :=
  let k := { w.kernel with current := some p }
  match w.fds fd with
  | some (.file id inodeId flags) =>
    k.resolveFd fd = some id ∧
    (∃ f, k.vfs.openFiles.get id = some f ∧ f.inodeId = inodeId ∧ f.flags = flags) ∧
    (k.syscallClose fd).2 = .value 0 ∧
    (∃ t, (k.syscallClose fd).1.handles p = some t ∧ (t.entries (slotOf fd)).active = false) ∧
    (k.syscallClose fd).1.vfs.openFiles.get id = none
  | some .socket => True
  | none => k.resolveFd fd = none

/-- The steps that do no harm: `p` opens files only into slots that were never released; a socket
is closed only if its number is not that of an open file; and `p` closes files only by descriptors
below 256. -/
def Benign (p : ProcessId) (w : FdWatch) : FdStep → Prop
  | .sys (.open ..) _ =>
    w.kernel.current = some p → ∀ t j, w.kernel.handles p = some t →
      firstSlot (fun j => !(t.entries j).active) = some j → (t.entries j).generation = 0
  | .sys (.close fd) _ =>
    ∀ value, w.kernel.resolveHandle fd = some value →
      if value &&& socketFdFlag ≠ 0 then w.kernel.vfs.openFiles.get ⟨value.toUInt32⟩ = none
      else w.kernel.current = some p → fd < 256
  | _ => True

end FdWatch

/-! ### Handle tables, entry by entry -/

/-- The handle tables of all processes. -/
abbrev HandleTables := ProcessId → Option HandleTable

namespace HandleTables

variable {H H' : HandleTables} {F : OpenFileTable} {q p : ProcessId} {t t' : HandleTable}
  {j slot : Fin maxHandles} {i : Fin maxOpenFiles} {e : HandleEntry}

def entryAt (H : HandleTables) (q : ProcessId) (j : Fin maxHandles) : Option HandleEntry :=
  (H q).map (·.entries j)

/-- `H'` is `H` with one entry replaced. -/
def Sets (H : HandleTables) (q : ProcessId) (slot : Fin maxHandles) (e : HandleEntry)
    (H' : HandleTables) : Prop :=
  ∀ q' j, entryAt H' q' j = if q' = q ∧ j = slot then some e else entryAt H q' j

lemma sets_of_table (ht : H q = some t) (hentries : t'.entries = update t.entries slot e) :
    Sets H q slot e (update H q (some t')) := by
  intro q' j
  by_cases hq : q' = q
  · subst hq
    by_cases hj : j = slot
    · subst hj
      simp [entryAt, hentries]
    · simp [entryAt, hentries, ht, hj]
  · simp [entryAt, hq]

lemma Sets.self (h : Sets H q slot e H') : entryAt H' q slot = some e := by
  rw [h, if_pos ⟨rfl, rfl⟩]

lemma Sets.of_ne (h : Sets H q slot e H') (hne : ¬ (p = q ∧ j = slot)) :
    entryAt H' p j = entryAt H p j := by
  rw [h, if_neg hne]

def Holds (H : HandleTables) (q : ProcessId) (j : Fin maxHandles) (i : Fin maxOpenFiles) : Prop :=
  ∃ e, entryAt H q j = some e ∧ e.active = true ∧ e.capId = fileValue (.ofIndex i)

lemma Sets.holds (h : Sets H q slot e H') (hholds : Holds H' p j i) :
    (p = q ∧ j = slot ∧ e.active = true ∧ e.capId = fileValue (.ofIndex i)) ∨
      (¬ (p = q ∧ j = slot) ∧ Holds H p j i) := by
  obtain ⟨e', he', hactive, hcap⟩ := hholds
  by_cases hat : p = q ∧ j = slot
  · obtain ⟨rfl, rfl⟩ := hat
    rw [h.self] at he'
    cases he'
    exact .inl ⟨rfl, rfl, hactive, hcap⟩
  · rw [h.of_ne hat] at he'
    exact .inr ⟨hat, e', he', hactive, hcap⟩

/-! ### Soundness of the handles -/

/-- Open files have one reference; an active handle is for an active open file or for a socket;
and no two handles are for the same open file. -/
structure Sound (H : HandleTables) (F : OpenFileTable) : Prop where
  refs : ∀ {i}, (F.entries i).active = true → (F.entries i).refCount = 1
  kinds : ∀ {q j e}, entryAt H q j = some e → e.active = true →
    (∃ i, e.capId = fileValue (.ofIndex i) ∧ (F.entries i).active = true) ∨
      ∃ id, e.capId = socketValue id
  unique : ∀ {q j q' j' i}, Holds H q j i → Holds H q' j' i → q = q' ∧ j = j'

lemma sound_none (hfiles : F = .new) : Sound (fun _ => none) F where
  refs hi := by simp [hfiles, OpenFileTable.new, empty] at hi
  kinds he := by simp [entryAt] at he
  unique h := by
    obtain ⟨e, he, -⟩ := h
    simp [entryAt] at he

lemma fileValue_ofIndex_inj {i i' : Fin maxOpenFiles}
    (h : fileValue (.ofIndex i) = fileValue (.ofIndex i')) : i = i' := by
  have hraw := congrArg UInt64.toUInt32 h
  rw [fileValue_toUInt32, fileValue_toUInt32] at hraw
  exact ofIndex_inj (congrArg OpenFileId.mk hraw)

lemma Sound.not_holds (h : Sound H F) (hfree : (F.entries i).active = false) :
    ∀ q j, ¬ Holds H q j i := by
  rintro q j ⟨e, he, hactive, hcap⟩
  obtain ⟨i', hcap', hactive'⟩ | ⟨id, hsocket⟩ := h.kinds he hactive
  · obtain rfl := fileValue_ofIndex_inj (hcap.symm.trans hcap')
    exact absurd hactive' (by simp [hfree])
  · exact socketValue_ne_fileValue id _ (hsocket.symm.trans hcap)

lemma Sound.sameFiles {F' : OpenFileTable} (h : Sound H F) (hsame : Vfs.SameFiles F F') :
    Sound H F' := by
  have hactive : ∀ i, (F'.entries i).active = (F.entries i).active := by
    intro i
    obtain ⟨offset, hi⟩ := hsame i
    rw [hi]
  refine ⟨fun {i} hi => ?_, fun he hact => ?_, h.unique⟩
  · obtain ⟨offset, heq⟩ := hsame i
    rw [heq]
    exact h.refs (hactive i ▸ hi)
  · exact (h.kinds he hact).imp_left fun ⟨i, hcap, hi⟩ => ⟨i, hcap, (hactive i).trans hi⟩

/-- A file that no handle is for may be opened or closed. -/
lemma Sound.setFile {f : OpenFile} (h : Sound H F) (hunheld : ∀ q j, ¬ Holds H q j i)
    (hf : f.active = true → f.refCount = 1) : Sound H (F.set i f) := by
  refine ⟨fun {i'} hi' => ?_, fun {q j e} he hact => ?_, h.unique⟩
  · by_cases heq : i' = i
    · subst heq
      simp only [OpenFileTable.set, update_self] at hi' ⊢
      exact hf hi'
    · simp only [OpenFileTable.set, update_of_ne heq] at hi' ⊢
      exact h.refs hi'
  · refine (h.kinds he hact).imp_left ?_
    rintro ⟨i', hcap, hi'⟩
    refine ⟨i', hcap, ?_⟩
    have hne : i' ≠ i := by
      rintro rfl
      exact hunheld q j ⟨e, he, hact, hcap⟩
    simpa only [OpenFileTable.set, update_of_ne hne] using hi'

lemma Sound.install (h : Sound H F) (hsets : Sets H q slot e H')
    (hkind : (∃ i, e.capId = fileValue (.ofIndex i) ∧ (F.entries i).active = true ∧
      ∀ q j, ¬ Holds H q j i) ∨ ∃ id, e.capId = socketValue id) : Sound H' F := by
  refine ⟨h.refs, fun {q' j e'} he hact => ?_, fun {q1 j1 q2 j2 i} h1 h2 => ?_⟩
  · by_cases hat : q' = q ∧ j = slot
    · obtain ⟨rfl, rfl⟩ := hat
      rw [hsets.self] at he
      cases he
      exact hkind.imp_left fun ⟨i, hcap, hi, _⟩ => ⟨i, hcap, hi⟩
    · rw [hsets.of_ne hat] at he
      exact h.kinds he hact
  · -- the new handle is for a file that had none
    have hnew : ∀ {q' j}, e.capId = fileValue (.ofIndex i) → ¬ Holds H q' j i := by
      intro q' j hcap hholds
      obtain ⟨i', hcap', -, hunheld⟩ | ⟨id, hsocket⟩ := hkind
      · obtain rfl := fileValue_ofIndex_inj (hcap.symm.trans hcap')
        exact hunheld _ _ hholds
      · exact socketValue_ne_fileValue id _ (hsocket.symm.trans hcap)
    rcases hsets.holds h1 with ⟨rfl, rfl, -, hcap⟩ | ⟨-, h1⟩ <;>
      rcases hsets.holds h2 with ⟨rfl, rfl, -, hcap'⟩ | ⟨-, h2⟩
    · exact ⟨rfl, rfl⟩
    · exact absurd h2 (hnew hcap)
    · exact absurd h1 (hnew hcap')
    · exact h.unique h1 h2

lemma Sound.release (h : Sound H F) (hsets : Sets H q slot e H') (he : e.active = false) :
    Sound H' F := by
  have hold : ∀ {q' j i}, Holds H' q' j i → Holds H q' j i := by
    intro q' j i hholds
    obtain ⟨-, -, hactive, -⟩ | ⟨-, hholds⟩ := hsets.holds hholds
    · exact absurd hactive (by simp [he])
    · exact hholds
  refine ⟨h.refs, fun {q' j e'} he' hact => ?_, fun h1 h2 => h.unique (hold h1) (hold h2)⟩
  by_cases hat : q' = q ∧ j = slot
  · obtain ⟨rfl, rfl⟩ := hat
    rw [hsets.self] at he'
    cases he'
    exact absurd hact (by simp [he])
  · rw [hsets.of_ne hat] at he'
    exact h.kinds he' hact

lemma Sound.not_holds_of_release (h : Sound H F) (hsets : Sets H q slot e H')
    (he : e.active = false) (hholds : Holds H q slot i) : ∀ q' j, ¬ Holds H' q' j i := by
  intro q' j hholds'
  obtain ⟨-, -, hactive, -⟩ | ⟨hat, hholds'⟩ := hsets.holds hholds'
  · exact absurd hactive (by simp [he])
  · exact hat (h.unique hholds' hholds)

lemma entryAt_addTable (he : entryAt (update H q (some .new)) p j = some e)
    (hactive : e.active = true) : entryAt H p j = some e := by
  by_cases heq : p = q
  · subst heq
    simp only [entryAt, update_self, map_some, some.injEq] at he
    subst he
    exact absurd hactive (by simp [HandleTable.new, HandleEntry.empty])
  · simpa [entryAt, heq] using he

lemma holds_addTable (hq : H q = none) : Holds (update H q (some .new)) p j i ↔ Holds H p j i := by
  constructor
  · rintro ⟨e, he, hactive, hcap⟩
    exact ⟨e, entryAt_addTable he hactive, hactive, hcap⟩
  · rintro ⟨e, he, hactive, hcap⟩
    have hne : p ≠ q := by
      rintro rfl
      simp [entryAt, hq] at he
    exact ⟨e, by simpa [entryAt, hne] using he, hactive, hcap⟩

lemma Sound.addTable (h : Sound H F) (hq : H q = none) :
    Sound (update H q (some .new)) F where
  refs := h.refs
  kinds he hactive := h.kinds (entryAt_addTable he hactive) hactive
  unique h1 h2 := h.unique ((holds_addTable hq).mp h1) ((holds_addTable hq).mp h2)

/-! ### Descriptors that resolve -/

def SlotOk (F : OpenFileTable) (entry : Option HandleEntry) : Option OpenFd → Prop
  | some (.file id inodeId flags) =>
    (∃ e, entry = some e ∧ e.Live 0 ∧ e.capId = fileValue id) ∧
      ∃ f, F.get id = some f ∧ f.inodeId = inodeId ∧ f.flags = flags
  | some .socket => ∀ e, entry = some e → e.Live 0 → ∃ id, e.capId = socketValue id
  | none => ∀ e, entry = some e → ¬ e.Live 0

/-- All slots of `p` are as it knows them. -/
def Tracked (p : ProcessId) (fds : UInt64 → Option OpenFd) (H : HandleTables)
    (F : OpenFileTable) : Prop :=
  ∀ j : Fin maxHandles, SlotOk F (entryAt H p j) (fds (.ofNat j.val))

variable {fds fds' : UInt64 → Option OpenFd} {F' : OpenFileTable} {entry : Option HandleEntry}
  {fd : Option OpenFd}

lemma SlotOk.files (h : SlotOk F entry fd)
    (hkeep : ∀ id inodeId flags f, fd = some (.file id inodeId flags) → F.get id = some f →
      ∃ f', F'.get id = some f' ∧ f'.inodeId = f.inodeId ∧ f'.flags = f.flags) :
    SlotOk F' entry fd := by
  match fd, h with
  | some (.file id inodeId flags), ⟨he, f, hf, hinode, hflags⟩ =>
    obtain ⟨f', hf', hinode', hflags'⟩ := hkeep id inodeId flags f rfl hf
    exact ⟨he, f', hf', hinode'.trans hinode, hflags'.trans hflags⟩
  | some .socket, h => exact h
  | none, h => exact h

lemma slotOk_of_inactive (he : e.active = false)
    (hfd : ∀ id inodeId flags, fd ≠ some (.file id inodeId flags)) : SlotOk F (some e) fd := by
  have hdead : ∀ e', some e = some e' → ¬ e'.Live 0 := by
    rintro e' ⟨rfl⟩ ⟨hact, -⟩
    exact absurd hact (by simp [he])
  match fd with
  | some (.file id inodeId flags) => exact absurd rfl (hfd id inodeId flags)
  | some .socket => exact fun e' he' hlive => absurd hlive (hdead e' he')
  | none => exact hdead

lemma Tracked.sameFiles (h : Tracked p fds H F) (hsame : Vfs.SameFiles F F') :
    Tracked p fds H F' := by
  refine fun j => (h j).files fun id inodeId flags f _ hf => ?_
  obtain ⟨i, rfl, rfl, hactive⟩ := get_eq_some.mp hf
  obtain ⟨offset, hi⟩ := hsame i
  exact ⟨F'.entries i, get_eq_some.mpr ⟨i, rfl, rfl, hi ▸ hactive⟩,
    by rw [hi], by rw [hi]⟩

lemma Tracked.setFile (h : Tracked p fds H F) (hunheld : ∀ q j, ¬ Holds H q j i)
    (f : OpenFile) : Tracked p fds H (F.set i f) := by
  intro j
  refine (h j).files fun id inodeId flags f' hfd hf' => ?_
  have hslot := h j
  rw [hfd] at hslot
  obtain ⟨⟨e, he, hlive, hcap⟩, -⟩ := hslot
  have hne : id ≠ .ofIndex i := by
    rintro rfl
    exact hunheld p j ⟨e, he, hlive.1, hcap⟩
  exact ⟨f', by rwa [get_set_of_ne f hne], rfl, rfl⟩

lemma Tracked.sets (h : Tracked p fds H F) (hsets : Sets H q slot e H')
    (hslot : q = p → SlotOk F (some e) (fds' (.ofNat slot.val)))
    (hfds : ∀ j : Fin maxHandles, ¬ (q = p ∧ j = slot) →
      fds' (.ofNat j.val) = fds (.ofNat j.val)) : Tracked p fds' H' F := by
  intro j
  by_cases hat : q = p ∧ j = slot
  · obtain ⟨rfl, rfl⟩ := hat
    rw [hsets.self]
    exact hslot rfl
  · rw [hsets.of_ne fun hat' => hat ⟨hat'.1.symm, hat'.2⟩, hfds j hat]
    exact h j

lemma Tracked.addTable (h : q = p → fds = fun _ => none) (htracked : q ≠ p → Tracked p fds H F) :
    Tracked p fds (update H q (some .new)) F := by
  intro j
  by_cases hq : q = p
  · subst hq
    rw [h rfl]
    rintro e he ⟨hact, -⟩
    simp only [entryAt, update_self, map_some, some.injEq] at he
    subst he
    exact absurd hact (by simp [HandleTable.new, HandleEntry.empty])
  · have hentry : entryAt (update H q (some .new)) p j = entryAt H p j := by
      simp [entryAt, update_of_ne (Ne.symm hq)]
    rw [hentry]
    exact htracked hq j

end HandleTables

namespace FdWatch

open HandleTables

variable {p : ProcessId} {w : FdWatch} {k' : FdKernel} {reply : SysReply}

structure Inv (p : ProcessId) (k : FdKernel) (fds : UInt64 → Option OpenFd) : Prop where
  sound : Sound k.handles k.vfs.openFiles
  tracked : Tracked p fds k.handles k.vfs.openFiles

lemma inv_boot {vfs : Vfs} (hfiles : vfs.openFiles = .new) (net : NetStack) :
    Inv p (boot vfs net).kernel (boot vfs net).fds := by
  refine ⟨sound_none hfiles, fun j e he => ?_⟩
  simp [entryAt, boot] at he

variable {fds : UInt64 → Option OpenFd} {k : FdKernel}

lemma Inv.quiet (h : Inv p k fds) (hquiet : Quiet k k') : Inv p k' fds := by
  refine ⟨?_, ?_⟩
  · rw [hquiet.handles]
    exact h.sound.sameFiles hquiet.files
  · rw [hquiet.handles]
    exact h.tracked.sameFiles hquiet.files

lemma ofNat_slot_ne_max (j : Fin maxHandles) : (.ofNat j.val : UInt64) ≠ u64Max := by
  intro h
  have hj : j.val < 256 := j.isLt
  have hnat := congrArg UInt64.toNat h
  exact absurd hnat (by simp [u64Max]; omega)

lemma ofNat_slot_inj {j j' : Fin maxHandles} (h : (.ofNat j.val : UInt64) = .ofNat j'.val) :
    j = j' := by
  have hslot := congrArg slotOf h
  rwa [slotOf_of_lt, slotOf_of_lt] at hslot

variable {pid : ProcessId}

lemma Inv.install {t t' : HandleTable} {value : UInt64} {handle : HandleId}
    (h : Inv p k fds) (fd : OpenFd) (ht : k.handles pid = some t)
    (halloc : t.alloc value = (t', .ok handle))
    (hkind : (∃ i, value = fileValue (.ofIndex i) ∧ (k.vfs.openFiles.entries i).active = true ∧
      ∀ q j, ¬ Holds k.handles q j i) ∨ ∃ id, value = socketValue id)
    (hslot : pid = p → SlotOk k.vfs.openFiles
      (some { t.entries handle.slot with capId := value, active := true }) (some fd)) :
    Inv p (k.setTable pid t')
      (if pid = p then update fds (.ofNat handle.slot.val) (some fd) else fds) := by
  obtain ⟨j, -, -, rfl, hentries⟩ := HandleTable.alloc_eq_ok halloc
  have hsets := sets_of_table ht hentries
  refine ⟨h.sound.install hsets hkind, h.tracked.sets hsets (fun hp => ?_) fun j' hj' => ?_⟩
  · rw [if_pos hp, update_self]
    exact hslot hp
  split
  · rename_i hp
    exact update_of_ne (fun heq => hj' ⟨hp, ofNat_slot_inj heq⟩) ..
  · rfl

lemma Inv.open (h : Inv p w.kernel w.fds) {pathPtr : UInt64} {path : List UInt8}
    {flags : UInt32} {env : ℕ → Poll} (hbenign : Benign p w (.sys (.open pathPtr path flags) env))
    (hstep : w.kernel.syscallOpen path flags = .ok (k', reply)) :
    Inv p k' (note p w.kernel reply w.fds (.sys (.open pathPtr path flags) env)) := by
  obtain ⟨rfl, rfl⟩ | ⟨vfs, id, hopen, hcases⟩ := syscallOpen_cases hstep
  · rw [note, if_neg fun hnot => hnot.2 rfl]
    exact h
  obtain ⟨i, inodeId, rfl, -, hfirst, rfl⟩ := vfsOpen_eq_ok hopen
  have hfree : (w.kernel.vfs.openFiles.entries i).active = false :=
    free_of_firstSlot hfirst
  have hunheld := h.sound.not_holds hfree
  have hfresh : Inv p { w.kernel with vfs := { w.kernel.vfs with
      openFiles := w.kernel.vfs.openFiles.set i (.fresh inodeId ⟨flags⟩) } } w.fds :=
    ⟨h.sound.setFile hunheld fun _ => rfl, h.tracked.setFile hunheld _⟩
  obtain ⟨-, rfl, rfl⟩ | ⟨rfl, rfl⟩ | ⟨pid, t, t', handle, hpid, ht, halloc, rfl, rfl⟩ := hcases
  · rw [note, if_neg fun hnot => hnot.2 rfl]
    exact hfresh
  · rw [note, if_neg fun hnot => hnot.2 rfl, vfsClose_ofIndex (by
      simp [OpenFileTable.set, fresh])]
    have hdrop : (fresh inodeId ⟨flags⟩).drop.active = false := by
      simp [drop, fresh]
    simp only [OpenFileTable.set, update_self]
    exact ⟨hfresh.sound.setFile hunheld (by simp [hdrop]), hfresh.tracked.setFile hunheld _⟩
  · obtain ⟨j, hj, -, hjslot, -⟩ := HandleTable.alloc_eq_ok halloc
    have hopened : opened w.kernel path flags = some (.file (.ofIndex i) inodeId ⟨flags⟩) := by
      rw [opened, hopen]
      simp [get_set_self, fresh]
    have hinstall := hfresh.install (.file (.ofIndex i) inodeId ⟨flags⟩) ht halloc
      (.inl ⟨i, rfl, by simp [OpenFileTable.set, fresh], hunheld⟩) fun hp => by
        have hgen := hbenign (hp ▸ hpid) t j (hp ▸ ht) hj
        refine ⟨⟨_, rfl, ⟨rfl, hjslot ▸ hgen⟩, rfl⟩, _, get_set_self .., rfl, rfl⟩
    have hnote : note p w.kernel (.value (.ofNat handle.slot.val)) w.fds
        (.sys (.open pathPtr path flags) env) =
        if pid = p then update w.fds (.ofNat handle.slot.val)
          (some (.file (.ofIndex i) inodeId ⟨flags⟩)) else w.fds := by
      rw [note, hopened, hpid]
      simp [SysReply.value, ofNat_slot_ne_max]
    rw [hnote]
    exact hinstall

lemma Inv.socket {r : NetReply} (h : Inv p k fds) (hstep : k.installSocket r = (k', reply)) :
    Inv p k' (if k.current = some p ∧ reply.rax ≠ u64Max then
      update fds reply.rax (some .socket) else fds) := by
  obtain ⟨rfl, rfl⟩ | ⟨id, pid, t, t', handle, hpid, ht, halloc, rfl, rfl⟩ :=
    installSocket_cases hstep
  · rw [if_neg fun hnot => hnot.2 rfl]
    exact h
  have hinstall := h.install .socket ht halloc (.inr ⟨id, rfl⟩) fun _ e he _ =>
    ⟨id, by rw [← some.inj he]⟩
  rw [hpid]
  simpa [SysReply.value, ofNat_slot_ne_max] using hinstall

lemma Inv.close (h : Inv p w.kernel w.fds) {fd : UInt64} {env : ℕ → Poll}
    (hbenign : Benign p w (.sys (.close fd) env)) (hstep : w.kernel.syscallClose fd = (k', reply)) :
    Inv p k' (note p w.kernel reply w.fds (.sys (.close fd) env)) := by
  cases hresolve : w.kernel.resolveHandle fd with
  | none =>
    have hk : k' = w.kernel := by
      rw [syscallClose, resolveFd, hresolve] at hstep
      exact (Prod.mk.inj hstep).1.symm
    rw [hk, note]
    split
    · rename_i hp
      refine ⟨h.sound, fun j => ?_⟩
      by_cases hfd : .ofNat j.val = fd
      · rw [hfd, update_self]
        intro e he hlive
        obtain ⟨t, ht, rfl⟩ := map_eq_some_iff.mp he
        have hslot : slotOf fd = j := by rw [← hfd, slotOf_of_lt]
        have hsome : w.kernel.resolveHandle fd = some (t.entries j).capId :=
          resolveHandle_eq_some.mpr ⟨p, t, hp, ht, hslot ▸ hlive, by rw [hslot]⟩
        cases hresolve.symm.trans hsome
      · rw [update_of_ne hfd]
        exact h.tracked j
    · exact h
  | some value =>
    obtain ⟨pid, t, hpid, ht, hlive, hvalue⟩ := resolveHandle_eq_some.mp hresolve
    obtain ⟨t', hentries, hclose⟩ := syscallClose_of_entry hpid ht hlive
    have hentry : entryAt w.kernel.handles pid (slotOf fd) = some (t.entries (slotOf fd)) := by
      simp [entryAt, ht]
    have hsets := sets_of_table ht hentries
    have hbenign := hbenign value hresolve
    -- what `p` knows of the slot afterwards is not a file
    have hknown : pid = p → ∀ id inodeId flags,
        note p w.kernel reply w.fds (.sys (.close fd) env) (.ofNat (slotOf fd).val) ≠
          some (.file id inodeId flags) := by
      intro hp id inodeId flags hfile
      rw [note, if_pos (hp ▸ hpid)] at hfile
      by_cases hlt : fd < 256
      · rw [ofNat_slotOf hlt, update_self] at hfile
        cases hfile
      have hne : .ofNat (slotOf fd).val ≠ fd := by
        intro heq
        refine hlt (UInt64.lt_iff_toNat_lt.mpr ?_)
        rw [← heq, UInt64.toNat_ofNat_of_lt' (lt_trans (slotOf fd).isLt (by decide))]
        exact (slotOf fd).isLt
      rw [update_of_ne hne] at hfile
      have hslot := h.tracked (slotOf fd)
      rw [hfile, ← hp, hentry] at hslot
      obtain ⟨⟨e, he, -, hcap⟩, -⟩ := hslot
      cases he
      have hflag : value &&& socketFdFlag = 0 := by rw [← hvalue, hcap, fileValue_and]
      rw [if_neg (not_not_intro hflag)] at hbenign
      exact hlt (hbenign (hp ▸ hpid))
    have hothers : ∀ j : Fin maxHandles, ¬ (pid = p ∧ j = slotOf fd) →
        note p w.kernel reply w.fds (.sys (.close fd) env) (.ofNat j.val) =
          w.fds (.ofNat j.val) := by
      intro j hj
      rw [note]
      split
      · rename_i hp
        refine update_of_ne (fun heq => hj ⟨?_, ?_⟩) ..
        · exact some.inj (hpid.symm.trans hp)
        · rw [← heq, slotOf_of_lt]
      · rfl
    have hreleased : Inv p (w.kernel.setTable pid t')
        (note p w.kernel reply w.fds (.sys (.close fd) env)) :=
      ⟨h.sound.release hsets rfl,
        h.tracked.sets hsets (fun hp => slotOk_of_inactive rfl (hknown hp)) hothers⟩
    rw [hclose] at hstep
    cases hstep
    obtain ⟨i, hcap, hactive⟩ | ⟨id, hcap⟩ := h.sound.kinds hentry hlive.1
    · -- a file: it had this handle only, and one reference
      have hunheld := h.sound.not_holds_of_release hsets rfl ⟨_, hentry, hlive.1, hcap⟩
      have hdrop : (w.kernel.vfs.openFiles.entries i).drop.active = false := by
        simp [drop, h.sound.refs hactive]
      rw [hcap, fileValue_toUInt32, vfsClose_ofIndex hactive]
      exact ⟨hreleased.sound.setFile hunheld (by simp [hdrop]),
        hreleased.tracked.setFile hunheld _⟩
    · -- a socket: there is no open file of its number
      have hflag : value &&& socketFdFlag ≠ 0 := by
        rw [← hvalue, hcap, socketValue_and]
        decide
      rw [if_pos hflag, ← hvalue] at hbenign
      rw [vfsClose_of_get_none hbenign]
      exact hreleased

/-! ### Start of a process -/

variable {inodeId : InodeId} {flags : OpenFlags}

lemma openInode_eq_ok {id : OpenFileId} (h : k.openInode inodeId flags = .ok (k', id)) :
    ∃ i, (k.vfs.openFiles.entries i).active = false ∧ id = .ofIndex i ∧
      k' = { k with vfs := { k.vfs with
        openFiles := k.vfs.openFiles.set i (.fresh inodeId flags) } } := by
  unfold FdKernel.openInode at h
  rcases halloc : k.vfs.openFiles.alloc inodeId flags with ⟨openFiles, e | id'⟩
  · simp [halloc] at h
  obtain ⟨i, hfirst, rfl, rfl⟩ := alloc_eq_ok halloc
  simp only [halloc] at h
  cases h
  exact ⟨i, free_of_firstSlot hfirst, rfl, rfl⟩

/-- A state in the course of the start of `pid`: the open files `waiting` have no handles yet, and
the slots below `n` are taken. -/
structure Starting (p pid : ProcessId) (k : FdKernel) (fds : UInt64 → Option OpenFd) (n : ℕ)
    (waiting : List (Fin maxOpenFiles × InodeId × OpenFlags)) : Prop extends Inv p k fds where
  table : ∃ t, k.handles pid = some t ∧ t.Filled n
  distinct : (waiting.map (·.1)).Nodup
  waits : ∀ x ∈ waiting, (∀ q j, ¬ Holds k.handles q j x.1) ∧
    ∃ f, k.vfs.openFiles.get (.ofIndex x.1) = some f ∧ f.inodeId = x.2.1 ∧ f.flags = x.2.2

lemma Starting.openInode {n : ℕ}
    {waiting : List (Fin maxOpenFiles × InodeId × OpenFlags)} {id : OpenFileId}
    (h : Starting p pid k fds n waiting)
    (hopen : k.openInode inodeId flags = .ok (k', id)) :
    ∃ i, id = .ofIndex i ∧ Starting p pid k' fds n (waiting ++ [(i, inodeId, flags)]) := by
  obtain ⟨i, hfree, rfl, rfl⟩ := openInode_eq_ok hopen
  have hne : ∀ x ∈ waiting, x.1 ≠ i := by
    rintro x hx rfl
    obtain ⟨-, f, hf, -⟩ := h.waits x hx
    rw [get_ofIndex, hfree] at hf
    cases hf
  have hunheld := h.sound.not_holds hfree
  refine ⟨i, rfl, ⟨⟨h.sound.setFile hunheld fun _ => rfl, h.tracked.setFile hunheld _⟩, h.table, ?_,
    fun x hx => ?_⟩⟩
  · rw [List.map_append, List.nodup_append]
    refine ⟨h.distinct, by simp, ?_⟩
    rintro a ha b hb rfl
    obtain ⟨x, hx, rfl⟩ := List.mem_map.mp ha
    exact hne x hx (by simpa using hb)
  · rcases List.mem_append.mp hx with hx | hx
    · obtain ⟨hunheld, f, hf, hinode, hflags⟩ := h.waits x hx
      have hid : OpenFileId.ofIndex x.1 ≠ .ofIndex i := fun heq =>
        hne x hx (ofIndex_inj heq)
      exact ⟨hunheld, f, by rwa [get_set_of_ne _ hid], hinode, hflags⟩
    · obtain rfl := List.mem_singleton.mp hx
      exact ⟨h.sound.not_holds hfree, _, get_set_self .., rfl, rfl⟩

lemma Starting.installFile {n : ℕ} {i : Fin maxOpenFiles}
    {waiting : List (Fin maxOpenFiles × InodeId × OpenFlags)}
    (h : Starting p pid k fds n ((i, inodeId, flags) :: waiting)) (hn : n < maxHandles) :
    Starting p pid (k.installFile pid (.ofIndex i))
      (if pid = p then
        update fds (.ofNat n) (some (.file (.ofIndex i) inodeId flags)) else fds)
      (n + 1) waiting := by
  obtain ⟨t, ht, hfilled⟩ := h.table
  obtain ⟨t', halloc, hfilled', hentries⟩ := hfilled.alloc hn (fileValue (.ofIndex i))
  have hinstalled : k.installFile pid (.ofIndex i) = k.setTable pid t' := by
    rw [FdKernel.installFile, ht]
    simp only [halloc]
  obtain ⟨hunheld, f, hf, hinode, hflags⟩ := h.waits _ List.mem_cons_self
  obtain ⟨i', hi', rfl, hactive⟩ := get_eq_some.mp hf
  obtain rfl := ofIndex_inj hi'
  have hslot : (HandleId.pack (.ofNat n) 0).slot = ⟨n, hn⟩ := by
    rw [HandleId.slot_pack]
    exact Fin.ext (Nat.mod_eq_of_lt hn)
  have hinv := h.toInv.install (.file (.ofIndex i) inodeId flags) ht halloc
    (.inl ⟨i, rfl, hactive, hunheld⟩) fun _ =>
      ⟨⟨_, rfl, ⟨rfl, hfilled.generation _⟩, rfl⟩, _, hf, hinode, hflags⟩
  rw [hslot] at hinv
  have hsets := sets_of_table ht hentries
  rw [hinstalled]
  refine ⟨hinv, ⟨t', setTable_self .., hfilled'⟩, (List.nodup_cons.mp h.distinct).2,
    fun x hx => ?_⟩
  obtain ⟨hunheldx, hfile⟩ := h.waits x (List.mem_cons_of_mem _ hx)
  refine ⟨fun q j hholds => ?_, hfile⟩
  obtain ⟨-, -, -, hcap⟩ | ⟨-, hold⟩ := hsets.holds hholds
  · have hmem : i ∈ waiting.map (·.1) := by
      rw [fileValue_ofIndex_inj hcap]
      exact List.mem_map_of_mem hx
    exact (List.nodup_cons.mp h.distinct).1 hmem
  · exact hunheldx q j hold

lemma Inv.spawn (h : Inv p w.kernel w.fds) {ids : List OpenFileId}
    (reply : SysReply) (hstep : w.kernel.spawnUser pid = .ok (k', ids)) :
    Inv p k' (note p w.kernel reply w.fds (.spawn pid)) := by
  have hspawn := hstep
  rw [spawnUser] at hstep
  cases hpid : w.kernel.handles pid with
  | some t =>
    rw [hpid] at hstep
    rw [← (Prod.mk.inj (ok.inj hstep)).1, note, if_neg]
    · exact h
    · rintro ⟨rfl, hnone⟩
      rw [hpid] at hnone
      cases hnone
  | none =>
    rw [hpid] at hstep
    obtain ⟨⟨k1, stdin⟩, h1, hstep⟩ := bind_eq_ok.mp hstep
    obtain ⟨⟨k2, stdout⟩, h2, hstep⟩ := bind_eq_ok.mp hstep
    obtain ⟨⟨k3, stderr⟩, h3, hstep⟩ := bind_eq_ok.mp hstep
    cases hstep
    have hstart : Starting p pid (w.kernel.setTable pid .new)
        (if pid = p then fun _ => none else w.fds) 0 [] := by
      refine ⟨⟨h.sound.addTable hpid, .addTable (fun hp => if_pos hp) fun hp => ?_⟩,
        ⟨.new, setTable_self .., HandleTable.filled_new⟩, List.nodup_nil, by simp⟩
      rw [if_neg hp]
      exact h.tracked
    obtain ⟨i1, rfl, hstart⟩ := hstart.openInode h1
    obtain ⟨i2, rfl, hstart⟩ := hstart.openInode h2
    obtain ⟨i3, rfl, hstart⟩ := hstart.openInode h3
    have hdone := ((hstart.installFile (by decide)).installFile (by decide)).installFile (by decide)
    by_cases hp : pid = p
    · subst hp
      rw [note, if_pos ⟨rfl, by rw [hpid]; rfl⟩, stdio, hspawn]
      simp only [if_true] at hdone
      exact hdone.toInv
    · rw [note, if_neg fun hnot => hp hnot.1]
      simpa only [if_neg hp] using hdone.toInv

/-! ### Runs -/

lemma Inv.step {w' : FdWatch} {i : FdStep} (h : Inv p w.kernel w.fds) (hbenign : Benign p w i)
    (hstep : w.step p i = .ok (w', reply)) : Inv p w'.kernel w'.fds := by
  obtain ⟨⟨k', reply'⟩, hkernel, hok⟩ := bind_eq_ok.mp hstep
  obtain ⟨rfl, rfl⟩ := Prod.mk.inj (ok.inj hok)
  cases i with
  | schedule pid =>
    cases hkernel
    exact h.quiet ⟨rfl, .refl _⟩
  | spawn pid =>
    obtain ⟨⟨k1, ids⟩, hspawn, hok⟩ := bind_eq_ok.mp hkernel
    rw [← (Prod.mk.inj (ok.inj hok)).1]
    exact h.spawn reply' hspawn
  | sys call env =>
    by_cases hfds : call.HandlesFds
    · cases call with
      | «open» pathPtr path flags =>
        simp only [FdKernel.step, FdKernel.syscall, checked] at hkernel
        split at hkernel
        · exact h.open hbenign hkernel
        · cases hkernel
          rw [note, if_neg fun hnot => hnot.2 rfl]
          exact h
      | close fd => exact h.close hbenign (ok.inj hkernel)
      | socket sockType protocol =>
        simp only [FdKernel.step, FdKernel.syscall, syscallSocket] at hkernel
        split at hkernel
        · obtain ⟨⟨net, out⟩, -, hinstall⟩ := bind_eq_ok.mp hkernel
          have hnet : Inv p { w.kernel with net } w.fds := h.quiet ⟨rfl, .refl _⟩
          exact hnet.socket (ok.inj hinstall)
        · cases hkernel
          rw [note, if_neg fun hnot => hnot.2 rfl]
          exact h
      | accept fd =>
        simp only [FdKernel.step, FdKernel.syscall, syscallAccept] at hkernel
        split at hkernel
        · cases hkernel
          rw [note, if_neg fun hnot => hnot.2 rfl]
          exact h
        · obtain ⟨⟨net, out⟩, -, hinstall⟩ := bind_eq_ok.mp hkernel
          have hnet : Inv p { w.kernel with net } w.fds := h.quiet ⟨rfl, .refl _⟩
          exact hnet.socket (ok.inj hinstall)
      | _ => exact hfds.elim
    · have hnote : note p w.kernel reply' w.fds (.sys call env) = w.fds := by
        cases call <;> first | rfl | exact absurd trivial hfds
      rw [hnote]
      exact h.quiet (syscall_quiet hfds hkernel)

lemma Inv.usable (h : Inv p w.kernel w.fds) {fd : UInt64} (hfd : fd < 256) : Usable p w fd := by
  have hslot := h.tracked (slotOf fd)
  rw [ofNat_slotOf hfd] at hslot
  rw [Usable]
  cases hknown : w.fds fd with
  | none =>
    rw [hknown] at hslot
    simp only [resolveFd, map_eq_none_iff]
    rw [eq_none_iff_forall_not_mem]
    intro value hvalue
    obtain ⟨pid, t, hpid, ht, hlive, -⟩ := resolveHandle_eq_some.mp hvalue
    cases hpid
    exact hslot _ (by simp [entryAt, show w.kernel.handles p = some t from ht]) hlive
  | some known =>
    cases known with
    | socket => trivial
    | file id inodeId flags =>
      rw [hknown] at hslot
      obtain ⟨⟨e, he, hlive, hcap⟩, f, hf, hinode, hflags⟩ := hslot
      obtain ⟨t, ht, rfl⟩ := map_eq_some_iff.mp he
      obtain ⟨i, rfl, rfl, hactive⟩ := get_eq_some.mp hf
      obtain ⟨t', hentries, hclose⟩ :=
        syscallClose_of_entry (k := { w.kernel with current := some p }) rfl ht hlive
      have hdrop : (w.kernel.vfs.openFiles.entries i).drop.active = false := by
        simp [drop, h.sound.refs hactive]
      simp only [hcap, fileValue_toUInt32, vfsClose_ofIndex hactive] at hclose
      simp only [hclose]
      refine ⟨?_, ⟨_, hf, hinode, hflags⟩, trivial, ⟨t', setTable_self .., ?_⟩, ?_⟩
      · have hresolve := resolveHandle_eq_some (k := { w.kernel with current := some p }).mpr
          ⟨p, t, rfl, ht, hlive, hcap⟩
        rw [resolveFd, hresolve]
        simp
      · rw [hentries, update_self]
      · rw [get_set_self, hdrop]
        rfl

/-- **Descriptors stay usable**, in every state of every run in which the steps are benign. -/
theorem fds_usable (p : ProcessId) (vfs : Vfs) (net : NetStack) (hfiles : vfs.openFiles = .new)
    {w : FdWatch} (h : ReachableVia (Benign p) (step p) (boot vfs net) w) (fd : UInt64)
    (hfd : fd < 256) : Usable p w fd := by
  have hinv : Inv p w.kernel w.fds :=
    h.inv (P := fun w => Inv p w.kernel w.fds) (inv_boot hfiles net)
      fun hinv hbenign hstep => hinv.step hbenign hstep
  exact hinv.usable hfd

/-- The path `/dev/null`. -/
def devNull : List UInt8 := [47, 100, 101, 118, 47, 110, 117, 108, 108]

def call (c : Syscall) : FdStep := .sys c fun _ => ⟨none, 0⟩

def started : FdWatch := final (step 1) (boot .booted (.init none)) [.spawn 1]

def running : FdWatch := final (step 1) started [.schedule (some 1)]

/-- It has opened `/dev/null`. -/
def openedOnce : FdWatch := final (step 1) running [call (.open 0 devNull 1)]

/-- It has closed the descriptor and opened the file again. -/
def openedTwice : FdWatch :=
  final (step 1) openedOnce [call (.close 3), call (.open 0 devNull 1)]

lemma openedOnce_reachable :
    ReachableVia (Benign 1) (step 1) (boot .booted (.init none)) openedOnce := by
  have hstarted : ReachableVia (Benign 1) (step 1) (boot .booted (.init none)) started :=
    ReachableVia.refl.tail_final trivial (by decide +kernel)
  have hrunning : ReachableVia (Benign 1) (step 1) (boot .booted (.init none)) running :=
    hstarted.tail_final trivial (by decide +kernel)
  refine hrunning.tail_final (fun _ t j ht hj => ?_) (by decide +kernel)
  have hgen : ((running.kernel.handles 1).bind fun t =>
      (firstSlot fun j => !(t.entries j).active).map fun j => (t.entries j).generation) =
      some 0 := by decide +kernel
  simpa [ht, hj] using hgen

/-- After the first `SYS_OPEN` descriptor 3 is usable. -/
theorem openedOnce_usable :
    openedOnce.fds 3 = some (.file ⟨4⟩ ⟨3⟩ ⟨1⟩) ∧ Usable 1 openedOnce 3 := by
  refine ⟨by decide +kernel, ?_⟩
  exact fds_usable 1 .booted (.init none) booted_openFiles openedOnce_reachable 3 (by decide)

/-- After the second one it is not: it does not resolve. -/
theorem openedTwice_not_usable :
    Machine.Reachable (step 1) (boot .booted (.init none)) openedTwice ∧
      openedTwice.fds 3 = some (.file ⟨4⟩ ⟨3⟩ ⟨1⟩) ∧ ¬ Usable 1 openedTwice 3 := by
  have hfds : openedTwice.fds 3 = some (.file ⟨4⟩ ⟨3⟩ ⟨1⟩) := by decide +kernel
  have hresolve : { openedTwice.kernel with current := some 1 }.resolveFd 3 = none := by
    decide +kernel
  refine ⟨?_, hfds, fun h => ?_⟩
  · have hagain : Machine.Reachable (step 1) openedOnce openedTwice :=
      .of_returns (by decide +kernel)
    exact openedOnce_reachable.reachable.trans hagain
  · rw [Usable, hfds] at h
    cases hresolve.symm.trans h.1

end FdWatch

end Fabric
