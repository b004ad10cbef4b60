/-
Directories listed by repeated calls (`vfs_readdir`).

The offset of an open directory counts the entries that were returned.  Calls until one returns
nothing give all entries (`listing_complete`), if the directory has a list in tmpfs and the names
fit into their field.  `/dev` has no list, and its inode does not have the number of devfs either,
so it cannot be listed (`dev_not_listed`).
-/
import FabricOS.FileContents

open List

namespace Fabric

namespace DirentBuf

/-- What an entry shows: the inode, and as many bytes of the name as it says there are. -/
def shown (d : DirentBuf) : UInt32 × List UInt8 := (d.inodeId, d.name.take d.nameLen.toNat)

lemma shown_ofName {name : List UInt8} (h : name.length ≤ 56) (inodeId : InodeId)
    (inodeType : UInt8) : (ofName inodeId inodeType name).shown = (inodeId.raw, name) := by
  have hlen : (UInt16.ofNat name.length).toNat = name.length :=
    UInt16.toNat_ofNat_of_lt' (h.trans_lt (by decide))
  simp [shown, ofName, take_of_length_le h, hlen]

end DirentBuf

namespace Vfs

/-- The calls with buffers of these lengths. -/
def readdirs (id : OpenFileId) : Vfs → List ℕ → Except VfsError (List (List DirentBuf))
  | _, [] => .ok []
  | v, n :: ns =>
    match v.vfsReaddir id n with
    | (_, .error e) => .error e
    | (v, .ok filled) => (readdirs id v ns).map (filled :: ·)

variable {v : Vfs} {id : OpenFileId} {entries done rest : List DirentBuf} {offset bufLen : ℕ}

lemma fillDirents_skip : ∀ {done : List DirentBuf} {index written : ℕ},
    index + done.length = offset → fillDirents offset bufLen (done ++ rest) index written =
      fillDirents offset bufLen rest offset written
  | [], _, _, h => by rw [← h]; rfl
  | d :: done, index, written, h => by
    rw [length_cons] at h
    rw [cons_append, fillDirents, if_pos (by omega)]
    exact fillDirents_skip (by omega)

lemma fillDirents_fill : ∀ {rest : List DirentBuf} {index written : ℕ}, offset ≤ index →
    fillDirents offset bufLen rest index written =
      let filled := rest.take ((bufLen - written) / 64)
      (filled, index + filled.length)
  | [], _, _, _ => by simp [fillDirents]
  | d :: rest, index, written, h => by
    rw [fillDirents, if_neg (by omega), DirentBuf.size]
    split_ifs with hfull
    · rw [show (bufLen - written) / 64 = 0 by omega]
      rfl
    · rw [fillDirents_fill (by omega),
        show (bufLen - written) / 64 = (bufLen - (written + 64)) / 64 + 1 by omega]
      simp only [take_succ_cons, length_cons, Nat.add_assoc, Nat.add_comm 1]

/-- The open file is a directory whose entries are `done`, which were returned, and `rest`. -/
def Lists (v : Vfs) (id : OpenFileId) (done rest : List DirentBuf) : Prop :=
  ∃ f inode, v.openFiles.get id = some f ∧ f.offset = .ofNat done.length ∧
    v.inodes.get f.inodeId = some inode ∧ inode.inodeType = .directory ∧
    v.dirents f.inodeId inode.fsId = some (done ++ rest) ∧ (done ++ rest).length < 2 ^ 64

lemma Lists.vfsReaddir (h : v.Lists id done rest) (n : ℕ) :
    ∃ v', v.vfsReaddir id n = (v', .ok (rest.take (n / 64))) ∧
      v'.Lists id (done ++ rest.take (n / 64)) (rest.drop (n / 64)) := by
  obtain ⟨f, inode, hget, hoffset, hinode, htype, hentries, hlt⟩ := h
  have hdone : f.offset.toNat = done.length := by
    rw [length_append] at hlt
    rw [hoffset]
    exact UInt64.toNat_ofNat_of_lt' (lt_of_le_of_lt (Nat.le_add_right _ _) hlt)
  refine ⟨v.setOffset id fun _ => .ofNat (done ++ rest.take (n / 64)).length, ?_,
    { f with offset := .ofNat (done ++ rest.take (n / 64)).length }, inode, ?_, rfl, hinode,
    htype, ?_⟩
  · simp only [Vfs.vfsReaddir, hget, hinode, htype, hentries, hdone, ne_eq, not_true_eq_false,
      if_false, fillDirents_skip (Nat.zero_add _), fillDirents_fill le_rfl, Nat.sub_zero,
      length_append]
  · unfold OpenFileTable.get at hget
    cases hindex : id.index with
    | none => simp [hindex] at hget
    | some i =>
      simp only [hindex, Option.ite_none_right_eq_some, Option.some.injEq] at hget
      rw [setOffset_eq hindex hget.1, get_of_index hindex, hget.2]
      simp [setOpen_entries, hget.2 ▸ hget.1]
  · rw [append_assoc, take_append_drop]
    exact ⟨hentries, hlt⟩

lemma Lists.readdirs {ns : List ℕ} (h : v.Lists id done rest) (hns : ∀ n ∈ ns, 64 ≤ n) :
    ∃ filled, readdirs id v ns = .ok filled ∧
      ∀ before, filled = before ++ [[]] → before.flatten = rest := by
  induction ns generalizing v done rest with
  | nil => exact ⟨[], rfl, fun before hend => absurd hend.symm (by simp)⟩
  | cons n ns ih =>
    obtain ⟨v', hcall, h'⟩ := h.vfsReaddir n
    obtain ⟨filled, hfilled, hall⟩ := ih h' fun n hn => hns n (mem_cons_of_mem _ hn)
    refine ⟨rest.take (n / 64) :: filled, ?_, fun before hend => ?_⟩
    · simp only [Vfs.readdirs, hcall, hfilled, Except.map]
    cases before with
    | nil =>
      -- a buffer with room for an entry is empty at the end only
      have hnone := take_eq_nil_iff.mp (List.cons.inj hend).1
      have hn := hns n mem_cons_self
      exact (hnone.resolve_left (by omega)).symm
    | cons first before =>
      obtain ⟨rfl, hbefore⟩ := List.cons.inj hend
      rw [flatten_cons, hall before hbefore, take_append_drop]

/-- **Calls until one returns nothing list a directory**, each entry once, in order, with its
inode and its name. -/
theorem listing_complete {dir : InodeId} {flags : OpenFlags} {entries : List DirEntry}
    (hopen : v.openFiles.get id = some (.fresh dir flags))
    (htype : (v.inodes.get dir).map (·.inodeType) = some .directory)
    (hlist : v.tmpfs.readdir dir = some entries) (hlen : entries.length < 2 ^ 64)
    (hnames : ∀ e ∈ entries, e.name.length ≤ 56) {ns : List ℕ} (hns : ∀ n ∈ ns, 64 ≤ n) :
    ∃ filled, readdirs id v ns = .ok filled ∧ ∀ before, filled = before ++ [[]] →
      before.flatten.map DirentBuf.shown = entries.map fun e => (e.inodeId.raw, e.name) := by
  obtain ⟨inode, hinode, htype⟩ := Option.map_eq_some_iff.mp htype
  have hstart : v.Lists id [] (entries.map fun entry => .ofName entry.inodeId
      (((v.inodes.get entry.inodeId).map (·.inodeType.toByte)).getD 0) entry.name) :=
    ⟨_, inode, hopen, rfl, hinode, htype, by simp [dirents, OpenFile.fresh, hlist],
      by simpa using hlen⟩
  obtain ⟨filled, hfilled, hall⟩ := hstart.readdirs hns
  refine ⟨filled, hfilled, fun before hend => ?_⟩
  rw [hall before hend, map_map]
  exact map_congr_left fun e he => DirentBuf.shown_ofName (hnames e he) _ _

/-- The root of the booted system, in two calls. -/
theorem root_listed :
    ∃ filled, readdirs ⟨1⟩ (Machine.final fileStep booted [.openFile [47] ⟨1⟩]) [64, 100] =
      .ok filled ∧ ∀ before, filled = before ++ [[]] →
        before.flatten.map DirentBuf.shown = [(2, devName)] :=
  listing_complete (show OpenFileTable.get _ _ = some (.fresh ⟨1⟩ ⟨1⟩) by decide +kernel)
    (by decide +kernel) (show Tmpfs.readdir _ _ = some [⟨devName, ⟨2⟩⟩] by decide +kernel)
    (by decide) (by decide) (by decide)

/-- `/dev` can be opened, but not listed. -/
theorem dev_not_listed :
    Machine.outputs fileStep booted [.openFile (47 :: devName) ⟨1⟩] = .ok [.opened (.ok ⟨1⟩)] ∧
      readdirs ⟨1⟩ (Machine.final fileStep booted [.openFile (47 :: devName) ⟨1⟩]) [64] =
        .error .notFound := by
  decide +kernel

end Vfs

end Fabric
