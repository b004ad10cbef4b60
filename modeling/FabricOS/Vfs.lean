/-
The virtual file system (`vfs/ops.rs`, and `init` of `vfs/mod.rs`).

* `resolvePath` — from a path to an inode, by the longest mount point and the file system
  mounted there;
* `vfsOpen`, `vfsRead`, `vfsWrite`, `vfsClose`, `vfsFstat`, `vfsReaddir` — the operations on
  open files;
* `vfsOpen_eq_ok`, `vfsClose_ofIndex` — opening takes an entry of the table, closing frees it;
* `SameFiles` — all other operations change nothing in the table but offsets.
-/
import FabricOS.FileSystems

namespace Fabric

open Exec OpenFileTable

inductive VfsError
  | notFound
  | notAFile
  | notADirectory
  | invalidPath
  | noSpace
  | badFileDescriptor
  deriving DecidableEq

structure StatBuf where
  inodeId : UInt32
  inodeType : UInt8
  size : UInt64
  fsId : UInt16
  deriving DecidableEq

structure DirentBuf where
  inodeId : UInt32
  nameLen : UInt16
  inodeType : UInt8
  /-- 56 bytes. -/
  name : List UInt8
  deriving DecidableEq

namespace DirentBuf

def size : ℕ := 64

def ofName (inodeId : InodeId) (inodeType : UInt8) (name : List UInt8) : DirentBuf where
  inodeId := inodeId.raw
  nameLen := .ofNat name.length
  inodeType
  name := name.take 56 ++ List.replicate (56 - name.length) 0

end DirentBuf

structure Vfs where
  inodes : InodeTable
  mounts : MountTable
  openFiles : OpenFileTable
  tmpfs : Tmpfs
  devfs : Devfs

namespace Vfs

/-- `expect`. -/
def expect {α : Type} : Option α → Exec α
  | some a => .ok a
  | none => .panic

/-- Mount tmpfs at `/` and devfs at `/dev`. -/
def init : Exec Vfs := do
  let (inodes, root) ← expect (InodeTable.new.alloc .directory 0)
  let (mounts, mounted) := MountTable.new.mount [47] .tmpfs root
  let fsId ← expect mounted.toOption
  let inodes := inodes.modify root fun inode => { inode with fsId }
  let tmpfs := Tmpfs.new.init fsId root
  let (inodes, devDir) ← expect (inodes.alloc .directory 0)
  let tmpfs := tmpfs.addDirEntry root [100, 101, 118] devDir
  let (mounts, mounted) := mounts.mount [47, 100, 101, 118] .devfs devDir
  let fsId ← expect mounted.toOption
  let (devfs, inodes) ← expect (Devfs.new.init fsId devDir inodes)
  .ok { inodes, mounts, openFiles := .new, tmpfs, devfs }

lemma init_returns : ∃ v, init = .ok v := returns_iff.mp (by decide +kernel)

def booted : Vfs := init.get init_returns

lemma booted_openFiles : booted.openFiles = .new := by
  obtain ⟨v, hv⟩ := init_returns
  have hfiles : v.openFiles = .new := by
    simp only [init, bind_eq_ok] at hv
    obtain ⟨_, -, _, -, _, -, _, -, _, -, hv⟩ := hv
    rw [← ok.inj hv]
  exact Exec.Post.get (P := fun v => v.openFiles = .new) ⟨v, hv, hfiles⟩

/-! ### Paths -/

/-- Go down the directories of a tmpfs; empty components are skipped. -/
def walk (fs : Tmpfs) (root : InodeId) (components : List (List UInt8)) : Option InodeId :=
  components.foldlM (fun current component =>
    if component.isEmpty then some current else fs.lookup current component) root

def lookupIn (v : Vfs) (entry : MountEntry) (remaining : List UInt8) : Option InodeId :=
  if remaining.isEmpty then some entry.rootInode
  else
    match entry.fsType with
    | .tmpfs => walk v.tmpfs entry.rootInode (remaining.splitOn 47)
    | .devfs => v.devfs.lookup remaining

def resolvePath (v : Vfs) (path : List UInt8) : Exec (Except VfsError InodeId) :=
  if path.head? ≠ some 47 then .ok (.error .invalidPath)
  else do
    let resolved ← v.mounts.resolve path
    let found := resolved.bind fun r =>
      (v.mounts.get r.mountIndex).bind fun entry => v.lookupIn entry r.remaining
    match found with
    | none => .ok (.error .notFound)
    | some inodeId => .ok (.ok inodeId)

/-! ### Open files -/

def vfsOpen (v : Vfs) (path : List UInt8) (flags : OpenFlags) :
    Exec (Vfs × Except VfsError OpenFileId) := do
  let resolved ← v.resolvePath path
  match resolved with
  | .error e => .ok (v, .error e)
  | .ok inodeId =>
    if (v.inodes.get inodeId).isNone then .ok (v, .error .notFound)
    else
      match v.openFiles.alloc inodeId flags with
      | (openFiles, .ok id) => .ok ({ v with openFiles }, .ok id)
      | (_, .error _) => .ok (v, .error .noSpace)

def setOffset (v : Vfs) (id : OpenFileId) (f : UInt64 → UInt64) : Vfs :=
  { v with openFiles := v.openFiles.modify id fun of => { of with offset := f of.offset } }

/-- Read at the offset of an open file; directories read as tmpfs files do. -/
def vfsRead (v : Vfs) (id : OpenFileId) (n : ℕ) : Vfs × Except VfsError (List UInt8) :=
  match v.openFiles.get id with
  | none => (v, .error .badFileDescriptor)
  | some of =>
    match v.inodes.get of.inodeId with
    | none => (v, .error .notFound)
    | some inode =>
      let (devfs, bytes) := match inode.inodeType with
        | .file | .directory => (v.devfs, v.tmpfs.read of.inodeId of.offset n)
        | .charDevice =>
          if v.devfs.fsId == inode.fsId then v.devfs.read of.inodeId n else (v.devfs, [])
      ({ v with devfs }.setOffset id (· + UInt64.ofNat bytes.length), .ok bytes)

/-- Write into a tmpfs file at an offset, and note its new size in the inode. -/
def writeFile (v : Vfs) (inodeId : InodeId) (offset : UInt64) (data : List UInt8) :
    Exec (Vfs × ℕ) := do
  let (tmpfs, written) ← v.tmpfs.write inodeId offset data
  let size := tmpfs.fileSize inodeId
  .ok ({ v with tmpfs, inodes := v.inodes.modify inodeId fun inode => { inode with size } },
    written)

/-- Write at the offset of an open file, or at the end of the file with `APPEND`. -/
def vfsWrite (v : Vfs) (id : OpenFileId) (data : List UInt8) : Exec (Vfs × Except VfsError ℕ) :=
  match v.openFiles.get id with
  | none => .ok (v, .error .badFileDescriptor)
  | some of =>
    match v.inodes.get of.inodeId with
    | none => .ok (v, .error .notFound)
    | some inode =>
      match inode.inodeType with
      | .file => do
        let offset :=
          if of.flags.contains .append then v.tmpfs.fileSize of.inodeId else of.offset
        let (v, written) ← v.writeFile of.inodeId offset data
        .ok (v.setOffset id (· + UInt64.ofNat written), .ok written)
      | .charDevice =>
        let written :=
          if v.devfs.fsId == inode.fsId then v.devfs.write of.inodeId data.length else 0
        .ok (v.setOffset id (· + UInt64.ofNat written), .ok written)
      | .directory => .ok (v, .error .notAFile)

def vfsClose (v : Vfs) (id : OpenFileId) : Vfs × Except VfsError Unit :=
  match v.openFiles.release id with
  | (openFiles, .ok ()) => ({ v with openFiles }, .ok ())
  | (_, .error _) => (v, .error .badFileDescriptor)

def vfsStatInode (v : Vfs) (inodeId : InodeId) : Except VfsError StatBuf :=
  match v.inodes.get inodeId with
  | none => .error .notFound
  | some inode => .ok ⟨inode.inodeId.raw, inode.inodeType.toByte, inode.size, inode.fsId⟩

def vfsStat (v : Vfs) (path : List UInt8) : Exec (Except VfsError StatBuf) := do
  let resolved ← v.resolvePath path
  match resolved with
  | .error e => .ok (.error e)
  | .ok inodeId => .ok (v.vfsStatInode inodeId)

def vfsFstat (v : Vfs) (id : OpenFileId) : Except VfsError StatBuf :=
  match v.openFiles.get id with
  | none => .error .badFileDescriptor
  | some of => v.vfsStatInode of.inodeId

/-- The loop that both listings run over their entries: it skips those before the offset and
stops when the buffer is full.  The result is what it writes and the index it stops at. -/
def fillDirents (offset bufLen : ℕ) : List DirentBuf → (index written : ℕ) → List DirentBuf × ℕ
  | [], index, _ => ([], index)
  | entry :: entries, index, written =>
    if index < offset then fillDirents offset bufLen entries (index + 1) written
    else if written + DirentBuf.size > bufLen then ([], index)
    else
      let (filled, stop) := fillDirents offset bufLen entries (index + 1) (written + DirentBuf.size)
      (entry :: filled, stop)

/-- The entries that a directory lists, if it is one of the mounted file systems. -/
def dirents (v : Vfs) (inodeId : InodeId) (fsId : UInt16) : Option (List DirentBuf) :=
  match v.tmpfs.readdir inodeId with
  | some entries =>
    some (entries.map fun entry =>
      let inodeType := ((v.inodes.get entry.inodeId).map (·.inodeType.toByte)).getD 0
      .ofName entry.inodeId inodeType entry.name)
  | none =>
    if v.devfs.fsId == fsId then
      some [.ofName v.devfs.nullInode InodeType.charDevice.toByte Devfs.nullName,
        .ofName v.devfs.zeroInode InodeType.charDevice.toByte Devfs.zeroName,
        .ofName v.devfs.randomInode InodeType.charDevice.toByte Devfs.randomName]
    else none

/-- List an open directory into a buffer; the offset counts entries. -/
def vfsReaddir (v : Vfs) (id : OpenFileId) (bufLen : ℕ) : Vfs × Except VfsError (List DirentBuf) :=
  match v.openFiles.get id with
  | none => (v, .error .badFileDescriptor)
  | some of =>
    match v.inodes.get of.inodeId with
    | none => (v, .error .notFound)
    | some inode =>
      if inode.inodeType ≠ .directory then (v, .error .notADirectory)
      else
        match v.dirents of.inodeId inode.fsId with
        | none => (v, .error .notFound)
        | some entries =>
          let (filled, stop) := fillDirents of.offset.toNat bufLen entries 0 0
          (v.setOffset id fun _ => .ofNat stop, .ok filled)

/-! ### The table of open files under the operations -/

variable {v v' : Vfs} {id : OpenFileId} {path : List UInt8} {flags : OpenFlags}

def SameFiles (t t' : OpenFileTable) : Prop :=
  ∀ i, ∃ offset, t'.entries i = { t.entries i with offset }

lemma SameFiles.refl (t : OpenFileTable) : SameFiles t t := fun _ => ⟨_, rfl⟩

lemma setOffset_sameFiles (v : Vfs) (id : OpenFileId) (f : UInt64 → UInt64) :
    SameFiles v.openFiles (v.setOffset id f).openFiles := by
  simp only [setOffset, OpenFileTable.modify]
  split
  · exact .refl _
  split
  · rename_i i _ _
    intro j
    by_cases hj : j = i
    · subst hj
      exact ⟨_, Function.update_self ..⟩
    · exact ⟨_, Function.update_of_ne hj ..⟩
  · exact .refl _

lemma vfsOpen_eq_ok (h : v.vfsOpen path flags = .ok (v', .ok id)) :
    ∃ i inodeId, id = .ofIndex i ∧ v.resolvePath path = .ok (.ok inodeId) ∧
      firstSlot v.openFiles.isFree = some i ∧
      v' = { v with openFiles := v.openFiles.set i (.fresh inodeId flags) } := by
  obtain ⟨resolved, hresolved, h⟩ := bind_eq_ok.mp h
  cases resolved with
  | error e => exact absurd h (by simp)
  | ok inodeId =>
    simp only at h
    split at h
    · cases h
    rcases halloc : v.openFiles.alloc inodeId flags with ⟨openFiles, e | id'⟩
    · simp [halloc] at h
    simp only [halloc] at h
    cases h
    obtain ⟨i, hi, hid, rfl⟩ := alloc_eq_ok halloc
    exact ⟨i, inodeId, hid, hresolved, hi, rfl⟩

lemma vfsOpen_error {e : VfsError} (h : v.vfsOpen path flags = .ok (v', .error e)) : v' = v := by
  obtain ⟨resolved, -, h⟩ := bind_eq_ok.mp h
  split at h
  · exact (Prod.mk.inj (ok.inj h)).1.symm
  split at h
  · exact (Prod.mk.inj (ok.inj h)).1.symm
  · split at h
    · cases h
    · exact (Prod.mk.inj (ok.inj h)).1.symm

lemma vfsClose_ofIndex {i : Fin maxOpenFiles} (h : (v.openFiles.entries i).active = true) :
    v.vfsClose (.ofIndex i) =
      ({ v with openFiles := v.openFiles.set i (v.openFiles.entries i).drop }, .ok ()) := by
  simp [vfsClose, OpenFileTable.release, h]

lemma vfsClose_of_get_none (h : v.openFiles.get id = none) :
    v.vfsClose id = (v, .error .badFileDescriptor) := by
  rw [OpenFileTable.get] at h
  simp only [vfsClose, release]
  cases hindex : id.index with
  | none => rfl
  | some i =>
    have hfree : (v.openFiles.entries i).active = false := by simpa [hindex] using h
    simp [hfree]

lemma vfsRead_of_get_none (h : v.openFiles.get id = none) (n : ℕ) :
    v.vfsRead id n = (v, .error .badFileDescriptor) := by
  simp [vfsRead, h]

lemma vfsRead_sameFiles (v : Vfs) (id : OpenFileId) (n : ℕ) :
    SameFiles v.openFiles (v.vfsRead id n).1.openFiles := by
  rw [vfsRead]
  split
  · exact .refl _
  · split
    · exact .refl _
    · exact setOffset_sameFiles { v with devfs := _ } id _

lemma vfsWrite_of_get_none (h : v.openFiles.get id = none) (data : List UInt8) :
    v.vfsWrite id data = .ok (v, .error .badFileDescriptor) := by
  simp [vfsWrite, h]

lemma writeFile_openFiles {inodeId : InodeId} {offset : UInt64} {data : List UInt8} {n : ℕ}
    (h : v.writeFile inodeId offset data = .ok (v', n)) : v'.openFiles = v.openFiles := by
  obtain ⟨⟨tmpfs, written⟩, -, hok⟩ := bind_eq_ok.mp h
  rw [← (Prod.mk.inj (ok.inj hok)).1]

lemma vfsWrite_sameFiles {data : List UInt8} {r : Except VfsError ℕ}
    (h : v.vfsWrite id data = .ok (v', r)) : SameFiles v.openFiles v'.openFiles := by
  rw [vfsWrite] at h
  split at h
  · cases h
    exact .refl _
  split at h
  · cases h
    exact .refl _
  split at h
  · obtain ⟨⟨v1, written⟩, hwrite, hok⟩ := bind_eq_ok.mp h
    rw [← (Prod.mk.inj (ok.inj hok)).1, ← writeFile_openFiles hwrite]
    exact setOffset_sameFiles v1 id _
  · cases h
    exact setOffset_sameFiles v id _
  · cases h
    exact .refl _

lemma vfsReaddir_sameFiles (v : Vfs) (id : OpenFileId) (bufLen : ℕ) :
    SameFiles v.openFiles (v.vfsReaddir id bufLen).1.openFiles := by
  rw [vfsReaddir]
  split
  · exact .refl _
  split
  · exact .refl _
  split
  · exact .refl _
  · split
    · exact .refl _
    · exact setOffset_sameFiles v id _

end Vfs

end Fabric
