/-
Files as arrays of bytes.

What the operations on regular files are meant to do, over open files that each have a
position of their own (`ByteFiles`), and what the code does with its three tables: the offset
in the table of open files, the size in that of the inodes, the bytes in tmpfs.
-/
import FabricOS.Initramfs
import FabricOS.Machine

open Option Exec

open Function Machine List UInt64

namespace Fabric

open InodeTable Tmpfs

inductive FileOp
  | openFile (path : List UInt8) (flags : OpenFlags)
  | read (id : OpenFileId) (n : ℕ)
  | write (id : OpenFileId) (data : List UInt8)
  | close (id : OpenFileId)

inductive FileAnswer
  | opened (r : Except VfsError OpenFileId)
  | bytes (r : Except VfsError (List UInt8))
  | written (r : Except VfsError ℕ)
  | closed (r : Except VfsError Unit)
  deriving DecidableEq

/-! ### Arrays of bytes -/

/-- Put `data` at a position, behind zeros if the array is shorter than that. -/
def overwrite (bytes : List UInt8) (position : ℕ) (data : List UInt8) : List UInt8 :=
  bytes.take position ++ List.replicate (position - bytes.length) 0 ++ data ++
    bytes.drop (position + data.length)

structure Handle where
  inodeId : InodeId
  position : ℕ
  append : Bool

structure ByteFiles where
  /-- The regular files. -/
  contents : InodeId → Option (List UInt8)
  handles : Fin maxOpenFiles → Option Handle

namespace ByteFiles

def setHandle (b : ByteFiles) (i : Fin maxOpenFiles) (h : Option Handle) : ByteFiles :=
  { b with handles := Function.update b.handles i h }

def setContents (b : ByteFiles) (id : InodeId) (bytes : List UInt8) : ByteFiles :=
  { b with contents := Function.update b.contents id (some bytes) }

/-- Open a file at its start, under the first number from 1 on that is not in use. -/
def openFile (names : List UInt8 → Exec (Except VfsError InodeId)) (b : ByteFiles)
    (path : List UInt8) (flags : OpenFlags) : Exec (ByteFiles × Except VfsError OpenFileId) := do
  match ← names path with
  | .error e => .ok (b, .error e)
  | .ok inodeId =>
    if (b.contents inodeId).isNone then .ok (b, .error .notFound)
    else
      match firstSlot fun i : Fin maxOpenFiles => i.val ≥ 1 && (b.handles i).isNone with
      | none => .ok (b, .error .noSpace)
      | some i =>
        .ok (b.setHandle i (some ⟨inodeId, 0, flags.contains .append⟩), .ok (.ofIndex i))

/-- Read from the position on, which is behind the last byte afterwards. -/
def read (b : ByteFiles) (id : OpenFileId) (n : ℕ) : ByteFiles × Except VfsError (List UInt8) :=
  match id.index with
  | none => (b, .error .badFileDescriptor)
  | some i =>
    match b.handles i with
    | none => (b, .error .badFileDescriptor)
    | some h =>
      match b.contents h.inodeId with
      | none => (b, .error .notFound)
      | some bytes =>
        let got := (bytes.drop h.position).take n
        (b.setHandle i (some { h with position := h.position + got.length }), .ok got)

/-- Write at the position, or at the end of the file, and stay behind the last byte.  No array
is longer than a vector can be. -/
def write (b : ByteFiles) (id : OpenFileId) (data : List UInt8) :
    Exec (ByteFiles × Except VfsError ℕ) :=
  match id.index with
  | none => .ok (b, .error .badFileDescriptor)
  | some i =>
    match b.handles i with
    | none => .ok (b, .error .badFileDescriptor)
    | some h =>
      match b.contents h.inodeId with
      | none => .ok (b, .error .notFound)
      | some bytes =>
        let start := if h.append then bytes.length else h.position
        if start + data.length > Tmpfs.maxVecLen then .panic
        else
          let position := if data.isEmpty then h.position else start + data.length
          .ok ((b.setContents h.inodeId (overwrite bytes start data)).setHandle i
            (some { h with position }), .ok data.length)

def close (b : ByteFiles) (id : OpenFileId) : ByteFiles × Except VfsError Unit :=
  match id.index with
  | none => (b, .error .badFileDescriptor)
  | some i =>
    if (b.handles i).isNone then (b, .error .badFileDescriptor) else (b.setHandle i none, .ok ())

def step (names : List UInt8 → Exec (Except VfsError InodeId)) (b : ByteFiles) :
    FileOp → Exec (ByteFiles × FileAnswer)
  | .openFile path flags => do
    let (b, r) ← b.openFile names path flags
    .ok (b, .opened r)
  | .read id n => .ok ((b.read id n).1, .bytes (b.read id n).2)
  | .write id data => do
    let (b, r) ← b.write id data
    .ok (b, .written r)
  | .close id => .ok ((b.close id).1, .closed (b.close id).2)

end ByteFiles

namespace InodeTable

/-- The inode is that of a regular file; opaque to unification, which would search the table. -/
@[irreducible] def isFile (t : InodeTable) (id : InodeId) : Bool :=
  match t.get id with
  | none => false
  | some inode => inode.inodeType == .file

lemma isFile_iff {t : InodeTable} {id : InodeId} :
    t.isFile id = true ↔ ∃ inode, t.get id = some inode ∧ inode.inodeType = .file := by
  unfold isFile
  cases t.get id with
  | none | some inode => simp

lemma get_isNone_of_isFile {t : InodeTable} {id : InodeId} (h : t.isFile id = true) :
    (t.get id).isNone = false := by
  unfold isFile at h
  cases hget : t.get id with
  | none => simp [hget] at h
  | some inode => rfl

end InodeTable

namespace Vfs

variable {v v' : Vfs}

def fileStep (v : Vfs) : FileOp → Exec (Vfs × FileAnswer)
  | .openFile path flags => do
    let (v, r) ← v.vfsOpen path flags
    .ok (v, .opened r)
  | .read id n => .ok ((v.vfsRead id n).1, .bytes (v.vfsRead id n).2)
  | .write id data => do
    let (v, r) ← v.vfsWrite id data
    .ok (v, .written r)
  | .close id => .ok ((v.vfsClose id).1, .closed (v.vfsClose id).2)

/-! ### What the tables say -/

def regular (v : Vfs) (id : InodeId) : Bool := v.inodes.isFile id

def contentsOf (v : Vfs) (id : InodeId) : List UInt8 := (v.tmpfs.files id.raw).getD []

def handleOf (f : OpenFile) : Option Handle :=
  if f.active then some ⟨f.inodeId, f.offset.toNat, f.flags.contains .append⟩ else none

def byteFiles (v : Vfs) : ByteFiles where
  contents id := if v.regular id then some (v.contentsOf id) else none
  handles i := handleOf (v.openFiles.entries i)

lemma handles_eq (v : Vfs) (i : Fin maxOpenFiles) :
    v.byteFiles.handles i = handleOf (v.openFiles.entries i) := rfl

lemma contents_eq (v : Vfs) (id : InodeId) :
    v.byteFiles.contents id = if v.regular id then some (v.contentsOf id) else none := rfl

structure Consistent (v : Vfs) : Prop where
  size : ∀ id inode, v.inodes.get id = some inode → inode.inodeType = .file →
    inode.size.toNat = (v.contentsOf id).length
  fits : ∀ id, (v.contentsOf id).length ≤ Tmpfs.maxVecLen
  held : ∀ i, (v.openFiles.entries i).active = true → (v.openFiles.entries i).refCount = 1
  offset : ∀ i, (v.openFiles.entries i).active = true →
    v.regular (v.openFiles.entries i).inodeId = true →
      (v.openFiles.entries i).offset.toNat ≤ (v.contentsOf (v.openFiles.entries i).inodeId).length

/-- The tables agree, and stand for `b`; paths lead where they led at first. -/
structure Shows (names : List UInt8 → Exec (Except VfsError InodeId)) (v : Vfs) (b : ByteFiles) :
    Prop where
  files : v.byteFiles = b
  consistent : v.Consistent
  names : v.resolvePath = names

def onFiles (v : Vfs) : FileOp → Bool
  | .openFile path _ =>
    match v.resolvePath path with
    | .ok (.ok id) => (v.inodes.get id).isNone || v.regular id
    | _ => true
  | .read id _ | .write id _ => (v.openFiles.get id).all fun f => v.regular f.inodeId
  | .close _ => true

/-- A file that is opened with `APPEND` is written at its end, if at all. -/
def appendsAtEnd (v : Vfs) : FileOp → Bool
  | .write id data =>
    (v.openFiles.get id).all fun f =>
      !f.flags.contains .append || data.isEmpty || f.offset == v.tmpfs.fileSize f.inodeId
  | _ => true

/-- The operations in whose runs the code does what is intended. -/
def inOrder (v : Vfs) (op : FileOp) : Bool := v.onFiles op && v.appendsAtEnd op

/-! ### One entry of the table of open files -/

def setOpen (v : Vfs) (i : Fin maxOpenFiles) (f : OpenFile) : Vfs :=
  { v with openFiles := v.openFiles.set i f }

@[simp] lemma setOpen_regular (v : Vfs) (i : Fin maxOpenFiles) (f : OpenFile) :
    (v.setOpen i f).regular = v.regular := rfl

@[simp] lemma setOpen_contentsOf (v : Vfs) (i : Fin maxOpenFiles) (f : OpenFile) :
    (v.setOpen i f).contentsOf = v.contentsOf := rfl

@[simp] lemma setOpen_resolvePath (v : Vfs) (i : Fin maxOpenFiles) (f : OpenFile) :
    (v.setOpen i f).resolvePath = v.resolvePath := rfl

lemma setOpen_entries (v : Vfs) (i j : Fin maxOpenFiles) (f : OpenFile) :
    (v.setOpen i f).openFiles.entries j = if j = i then f else v.openFiles.entries j := by
  simp [setOpen, OpenFileTable.set, update_apply]

lemma byteFiles_setOpen (v : Vfs) (i : Fin maxOpenFiles) (f : OpenFile) :
    (v.setOpen i f).byteFiles = v.byteFiles.setHandle i (handleOf f) := by
  simp only [byteFiles, ByteFiles.setHandle, ByteFiles.mk.injEq]
  refine ⟨rfl, funext fun j => ?_⟩
  simp only [setOpen_entries, update_apply]
  split_ifs <;> rfl

variable {i : Fin maxOpenFiles}

lemma Consistent.setOpen (h : v.Consistent) (hheld : f.active = true → f.refCount = 1)
    (hoffset : f.active = true → v.regular f.inodeId = true →
      f.offset.toNat ≤ (v.contentsOf f.inodeId).length) : (v.setOpen i f).Consistent where
  size := h.size
  fits := h.fits
  held := by
    intro j
    rw [setOpen_entries]
    split_ifs
    · exact hheld
    · exact h.held j
  offset := by
    intro j
    simp only [setOpen_entries, setOpen_regular, setOpen_contentsOf]
    split_ifs
    · exact hoffset
    · exact h.offset j

variable {id : OpenFileId}

lemma get_of_index {t : OpenFileTable} (hindex : id.index = some i) :
    t.get id = if (t.entries i).active then some (t.entries i) else none := by
  rw [OpenFileTable.get, hindex]

lemma setOffset_eq (hindex : id.index = some i)
    (hactive : (v.openFiles.entries i).active = true) (g : UInt64 → UInt64) :
    v.setOffset id g = v.setOpen i
      { v.openFiles.entries i with offset := g (v.openFiles.entries i).offset } := by
  simp [setOffset, OpenFileTable.modify, hindex, hactive, setOpen]

/-! ### Opening and closing -/

variable {names : List UInt8 → Exec (Except VfsError InodeId)} {b : ByteFiles}

lemma Shows.openFile (h : Shows names v b) (path : List UInt8) (flags : OpenFlags)
    (hon : v.onFiles (.openFile path flags) = true) :
    Agree (Shows names) (v.vfsOpen path flags) (b.openFile names path flags) := by
  obtain ⟨rfl, hc, rfl⟩ := h
  have hsame : Shows v.resolvePath v v.byteFiles := ⟨rfl, hc, rfl⟩
  unfold vfsOpen ByteFiles.openFile
  cases hres : v.resolvePath path with
  | diverge => exact absurd hres (resolvePath_ne_diverge v path)
  | panic => trivial
  | ok r =>
    simp only [ok_bind]
    cases r with
    | error e => exact ⟨hsame, rfl⟩
    | ok id =>
      simp only [onFiles, hres, Bool.or_eq_true] at hon
      cases hregular : v.regular id with
      | true =>
        have hinode : ¬ (v.inodes.get id).isNone = true := by
          rw [get_isNone_of_isFile hregular]
          simp
        have hcontents : ¬ (v.byteFiles.contents id).isNone = true := by
          rw [contents_eq, hregular]
          simp
        have hfree : (firstSlot fun i : Fin maxOpenFiles =>
            (decide (i.val ≥ 1) && (v.byteFiles.handles i).isNone)) =
              firstSlot v.openFiles.isFree := by
          refine congrArg firstSlot (funext fun i => ?_)
          cases hactive : (v.openFiles.entries i).active <;>
            simp [handles_eq, handleOf, OpenFileTable.isFree, hactive]
        dsimp only
        rw [if_neg hinode, if_neg hcontents, hfree]
        unfold OpenFileTable.alloc
        generalize firstSlot v.openFiles.isFree = first
        cases first with
        | none => exact ⟨hsame, rfl⟩
        | some i =>
          have hopened := byteFiles_setOpen v i (.fresh id flags)
          refine ⟨⟨hopened, hc.setOpen (fun _ => rfl) fun _ _ => ?_, rfl⟩, rfl⟩
          exact Nat.zero_le _
      | false =>
        have hnone : v.inodes.get id = none := by simpa [hregular] using hon
        simp only [hnone, contents_eq, hregular]
        exact ⟨hsame, rfl⟩

/-- Either nothing is open under a number, in the tables and in the arrays, or it is the number
of an entry in use. -/
lemma open_cases (v : Vfs) (id : OpenFileId) :
    (v.openFiles.get id = none ∧ v.byteFiles.close id = (v.byteFiles, .error .badFileDescriptor) ∧
      (∀ n, v.byteFiles.read id n = (v.byteFiles, .error .badFileDescriptor)) ∧
      ∀ data, v.byteFiles.write id data = .ok (v.byteFiles, .error .badFileDescriptor)) ∨
    ∃ i, id.index = some i ∧ (v.openFiles.entries i).active = true := by
  cases hindex : id.index with
  | none =>
    simp [OpenFileTable.get, ByteFiles.close, ByteFiles.read, ByteFiles.write, hindex]
  | some i =>
    cases hactive : (v.openFiles.entries i).active with
    | false =>
      simp [get_of_index hindex, ByteFiles.close, ByteFiles.read, ByteFiles.write, hindex,
        handles_eq, handleOf, hactive]
    | true => exact .inr ⟨i, rfl, hactive⟩

lemma Shows.close (h : Shows names v b) (id : OpenFileId) :
    Shows names (v.vfsClose id).1 (b.close id).1 ∧ (v.vfsClose id).2 = (b.close id).2 := by
  obtain ⟨rfl, hc, rfl⟩ := h
  obtain ⟨hnone, hclose, -, -⟩ | ⟨i, hindex, hactive⟩ := v.open_cases id
  · rw [vfsClose_of_get_none hnone, hclose]
    exact ⟨⟨rfl, hc, rfl⟩, rfl⟩
  obtain rfl := OpenFileId.ofIndex_of_index hindex
  have hdrop : (v.openFiles.entries i).drop.active = false := by
    simp [OpenFile.drop, hc.held i hactive]
  have hclosed := byteFiles_setOpen v i (v.openFiles.entries i).drop
  simp only [handleOf, hdrop, Bool.false_eq_true, if_false] at hclosed
  simp only [ByteFiles.close, hindex, handles_eq, vfsClose_ofIndex hactive, handleOf, hactive]
  refine ⟨⟨hclosed, hc.setOpen ?_ ?_, rfl⟩, rfl⟩
  · simp [hdrop]
  · simp [hdrop]

/-! ### Reading -/

lemma toNat_add_ofNat {offset : UInt64} (h : offset.toNat + n ≤ Tmpfs.maxVecLen) :
    (offset + UInt64.ofNat n).toNat = offset.toNat + n := by
  simp only [maxVecLen] at h
  rw [UInt64.toNat_add, toNat_ofNat']
  omega

lemma tmpfs_read_eq (v : Vfs) (id : InodeId) (offset : UInt64) (n : ℕ) :
    v.tmpfs.read id offset n = ((v.contentsOf id).drop offset.toNat).take n := by
  unfold Tmpfs.read contentsOf
  cases v.tmpfs.files id.raw with
  | none => simp
  | some data => rfl

lemma vfsRead_regular (hindex : id.index = some i) (hf : v.openFiles.entries i = f)
    (hactive : f.active = true) (hregular : v.regular f.inodeId = true) (n : ℕ) :
    v.vfsRead id n = let got := ((v.contentsOf f.inodeId).drop f.offset.toNat).take n
      (v.setOpen i { f with offset := f.offset + ofNat got.length }, .ok got) := by
  subst hf
  have hget : v.openFiles.get id = some (v.openFiles.entries i) := by
    simp [get_of_index hindex, hactive]
  have hfile := isFile_iff.mp hregular
  unfold vfsRead
  rw [hget]
  dsimp only
  generalize v.inodes.get (v.openFiles.entries i).inodeId = found at hfile ⊢
  obtain ⟨inode, rfl, htype⟩ := hfile
  simp only [htype, tmpfs_read_eq]
  rw [setOffset_eq hindex hactive]

lemma Shows.read
    (h : Shows names v b) (id : OpenFileId) (n : ℕ) (hon : v.onFiles (.read id n) = true) :
    Shows names (v.vfsRead id n).1 (b.read id n).1 ∧ (v.vfsRead id n).2 = (b.read id n).2 := by
  obtain ⟨rfl, hc, rfl⟩ := h
  obtain ⟨hnone, -, hread, -⟩ | ⟨i, hindex, hactive⟩ := v.open_cases id
  · rw [vfsRead_of_get_none hnone, hread]
    exact ⟨⟨rfl, hc, rfl⟩, rfl⟩
  have hregular : v.regular (v.openFiles.entries i).inodeId = true := by
    simpa [onFiles, get_of_index hindex, hactive] using hon
  have hoffset := hc.offset i hactive hregular
  have hfits := hc.fits (v.openFiles.entries i).inodeId
  rw [vfsRead_regular hindex rfl hactive hregular]
  simp only [ByteFiles.read, hindex, handles_eq, handleOf, hactive, contents_eq, hregular,
    if_true]
  generalize hgot : ((v.contentsOf (v.openFiles.entries i).inodeId).drop
    (v.openFiles.entries i).offset.toNat).take n = got
  have hlen : (v.openFiles.entries i).offset.toNat + got.length ≤
      (v.contentsOf (v.openFiles.entries i).inodeId).length := by
    rw [← hgot, length_take, length_drop]
    omega
  have hsum := toNat_add_ofNat (hlen.trans hfits)
  refine ⟨⟨?_, hc.setOpen (fun _ => hc.held i hactive) fun _ _ => ?_, rfl⟩, trivial⟩
  · rw [byteFiles_setOpen]
    simp only [handleOf, if_true, hsum]
  · rw [hsum]
    exact hlen

/-! ### Writing -/

lemma length_overwrite (bytes : List UInt8) (position : ℕ) (data : List UInt8) :
    (overwrite bytes position data).length = max bytes.length (position + data.length) := by
  simp only [overwrite, length_append, length_take, length_replicate, length_drop]
  omega

lemma overwrite_eq (bytes : List UInt8) (position : ℕ) (data : List UInt8) :
    let stop := position + data.length
    let extended := bytes ++ List.replicate (stop - bytes.length) 0
    extended.take position ++ data ++ extended.drop stop = overwrite bytes position data := by
  intro stop extended
  have htake : extended.take position =
      bytes.take position ++ List.replicate (position - bytes.length) 0 := by
    rw [take_append, take_replicate]
    congr 2
    omega
  have hdrop : extended.drop stop = bytes.drop stop := by
    rw [drop_append, drop_replicate]
    simp
  rw [htake, hdrop, overwrite]

def setFile (v : Vfs) (id : InodeId) (bytes : List UInt8) : Vfs :=
  { v with
    tmpfs := v.tmpfs.createFileWithData id bytes
    inodes := v.inodes.modify id fun inode => { inode with size := .ofNat bytes.length } }

lemma writeFile_eq (v : Vfs) (id : InodeId) (offset : UInt64) (data : List UInt8) :
    v.writeFile id offset data =
      if offset.toNat + data.length > Tmpfs.maxVecLen then .panic
      else .ok (v.setFile id (overwrite (v.contentsOf id) offset.toNat data), data.length) := by
  unfold writeFile write
  have heq := overwrite_eq (v.contentsOf id) offset.toNat data
  simp only [contentsOf] at heq ⊢
  split_ifs with hlong
  · rfl
  · simp only [heq, ok_bind, fileSize, createFileWithData, update_self, setFile]

lemma contentsOf_setFile (v : Vfs) (id id' : InodeId) (bytes : List UInt8) :
    (v.setFile id bytes).contentsOf id' = if id' = id then bytes else v.contentsOf id' := by
  simp only [contentsOf, setFile, createFileWithData, update_apply]
  have hraw : id'.raw = id.raw ↔ id' = id := by
    cases id
    cases id'
    simp
  simp only [hraw]
  split_ifs <;> rfl

lemma get_setFile (v : Vfs) (id id' : InodeId) (bytes : List UInt8) :
    (v.setFile id bytes).inodes.get id' =
      if id' = id then (v.inodes.get id).map fun inode => { inode with size := .ofNat bytes.length }
      else v.inodes.get id' := by
  unfold setFile
  dsimp only
  exact get_modify (f := fun inode => { inode with size := .ofNat bytes.length })
    (fun _ => rfl) (fun _ => rfl) id id'

lemma regular_setFile (v : Vfs) (id : InodeId) (bytes : List UInt8) :
    (v.setFile id bytes).regular = v.regular := by
  funext id'
  rw [Bool.eq_iff_iff, regular, regular, isFile_iff, isFile_iff, get_setFile]
  split_ifs with hsame
  · rw [hsame]
    simp
  · rfl

lemma resolvePath_setFile (v : Vfs) (id : InodeId) (bytes : List UInt8) :
    (v.setFile id bytes).resolvePath = v.resolvePath := by
  have hlookup : (v.tmpfs.createFileWithData id bytes).lookup = v.tmpfs.lookup := rfl
  funext path
  simp only [resolvePath, lookupIn, walk, setFile, hlookup]

lemma byteFiles_setFile {id : InodeId} (h : v.regular id = true) (bytes : List UInt8) :
    (v.setFile id bytes).byteFiles = v.byteFiles.setContents id bytes := by
  simp only [byteFiles, ByteFiles.setContents, ByteFiles.mk.injEq]
  refine ⟨funext fun id' => ?_, rfl⟩
  rw [regular_setFile, contentsOf_setFile, update_apply]
  split_ifs with hregular hsame hsame
  · rfl
  · rfl
  · exact absurd (hsame ▸ h) hregular
  · rfl

lemma Consistent.setFile (hc : v.Consistent) {id : InodeId} {bytes : List UInt8}
    (hlong : (v.contentsOf id).length ≤ bytes.length) (hfits : bytes.length ≤ Tmpfs.maxVecLen) :
    (v.setFile id bytes).Consistent where
  size := by
    intro id' inode hget htype
    rw [get_setFile] at hget
    rw [contentsOf_setFile]
    split_ifs at hget ⊢ with hsame
    · obtain ⟨inode', -, rfl⟩ := map_eq_some_iff.mp hget
      refine toNat_ofNat_of_lt' ?_
      simp only [maxVecLen] at hfits
      simp only [UInt64.size]
      omega
    · exact hc.size id' inode hget htype
  fits := by
    intro id'
    rw [contentsOf_setFile]
    split_ifs
    · exact hfits
    · exact hc.fits id'
  held := hc.held
  offset := by
    intro i hactive hregular
    rw [regular_setFile] at hregular
    have hoffset := hc.offset i hactive hregular
    rw [contentsOf_setFile]
    split_ifs with hsame
    · exact (hsame ▸ hoffset).trans hlong
    · exact hoffset


lemma Consistent.toNat_fileSize (hc : v.Consistent) (id : InodeId) :
    (v.tmpfs.fileSize id).toNat = (v.contentsOf id).length := by
  have hfits := hc.fits id
  simp only [contentsOf, maxVecLen] at hfits
  simp only [fileSize, contentsOf]
  cases hfile : v.tmpfs.files id.raw with
  | none => rfl
  | some data =>
    simp only [hfile, getD_some] at hfits
    refine toNat_ofNat_of_lt' ?_
    simp only [UInt64.size]
    omega

lemma vfsWrite_regular (hindex : id.index = some i) (hf : v.openFiles.entries i = f)
    (hactive : f.active = true) (hregular : v.regular f.inodeId = true) (data : List UInt8) :
    v.vfsWrite id data =
      let start := if f.flags.contains .append then v.tmpfs.fileSize f.inodeId else f.offset
      if start.toNat + data.length > maxVecLen then .panic
      else .ok ((v.setFile f.inodeId
          (overwrite (v.contentsOf f.inodeId) start.toNat data)).setOpen i
        { f with offset := f.offset + ofNat data.length }, .ok data.length) := by
  subst hf
  have hget : v.openFiles.get id = some (v.openFiles.entries i) := by
    simp [get_of_index hindex, hactive]
  have hfile := isFile_iff.mp hregular
  unfold vfsWrite
  rw [hget]
  dsimp only
  generalize v.inodes.get (v.openFiles.entries i).inodeId = found at hfile ⊢
  obtain ⟨inode, rfl, htype⟩ := hfile
  simp only [htype, writeFile_eq]
  generalize (if (v.openFiles.entries i).flags.contains .append = true then
    v.tmpfs.fileSize (v.openFiles.entries i).inodeId else (v.openFiles.entries i).offset) = start
  split_ifs
  · rfl
  generalize overwrite (v.contentsOf (v.openFiles.entries i).inodeId) start.toNat data = bytes
  have hentry : (v.setFile (v.openFiles.entries i).inodeId bytes).openFiles.entries i =
      v.openFiles.entries i := by simp only [setFile]
  simp only [ok_bind]
  rw [setOffset_eq hindex (hentry ▸ hactive), hentry]

lemma Shows.write (h : Shows names v b) (id : OpenFileId) (data : List UInt8)
    (hon : v.onFiles (.write id data) = true) (hend : v.appendsAtEnd (.write id data) = true) :
    Agree (Shows names) (v.vfsWrite id data) (b.write id data) := by
  obtain ⟨rfl, hc, rfl⟩ := h
  obtain ⟨hnone, -, -, hwrite⟩ | ⟨i, hindex, hactive⟩ := v.open_cases id
  · rw [vfsWrite_of_get_none hnone, hwrite]
    exact ⟨⟨rfl, hc, rfl⟩, rfl⟩
  simp only [onFiles, appendsAtEnd, get_of_index hindex, hactive, if_true] at hon hend
  have hheld := hc.held i hactive
  have hoffset := hc.offset i hactive
  rw [ByteFiles.write, hindex]
  simp only [handles_eq]
  generalize hf : v.openFiles.entries i = f at *
  have hregular : v.regular f.inodeId = true := by simpa using hon
  specialize hoffset hregular
  rw [vfsWrite_regular hindex hf hactive hregular]
  simp only [handleOf, hactive, contents_eq, hregular, if_true]
  have hfits := hc.fits f.inodeId
  have hsize := hc.toNat_fileSize f.inodeId
  -- where the bytes go, and why the offset is not beyond
  obtain ⟨start, hstart, hbefore, hinside, hafter⟩ :
      ∃ start, (if f.flags.contains .append = true then v.tmpfs.fileSize f.inodeId
          else f.offset).toNat = start ∧ f.offset.toNat ≤ start ∧
        (if f.flags.contains .append = true then (v.contentsOf f.inodeId).length
          else f.offset.toNat) = start ∧ (data = [] ∨ f.offset.toNat = start) := by
    cases happend : f.flags.contains .append with
    | true =>
      refine ⟨_, rfl, ?_, ?_, ?_⟩
      · simpa [hsize] using hoffset
      · simp [hsize]
      · simpa [happend, UInt64.toNat_inj] using hend
    | false => exact ⟨_, rfl, by simp, by simp, by simp⟩
  have hposition : (if data.isEmpty = true then f.offset.toNat else start + data.length) =
      f.offset.toNat + data.length := by
    rcases hafter with rfl | hafter
    · simp
    rw [hafter]
    cases data with
    | nil | cons b data => simp
  rw [hstart, hinside, hposition]
  by_cases hlong : start + data.length > maxVecLen
  · rw [if_pos hlong, if_pos hlong]
    trivial
  rw [if_neg hlong, if_neg hlong]
  have hlen := length_overwrite (v.contentsOf f.inodeId) start data
  have hsum : (f.offset + ofNat data.length).toNat = f.offset.toNat + data.length :=
    toNat_add_ofNat (by omega)
  have hwritten : (v.setFile f.inodeId (overwrite (v.contentsOf f.inodeId) start
      data)).Consistent := hc.setFile (by omega) (by omega)
  refine ⟨⟨?_, hwritten.setOpen (fun _ => hheld) fun _ _ => ?_, ?_⟩, rfl⟩
  · rw [byteFiles_setOpen, byteFiles_setFile hregular]
    simp only [handleOf, if_true, hsum]
  · rw [contentsOf_setFile, if_pos rfl, hsum, hlen]
    omega
  · rw [setOpen_resolvePath, resolvePath_setFile]

/-! ### The files that are loaded -/

/-- No file is open yet, and the sizes are right. -/
structure Stocked (v : Vfs) : Prop where
  numbered : ∃ n ≤ maxInodes, v.inodes.Numbered n
  size : ∀ id inode, v.inodes.get id = some inode → inode.inodeType = .file →
    inode.size.toNat = (v.contentsOf id).length
  fits : ∀ id, (v.contentsOf id).length ≤ Tmpfs.maxVecLen
  openFiles : v.openFiles = .new

lemma Stocked.consistent (h : v.Stocked) : v.Consistent where
  size := h.size
  fits := h.fits
  held := by simp [h.openFiles, OpenFileTable.new, OpenFile.empty]
  offset := by simp [h.openFiles, OpenFileTable.new, OpenFile.empty]

lemma stocked_booted : booted.Stocked where
  numbered := ⟨5, by decide, loaded_booted.numbered⟩
  size := by
    intro id inode hget htype
    have hnone : ∀ i, (booted.inodes.entries i).active = true →
        (booted.inodes.entries i).inodeType ≠ .file := by decide +kernel
    obtain ⟨i, hi, rfl⟩ := map_eq_some_iff.mp hget
    have hactive := (firstSlot_eq_some.mp hi).1
    simp only [Bool.and_eq_true] at hactive
    exact absurd htype (hnone i hactive.1)
  fits := by
    intro id
    rw [contentsOf]
    cases hfile : booted.tmpfs.files id.raw with
    | none => exact Nat.zero_le _
    | some data =>
      have hbound := loaded_booted.tree.files id.raw (by simp [hfile])
      simp only [length_nil] at hbound
      omega
  openFiles := booted_openFiles

lemma addDirEntry_files (fs : Tmpfs) (parent : InodeId) (name : List UInt8) (child : InodeId) :
    (fs.addDirEntry parent name child).files = fs.files := by
  unfold addDirEntry
  split <;> rfl

lemma Stocked.addEntry {e : CpioEntry} (h : v.Stocked)
    (hdata : e.data.length ≤ Tmpfs.maxVecLen) : (v.addEntry e).Stocked := by
  obtain ⟨n, hle, hnumbered⟩ := h.numbered
  unfold Vfs.addEntry
  by_cases hskipped : e.skipped = true
  · rw [if_pos hskipped]
    exact h
  rcases Nat.lt_or_eq_of_le hle with hn | rfl
  · split_ifs
    · obtain ⟨inodes, halloc, hnumbered', hentries⟩ :=
        hnumbered.alloc hn .directory v.tmpfs.fsId
      rw [halloc]
      refine ⟨⟨n + 1, hn, hnumbered'⟩, ?_, ?_, h.openFiles⟩
      · intro id inode hget htype
        rw [hnumbered.get_alloc rfl rfl hentries] at hget
        split_ifs at hget
        · cases hget
          simp [fresh] at htype
        · simpa only [contentsOf, addDirEntry_files, registerDir] using
            h.size id inode hget htype
      · intro id
        simpa only [contentsOf, addDirEntry_files, registerDir] using h.fits id
    · obtain ⟨inodes, halloc, hnumbered', hentries⟩ := hnumbered.alloc hn .file v.tmpfs.fsId
      rw [halloc]
      have hraw : ∀ id : InodeId, id.raw = v.inodes.nextId ↔ id = ⟨v.inodes.nextId⟩ := by
        rintro ⟨raw⟩
        simp
      have hsized := hnumbered'.modify ⟨v.inodes.nextId⟩
        (f := fun inode => { inode with size := .ofNat e.data.length }) (fun _ => rfl)
        (fun _ => rfl)
      refine ⟨⟨n + 1, hn, by simpa only using hsized⟩, ?_, ?_, h.openFiles⟩
      · intro id inode hget htype
        dsimp only at hget
        rw [get_modify (f := fun inode => { inode with size := .ofNat e.data.length })
          (fun _ => rfl) (fun _ => rfl), hnumbered.get_alloc rfl rfl hentries,
          hnumbered.get_alloc rfl rfl hentries, if_pos rfl] at hget
        simp only [contentsOf, addDirEntry_files, createFileWithData, update_apply, hraw]
        split_ifs at hget ⊢ with hnew
        · cases hget
          refine toNat_ofNat_of_lt' ?_
          simp only [maxVecLen] at hdata
          simp only [UInt64.size]
          omega
        · exact h.size id inode hget htype
      · intro id
        simp only [contentsOf, addDirEntry_files, createFileWithData, update_apply]
        split_ifs
        · exact hdata
        · exact h.fits id
  · simp only [hnumbered.alloc_full]
    split_ifs <;> exact h

lemma Stocked.foldl {entries : List CpioEntry} (h : v.Stocked)
    (hdata : ∀ e ∈ entries, e.data.length ≤ Tmpfs.maxVecLen) :
    (entries.foldl Vfs.addEntry v).Stocked := by
  induction entries generalizing v with
  | nil => exact h
  | cons e entries ih =>
    exact ih (h.addEntry (hdata e mem_cons_self))
      fun e he => hdata e (mem_cons_of_mem _ he)

lemma Shows.step (h : Shows names v b) (op : FileOp) (hguard : v.inOrder op = true) :
    Agree (Shows names) (v.fileStep op) (b.step names op) := by
  rw [inOrder, Bool.and_eq_true] at hguard
  cases op with
  | openFile path flags => exact (h.openFile path flags hguard.1).rename FileAnswer.opened
  | read id n =>
    obtain ⟨hshows, hanswer⟩ := h.read id n hguard.1
    exact ⟨hshows, congrArg FileAnswer.bytes hanswer⟩
  | write id data => exact (h.write id data hguard.1 hguard.2).rename FileAnswer.written
  | close id =>
    obtain ⟨hshows, hanswer⟩ := h.close id
    exact ⟨hshows, congrArg FileAnswer.closed hanswer⟩

/-- **Regular files behave like arrays of bytes**, in every run in which files that are opened
with `APPEND` are written at their end only. -/
theorem file_runs_agree (h : v.Consistent) {ops : List FileOp}
    (hops : guarded inOrder fileStep v ops = true) :
    Agree (Shows v.resolvePath) (Machine.run fileStep v ops)
      (Machine.run (ByteFiles.step v.resolvePath) v.byteFiles ops) :=
  run_agree_of_guarded (fun op hshows hguard => hshows.step op hguard) ops
    ⟨rfl, h, rfl⟩ hops

/-- The booted system with a file `b` that holds one byte. -/
@[irreducible] def oneFile : Vfs := [⟨[98], [4], false⟩].foldl Vfs.addEntry booted

lemma consistent_oneFile : oneFile.Consistent := by
  unfold oneFile
  exact (stocked_booted.foldl (by decide)).consistent

def appendThenRead : List FileOp := [.openFile [47, 98] ⟨7⟩, .write ⟨1⟩ [5], .read ⟨1⟩ 1]

/-- The byte that was appended is read back, although it lies before the position that the open
file should have. -/
theorem append_keeps_offset :
    outputs fileStep oneFile appendThenRead =
      .ok [.opened (.ok ⟨1⟩), .written (.ok 1), .bytes (.ok [5])] ∧
    outputs (ByteFiles.step oneFile.resolvePath) oneFile.byteFiles appendThenRead =
      .ok [.opened (.ok ⟨1⟩), .written (.ok 1), .bytes (.ok [])] := by
  decide +kernel

/-- Two open files on the same inode; the second one appends when it is at the end. -/
def readThenAppend : List FileOp :=
  [.openFile [47, 98] ⟨3⟩, .openFile [47, 98] ⟨7⟩, .read ⟨1⟩ 1, .write ⟨1⟩ [5], .read ⟨2⟩ 4,
    .write ⟨2⟩ [6], .read ⟨1⟩ 4, .close ⟨2⟩]

theorem two_open_files_agree :
    Agree (Shows oneFile.resolvePath) (Machine.run fileStep oneFile readThenAppend)
      (Machine.run (ByteFiles.step oneFile.resolvePath) oneFile.byteFiles readThenAppend) := by
  have hops : guarded inOrder fileStep oneFile readThenAppend = true := by
    decide +kernel
  exact file_runs_agree consistent_oneFile hops

/-! ### Access modes -/

/-- A write changes contents only if the file was opened for that, and a read returns bytes only
if the file was opened for reading. -/
def Honours (v v' : Vfs) : FileOp → FileAnswer → Prop
  | .write id _, _ => v'.contentsOf ≠ v.contentsOf → ∃ f, v.openFiles.get id = some f ∧
      (f.flags.contains .write ∨ f.flags.contains .append)
  | .read id _, answer => (∃ b bytes, answer = .bytes (.ok (b :: bytes))) →
      ∃ f, v.openFiles.get id = some f ∧ f.flags.contains .read
  | _, _ => True

/-- There is something to read behind an open file. -/
def Readable (v : Vfs) (f : OpenFile) : Prop :=
  ∃ inode, v.inodes.get f.inodeId = some inode ∧
    if inode.inodeType = .charDevice then v.devfs.fsId = inode.fsId ∧
      (v.devfs.deviceType f.inodeId = some .zero ∨ v.devfs.deviceType f.inodeId = some .random)
    else f.offset.toNat < (v.contentsOf f.inodeId).length

/-- The file was not opened for what the call does. -/
def Misused (v : Vfs) : FileOp → Prop
  | .write id data => ∃ f, v.openFiles.get id = some f ∧
      ¬ (f.flags.contains .write ∨ f.flags.contains .append) ∧ v.regular f.inodeId = true ∧
      overwrite (v.contentsOf f.inodeId) f.offset.toNat data ≠ v.contentsOf f.inodeId
  | .read id n => ∃ f, v.openFiles.get id = some f ∧ ¬ f.flags.contains .read ∧ v.Readable f ∧ n ≠ 0
  | _ => False

variable {f : OpenFile} {n : ℕ} {data : List UInt8}

lemma vfsRead_bytes (hget : v.openFiles.get id = some f) :
    (∃ b bytes, (v.vfsRead id n).2 = .ok (b :: bytes)) ↔ v.Readable f ∧ n ≠ 0 := by
  simp only [vfsRead, hget]
  cases hinode : v.inodes.get f.inodeId with
  | none => simp [Readable, hinode]
  | some inode =>
    simp only [Readable, hinode, some.injEq, exists_eq_left', Except.ok.injEq,
      ← ne_nil_iff_exists_cons]
    cases htype : inode.inodeType with
    | file | directory => simp [tmpfs_read_eq, and_comm]
    | charDevice =>
      by_cases hfs : v.devfs.fsId = inode.fsId
      · cases hdevice : v.devfs.deviceType f.inodeId with
        | none => simp [Devfs.read, hfs, hdevice]
        | some device =>
          cases device <;> cases n <;> simp [Devfs.read, Devfs.randomBytes, hfs, hdevice]
      · simp [hfs]

lemma contentsOf_setOffset (v : Vfs) (id : OpenFileId) (g : UInt64 → UInt64) :
    (v.setOffset id g).contentsOf = v.contentsOf := rfl

lemma vfsWrite_contents {r : Except VfsError ℕ} (hget : v.openFiles.get id = some f)
    (happend : f.flags.contains .append = false) (h : v.vfsWrite id data = .ok (v', r)) :
    v'.contentsOf ≠ v.contentsOf ↔ v.regular f.inodeId = true ∧
      overwrite (v.contentsOf f.inodeId) f.offset.toNat data ≠ v.contentsOf f.inodeId := by
  simp only [vfsWrite, hget] at h
  unfold regular isFile
  generalize v.inodes.get f.inodeId = found at h ⊢
  cases found with
  | none =>
    obtain ⟨rfl, -⟩ := Prod.mk.inj (ok.inj h)
    simp
  | some inode =>
    cases htype : inode.inodeType with
    | charDevice | directory =>
      simp only [htype] at h
      obtain ⟨rfl, -⟩ := Prod.mk.inj (ok.inj h)
      exact iff_of_false (not_not.mpr rfl) (by simp [htype])
    | file =>
      simp only [htype, happend, Bool.false_eq_true, if_false, writeFile_eq] at h
      split at h
      · cases h
      obtain ⟨rfl, -⟩ := Prod.mk.inj (ok.inj h)
      rw [contentsOf_setOffset, ne_eq, funext_iff]
      simp [contentsOf_setFile, htype]

end Vfs

end Fabric
