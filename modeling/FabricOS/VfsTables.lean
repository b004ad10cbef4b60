/-
The tables of the virtual file system (`vfs/inode.rs`, `mount.rs`, `open_file.rs`).

* `InodeTable` — what the files, directories and devices are;
* `OpenFileTable` — the open files of all processes; an open file is named by its index, and
  index 0 is never given out.
-/
import FabricOS.Exec
import FabricOS.Slots

open Function

namespace Fabric

/-! ### Inodes -/

/-- `MAX_INODES`. -/
def maxInodes : ℕ := 1024

structure InodeId where
  raw : UInt32
  deriving DecidableEq

def InodeId.invalid : InodeId := ⟨0⟩

inductive InodeType
  | file
  | directory
  | charDevice
  deriving DecidableEq

/-- `inode_type as u8`. -/
def InodeType.toByte : InodeType → UInt8
  | .file => 0
  | .directory => 1
  | .charDevice => 2

structure Inode where
  inodeId : InodeId
  inodeType : InodeType
  size : UInt64
  fsId : UInt16
  active : Bool
  deriving DecidableEq

def Inode.empty : Inode where
  inodeId := .invalid
  inodeType := .file
  size := 0
  fsId := 0
  active := false

structure InodeTable where
  entries : Fin maxInodes → Inode
  nextId : UInt32

namespace InodeTable

def new : InodeTable := ⟨fun _ => .empty, 1⟩

/-- A new inode in the first free entry, unless the table is full. -/
def alloc (t : InodeTable) (inodeType : InodeType) (fsId : UInt16) :
    Option (InodeTable × InodeId) :=
  (firstSlot fun i => !(t.entries i).active).map fun i =>
    let id : InodeId := ⟨t.nextId⟩
    (⟨update t.entries i { inodeId := id, inodeType, size := 0, fsId, active := true },
      t.nextId + 1⟩, id)

def find (t : InodeTable) (id : InodeId) : Option (Fin maxInodes) :=
  firstSlot fun i => (t.entries i).active && (t.entries i).inodeId == id

def get (t : InodeTable) (id : InodeId) : Option Inode := (t.find id).map t.entries

/-- `if let Some(inode) = inodes.get_mut(id)`. -/
def modify (t : InodeTable) (id : InodeId) (f : Inode → Inode) : InodeTable :=
  match t.find id with
  | none => t
  | some i => { t with entries := update t.entries i (f (t.entries i)) }

variable {t : InodeTable} {f : Inode → Inode}

lemma get_modify (hid : ∀ inode, (f inode).inodeId = inode.inodeId)
    (hactive : ∀ inode, (f inode).active = inode.active) (id id' : InodeId) :
    (t.modify id f).get id' = if id' = id then (t.get id).map f else t.get id' := by
  unfold modify
  cases hfind : t.find id with
  | none =>
    simp only [get, hfind, Option.map_none]
    split_ifs with hsame
    · rw [hsame, hfind]
      rfl
    · rfl
  | some i =>
    -- the search sees the same numbers, so it stops at the same entries
    have hsearch : ∀ id', find { t with
        entries := update t.entries i (f (t.entries i)) } id' = t.find id' := by
      intro id'
      refine congrArg firstSlot (funext fun j => ?_)
      by_cases hj : j = i
      · subst hj
        simp [hid, hactive]
      · simp [update_of_ne hj]
    simp only [get, hsearch]
    split_ifs with hsame
    · rw [hsame, hfind]
      simp
    cases hfind' : t.find id' with
    | none => rfl
    | some j =>
      have hne : j ≠ i := by
        rintro rfl
        have hi := (firstSlot_eq_some.mp hfind).1
        have hj := (firstSlot_eq_some.mp hfind').1
        simp only [Bool.and_eq_true, beq_iff_eq] at hi hj
        exact hsame (hj.2.symm.trans hi.2)
      simp [update_of_ne hne]

end InodeTable

/-! ### Mounts -/

/-- `MAX_MOUNTS`. -/
def maxMounts : ℕ := 64

/-- `MAX_MOUNT_PATH`. -/
def maxMountPath : ℕ := 64

inductive FsType
  | tmpfs
  | devfs
  deriving DecidableEq

structure MountEntry where
  /-- The first `path_len` bytes of `mount_path`. -/
  path : List UInt8
  fsType : FsType
  rootInode : InodeId
  active : Bool
  deriving DecidableEq

def MountEntry.empty : MountEntry where
  path := []
  fsType := .tmpfs
  rootInode := .invalid
  active := false

inductive MountError
  | tableFull
  | pathTooLong
  deriving DecidableEq

structure MountTable where
  entries : Fin maxMounts → MountEntry
  nextFsId : UInt16

/-- The mount that was found and the rest of the path. -/
structure ResolveResult where
  mountIndex : Fin maxMounts
  remaining : List UInt8
  deriving DecidableEq

namespace MountTable

def new : MountTable := ⟨fun _ => .empty, 1⟩

def mount (t : MountTable) (path : List UInt8) (fsType : FsType) (rootInode : InodeId) :
    MountTable × Except MountError UInt16 :=
  if path.length > maxMountPath then (t, .error .pathTooLong)
  else
    match firstSlot fun i => !(t.entries i).active with
    | none => (t, .error .tableFull)
    | some i =>
      (⟨update t.entries i { path, fsType, rootInode, active := true }, t.nextFsId + 1⟩,
        .ok t.nextFsId)

/-- The path starts with the mount point and, unless that is `/`, ends or goes on with a slash
behind it. -/
def matchesAt (mountPath path : List UInt8) : Bool :=
  path.length ≥ mountPath.length && path.take mountPath.length == mountPath &&
    (mountPath == [47] || path.length == mountPath.length || path[mountPath.length]? == some 47)

def better (t : MountTable) (path : List UInt8) (best : Option (Fin maxMounts) × ℕ)
    (i : Fin maxMounts) : Option (Fin maxMounts) × ℕ :=
  let entry := t.entries i
  if entry.active && matchesAt entry.path path && entry.path.length > best.2 then
    (some i, entry.path.length)
  else best

def remainder (path : List UInt8) (mountLen : ℕ) : List UInt8 :=
  if path.length ≤ mountLen then []
  else path.drop (if path[mountLen]? == some 47 then mountLen + 1 else mountLen)

/-- The longest mount point of a path; a rest of more than 64 bytes does not fit into the array
of the result. -/
def resolve (t : MountTable) (path : List UInt8) : Exec (Option ResolveResult) :=
  match ((List.finRange maxMounts).foldl (t.better path) (none, 0)).1 with
  | none => .ok none
  | some i =>
    let remaining := remainder path (t.entries i).path.length
    if remaining.length > maxMountPath then .panic else .ok (some ⟨i, remaining⟩)

def get (t : MountTable) (i : Fin maxMounts) : Option MountEntry :=
  if (t.entries i).active then some (t.entries i) else none

end MountTable

/-! ### Open files -/

/-- `MAX_OPEN_FILES`. -/
def maxOpenFiles : ℕ := 4096

structure OpenFileId where
  raw : UInt32
  deriving DecidableEq

namespace OpenFileId

def index (id : OpenFileId) : Option (Fin maxOpenFiles) :=
  if h : id.raw.toNat < maxOpenFiles then some ⟨id.raw.toNat, h⟩ else none

def ofIndex (i : Fin maxOpenFiles) : OpenFileId := ⟨.ofNat i.val⟩

@[simp] lemma index_ofIndex (i : Fin maxOpenFiles) : (ofIndex i).index = some i := by
  have hlt : i.val < 2 ^ 32 := lt_of_lt_of_le i.isLt (by decide)
  have hraw : (ofIndex i).raw.toNat = i.val := UInt32.toNat_ofNat_of_lt' hlt
  simp [index, hraw, i.isLt]

lemma ofIndex_of_index {id : OpenFileId} {i : Fin maxOpenFiles} (h : id.index = some i) :
    ofIndex i = id := by
  rw [index] at h
  split at h
  · cases h
    simp [ofIndex]
  · cases h

lemma ofIndex_inj {i j : Fin maxOpenFiles} (h : ofIndex i = ofIndex j) : i = j := by
  have hindex := congrArg index h
  rwa [index_ofIndex, index_ofIndex, Option.some.injEq] at hindex

end OpenFileId

structure OpenFlags where
  raw : UInt32
  deriving DecidableEq

namespace OpenFlags

def none : OpenFlags := ⟨0⟩
def read : OpenFlags := ⟨1⟩
def write : OpenFlags := ⟨2⟩
def append : OpenFlags := ⟨4⟩

def contains (flags flag : OpenFlags) : Bool := flags.raw &&& flag.raw != 0

end OpenFlags

structure OpenFile where
  inodeId : InodeId
  offset : UInt64
  flags : OpenFlags
  refCount : UInt16
  active : Bool
  deriving DecidableEq

namespace OpenFile

def empty : OpenFile where
  inodeId := .invalid
  offset := 0
  flags := .none
  refCount := 0
  active := false

/-- An open file as `alloc` makes it. -/
def fresh (inodeId : InodeId) (flags : OpenFlags) : OpenFile where
  inodeId
  offset := 0
  flags
  refCount := 1
  active := true

/-- One reference less; without references the entry is free. -/
def drop (f : OpenFile) : OpenFile :=
  let f := { f with refCount := f.refCount - 1 }
  if f.refCount == 0 then { f with active := false, inodeId := .invalid } else f

end OpenFile

inductive OpenFileError
  | tableFull
  | notFound
  | notActive
  deriving DecidableEq

structure OpenFileTable where
  entries : Fin maxOpenFiles → OpenFile

namespace OpenFileTable

def new : OpenFileTable := ⟨fun _ => .empty⟩

def set (t : OpenFileTable) (i : Fin maxOpenFiles) (f : OpenFile) : OpenFileTable :=
  ⟨update t.entries i f⟩

def isFree (t : OpenFileTable) (i : Fin maxOpenFiles) : Bool := i.val ≥ 1 && !(t.entries i).active

def alloc (t : OpenFileTable) (inodeId : InodeId) (flags : OpenFlags) :
    OpenFileTable × Except OpenFileError OpenFileId :=
  match firstSlot t.isFree with
  | none => (t, .error .tableFull)
  | some i => (t.set i (.fresh inodeId flags), .ok (.ofIndex i))

def get (t : OpenFileTable) (id : OpenFileId) : Option OpenFile :=
  match id.index with
  | none => none
  | some i => if (t.entries i).active then some (t.entries i) else none

/-- `if let Some(of) = open_files.get_mut(id)`. -/
def modify (t : OpenFileTable) (id : OpenFileId) (f : OpenFile → OpenFile) : OpenFileTable :=
  match id.index with
  | none => t
  | some i => if (t.entries i).active then t.set i (f (t.entries i)) else t

def release (t : OpenFileTable) (id : OpenFileId) : OpenFileTable × Except OpenFileError Unit :=
  match id.index with
  | none => (t, .error .notFound)
  | some i =>
    if !(t.entries i).active then (t, .error .notActive)
    else (t.set i (t.entries i).drop, .ok ())

/-! ### Open files by their ids -/

variable {t : OpenFileTable} {id : OpenFileId} {f : OpenFile}

lemma alloc_eq_ok {t' : OpenFileTable} {inodeId : InodeId} {flags : OpenFlags}
    (h : t.alloc inodeId flags = (t', .ok id)) :
    ∃ i, firstSlot t.isFree = some i ∧ id = .ofIndex i ∧
      t' = t.set i (.fresh inodeId flags) := by
  unfold alloc at h
  generalize firstSlot t.isFree = first at h ⊢
  cases first with
  | none => exact absurd (Prod.mk.inj h).2 (by simp)
  | some i =>
    obtain ⟨rfl, hid⟩ := Prod.mk.inj h
    exact ⟨i, rfl, (Except.ok.inj hid).symm, rfl⟩

lemma free_of_firstSlot {i : Fin maxOpenFiles} (h : firstSlot t.isFree = some i) :
    (t.entries i).active = false := by
  have hisFree := (firstSlot_eq_some.mp h).1
  simp only [isFree, Bool.and_eq_true, Bool.not_eq_true'] at hisFree
  exact hisFree.2

/-- Of the entries 1 to `m` the first `n` are in use. -/
def Filled (t : OpenFileTable) (n m : ℕ) : Prop :=
  ∀ i, i.val ≤ m → ((t.entries i).active = true ↔ 1 ≤ i.val ∧ i.val ≤ n)

lemma Filled.alloc {n m : ℕ} (h : t.Filled n m) (hnm : n + 1 ≤ m) (hn : n + 1 < maxOpenFiles)
    (inodeId : InodeId) (flags : OpenFlags) :
    t.alloc inodeId flags =
        (t.set ⟨n + 1, hn⟩ (.fresh inodeId flags), .ok (.ofIndex ⟨n + 1, hn⟩)) ∧
      (t.set ⟨n + 1, hn⟩ (.fresh inodeId flags)).Filled (n + 1) m := by
  have hfirst : firstSlot t.isFree = some ⟨n + 1, hn⟩ := by
    refine firstSlot_eq_some.mpr ⟨?_, fun j hj => ?_⟩
    · have hfree : (t.entries ⟨n + 1, hn⟩).active = false := by
        rw [Bool.eq_false_iff, ne_eq, h _ hnm]
        simp
      simp [isFree, hfree]
    · have hj' : j.val < n + 1 := hj
      by_cases hzero : j.val = 0
      · simp [isFree, hzero]
      · have hused : (t.entries j).active = true := (h j (by omega)).mpr (by omega)
        simp [isFree, hused]
  refine ⟨?_, fun i him => ?_⟩
  · unfold OpenFileTable.alloc
    rw [hfirst]
  by_cases hi : i = ⟨n + 1, hn⟩
  · subst hi
    simp [set, OpenFile.fresh]
  · have hval : i.val ≠ n + 1 := fun heq => hi (Fin.ext heq)
    simp only [set, update_of_ne hi, h i him]
    omega

lemma get_ofIndex (t : OpenFileTable) (i : Fin maxOpenFiles) :
    t.get (.ofIndex i) = if (t.entries i).active then some (t.entries i) else none := by
  rw [get, OpenFileId.index_ofIndex]

lemma get_set_self (t : OpenFileTable) (i : Fin maxOpenFiles) (f : OpenFile) :
    (t.set i f).get (.ofIndex i) = if f.active then some f else none := by
  simp [get_ofIndex, set]

lemma get_set_of_ne {i : Fin maxOpenFiles} (f : OpenFile) (h : id ≠ .ofIndex i) :
    (t.set i f).get id = t.get id := by
  simp only [get]
  cases hindex : id.index with
  | none => rfl
  | some i' =>
    have hne : i' ≠ i := by
      rintro rfl
      exact h (OpenFileId.ofIndex_of_index hindex).symm
    simp only [set, update_of_ne hne]

lemma get_eq_some :
    t.get id = some f ↔ ∃ i, id = .ofIndex i ∧ t.entries i = f ∧ f.active = true := by
  constructor
  · intro h
    rw [get] at h
    split at h
    · cases h
    rename_i i hi
    split at h
    · rename_i hactive
      cases h
      exact ⟨i, (OpenFileId.ofIndex_of_index hi).symm, rfl, hactive⟩
    · cases h
  · rintro ⟨i, rfl, rfl, hactive⟩
    rw [get_ofIndex, if_pos hactive]

end OpenFileTable

end Fabric
