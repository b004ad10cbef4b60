/-
The two file systems (`vfs/tmpfs.rs`, `devfs.rs`).

A `Tmpfs` keeps the directories and files of the root file system, each under the number of
its inode.  `Devfs` has three devices.  Reading is modelled by the bytes that are written to
the front of the caller's buffer.
-/
import FabricOS.VfsTables

open Function

namespace Fabric

/-- `core::str::from_utf8(bytes).is_ok()`. -/
def isUtf8 (bytes : List UInt8) : Bool := ByteArray.validateUTF8 ⟨bytes.toArray⟩

/-! ### tmpfs -/

structure DirEntry where
  /-- The bytes of the name. -/
  name : List UInt8
  inodeId : InodeId
  deriving DecidableEq

structure Tmpfs where
  fsId : UInt16
  rootInode : InodeId
  dirs : UInt32 → Option (List DirEntry)
  files : UInt32 → Option (List UInt8)

namespace Tmpfs

def new : Tmpfs where
  fsId := 0
  rootInode := .invalid
  dirs := fun _ => none
  files := fun _ => none

def registerDir (fs : Tmpfs) (inodeId : InodeId) : Tmpfs :=
  { fs with dirs := update fs.dirs inodeId.raw (some []) }

def init (fs : Tmpfs) (fsId : UInt16) (rootInode : InodeId) : Tmpfs :=
  { fs with fsId, rootInode }.registerDir rootInode

/-- Append an entry to a directory; a name that is not UTF-8 becomes `?`. -/
def addDirEntry (fs : Tmpfs) (parent : InodeId) (name : List UInt8) (child : InodeId) : Tmpfs :=
  match fs.dirs parent.raw with
  | none => fs
  | some entries =>
    let entry := { name := if isUtf8 name then name else [63], inodeId := child }
    { fs with dirs := update fs.dirs parent.raw (some (entries ++ [entry])) }

def createFileWithData (fs : Tmpfs) (inodeId : InodeId) (data : List UInt8) : Tmpfs :=
  { fs with files := update fs.files inodeId.raw (some data) }

def lookup (fs : Tmpfs) (dirInode : InodeId) (name : List UInt8) : Option InodeId :=
  if isUtf8 name then
    (fs.dirs dirInode.raw).bind fun entries => (entries.find? (·.name == name)).map (·.inodeId)
  else none

/-- At most `n` bytes from an offset on. -/
def read (fs : Tmpfs) (inodeId : InodeId) (offset : UInt64) (n : ℕ) : List UInt8 :=
  match fs.files inodeId.raw with
  | none => []
  | some data => (data.drop offset.toNat).take n

/-- The largest size of a vector, `isize::MAX`. -/
def maxVecLen : ℕ := 2 ^ 63 - 1

/-- Overwrite a file at an offset, after it was extended by zeros; the result is the number of
bytes written.  An end that no vector can have aborts: the sum overflows and the range is refused,
or `resize` fails. -/
def write (fs : Tmpfs) (inodeId : InodeId) (offset : UInt64) (data : List UInt8) :
    Exec (Tmpfs × ℕ) :=
  let old := (fs.files inodeId.raw).getD []
  let stop := offset.toNat + data.length
  if stop > maxVecLen then .panic
  else
    let extended := old ++ List.replicate (stop - old.length) 0
    let new := extended.take offset.toNat ++ data ++ extended.drop stop
    .ok (fs.createFileWithData inodeId new, data.length)

def fileSize (fs : Tmpfs) (inodeId : InodeId) : UInt64 :=
  match fs.files inodeId.raw with
  | none => 0
  | some data => .ofNat data.length

def readdir (fs : Tmpfs) (dirInode : InodeId) : Option (List DirEntry) := fs.dirs dirInode.raw

end Tmpfs

/-! ### devfs -/

inductive DeviceType
  | null
  | zero
  | random
  deriving DecidableEq

structure Devfs where
  fsId : UInt16
  rootInode : InodeId
  nullInode : InodeId
  zeroInode : InodeId
  randomInode : InodeId
  lfsrState : UInt64
  deriving DecidableEq

namespace Devfs

def new : Devfs where
  fsId := 0
  rootInode := .invalid
  nullInode := .invalid
  zeroInode := .invalid
  randomInode := .invalid
  lfsrState := 0xDEADBEEFCAFE1234

def nullName : List UInt8 := [110, 117, 108, 108]
def zeroName : List UInt8 := [122, 101, 114, 111]
def randomName : List UInt8 := [114, 97, 110, 100, 111, 109]

/-- Allocate the inodes of the devices; there is none if the inode table is full. -/
def init (fs : Devfs) (fsId : UInt16) (rootInode : InodeId) (inodes : InodeTable) :
    Option (Devfs × InodeTable) := do
  let (inodes, nullInode) ← inodes.alloc .charDevice fsId
  let (inodes, zeroInode) ← inodes.alloc .charDevice fsId
  let (inodes, randomInode) ← inodes.alloc .charDevice fsId
  some ({ fs with fsId, rootInode, nullInode, zeroInode, randomInode }, inodes)

def lookup (fs : Devfs) (name : List UInt8) : Option InodeId :=
  if name = nullName then some fs.nullInode
  else if name = zeroName then some fs.zeroInode
  else if name = randomName then some fs.randomInode
  else none

def deviceType (fs : Devfs) (inodeId : InodeId) : Option DeviceType :=
  if inodeId = fs.nullInode then some .null
  else if inodeId = fs.zeroInode then some .zero
  else if inodeId = fs.randomInode then some .random
  else none

def nextRandomByte (fs : Devfs) : Devfs × UInt8 :=
  let bit := fs.lfsrState &&& 1
  let shifted := fs.lfsrState >>> 1
  let lfsrState := if bit != 0 then shifted ^^^ 0xD800000000000000 else shifted
  ({ fs with lfsrState }, (lfsrState &&& 0xFF).toUInt8)

def randomBytes (fs : Devfs) : ℕ → Devfs × List UInt8
  | 0 => (fs, [])
  | n + 1 =>
    let (fs, byte) := fs.nextRandomByte
    let (fs, bytes) := fs.randomBytes n
    (fs, byte :: bytes)

/-- Read from a device into a buffer of `n` bytes. -/
def read (fs : Devfs) (inodeId : InodeId) (n : ℕ) : Devfs × List UInt8 :=
  match fs.deviceType inodeId with
  | some .null => (fs, [])
  | some .zero => (fs, List.replicate n 0)
  | some .random => fs.randomBytes n
  | none => (fs, [])

def write (fs : Devfs) (inodeId : InodeId) (len : ℕ) : ℕ :=
  if (fs.deviceType inodeId).isSome then len else 0

end Devfs

end Fabric
