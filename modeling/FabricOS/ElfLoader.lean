/-
The ELF loader (`elf/mod.rs`).

An image is a slice of bytes that nobody has checked.  Offsets into it are 64-bit numbers,
which wrap around in the release build, and it is read through raw pointers: what lies
outside of the slice is whatever memory holds there.

The loader goes over the segments twice.  It first collects the permissions of each page, then
allocates and maps the pages and copies the contents.  A failure leaves behind what was done.
-/
import FabricOS.AddressSpace

namespace Fabric.Elf

/-- Bytes at a pointer, of which the first `len` belong to the slice. -/
structure Slice where
  bytes : UInt64 → UInt8
  len : UInt64

/-- The number in `n` bytes, least significant byte first. -/
def Slice.le (data : Slice) (offset : UInt64) : ℕ → ℕ
  | 0 => 0
  | n + 1 => (data.bytes offset).toNat + 256 * data.le (offset + 1) n

def Slice.u16 (data : Slice) (offset : UInt64) : UInt16 := .ofNat (data.le offset 2)
def Slice.u32 (data : Slice) (offset : UInt64) : UInt32 := .ofNat (data.le offset 4)
def Slice.u64 (data : Slice) (offset : UInt64) : UInt64 := .ofNat (data.le offset 8)

def elfMagic : List UInt8 := [0x7F, 0x45, 0x4C, 0x46]
def elfClass64 : UInt8 := 2
def elfData2Lsb : UInt8 := 1
def etExec : UInt16 := 2
def etDyn : UInt16 := 3
def emX86_64 : UInt16 := 0x3E
def ptLoad : UInt32 := 1
def pfX : UInt32 := 1
def pfW : UInt32 := 2

/-- The header of a file: 64 bytes, of which these fields are read. -/
structure Elf64Header where
  eIdent : List UInt8
  eType : UInt16
  eMachine : UInt16
  eEntry : UInt64
  ePhoff : UInt64
  ePhentsize : UInt16
  ePhnum : UInt16

def sizeOfHeader : UInt64 := 64

def Slice.header (data : Slice) : Elf64Header where
  eIdent := (List.range 16).map fun i => data.bytes (.ofNat i)
  eType := data.u16 16
  eMachine := data.u16 18
  eEntry := data.u64 24
  ePhoff := data.u64 32
  ePhentsize := data.u16 54
  ePhnum := data.u16 56

/-- The header of a segment: 56 bytes, of which these fields are read. -/
structure Elf64Phdr where
  pType : UInt32
  pFlags : UInt32
  pOffset : UInt64
  pVaddr : UInt64
  pFilesz : UInt64
  pMemsz : UInt64

def sizeOfPhdr : UInt64 := 56

def Slice.phdr (data : Slice) (offset : UInt64) : Elf64Phdr where
  pType := data.u32 offset
  pFlags := data.u32 (offset + 4)
  pOffset := data.u64 (offset + 8)
  pVaddr := data.u64 (offset + 16)
  pFilesz := data.u64 (offset + 32)
  pMemsz := data.u64 (offset + 40)

inductive ElfError
  | tooSmall
  | badMagic
  | not64Bit
  | notLittleEndian
  | wrongArch
  | notExecutable
  | invalidPhdr
  | outOfMemory
  | mapFailed
  deriving DecidableEq

def parseHeader (data : Slice) : Except ElfError Elf64Header :=
  if data.len < sizeOfHeader then .error .tooSmall
  else
    let header := data.header
    if header.eIdent.take 4 ≠ elfMagic then .error .badMagic
    else if header.eIdent.getD 4 0 ≠ elfClass64 then .error .not64Bit
    else if header.eIdent.getD 5 0 ≠ elfData2Lsb then .error .notLittleEndian
    else if header.eType ≠ etExec ∧ header.eType ≠ etDyn then .error .notExecutable
    else if header.eMachine ≠ emX86_64 then .error .wrongArch
    else .ok header

def programHeaders (data : Slice) (header : Elf64Header) : Except ElfError (List Elf64Phdr) :=
  let phOffset := header.ePhoff
  let phSize := header.ePhentsize.toUInt64
  let phCount := header.ePhnum.toUInt64
  if phSize < sizeOfPhdr then .error .invalidPhdr
  else
    let last := phOffset + phCount * phSize
    if last > data.len then .error .invalidPhdr
    else .ok ((List.range phCount.toNat).map fun i => data.phdr (phOffset + .ofNat i * sizeOfPhdr))

/-! ### Segments -/

def Elf64Phdr.vaddrStart (phdr : Elf64Phdr) : UInt64 := phdr.pVaddr &&& ~~~0xFFF

def Elf64Phdr.vaddrEnd (phdr : Elf64Phdr) : UInt64 :=
  (phdr.pVaddr + phdr.pMemsz + 0xFFF) &&& ~~~0xFFF

/-- The pages from the start up to the end of a segment; none if it is not to be loaded. -/
def Elf64Phdr.pages (phdr : Elf64Phdr) : List UInt64 :=
  if phdr.pType ≠ ptLoad ∨ phdr.pMemsz = 0 then []
  else
    (List.range ((phdr.vaddrEnd.toNat - phdr.vaddrStart.toNat) / pageSize)).map fun i =>
      phdr.vaddrStart + .ofNat (i * pageSize)

/-- The segments page by page, in the order in which they are loaded. -/
def loadSequence (phdrs : List Elf64Phdr) : List (Elf64Phdr × UInt64) :=
  phdrs.flatMap fun phdr => phdr.pages.map fun va => (phdr, va)

/-- Whether a page is to be writable and executable, for every page. -/
abbrev PagePerms := UInt64 → Bool × Bool

def pagePerms (phdrs : List Elf64Phdr) : PagePerms :=
  (loadSequence phdrs).foldl (fun perms (phdr, va) =>
    let needsW := phdr.pFlags &&& pfW != 0
    let needsX := phdr.pFlags &&& pfX != 0
    Function.update perms va ((perms va).1 || needsW, (perms va).2 || needsX))
    fun _ => (false, false)

structure Loader where
  frames : FrameState
  space : AddressSpace
  /-- The frames of the pages that have been mapped. -/
  mappedPages : List (UInt64 × ℕ)

/-- The frame of a page, which is allocated and mapped if it is not yet. -/
def Loader.pageFrame (perms : PagePerms) (st : Loader) (pageVa : UInt64) :
    Exec (Loader × Except ElfError ℕ) :=
  match st.mappedPages.lookup pageVa with
  | some existingFrame => .ok (st, .ok existingFrame)
  | none => do
    let (w, x) := perms pageVa
    let flags := PageTableFlags.empty ||| (if w then PageTableFlags.writable else 0) |||
      (if ¬ x then PageTableFlags.noExecute else 0)
    let (frames, physFrame) ← st.frames.allocate 0
    match physFrame with
    | none => .ok ({ st with frames := frames }, .error .outOfMemory)
    | some physFrame =>
      let mem := frames.mem.fill physFrame pageSize 0
      let (frames, space, result) ←
        st.space.mapUserPage { frames with mem := mem } pageVa (.ofNat physFrame) flags
      match result with
      | .error _ => .ok (⟨frames, space, st.mappedPages⟩, .error .mapFailed)
      | .ok () => .ok (⟨frames, space, (pageVa, physFrame) :: st.mappedPages⟩, .ok physFrame)

def copySegment (data : Slice) (phdr : Elf64Phdr) (mem : ByteMemory) (pageVa : UInt64)
    (frame : ℕ) : ByteMemory :=
  let pageEnd := pageVa + 4096
  let copyVstart := max pageVa phdr.pVaddr
  let copyVend := min pageEnd (phdr.pVaddr + phdr.pFilesz)
  if copyVstart < copyVend then
    let copyLen := copyVend - copyVstart
    let dstOffset := copyVstart - pageVa
    let srcOffset := phdr.pOffset + (copyVstart - phdr.pVaddr)
    if srcOffset + copyLen ≤ data.len then
      mem.blit (frame + dstOffset.toNat) copyLen.toNat fun i => data.bytes (srcOffset + .ofNat i)
    else mem
  else mem

def Loader.load (data : Slice) (perms : PagePerms) :
    List (Elf64Phdr × UInt64) → Loader → Exec (Loader × Except ElfError Unit)
  | [], st => .ok (st, .ok ())
  | (phdr, pageVa) :: rest, st => do
    let (st, frame) ← st.pageFrame perms pageVa
    match frame with
    | .error e => .ok (st, .error e)
    | .ok frame =>
      let mem := copySegment data phdr st.frames.mem pageVa frame
      load data perms rest { st with frames := { st.frames with mem := mem } }

def segments (data : Slice) : Except ElfError (UInt64 × List Elf64Phdr) := do
  let header ← parseHeader data
  let phdrs ← programHeaders data header
  .ok (header.eEntry, phdrs)

def loadElf (data : Slice) (frames : FrameState) (space : AddressSpace) :
    Exec (Loader × Except ElfError UInt64) :=
  match segments data with
  | .error e => .ok (⟨frames, space, []⟩, .error e)
  | .ok (entry, phdrs) => do
    let (st, result) ← Loader.load data (pagePerms phdrs) (loadSequence phdrs) ⟨frames, space, []⟩
    .ok (st, result.map fun _ => entry)

end Fabric.Elf
