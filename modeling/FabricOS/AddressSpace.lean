/-
Page tables (`memory/page_table.rs`) and address spaces (`address_space/per_process.rs`).

A page table is a page of 512 entries of eight bytes.  An address space is a table of the
highest level, the PML4.  Its upper half is a copy of the kernel's, so that the tables below
are shared by all address spaces; its lower half is for user pages, and the tables below are
made on demand.

As in the frame allocator, memory is addressed physically.  A table is given by its address,
an entry by the table and an index; following a present entry does not look at the bit that
marks large pages.
-/
import FabricOS.FrameAllocator

namespace Fabric

/-! ### Entries -/

abbrev PageTableFlags := UInt64

namespace PageTableFlags

def present : PageTableFlags := 1
def writable : PageTableFlags := (1 : UInt64) <<< 1
def user : PageTableFlags := (1 : UInt64) <<< 2
def hugePage : PageTableFlags := (1 : UInt64) <<< 7
def noExecute : PageTableFlags := (1 : UInt64) <<< 63
def empty : PageTableFlags := 0

end PageTableFlags

def addrMask : UInt64 := 0x000FFFFFFFFFF000

structure PageTableEntry where
  bits : UInt64
  deriving DecidableEq

namespace PageTableEntry

def empty : PageTableEntry := ⟨0⟩

def isPresent (e : PageTableEntry) : Bool := e.bits &&& PageTableFlags.present != 0

def addr (e : PageTableEntry) : ℕ := (e.bits &&& addrMask).toNat

def flags (e : PageTableEntry) : PageTableFlags := e.bits &&& ~~~addrMask

def set (addr : UInt64) (flags : PageTableFlags) : PageTableEntry := ⟨(addr &&& addrMask) ||| flags⟩

end PageTableEntry

/-! ### Tables -/

namespace PageTable

def entry (mem : ByteMemory) (table i : ℕ) : PageTableEntry :=
  ⟨.ofNat (mem.read (table + 8 * i) 8)⟩

def setEntry (mem : ByteMemory) (table i : ℕ) (e : PageTableEntry) : ByteMemory :=
  mem.write (table + 8 * i) 8 e.bits.toNat

def zero (mem : ByteMemory) (table : ℕ) : ByteMemory := mem.fill table pageSize 0

end PageTable

def pml4Index (virt : UInt64) : ℕ := ((virt >>> 39) &&& 0x1FF).toNat
def pdptIndex (virt : UInt64) : ℕ := ((virt >>> 30) &&& 0x1FF).toNat
def pdIndex (virt : UInt64) : ℕ := ((virt >>> 21) &&& 0x1FF).toNat
def ptIndex (virt : UInt64) : ℕ := ((virt >>> 12) &&& 0x1FF).toNat

/-! ### Address spaces -/

inductive AddressSpaceError
  /-- Could not allocate a frame. -/
  | allocationFailed
  /-- The address is in the kernel half. -/
  | kernelAddressViolation
  | alreadyMapped
  | notMapped
  deriving DecidableEq

structure AddressSpace where
  /-- The address of the PML4. -/
  pml4Phys : ℕ
  userPageCount : ℕ
  active : Bool
  deriving DecidableEq

open PageTable

def FrameState.nextOrCreate (s : FrameState) (table i : ℕ) :
    Exec (FrameState × Except AddressSpaceError ℕ) :=
  let e := entry s.mem table i
  if e.isPresent then .ok (s, .ok e.addr)
  else do
    let (s, newFrame) ← s.allocate 0
    match newFrame with
    | none => .ok (s, .error .allocationFailed)
    | some newFrame =>
      let mem := zero s.mem newFrame
      let flags := PageTableFlags.present ||| PageTableFlags.writable ||| PageTableFlags.user
      let mem := setEntry mem table i (.set (.ofNat newFrame) flags)
      .ok ({ s with mem := mem }, .ok newFrame)

/-- Go from table to table along the indices, creating the tables that are missing. -/
def FrameState.walkOrCreate (s : FrameState) (table : ℕ) :
    List ℕ → Exec (FrameState × Except AddressSpaceError ℕ)
  | [] => .ok (s, .ok table)
  | i :: path => do
    let (s, next) ← s.nextOrCreate table i
    match next with
    | .error e => .ok (s, .error e)
    | .ok next => walkOrCreate s next path

/-- Go from table to table along the indices, without creation. -/
def walk (mem : ByteMemory) (table : ℕ) : List ℕ → Option ℕ
  | [] => some table
  | i :: path =>
    let e := entry mem table i
    if ¬ e.isPresent then none else walk mem e.addr path

def tablePath (virt : UInt64) : List ℕ := [pml4Index virt, pdptIndex virt, pdIndex virt]

namespace AddressSpace

def readCr3 (cr3 : UInt64) : ℕ := (cr3 &&& addrMask).toNat

def create (s : FrameState) (cr3 : UInt64) :
    Exec (FrameState × Except AddressSpaceError AddressSpace) := do
  let (s, pml4Phys) ← s.allocate 0
  match pml4Phys with
  | none => .ok (s, .error .allocationFailed)
  | some pml4Phys =>
    let mem := zero s.mem pml4Phys
    let kernelPml4 := readCr3 cr3
    -- entries 256 to 511
    let mem := mem.copy (pml4Phys + 8 * 256) (kernelPml4 + 8 * 256) (8 * 256)
    .ok ({ s with mem := mem }, .ok ⟨pml4Phys, 0, true⟩)

def walkOrCreateAndMap (space : AddressSpace) (s : FrameState) (virt phys : UInt64)
    (flags : PageTableFlags) : Exec (FrameState × Except AddressSpaceError Unit) := do
  let (s, pt) ← s.walkOrCreate space.pml4Phys (tablePath virt)
  match pt with
  | .error e => .ok (s, .error e)
  | .ok pt =>
    if (entry s.mem pt (ptIndex virt)).isPresent then .ok (s, .error .alreadyMapped)
    else
      let mem := setEntry s.mem pt (ptIndex virt) (.set phys flags)
      .ok ({ s with mem := mem }, .ok ())

def mapUserPage (space : AddressSpace) (s : FrameState) (virt phys : UInt64)
    (flags : PageTableFlags) : Exec (FrameState × AddressSpace × Except AddressSpaceError Unit) :=
  if virt ≥ 0xFFFF800000000000 then .ok (s, space, .error .kernelAddressViolation)
  else do
    let userFlags :=
      PageTableFlags.present ||| PageTableFlags.writable ||| PageTableFlags.user ||| flags
    let (s, result) ← space.walkOrCreateAndMap s virt phys userFlags
    match result with
    | .error e => .ok (s, space, .error e)
    | .ok () => .ok (s, { space with userPageCount := space.userPageCount + 1 }, .ok ())

def unmapUserPage (space : AddressSpace) (s : FrameState) (virt : UInt64) :
    FrameState × AddressSpace × Except AddressSpaceError ℕ :=
  if virt ≥ 0xFFFF800000000000 then (s, space, .error .kernelAddressViolation)
  else
    match walk s.mem space.pml4Phys (tablePath virt) with
    | none => (s, space, .error .notMapped)
    | some pt =>
      let e := entry s.mem pt (ptIndex virt)
      if ¬ e.isPresent then (s, space, .error .notMapped)
      else
        ({ s with mem := setEntry s.mem pt (ptIndex virt) .empty },
          { space with userPageCount := space.userPageCount - 1 }, .ok e.addr)

/-- Go over the first `n` entries of a table, and do something with the tables behind those that
are present. -/
def forPresent (s : FrameState) (table n : ℕ) (body : FrameState → ℕ → Exec FrameState) :
    Exec FrameState :=
  (List.range n).foldlM (fun s i =>
    let e := entry s.mem table i
    if e.isPresent then body s e.addr else .ok s) s

def destroy (space : AddressSpace) (s : FrameState) : Exec (FrameState × AddressSpace) :=
  if ¬ space.active then .ok (s, space)
  else do
    let s ← forPresent s space.pml4Phys 256 fun s pdptPhys => do
      let s ← forPresent s pdptPhys 512 fun s pdPhys => do
        let s ← forPresent s pdPhys 512 fun s ptPhys => s.deallocate ptPhys 0
        s.deallocate pdPhys 0
      s.deallocate pdptPhys 0
    let s ← s.deallocate space.pml4Phys 0
    .ok (s, { space with active := false })

def drop (space : AddressSpace) (s : FrameState) : Exec (FrameState × AddressSpace) :=
  if space.active then space.destroy s else .ok (s, space)

end AddressSpace

end Fabric
