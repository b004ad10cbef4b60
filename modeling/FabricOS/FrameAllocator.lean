/-
The frame allocator (`memory/frame.rs`), a buddy allocator of physical page frames.

The free frames are kept twice: one bit per frame in a bitmap, and one list per order of the
free blocks of that size.  The lists are threaded through the free memory itself: the first
eight bytes of a free block hold the address of the next one, and address 0 ends a list.

Memory is addressed physically.  The kernel reaches it through a window at a fixed offset,
which is left out, as are the debug build's canaries and assertions: they check what is
proved here and do nothing else.  The arithmetic on region bounds is that of `usize`, which
wraps around in the release build.
-/
import FabricOS.ByteMemory
import FabricOS.Exec

open Function

namespace Fabric

def pageSize : ℕ := 4096

namespace Buddy

def maxOrder : ℕ := 10
def maxPhysAddr : ℕ := 0x40000000
def maxFrames : ℕ := maxPhysAddr / pageSize
def bitmapSize : ℕ := maxFrames / 8

end Buddy

open Buddy

/-- The address of a free block; 0 is none. -/
abbrev FreeBlockPtr := ℕ

namespace FreeBlockPtr

def null : FreeBlockPtr := 0

def fromFrame (frame : ℕ) : FreeBlockPtr := frame * pageSize

def toFrame (ptr : FreeBlockPtr) : ℕ := ptr / pageSize

def readNext (mem : ByteMemory) (ptr : FreeBlockPtr) : FreeBlockPtr := mem.read ptr 8

def writeNext (mem : ByteMemory) (ptr next : FreeBlockPtr) : ByteMemory := mem.write ptr 8 next

end FreeBlockPtr

open FreeBlockPtr

structure BuddyAllocator where
  freeLists : ℕ → FreeBlockPtr
  bitmap : ℕ → BitVec 8
  totalFrames : ℕ
  freeFrames : ℕ
  maxOrder : ℕ
  initialized : Bool

/-- The allocator and the memory that its lists run through. -/
structure FrameState where
  alloc : BuddyAllocator
  mem : ByteMemory

namespace BuddyAllocator

def new : BuddyAllocator where
  freeLists := fun _ => null
  bitmap := fun _ => 0xFF#8
  totalFrames := 0
  freeFrames := 0
  maxOrder := 0
  initialized := false

/-! ### Bitmap -/

def setBit (a : BuddyAllocator) (frame : ℕ) : Exec BuddyAllocator :=
  if frame / 8 < bitmapSize then
    let byte := a.bitmap (frame / 8) ||| 1#8 <<< (frame % 8)
    .ok { a with bitmap := update a.bitmap (frame / 8) byte }
  else .panic

def clearBit (a : BuddyAllocator) (frame : ℕ) : Exec BuddyAllocator :=
  if frame / 8 < bitmapSize then
    let byte := a.bitmap (frame / 8) &&& ~~~(1#8 <<< (frame % 8))
    .ok { a with bitmap := update a.bitmap (frame / 8) byte }
  else .panic

def isFree (a : BuddyAllocator) (frame : ℕ) : Bool :=
  frame < maxFrames && a.bitmap (frame / 8) &&& 1#8 <<< (frame % 8) == 0#8

/-- Mark the frames from `frame` on as allocated. -/
def setBits (a : BuddyAllocator) (frame : ℕ) : ℕ → Exec BuddyAllocator
  | 0 => .ok a
  | n + 1 => do
    let a ← setBits a frame n
    a.setBit (frame + n)

/-- Mark the frames from `frame` on as free. -/
def clearBits (a : BuddyAllocator) (frame : ℕ) : ℕ → Exec BuddyAllocator
  | 0 => .ok a
  | n + 1 => do
    let a ← clearBits a frame n
    a.clearBit (frame + n)

/-- All of `n` frames from `frame` on are free. -/
def allFree (a : BuddyAllocator) (frame n : ℕ) : Bool :=
  (List.range n).all fun i => frame + i < maxFrames && a.isFree (frame + i)

/-! ### Regions -/

/-- A region of memory, as the boot loader reports it. -/
structure Region where
  base : UInt64
  length : UInt64

def ceilDiv (a b : UInt64) : UInt64 := (a + b - 1) / b

def Region.startFrame (r : Region) : ℕ := (ceilDiv r.base 4096).toNat

def Region.endFrame (r : Region) : ℕ := ((r.base + r.length) / 4096).toNat

def markFrame (a : BuddyAllocator) (frame : ℕ) : Exec BuddyAllocator :=
  if frame < maxFrames then do
    let a ← a.clearBit frame
    .ok { a with totalFrames := a.totalFrames + 1, freeFrames := a.freeFrames + 1 }
  else .ok a

def markFrames (a : BuddyAllocator) (frame : ℕ) : ℕ → Exec BuddyAllocator
  | 0 => .ok a
  | n + 1 => do
    let a ← markFrames a frame n
    a.markFrame (frame + n)

def markRegions (a : BuddyAllocator) : List Region → Exec BuddyAllocator
  | [] => .ok a
  | r :: regions => do
    let a ← a.markFrames r.startFrame (r.endFrame - r.startFrame)
    a.markRegions regions

/-- The largest aligned free block that begins at `frame`, from `order` up. -/
def maxBlockOrderFrom (a : BuddyAllocator) (frame : ℕ) : ℕ → ℕ → ℕ
  | 0, order => order
  | n + 1, order =>
    let nextSize := 2 ^ (order + 1)
    if frame % nextSize ≠ 0 then order
    -- the upper half is free
    else if a.allFree (frame + 2 ^ order) (nextSize - 2 ^ order) then
      maxBlockOrderFrom a frame n (order + 1)
    else order

def maxBlockOrder (a : BuddyAllocator) (frame : ℕ) : ℕ :=
  a.maxBlockOrderFrom frame Buddy.maxOrder 0

end BuddyAllocator

namespace FrameState

/-! ### Free lists -/

/-- `self.free_lists[order] = ptr`. -/
def setHead (s : FrameState) (order : ℕ) (ptr : FreeBlockPtr) : FrameState :=
  { s with alloc := { s.alloc with freeLists := update s.alloc.freeLists order ptr } }

/-- `ptr.write_next(next)`. -/
def setNext (s : FrameState) (ptr next : FreeBlockPtr) : FrameState :=
  { s with mem := writeNext s.mem ptr next }

def pushFreeList (s : FrameState) (frame order : ℕ) : Exec FrameState :=
  if order ≤ Buddy.maxOrder then
    let ptr := fromFrame frame
    .ok ((s.setNext ptr (s.alloc.freeLists order)).setHead order ptr)
  else .panic

def popFreeList (s : FrameState) (order : ℕ) : Exec (FrameState × Option ℕ) :=
  if order ≤ Buddy.maxOrder then
    let head := s.alloc.freeLists order
    if head = null then .ok (s, none)
    else .ok (s.setHead order (readNext s.mem head), some head.toFrame)
  else .panic

/-- Walk a list to find and unlink `target`, within so many steps. -/
def unlink (s : FrameState) (target : FreeBlockPtr) : ℕ → FreeBlockPtr → Exec (FrameState × Bool)
  | 0, current => if current = null then .ok (s, false) else .panic
  | n + 1, current =>
    if current = null then .ok (s, false)
    else
      let next := readNext s.mem current
      if next = target then
        .ok (s.setNext current (readNext s.mem target), true)
      else unlink s target n next

def removeFromFreeList (s : FrameState) (frame order : ℕ) : Exec (FrameState × Bool) :=
  if order ≤ Buddy.maxOrder then
    let target := fromFrame frame
    let head := s.alloc.freeLists order
    if head = null then .ok (s, false)
    else if head = target then .ok (s.setHead order (readNext s.mem target), true)
    else s.unlink target maxFrames head
  else .panic

/-! ### Initialisation -/

/-- The loop of `build_free_lists`, in at most so many rounds. -/
def buildFrom (s : FrameState) : ℕ → ℕ → Exec FrameState
  | 0, frame => if frame < maxFrames then .diverge else .ok s
  | n + 1, frame =>
    if frame < maxFrames then
      if ¬ s.alloc.isFree frame then buildFrom s n (frame + 1)
      else do
        let order := s.alloc.maxBlockOrder frame
        let highest := if order > s.alloc.maxOrder then order else s.alloc.maxOrder
        let s ← pushFreeList { s with alloc := { s.alloc with maxOrder := highest } } frame order
        buildFrom s n (frame + 2 ^ order)
    else .ok s

def buildFreeLists (s : FrameState) : Exec FrameState := s.buildFrom maxFrames 0

def initFromRegions (s : FrameState) (regions : List BuddyAllocator.Region) : Exec FrameState := do
  let alloc ← s.alloc.markRegions regions
  let s ← buildFreeLists { s with alloc := alloc }
  .ok { s with alloc := { s.alloc with initialized := true } }

/-! ### Allocating and freeing -/

/-- The smallest order from `order` up, within so many, whose list is not empty. -/
def availOrder (s : FrameState) : ℕ → ℕ → ℕ
  | 0, order => order
  | n + 1, order =>
    if s.alloc.freeLists order ≠ null then order else availOrder s n (order + 1)

/-- Split a block `n` times, down to `order`; the upper halves go to the free lists. -/
def split (s : FrameState) (frame order : ℕ) : ℕ → Exec FrameState
  | 0 => .ok s
  | n + 1 => do
    let s ← s.pushFreeList (frame + 2 ^ (order + n)) (order + n)
    split s frame order n

/-- Allocate a block of `2 ^ order` frames; the result is its address. -/
def allocate (s : FrameState) (order : ℕ) : Exec (FrameState × Option ℕ) :=
  if ¬ s.alloc.initialized ∨ order > Buddy.maxOrder then .ok (s, none)
  else
    let avail := s.availOrder (Buddy.maxOrder + 1 - order) order
    if avail > Buddy.maxOrder then .ok (s, none)
    else do
      let (s, popped) ← s.popFreeList avail
      match popped with
      | none => .ok (s, none)
      | some frame =>
        let s ← s.split frame order (avail - order)
        let alloc ← s.alloc.setBits frame (2 ^ order)
        .ok ({ s with alloc := { alloc with freeFrames := alloc.freeFrames - 2 ^ order } },
          some (fromFrame frame))

/-- Merge a block with its buddy up the order chain, at most so many times. -/
def merge (s : FrameState) : ℕ → (frame order : ℕ) → Exec (FrameState × ℕ × ℕ)
  | 0, frame, order => .ok (s, frame, order)
  | n + 1, frame, order =>
    let buddy := frame ^^^ 2 ^ order
    if ¬ s.alloc.allFree buddy (2 ^ order) then .ok (s, frame, order)
    else do
      let (s, found) ← s.removeFromFreeList buddy order
      if ¬ found then .ok (s, frame, order)
      else merge s n (min frame buddy) (order + 1)

/-- `1usize << order`, which takes the shift modulo the width. -/
def shiftedOne (order : ℕ) : ℕ := 2 ^ (order % 64)

/-- Deallocate a block of `2 ^ order` frames. -/
def deallocate (s : FrameState) (addr order : ℕ) : Exec FrameState := do
  let frame := addr / pageSize
  let count := shiftedOne order
  let alloc ← s.alloc.clearBits frame count
  let s := { s with alloc := { alloc with freeFrames := alloc.freeFrames + count } }
  let (s, frame, order) ← s.merge (Buddy.maxOrder - order) frame order
  s.pushFreeList frame order

end FrameState

end Fabric
