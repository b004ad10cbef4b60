/-
Surfaces and windows on the kernel heap (`display/compositor.rs`, `display/mod.rs`, `wm/mod.rs`,
and the display and window calls of `x86/syscall.rs`).

Surfaces and window titles live on the kernel heap of 16 MiB.  `Surface::new` allocates with
`vec!`, which aborts the kernel when the heap has no room; it never answers `None` for that.  The
heap is modelled by the number of bytes in use: a request that is larger than what is free aborts,
every other one succeeds.  Pixels take no part in this and are left out.

After a change of the windows all of them are drawn, which needs lists of the windows for a while:
`scratch n` is what the lists for `n` windows take at most, and is left open.
-/
import FabricOS.Descriptors
import FabricOS.ProcessTable

open Function Nat

namespace Fabric

/-- `HEAP_SIZE`, 16 MiB. -/
def heapSize : ℕ := 16 * 1024 * 1024

/-- The kernel heap, by the number of bytes in use. -/
structure KernelHeap where
  used : ℕ
  bounded : used ≤ heapSize

namespace KernelHeap

def empty : KernelHeap := ⟨0, Nat.zero_le _⟩

def alloc (heap : KernelHeap) (bytes : ℕ) : Exec KernelHeap :=
  if h : heap.used + bytes ≤ heapSize then .ok ⟨heap.used + bytes, h⟩ else .panic

def dealloc (heap : KernelHeap) (bytes : ℕ) : KernelHeap :=
  ⟨heap.used - bytes, (Nat.sub_le ..).trans heap.bounded⟩

end KernelHeap

/-! ### Surfaces -/

structure Surface where
  width : UInt32
  height : UInt32
  deriving DecidableEq

namespace Surface

def bytesOf (width height : UInt32) : ℕ := 4 * (width.toNat * height.toNat)

def sizeBytes (s : Surface) : ℕ := bytesOf s.width s.height

def new (heap : KernelHeap) (width height : UInt32) : Exec (KernelHeap × Option Surface) :=
  if width.toNat * height.toNat = 0 then .ok (heap, none)
  else do
    let heap ← heap.alloc (bytesOf width height)
    .ok (heap, some ⟨width, height⟩)

lemma new_of_ne_zero {width height : UInt32} (h : width.toNat * height.toNat ≠ 0)
    (heap : KernelHeap) : new heap width height = (do
      let heap ← heap.alloc (bytesOf width height)
      .ok (heap, some ⟨width, height⟩)) := if_neg h

end Surface

/-- `MAX_SURFACES`. -/
def maxSurfaces : ℕ := 8

structure SurfaceTable where
  slots : Fin maxSurfaces → Option Surface

namespace SurfaceTable

def new : SurfaceTable := ⟨fun _ => none⟩

def alloc (t : SurfaceTable) (heap : KernelHeap) (width height : UInt32) :
    Exec (SurfaceTable × KernelHeap × Option (Fin maxSurfaces)) :=
  match firstSlot fun i => (t.slots i).isNone with
  | none => .ok (t, heap, none)
  | some i => do
    let (heap, surface) ← Surface.new heap width height
    match surface with
    | none => .ok (t, heap, none)
    | some surface => .ok (⟨update t.slots i (some surface)⟩, heap, some i)

end SurfaceTable

/-! ### Windows -/

/-- `MAX_WINDOWS`. -/
def maxWindows : ℕ := 32

structure Window where
  id : UInt32
  ownerPid : ProcessId
  title : List UInt8
  x : Int32
  y : Int32
  width : UInt32
  height : UInt32
  zOrder : UInt32
  surface : Surface
  deriving DecidableEq

def Window.bytes (w : Window) : ℕ := w.title.length + w.surface.sizeBytes

structure WindowTable where
  slots : Fin maxWindows → Option Window
  nextId : UInt32
  focusedId : Option UInt32

namespace WindowTable

def new : WindowTable := ⟨fun _ => none, 1, none⟩

def find (t : WindowTable) (id : UInt32) : Option (Fin maxWindows × Window) := do
  let i ← firstSlot fun i => (t.slots i).any (·.id == id)
  let window ← t.slots i
  some (i, window)

lemma find_eq_some {t : WindowTable} {id : UInt32} {i : Fin maxWindows} {w : Window}
    (h : t.find id = some (i, w)) : t.slots i = some w := by
  simp only [find, Option.bind_eq_bind, Option.bind_eq_some_iff, Option.some.injEq,
    Prod.mk.injEq] at h
  obtain ⟨_, -, _, hslot, rfl, rfl⟩ := h
  exact hslot

def maxZ (t : WindowTable) : UInt32 :=
  (((List.finRange maxWindows).filterMap t.slots).map (·.zOrder)).foldl max 0

/-- Create a window; its title, which is on the heap already, is dropped with it. -/
def create (t : WindowTable) (heap : KernelHeap) (ownerPid : ProcessId) (title : List UInt8)
    (x y : Int32) (width height : UInt32) : Exec (WindowTable × KernelHeap × Option UInt32) :=
  match firstSlot fun i => (t.slots i).isNone with
  | none => .ok (t, heap.dealloc title.length, none)
  | some i => do
    let (heap, surface) ← Surface.new heap width height
    match surface with
    | none => .ok (t, heap.dealloc title.length, none)
    | some surface =>
      let window := { id := t.nextId, ownerPid, title, x, y, width, height, zOrder := t.maxZ + 1,
                      surface }
      .ok ({ t with slots := update t.slots i (some window), nextId := t.nextId + 1 },
        heap, some t.nextId)

def destroy (t : WindowTable) (heap : KernelHeap) (id : UInt32) : WindowTable × KernelHeap × Bool :=
  match t.find id with
  | none => (t, heap, false)
  | some (i, window) =>
    ({ t with
      slots := update t.slots i none
      focusedId := if t.focusedId = some id then none else t.focusedId },
      heap.dealloc window.bytes, true)

def count (t : WindowTable) : ℕ := slotSum (fun _ => 1) t.slots

end WindowTable

/-! ### The calls -/

structure WmKernel where
  heap : KernelHeap
  surfaces : SurfaceTable
  windows : WindowTable

/-- The calls, by their registers; with the bytes that the title pointer points to. -/
inductive WmCall
  | displayAllocSurface (rdi rsi : UInt64)
  | wmCreate (rdi rsi rdx r10 titlePtr : UInt64) (title : List UInt8)
  | wmDestroy (rdi : UInt64)
  | wmMoveResize (rdi rsi rdx r10 r8 : UInt64)

structure WmStep where
  current : Option ProcessId
  call : WmCall

def WmStep.owner (i : WmStep) : ProcessId := i.current.getD .kernel

/-- The title `Untitled`. -/
def untitled : List UInt8 := [85, 110, 116, 105, 116, 108, 101, 100]

def titleOf (title : List UInt8) : List UInt8 :=
  if 0 < title.length ∧ isUtf8 title then title else untitled

def dimensionsOk (limit width height : UInt32) : Bool :=
  1 ≤ width && width ≤ limit && 1 ≤ height && height ≤ limit

lemma area_ne_zero {limit width height : UInt32} (h : dimensionsOk limit width height = true) :
    width.toNat * height.toNat ≠ 0 := by
  simp only [dimensionsOk, Bool.and_eq_true, decide_eq_true_eq, UInt32.le_iff_toNat_le] at h
  obtain ⟨⟨⟨hw, -⟩, hh⟩, -⟩ := h
  exact mul_ne_zero (by simpa using one_le_iff_ne_zero.mp hw)
    (by simpa using one_le_iff_ne_zero.mp hh)

def Window.allows (w : Window) (owner : ProcessId) : Bool :=
  w.ownerPid == owner || owner == .kernel

namespace WmKernel

variable (scratch : ℕ → ℕ)

/-- Draw all windows; the lists of windows are dropped afterwards. -/
def composeAndPresent (k : WmKernel) : Exec WmKernel := do
  let heap ← k.heap.alloc (scratch k.windows.count)
  .ok { k with heap := heap.dealloc (scratch k.windows.count) }

def syscallDisplayAllocSurface (k : WmKernel) (width height : UInt32) : Exec (WmKernel × UInt64) :=
  if !dimensionsOk 4096 width height then .ok (k, u64Max)
  else do
    let (surfaces, heap, id) ← k.surfaces.alloc k.heap width height
    .ok ({ k with surfaces, heap }, (id.map fun i => .ofNat i.val).getD u64Max)

def sysWmCreate (k : WmKernel) (owner : ProcessId) (x y : Int32) (width height : UInt32)
    (titlePtr : UInt64) (title : List UInt8) : Exec (WmKernel × UInt64) :=
  if !dimensionsOk 2048 width height then .ok (k, u64Max)
  else if titlePtr ≥ userEnd ∨ title.length > 256 then .ok (k, u64Max)
  else do
    let heap ← k.heap.alloc (titleOf title).length
    let (windows, heap, id) ← k.windows.create heap owner (titleOf title) x y width height
    match id with
    | none => .ok ({ k with windows, heap }, u64Max)
    | some id => do
      let k ← { k with windows, heap }.composeAndPresent scratch
      .ok (k, id.toUInt64)

def sysWmDestroy (k : WmKernel) (owner : ProcessId) (id : UInt32) : Exec (WmKernel × UInt64) :=
  if !(k.windows.find id).any fun found => found.2.allows owner then .ok (k, u64Max)
  else
    match k.windows.destroy k.heap id with
    | (windows, heap, false) => .ok ({ k with windows, heap }, u64Max)
    | (windows, heap, true) => do
      let k ← { k with windows, heap }.composeAndPresent scratch
      .ok (k, 0)

def sysWmMoveResize (k : WmKernel) (owner : ProcessId) (id : UInt32) (x y : Int32)
    (width height : UInt32) : Exec (WmKernel × UInt64) :=
  if !dimensionsOk 2048 width height then .ok (k, u64Max)
  else
    match k.windows.find id with
    | none => .ok (k, u64Max)
    | some (i, window) =>
      if !window.allows owner then .ok (k, u64Max)
      else
        let window := { window with x, y }
        if width ≠ window.width ∨ height ≠ window.height then do
          let (heap, surface) ← Surface.new k.heap width height
          match surface with
          | none =>
            .ok ({ k with heap, windows := { k.windows with
              slots := update k.windows.slots i (some window) } }, u64Max)
          | some surface => do
            -- the old surface is dropped when it is replaced
            let heap := heap.dealloc window.surface.sizeBytes
            let k ← { k with heap, windows := { k.windows with
              slots := update k.windows.slots i
                (some { window with surface, width, height }) } }.composeAndPresent scratch
            .ok (k, 0)
        else do
          let k ← { k with windows := { k.windows with
            slots := update k.windows.slots i (some window) } }.composeAndPresent scratch
          .ok (k, 0)

def step (k : WmKernel) (i : WmStep) : Exec (WmKernel × UInt64) :=
  match i.call with
  | .displayAllocSurface rdi rsi => k.syscallDisplayAllocSurface rdi.toUInt32 rsi.toUInt32
  | .wmCreate rdi rsi rdx r10 titlePtr title =>
    k.sysWmCreate scratch i.owner rdi.toUInt32.toInt32 rsi.toUInt32.toInt32 rdx.toUInt32
      r10.toUInt32 titlePtr title
  | .wmDestroy rdi => k.sysWmDestroy scratch i.owner rdi.toUInt32
  | .wmMoveResize rdi rsi rdx r10 r8 =>
    k.sysWmMoveResize scratch i.owner rdi.toUInt32 rsi.toUInt32.toInt32 rdx.toUInt32.toInt32
      r10.toUInt32 r8.toUInt32

/-- No surfaces and no windows; the heap may be in use otherwise. -/
def boot (heap : KernelHeap) : WmKernel := ⟨heap, .new, .new⟩

/-! ### What the calls need -/

def live (k : WmKernel) : ℕ :=
  slotSum Surface.sizeBytes k.surfaces.slots + slotSum Window.bytes k.windows.slots

def surfaceSlot (k : WmKernel) : Bool := (firstSlot fun i => (k.surfaces.slots i).isNone).isSome

def windowSlot (k : WmKernel) : Bool := (firstSlot fun i => (k.windows.slots i).isNone).isSome

/-- The window of this number, if the process may change it. -/
def ownWindow (k : WmKernel) (owner : ProcessId) (id : UInt32) : Option Window :=
  ((k.windows.find id).map Prod.snd).filter (·.allows owner)

variable {id width height : UInt32} {owner : ProcessId}

lemma ownWindow_of_find {k : WmKernel} {id : UInt32} {i : Fin maxWindows} {w : Window}
    (h : k.windows.find id = some (i, w)) (owner : ProcessId) :
    k.ownWindow owner id = if w.allows owner then some w else none := by
  rw [ownWindow, h]
  rfl

lemma live_addSurface {k : WmKernel} {i : Fin maxSurfaces} (h : k.surfaces.slots i = none)
    (heap : KernelHeap) (s : Surface) :
    live ⟨heap, ⟨update k.surfaces.slots i (some s)⟩, k.windows⟩ = k.live + s.sizeBytes := by
  have hsum := slotSum_update (f := Surface.sizeBytes) k.surfaces.slots i (some s)
  simp only [h, Option.elim_none, Option.elim_some, add_zero] at hsum
  simp only [live, hsum]
  omega

lemma live_setWindow (k : WmKernel) (i : Fin maxWindows) (w : Option Window) (heap : KernelHeap)
    (nextId : UInt32) (focusedId : Option UInt32) :
    live ⟨heap, k.surfaces, ⟨update k.windows.slots i w, nextId, focusedId⟩⟩ +
      (k.windows.slots i).elim 0 Window.bytes = k.live + w.elim 0 Window.bytes := by
  have hsum := slotSum_update (f := Window.bytes) k.windows.slots i w
  simp only [live]
  omega

lemma count_setWindow (t : WindowTable) (i : Fin maxWindows) (w : Option Window)
    (nextId : UInt32) (focusedId : Option UInt32) :
    WindowTable.count ⟨update t.slots i w, nextId, focusedId⟩ +
      (t.slots i).elim 0 (fun _ => 1) = t.count + w.elim 0 (fun _ => 1) :=
  slotSum_update t.slots i w

/-- What a call allocates fits into the heap, `base` bytes of which are in use otherwise. -/
def fits (base : ℕ) (k : WmKernel) (i : WmStep) : Bool :=
  let room (bytes : ℕ) : Bool := base + bytes ≤ heapSize
  match i.call with
  | .displayAllocSurface rdi rsi =>
    !(dimensionsOk 4096 rdi.toUInt32 rsi.toUInt32 && k.surfaceSlot) ||
      room (k.live + Surface.bytesOf rdi.toUInt32 rsi.toUInt32)
  | .wmCreate _ _ rdx r10 titlePtr title =>
    !(dimensionsOk 2048 rdx.toUInt32 r10.toUInt32 && titlePtr < userEnd && title.length ≤ 256) ||
      room (k.live + (titleOf title).length + if k.windowSlot then
        Surface.bytesOf rdx.toUInt32 r10.toUInt32 + scratch (k.windows.count + 1) else 0)
  | .wmDestroy rdi =>
    match k.ownWindow i.owner rdi.toUInt32 with
    | none => true
    | some window => room (k.live - window.bytes + scratch (k.windows.count - 1))
  | .wmMoveResize rdi _ _ r10 r8 =>
    !dimensionsOk 2048 r10.toUInt32 r8.toUInt32 ||
      match k.ownWindow i.owner rdi.toUInt32 with
      | none => true
      | some window =>
        if r10.toUInt32 ≠ window.width ∨ r8.toUInt32 ≠ window.height then
          -- the new surface is allocated before the old one is dropped
          let new := Surface.bytesOf r10.toUInt32 r8.toUInt32
          room (k.live + new) &&
            room (k.live + new - window.surface.sizeBytes + scratch k.windows.count)
        else room (k.live + scratch k.windows.count)

def Accounts (base : ℕ) (k : WmKernel) : Prop := k.heap.used = base + k.live

/-- The outcome of a call that returns if `fit` is true, and aborts otherwise. -/
def Settles (base : ℕ) (fit : Bool) (x : Exec (WmKernel × UInt64)) : Prop :=
  if fit then x.Post fun r => Accounts base r.1 else x = .panic

variable {scratch} {base : ℕ} {k : WmKernel} {fit : Bool} {reply : UInt64}

lemma Settles.of_accounts (h : Accounts base k) (hfit : fit = true) :
    Settles base fit (.ok (k, reply)) := by
  rw [Settles, if_pos hfit]
  exact ⟨_, rfl, h⟩

lemma Settles.alloc {heap : KernelHeap} {bytes : ℕ} {f : KernelHeap → Exec (WmKernel × UInt64)}
    (hneeds : fit = true → heap.used + bytes ≤ heapSize)
    (hf : ∀ heap', heap'.used = heap.used + bytes → Settles base fit (f heap')) :
    Settles base fit (heap.alloc bytes >>= f) := by
  by_cases h : heap.used + bytes ≤ heapSize
  · rw [KernelHeap.alloc, dif_pos h]
    exact hf _ rfl
  have hfit : fit = false := by
    by_contra htrue
    exact h (hneeds (by simpa using htrue))
  rw [KernelHeap.alloc, dif_neg h, hfit]
  rfl

lemma Settles.compose (h : Accounts base k)
    (hfit : fit = true ↔ base + k.live + scratch k.windows.count ≤ heapSize) :
    Settles base fit (k.composeAndPresent scratch >>= fun k => .ok (k, reply)) := by
  rw [composeAndPresent, bind_assoc]
  refine Settles.alloc (fun htrue => ?_) (fun heap' hused => ?_)
  · rw [h]
    exact hfit.mp htrue
  refine Settles.of_accounts ?_ (hfit.mpr ?_)
  · show heap'.used - scratch k.windows.count = base + k.live
    rw [hused, h]
    omega
  · have hbounded := heap'.bounded
    rwa [hused, h] at hbounded

/-- A slot of the windows is set, and they are drawn. -/
lemma Settles.setWindow {i : Fin maxWindows} {w : Option Window} {heap : KernelHeap}
    {nextId : UInt32} {focusedId : Option UInt32}
    (hused : heap.used + (k.windows.slots i).elim 0 Window.bytes =
      base + k.live + w.elim 0 Window.bytes)
    (hfit : fit = true ↔ heap.used + scratch (k.windows.count + w.elim 0 (fun _ => 1) -
      (k.windows.slots i).elim 0 fun _ => 1) ≤ heapSize) :
    Settles base fit (composeAndPresent scratch
      ⟨heap, k.surfaces, ⟨update k.windows.slots i w, nextId, focusedId⟩⟩ >>= fun k =>
        .ok (k, reply)) := by
  have hlive := live_setWindow k i w heap nextId focusedId
  have hcount := count_setWindow k.windows i w nextId focusedId
  have haccounts : heap.used = base + live ⟨heap, k.surfaces,
      ⟨update k.windows.slots i w, nextId, focusedId⟩⟩ := by omega
  refine Settles.compose haccounts ?_
  rw [hfit, ← hcount, Nat.add_sub_cancel, haccounts]

lemma settles_displayAllocSurface (h : Accounts base k) {width height : UInt32}
    (hfit : fit = (!(dimensionsOk 4096 width height && k.surfaceSlot) ||
      decide (base + (k.live + Surface.bytesOf width height) ≤ heapSize))) :
    Settles base fit (k.syscallDisplayAllocSurface width height) := by
  rw [syscallDisplayAllocSurface]
  cases hok : dimensionsOk 4096 width height with
  | false => exact Settles.of_accounts h (by simp [hfit, hok])
  | true =>
    rw [if_neg (by simp), SurfaceTable.alloc]
    cases hslot : firstSlot fun i => (k.surfaces.slots i).isNone with
    | none => exact Settles.of_accounts h (by simp [hfit, surfaceSlot, hslot])
    | some i =>
      have hnone : k.surfaces.slots i = none := by simpa using (firstSlot_eq_some.mp hslot).1
      have hroom : fit = true ↔ base + (k.live + Surface.bytesOf width height) ≤ heapSize := by
        simp [hfit, hok, surfaceSlot, hslot]
      simp only [Surface.new_of_ne_zero (area_ne_zero hok), bind_assoc, Exec.ok_bind]
      refine Settles.alloc (fun htrue => ?_) (fun heap' hused => ?_)
      · rw [h, add_assoc]
        exact hroom.mp htrue
      rw [h, add_assoc] at hused
      refine Settles.of_accounts ?_ (hroom.mpr (hused ▸ heap'.bounded))
      rw [Accounts, live_addSurface hnone]
      exact hused

lemma settles_wmCreate (h : Accounts base k) {x y : Int32} {titlePtr : UInt64} {title : List UInt8}
    (hfit : fit = (!(dimensionsOk 2048 width height && titlePtr < userEnd && title.length ≤ 256) ||
      decide (base + (k.live + (titleOf title).length + if k.windowSlot then
        Surface.bytesOf width height + scratch (k.windows.count + 1) else 0) ≤ heapSize))) :
    Settles base fit (k.sysWmCreate scratch owner x y width height titlePtr title) := by
  rw [sysWmCreate]
  cases hok : dimensionsOk 2048 width height with
  | false => exact Settles.of_accounts h (by simp [hfit, hok])
  | true =>
    by_cases htitle : titlePtr ≥ userEnd ∨ title.length > 256
    · rw [if_pos htitle]
      refine Settles.of_accounts h ?_
      rw [hfit]
      rcases htitle with hptr | hlen
      · simp [hok, UInt64.not_lt.mpr hptr]
      · simp [hok, not_le.mpr hlen]
    · rw [if_neg htitle]
      rw [not_or, UInt64.not_le, not_lt] at htitle
      generalize titleOf title = stored at hfit ⊢
      have hroom : fit = true ↔ base + (k.live + stored.length + if k.windowSlot then
          Surface.bytesOf width height + scratch (k.windows.count + 1) else 0) ≤ heapSize := by
        simp [hfit, hok, htitle.1, htitle.2]
      refine Settles.alloc (fun htrue => ?_) (fun heap1 hused1 => ?_)
      · have hle := hroom.mp htrue
        rw [h]
        omega
      have hbounded1 := heap1.bounded
      rw [h] at hused1
      rw [WindowTable.create]
      cases hslot : firstSlot fun i => (k.windows.slots i).isNone with
      | none =>
        refine Settles.of_accounts ?_ ?_
        · show heap1.used - stored.length = base + k.live
          omega
        · rw [hroom, windowSlot, hslot, Option.isSome_none, if_neg Bool.false_ne_true]
          omega
      | some i =>
        have hnone : k.windows.slots i = none := by simpa using (firstSlot_eq_some.mp hslot).1
        simp only [Surface.new_of_ne_zero (area_ne_zero hok), bind_assoc, Exec.ok_bind]
        rw [windowSlot, hslot, Option.isSome_some, if_pos rfl] at hroom
        refine Settles.alloc (fun htrue => ?_) (fun heap2 hused2 => ?_)
        · have hle := hroom.mp htrue
          omega
        refine Settles.setWindow ?_ ?_ <;> rw [hnone]
        · show heap2.used + 0 = base + k.live + (stored.length + Surface.bytesOf width height)
          omega
        · rw [hroom, hused2, hused1]
          simp only [Option.elim_none, Option.elim_some, Nat.sub_zero]
          omega

lemma settles_wmDestroy (h : Accounts base k) (hfit : fit = match k.ownWindow owner id with
      | none => true
      | some window =>
        decide (base + (k.live - window.bytes + scratch (k.windows.count - 1)) ≤ heapSize)) :
    Settles base fit (k.sysWmDestroy scratch owner id) := by
  rw [sysWmDestroy]
  cases hfind : k.windows.find id with
  | none =>
    refine Settles.of_accounts h ?_
    simp [hfit, ownWindow, hfind]
  | some found =>
    obtain ⟨i, window⟩ := found
    have hslot := WindowTable.find_eq_some hfind
    rw [ownWindow_of_find hfind] at hfit
    cases hallows : window.allows owner with
    | false =>
      simp only [Option.any_some, hallows]
      exact Settles.of_accounts h (by rw [hfit, hallows]; rfl)
    | true =>
      rw [hallows, if_pos rfl] at hfit
      simp only [Option.any_some, hallows, WindowTable.destroy, hfind]
      have hlive := live_setWindow k i none k.heap 0 none
      rw [hslot] at hlive
      simp only [Option.elim_none, Option.elim_some, add_zero] at hlive
      have hused : (k.heap.dealloc window.bytes).used = base + (k.live - window.bytes) := by
        show k.heap.used - window.bytes = _
        rw [h]
        omega
      refine Settles.setWindow ?_ ?_ <;> rw [hslot, hused]
      · simp only [Option.elim_none, Option.elim_some]
        omega
      · simp only [hfit, decide_eq_true_eq, add_assoc, Option.elim_none, Option.elim_some, add_zero]

lemma settles_wmMoveResize (h : Accounts base k) {x y : Int32}
    (hfit : fit = (!dimensionsOk 2048 width height || match k.ownWindow owner id with
      | none => true
      | some window =>
        if width ≠ window.width ∨ height ≠ window.height then
          decide (base + (k.live + Surface.bytesOf width height) ≤ heapSize) &&
            decide (base + (k.live + Surface.bytesOf width height - window.surface.sizeBytes +
              scratch k.windows.count) ≤ heapSize)
        else decide (base + (k.live + scratch k.windows.count) ≤ heapSize))) :
    Settles base fit (k.sysWmMoveResize scratch owner id x y width height) := by
  rw [sysWmMoveResize]
  cases hok : dimensionsOk 2048 width height with
  | false => exact Settles.of_accounts h (by simp [hfit, hok])
  | true =>
    cases hfind : k.windows.find id with
    | none => exact Settles.of_accounts h (by simp [hfit, ownWindow, hfind])
    | some found =>
      obtain ⟨i, window⟩ := found
      have hslot := WindowTable.find_eq_some hfind
      rw [ownWindow_of_find hfind, hok, Bool.not_true, Bool.false_or] at hfit
      cases hallows : window.allows owner with
      | false =>
        simp only [hallows]
        exact Settles.of_accounts h (by rw [hfit, hallows]; rfl)
      | true =>
        rw [hallows, if_pos rfl] at hfit
        simp only [hallows] at hfit ⊢
        by_cases hchanged : width ≠ window.width ∨ height ≠ window.height
        · rw [if_pos hchanged] at hfit ⊢
          simp only [Surface.new_of_ne_zero (area_ne_zero hok), bind_assoc, Exec.ok_bind]
          rw [Bool.eq_iff_iff, Bool.and_eq_true, decide_eq_true_eq, decide_eq_true_eq] at hfit
          refine Settles.alloc (fun htrue => ?_) (fun heap' hused => ?_)
          · rw [h, add_assoc]
            exact (hfit.mp htrue).1
          have hbounded := heap'.bounded
          rw [h] at hused
          have hlive := live_setWindow k i none k.heap 0 none
          rw [hslot] at hlive
          simp only [Window.bytes, Option.elim_none, Option.elim_some, add_zero] at hlive
          have hdropped : (heap'.dealloc window.surface.sizeBytes).used =
              base + (k.live + Surface.bytesOf width height - window.surface.sizeBytes) := by
            show heap'.used - _ = _
            omega
          refine Settles.setWindow ?_ ?_ <;> rw [hslot, hdropped]
          · simp only [Window.bytes, Option.elim_some, Surface.sizeBytes] at hlive ⊢
            omega
          · simp only [hfit, Option.elim_some, Nat.add_sub_cancel, add_assoc]
            omega
        · rw [if_neg hchanged] at hfit ⊢
          refine Settles.setWindow ?_ ?_ <;> rw [hslot]
          · rw [h]
            rfl
          · rw [h, add_assoc]
            simp only [hfit, decide_eq_true_eq, Option.elim_some, Nat.add_sub_cancel]

lemma settles_step (scratch : ℕ → ℕ) (h : Accounts base k) (i : WmStep) :
    Settles base (fits scratch base k i) (k.step scratch i) := by
  obtain ⟨current, call⟩ := i
  cases call with
  | displayAllocSurface rdi rsi => exact settles_displayAllocSurface h rfl
  | wmCreate rdi rsi rdx r10 titlePtr title => exact settles_wmCreate h rfl
  | wmDestroy rdi => exact settles_wmDestroy h rfl
  | wmMoveResize rdi rsi rdx r10 r8 => exact settles_wmMoveResize h rfl

lemma accounts_boot (heap : KernelHeap) : Accounts heap.used (boot heap) := by
  simp [Accounts, boot, live, SurfaceTable.new, WindowTable.new]

/-- **Calls return** as long as each of them fits into what the surfaces and windows of the calls
before leave of the heap, and only as long. -/
theorem calls_return_iff (scratch : ℕ → ℕ) (heap : KernelHeap) (calls : List WmStep) :
    (Machine.run (step scratch) (boot heap) calls).returns = true ↔
      Machine.guarded (fits scratch heap.used) (step scratch) (boot heap) calls = true := by
  refine Machine.returns_iff_guarded (P := Accounts heap.used) (fun {k i} h hfits => ?_)
    (fun {k i} h hfits => ?_) calls (accounts_boot heap)
  · have hsettles := settles_step scratch h i
    rwa [Settles, hfits, if_pos rfl] at hsettles
  have hsettles := settles_step scratch h i
  rw [Settles, hfits, if_neg Bool.false_ne_true] at hsettles
  rw [hsettles]
  rfl

def megapixelWindows : List WmStep :=
  [⟨some 2, .wmCreate 0 0 1024 1024 0 []⟩, ⟨some 3, .wmCreate 0 0 1024 1024 0 []⟩,
    ⟨some 2, .wmCreate 0 0 1024 1024 0 []⟩, ⟨some 3, .wmCreate 0 0 1024 1024 0 []⟩]

/-- One call for a surface of accepted dimensions aborts; and so do four windows of a megapixel
each. -/
theorem large_surface_aborts :
    Machine.run (step fun _ => 0) (boot .empty) [⟨some 2, .displayAllocSurface 4096 4096⟩] =
        .panic ∧
      Machine.run (step fun _ => 0) (boot .empty) megapixelWindows = .panic := by
  constructor <;> rfl

end WmKernel

end Fabric
