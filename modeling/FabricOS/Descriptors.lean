/-
File descriptors (the file and socket calls of `x86/syscall.rs`, and `vfs/stdio.rs`).

A process names files and sockets by slots of its handle table.  A slot holds the number of an
open file, or the number of a socket with bit 63 set.  The calls get the slot only: they look
for a handle of generation 0 there, and the calls for files do not look at bit 63.
-/
import FabricOS.Handles
import FabricOS.NetworkStack
import FabricOS.Vfs

open Function Option Exec

namespace Fabric

open HandleId

/-- `SOCKET_FD_FLAG`. -/
def socketFdFlag : UInt64 := 0x8000000000000000

/-- `SERIAL_INODE_ID`. -/
def serialInodeId : InodeId := ⟨0xFFFFFFFE⟩

/-- `u64::MAX`. -/
def u64Max : UInt64 := 0xFFFFFFFFFFFFFFFF

/-- The end of user space; pointers are compared with it. -/
def userEnd : UInt64 := 0x0000800000000000

structure FdKernel where
  /-- The process that runs. -/
  current : Option ProcessId
  /-- The handle tables of the processes. -/
  handles : ProcessId → Option HandleTable
  vfs : Vfs
  net : NetStack

inductive SysData
  | none
  | bytes (data : List UInt8)
  | stat (buf : StatBuf)
  | dirents (entries : List DirentBuf)
  deriving DecidableEq

structure SysReply where
  rax : UInt64
  data : SysData
  /-- Bytes written to the serial port. -/
  serial : List UInt8
  deriving DecidableEq

namespace SysReply

def value (rax : UInt64) : SysReply := ⟨rax, .none, []⟩

def failed : SysReply := value u64Max

end SysReply

/-- The calls, with the bytes that their pointers point to. -/
inductive Syscall
  | open (pathPtr : UInt64) (path : List UInt8) (flags : UInt32)
  | read (fd bufPtr len : UInt64)
  | write (fd bufPtr : UInt64) (data : List UInt8)
  | close (fd : UInt64)
  | stat (pathPtr : UInt64) (path : List UInt8) (statBuf : UInt64)
  | fstat (fd statBuf : UInt64)
  | getdents (fd bufPtr len : UInt64)
  | socket (sockType protocol : UInt64)
  | bind (fd : UInt64) (addr : UInt32) (port : UInt16)
  | listen (fd : UInt64)
  | accept (fd : UInt64)
  | connect (fd : UInt64) (addr : UInt32) (port : UInt16)
  | send (fd bufPtr : UInt64) (data : List UInt8)
  | recv (fd bufPtr len : UInt64)
  | shutdown (fd : UInt64)
  | sendto (fd bufPtr : UInt64) (data : List UInt8) (addr : UInt32) (port : UInt16)

def Syscall.HandlesFds : Syscall → Prop
  | .open .. | .close .. | .socket .. | .accept .. => True
  | _ => False

namespace FdKernel

/-! ### Handles -/

def currentTable (k : FdKernel) : Option (ProcessId × HandleTable) := do
  let pid ← k.current
  let table ← k.handles pid
  some (pid, table)

def setTable (k : FdKernel) (pid : ProcessId) (table : HandleTable) : FdKernel :=
  { k with handles := update k.handles pid (some table) }

@[simp] lemma setTable_self (k : FdKernel) (pid : ProcessId) (table : HandleTable) :
    (k.setTable pid table).handles pid = some table := update_self ..

lemma setTable_of_ne (k : FdKernel) {pid q : ProcessId} (table : HandleTable) (h : q ≠ pid) :
    (k.setTable pid table).handles q = k.handles q := update_of_ne h ..

/-- The value in the slot of a descriptor: its low byte, in generation 0. -/
def resolveHandle (k : FdKernel) (fd : UInt64) : Option UInt64 := do
  let (_, table) ← k.currentTable
  (table.resolve (.pack fd.toUInt8 0)).toOption

def resolveFd (k : FdKernel) (fd : UInt64) : Option OpenFileId :=
  (k.resolveHandle fd).map fun capId => ⟨capId.toUInt32⟩

def resolveSocketFd (k : FdKernel) (fd : UInt64) : Option SocketId :=
  (k.resolveHandle fd).bind fun value =>
    if value &&& socketFdFlag != 0 then some ⟨(value &&& ~~~socketFdFlag).toUInt32⟩ else none

def allocHandle (k : FdKernel) (value : UInt64) : FdKernel × Option UInt64 :=
  match k.currentTable with
  | none => (k, none)
  | some (pid, table) =>
    match table.alloc value with
    | (table, .ok handle) => (k.setTable pid table, some (.ofNat handle.slot.val))
    | (_, .error _) => (k, none)

def fileValue (id : OpenFileId) : UInt64 := id.raw.toUInt64

def socketValue (id : SocketId) : UInt64 := id.raw.toUInt64 ||| socketFdFlag

lemma fileValue_and (id : OpenFileId) : fileValue id &&& socketFdFlag = 0 := by
  have hlt : id.raw.toNat < 2 ^ 63 := lt_trans id.raw.toNat_lt (by decide)
  apply UInt64.toNat_inj.mp
  exact (Nat.and_two_pow id.raw.toNat 63).trans (by simp [Nat.testBit_lt_two_pow hlt])

@[simp] lemma fileValue_toUInt32 (id : OpenFileId) : (fileValue id).toUInt32 = id.raw := by
  simp [fileValue]

lemma socketValue_and (id : SocketId) : socketValue id &&& socketFdFlag = socketFdFlag := by
  apply UInt64.eq_of_toBitVec_eq
  rw [socketValue, UInt64.toBitVec_and, UInt64.toBitVec_or]
  ext i hi
  grind

@[simp] lemma socketValue_toUInt32 (id : SocketId) : (socketValue id).toUInt32 = id.raw := by
  have hflag : socketFdFlag.toUInt32 = 0 := rfl
  rw [socketValue, UInt64.toUInt32_or, UInt32.toUInt32_toUInt64, hflag, UInt32.or_zero]

lemma socketValue_ne_fileValue (s : SocketId) (id : OpenFileId) : socketValue s ≠ fileValue id := by
  intro h
  have hand := congrArg (· &&& socketFdFlag) h
  simp only [socketValue_and, fileValue_and] at hand
  exact absurd hand (by decide)

/-! ### Calls on files -/

def syscallOpen (k : FdKernel) (path : List UInt8) (flags : UInt32) :
    Exec (FdKernel × SysReply) := do
  let (vfs, opened) ← k.vfs.vfsOpen path ⟨flags⟩
  let k := { k with vfs }
  match opened with
  | .error _ => .ok (k, .failed)
  | .ok id =>
    match k.currentTable with
    | none => .ok (k, .failed)
    | some (pid, table) =>
      match table.alloc (fileValue id) with
      | (table, .ok handle) => .ok (k.setTable pid table, .value (.ofNat handle.slot.val))
      -- no free slot: the open file is closed again
      | (_, .error _) => .ok ({ k with vfs := (k.vfs.vfsClose id).1 }, .failed)

def syscallRead (k : FdKernel) (fd : UInt64) (len : ℕ) : FdKernel × SysReply :=
  match k.resolveFd fd with
  | none => (k, .failed)
  | some id =>
    match k.vfs.vfsRead id len with
    | (vfs, .ok data) => ({ k with vfs }, ⟨.ofNat data.length, .bytes data, []⟩)
    | (vfs, .error _) => ({ k with vfs }, .failed)

/-- `SYS_WRITE` of other descriptors than 1 and 2. -/
def syscallVfsWrite (k : FdKernel) (fd : UInt64) (data : List UInt8) : Exec (FdKernel × SysReply) :=
  match k.resolveFd fd with
  | none => .ok (k, .failed)
  | some id =>
    if (k.vfs.openFiles.get id).any (·.inodeId == serialInodeId) then
      .ok (k, ⟨.ofNat data.length, .none, data⟩)
    else do
      let (vfs, written) ← k.vfs.vfsWrite id data
      match written with
      | .ok n => .ok ({ k with vfs }, .value (.ofNat n))
      | .error _ => .ok ({ k with vfs }, .failed)

def releaseFd (k : FdKernel) (fd : UInt64) : FdKernel :=
  match k.currentTable with
  | none => k
  | some (pid, table) => k.setTable pid (table.release (.pack fd.toUInt8 0)).1

def syscallClose (k : FdKernel) (fd : UInt64) : FdKernel × SysReply :=
  match k.resolveFd fd with
  | none => (k, .failed)
  | some id =>
    let k := k.releaseFd fd
    match k.vfs.vfsClose id with
    | (vfs, .ok ()) => ({ k with vfs }, .value 0)
    | (vfs, .error _) => ({ k with vfs }, .failed)

def syscallStat (k : FdKernel) (path : List UInt8) : Exec (FdKernel × SysReply) := do
  let stat ← k.vfs.vfsStat path
  match stat with
  | .ok buf => .ok (k, ⟨0, .stat buf, []⟩)
  | .error _ => .ok (k, .failed)

def syscallFstat (k : FdKernel) (fd : UInt64) : FdKernel × SysReply :=
  match k.resolveFd fd with
  | none => (k, .failed)
  | some id =>
    match k.vfs.vfsFstat id with
    | .ok buf => (k, ⟨0, .stat buf, []⟩)
    | .error _ => (k, .failed)

def syscallGetdents (k : FdKernel) (fd : UInt64) (len : ℕ) : FdKernel × SysReply :=
  match k.resolveFd fd with
  | none => (k, .failed)
  | some id =>
    match k.vfs.vfsReaddir id len with
    | (vfs, .ok entries) =>
      ({ k with vfs }, ⟨.ofNat (entries.length * DirentBuf.size), .dirents entries, []⟩)
    | (vfs, .error _) => ({ k with vfs }, .failed)

/-! ### Calls on sockets -/

def installSocket (k : FdKernel) : NetReply → FdKernel × SysReply
  | .socket id =>
    match k.allocHandle (socketValue id) with
    | (k, some fd) => (k, .value fd)
    | (k, none) => (k, .failed)
  | _ => (k, .failed)

/-- The number of a socket type or protocol, as the call gets it. -/
def socketTypeOf (n : UInt64) : Option SocketType :=
  if n = 1 then some .stream else if n = 2 then some .datagram else none

def protocolOf (n : UInt64) : Option Protocol :=
  if n = 6 then some .tcp else if n = 17 then some .udp else none

def syscallSocket (k : FdKernel) (sockType protocol : UInt64) : Exec (FdKernel × SysReply) :=
  match socketTypeOf sockType, protocolOf protocol with
  | some st, some proto => do
    let (net, out) ← k.net.perform (.create st proto (k.current.getD 0))
    .ok ({ k with net }.installSocket out.reply)
  | _, _ => .ok (k, .failed)

def syscallAccept (k : FdKernel) (fd : UInt64) (env : ℕ → Poll) : Exec (FdKernel × SysReply) :=
  match k.resolveSocketFd fd with
  | none => .ok (k, .failed)
  | some id => do
    let (net, reply) ← k.net.socketAccept id env
    .ok ({ k with net }.installSocket reply)

def netReply : NetReply → SysReply
  | .done => .value 0
  | .count n => .value (.ofNat n)
  | .bytes data => ⟨.ofNat data.length, .bytes data, []⟩
  | .socket _ | .failed _ => .failed

def syscallNet (k : FdKernel) (fd : UInt64) (env : ℕ → Poll) (op : SocketId → NetStack.Op) :
    Exec (FdKernel × SysReply) :=
  match k.resolveSocketFd fd with
  | none => .ok (k, .failed)
  | some id => do
    let (net, reply) ← k.net.op env (op id)
    .ok ({ k with net }, netReply reply)

/-! ### Dispatch -/

def checked (k : FdKernel) (accepted : Bool) (call : Exec (FdKernel × SysReply)) :
    Exec (FdKernel × SysReply) :=
  if accepted then call else .ok (k, .failed)

/-- A call of the running process, with what the polls of the card yield meanwhile. -/
def syscall (k : FdKernel) (env : ℕ → Poll) : Syscall → Exec (FdKernel × SysReply)
  | .open pathPtr path flags =>
    k.checked (pathPtr < userEnd && path.length ≤ 256) (k.syscallOpen path flags)
  | .read fd bufPtr len =>
    k.checked (bufPtr < userEnd && len < 4096) (.ok (k.syscallRead fd len.toNat))
  | .write fd bufPtr data =>
    k.checked (bufPtr < userEnd && data.length < 4096) <|
      if fd = 1 ∨ fd = 2 then .ok (k, ⟨.ofNat data.length, .none, data⟩)
      else k.syscallVfsWrite fd data
  | .close fd => .ok (k.syscallClose fd)
  | .stat pathPtr path statBuf =>
    k.checked (pathPtr < userEnd && path.length ≤ 256 && statBuf < userEnd) (k.syscallStat path)
  | .fstat fd statBuf => k.checked (statBuf < userEnd) (.ok (k.syscallFstat fd))
  | .getdents fd bufPtr len =>
    k.checked (bufPtr < userEnd && len < 65536) (.ok (k.syscallGetdents fd len.toNat))
  | .socket sockType protocol => k.syscallSocket sockType protocol
  | .bind fd addr port => k.syscallNet fd env (.bind · ⟨.fromU32 addr, port⟩)
  | .listen fd => k.syscallNet fd env .listen
  | .accept fd => k.syscallAccept fd env
  | .connect fd addr port => k.syscallNet fd env (.connect · ⟨.fromU32 addr, port⟩)
  | .send fd bufPtr data =>
    k.checked (bufPtr < userEnd && data.length ≤ 65536) (k.syscallNet fd env (.send · data))
  | .recv fd bufPtr len =>
    k.checked (bufPtr < userEnd && len ≤ 65536) (k.syscallNet fd env (.recv · len.toNat))
  | .shutdown fd => k.syscallNet fd env .shutdown
  | .sendto fd bufPtr data addr port =>
    k.checked (bufPtr < userEnd && data.length ≤ 65536)
      (k.syscallNet fd env (.sendto · data ⟨.fromU32 addr, port⟩))

/-! ### Processes -/

def openInode (k : FdKernel) (inodeId : InodeId) (flags : OpenFlags) :
    Exec (FdKernel × OpenFileId) :=
  match k.vfs.openFiles.alloc inodeId flags with
  | (openFiles, .ok id) => .ok ({ k with vfs := { k.vfs with openFiles } }, id)
  | (_, .error _) => .panic

/-- Store an open file in a handle of a process; errors are only logged. -/
def installFile (k : FdKernel) (pid : ProcessId) (id : OpenFileId) : FdKernel :=
  match k.handles pid with
  | none => k
  | some table => k.setTable pid (table.alloc (fileValue id)).1

/-- Open standard input, output and error of a process; the result lists them. -/
def setupStdio (k : FdKernel) (pid : ProcessId) : Exec (FdKernel × List OpenFileId) := do
  let (k, stdin) ← k.openInode k.vfs.devfs.nullInode .read
  let (k, stdout) ← k.openInode serialInodeId .write
  let (k, stderr) ← k.openInode serialInodeId .write
  .ok (((k.installFile pid stdin).installFile pid stdout).installFile pid stderr,
    [stdin, stdout, stderr])

/-- Start a process: a new table, with the three standard descriptors.  Process numbers are not
used twice. -/
def spawnUser (k : FdKernel) (pid : ProcessId) : Exec (FdKernel × List OpenFileId) :=
  match k.handles pid with
  | some _ => .ok (k, [])
  | none => (k.setTable pid .new).setupStdio pid

end FdKernel

/-- The steps of the system, as far as descriptors are concerned. -/
inductive FdStep
  | sys (call : Syscall) (env : ℕ → Poll)
  | schedule (pid : Option ProcessId)
  | spawn (pid : ProcessId)

def FdKernel.step (k : FdKernel) : FdStep → Exec (FdKernel × SysReply)
  | .sys call env => k.syscall env call
  | .schedule current => .ok ({ k with current }, .value 0)
  | .spawn pid => do
    let (k, _) ← k.spawnUser pid
    .ok (k, .value 0)

namespace FdKernel

variable {k k' : FdKernel} {fd : UInt64} {reply : SysReply}

/-! ### Resolution -/

def slotOf (fd : UInt64) : Fin maxHandles := fd.toUInt8.toFin

lemma slotOf_of_lt {j : Fin maxHandles} : slotOf (.ofNat j.val) = j := by
  have hj : j.val < 256 := j.isLt
  apply Fin.ext
  have hmod : j.val % 2 ^ 64 % 256 = j.val := by omega
  simpa [slotOf] using hmod

lemma ofNat_slotOf (h : fd < 256) : .ofNat (slotOf fd).val = fd := by
  have hlt : fd.toNat < 256 := UInt64.lt_iff_toNat_lt.mp h
  have hmod : fd.toNat % 256 = fd.toNat := Nat.mod_eq_of_lt hlt
  simp [slotOf, hmod]

lemma currentTable_eq_some {pid : ProcessId} {t : HandleTable} :
    k.currentTable = some (pid, t) ↔ k.current = some pid ∧ k.handles pid = some t := by
  simp only [currentTable, bind_eq_bind, bind_eq_some_iff, Option.some.injEq,
    Prod.mk.injEq]
  constructor
  · rintro ⟨_, hcur, _, ht, rfl, rfl⟩
    exact ⟨hcur, ht⟩
  · rintro ⟨hcur, ht⟩
    exact ⟨pid, hcur, t, ht, rfl, rfl⟩

lemma resolveHandle_eq_some {capId : UInt64} :
    k.resolveHandle fd = some capId ↔
      ∃ pid t, k.current = some pid ∧ k.handles pid = some t ∧ (t.entries (slotOf fd)).Live 0 ∧
        (t.entries (slotOf fd)).capId = capId := by
  have hresolve : ∀ t : HandleTable, (t.resolve (.pack fd.toUInt8 0)).toOption = some capId ↔
      (t.entries (slotOf fd)).Live 0 ∧ (t.entries (slotOf fd)).capId = capId := by
    intro t
    have hok := @HandleTable.resolve_eq_ok t capId (.pack fd.toUInt8 0)
    rw [slot_pack, generation_pack] at hok
    rw [slotOf, ← hok]
    cases t.resolve (.pack fd.toUInt8 0) <;> simp [Except.toOption]
  simp only [resolveHandle, bind_eq_bind, bind_eq_some_iff, hresolve]
  constructor
  · rintro ⟨⟨pid, t⟩, hcur, hlive⟩
    obtain ⟨hpid, ht⟩ := currentTable_eq_some.mp hcur
    exact ⟨pid, t, hpid, ht, hlive⟩
  · rintro ⟨pid, t, hpid, ht, hlive⟩
    exact ⟨(pid, t), currentTable_eq_some.mpr ⟨hpid, ht⟩, hlive⟩

/-! ### What the calls change -/

/-- Neither handles nor the set of open files change. -/
structure Quiet (k k' : FdKernel) : Prop where
  handles : k'.handles = k.handles
  files : Vfs.SameFiles k.vfs.openFiles k'.vfs.openFiles

lemma Quiet.refl (k : FdKernel) : Quiet k k := ⟨rfl, .refl _⟩

lemma quiet_of_checked {accepted : Bool} {call : Exec (FdKernel × SysReply)}
    (hcall : call = .ok (k', reply) → Quiet k k')
    (h : k.checked accepted call = .ok (k', reply)) : Quiet k k' := by
  rw [checked] at h
  split at h
  · exact hcall h
  · cases h
    exact .refl k

lemma quiet_syscallRead (k : FdKernel) (fd : UInt64) (len : ℕ) :
    Quiet k (k.syscallRead fd len).1 := by
  rw [syscallRead]
  split
  · exact .refl k
  · rename_i id _
    have hfiles := Vfs.vfsRead_sameFiles k.vfs id len
    split <;> rename_i hread <;> rw [hread] at hfiles <;> exact ⟨rfl, hfiles⟩

lemma quiet_syscallVfsWrite {data : List UInt8}
    (h : k.syscallVfsWrite fd data = .ok (k', reply)) : Quiet k k' := by
  rw [syscallVfsWrite] at h
  split at h
  · cases h
    exact .refl k
  split at h
  · cases h
    exact .refl k
  obtain ⟨⟨vfs, written⟩, hwrite, h⟩ := bind_eq_ok.mp h
  have hfiles := Vfs.vfsWrite_sameFiles hwrite
  cases written with
  | ok n | error e =>
    cases h
    exact ⟨rfl, hfiles⟩

lemma quiet_syscallGetdents (k : FdKernel) (fd : UInt64) (len : ℕ) :
    Quiet k (k.syscallGetdents fd len).1 := by
  rw [syscallGetdents]
  split
  · exact .refl k
  · rename_i id _
    have hfiles := Vfs.vfsReaddir_sameFiles k.vfs id len
    split <;> rename_i hread <;> rw [hread] at hfiles <;> exact ⟨rfl, hfiles⟩

lemma syscallStat_fst {path : List UInt8} (h : k.syscallStat path = .ok (k', reply)) : k' = k := by
  obtain ⟨stat, -, h⟩ := bind_eq_ok.mp h
  cases stat with
  | ok buf | error e => exact (Prod.mk.inj (ok.inj h)).1.symm

lemma syscallFstat_fst (k : FdKernel) (fd : UInt64) : (k.syscallFstat fd).1 = k := by
  rw [syscallFstat]
  split
  · rfl
  · split <;> rfl

lemma quiet_syscallNet {env : ℕ → Poll} {op : SocketId → NetStack.Op}
    (h : k.syscallNet fd env op = .ok (k', reply)) : Quiet k k' := by
  rw [syscallNet] at h
  split at h
  · cases h
    exact .refl k
  · obtain ⟨⟨net, r⟩, -, h⟩ := bind_eq_ok.mp h
    cases h
    exact ⟨rfl, .refl _⟩

lemma syscall_quiet {env : ℕ → Poll} {call : Syscall} (hcall : ¬ call.HandlesFds)
    (h : k.syscall env call = .ok (k', reply)) : Quiet k k' := by
  cases call with
  | «open» | close | socket | accept => exact absurd trivial hcall
  | read fd bufPtr len =>
    refine quiet_of_checked (fun hread => ?_) h
    rw [← (Prod.mk.inj (ok.inj hread)).1]
    exact quiet_syscallRead k fd len.toNat
  | write fd bufPtr data =>
    refine quiet_of_checked (fun hwrite => ?_) h
    split at hwrite
    · cases hwrite
      exact .refl k
    · exact quiet_syscallVfsWrite hwrite
  | stat pathPtr path statBuf =>
    exact quiet_of_checked (fun hstat => syscallStat_fst hstat ▸ .refl k) h
  | fstat fd statBuf =>
    refine quiet_of_checked (fun hstat => ?_) h
    have hfst : (k.syscallFstat fd).1 = k' := congrArg Prod.fst (ok.inj hstat)
    rw [← hfst, syscallFstat_fst]
    exact .refl k
  | getdents fd bufPtr len =>
    refine quiet_of_checked (fun hread => ?_) h
    rw [← (Prod.mk.inj (ok.inj hread)).1]
    exact quiet_syscallGetdents k fd len.toNat
  | bind | listen | connect | shutdown => exact quiet_syscallNet h
  | send | recv | sendto => exact quiet_of_checked quiet_syscallNet h

/-- **Opening** takes an entry of the table of open files and the first free slot of the running
process; without a slot the entry stays, if there is no table, or is freed again. -/
theorem syscallOpen_cases {path : List UInt8} {flags : UInt32}
    (h : k.syscallOpen path flags = .ok (k', reply)) :
    (k' = k ∧ reply = .failed) ∨
    ∃ vfs id, k.vfs.vfsOpen path ⟨flags⟩ = .ok (vfs, .ok id) ∧
      ((k.currentTable = none ∧ k' = { k with vfs } ∧ reply = .failed) ∨
        (k' = { k with vfs := (vfs.vfsClose id).1 } ∧ reply = .failed) ∨
        ∃ pid t t' handle, k.current = some pid ∧ k.handles pid = some t ∧
          t.alloc (fileValue id) = (t', .ok handle) ∧
          k' = { k with vfs }.setTable pid t' ∧ reply = .value (.ofNat handle.slot.val)) := by
  obtain ⟨⟨vfs, opened⟩, hopen, h⟩ := bind_eq_ok.mp h
  cases opened with
  | error e =>
    cases h
    left
    rw [Vfs.vfsOpen_error hopen]
    exact ⟨rfl, rfl⟩
  | ok id =>
    right
    refine ⟨vfs, id, hopen, ?_⟩
    simp only at h
    split at h
    · rename_i hcur
      cases h
      exact .inl ⟨hcur, rfl, rfl⟩
    rename_i pid t hcur
    obtain ⟨hpid, ht⟩ := currentTable_eq_some.mp hcur
    split at h
    · rename_i t' handle halloc
      cases h
      exact .inr (.inr ⟨pid, t, t', handle, hpid, ht, halloc, rfl, rfl⟩)
    · cases h
      exact .inr (.inl ⟨rfl, rfl⟩)

lemma installSocket_cases {r : NetReply} (h : k.installSocket r = (k', reply)) :
    (k' = k ∧ reply = .failed) ∨
    ∃ id pid t t' handle, k.current = some pid ∧ k.handles pid = some t ∧
      t.alloc (socketValue id) = (t', .ok handle) ∧
      k' = k.setTable pid t' ∧ reply = .value (.ofNat handle.slot.val) := by
  rw [installSocket.eq_def] at h
  split at h
  · rename_i id
    simp only [allocHandle] at h
    cases hcur : k.currentTable with
    | none =>
      simp only [hcur] at h
      exact .inl ⟨(Prod.mk.inj h).1.symm, (Prod.mk.inj h).2.symm⟩
    | some table =>
      obtain ⟨pid, t⟩ := table
      obtain ⟨hpid, ht⟩ := currentTable_eq_some.mp hcur
      rcases halloc : t.alloc (socketValue id) with ⟨t', e | handle⟩
      · simp only [hcur, halloc] at h
        exact .inl ⟨(Prod.mk.inj h).1.symm, (Prod.mk.inj h).2.symm⟩
      · simp only [hcur, halloc] at h
        exact .inr ⟨id, pid, t, t', handle, hpid, ht, halloc, (Prod.mk.inj h).1.symm,
          (Prod.mk.inj h).2.symm⟩
  · exact .inl ⟨(Prod.mk.inj h).1.symm, (Prod.mk.inj h).2.symm⟩

lemma syscallClose_of_entry {pid : ProcessId} {t : HandleTable} (hpid : k.current = some pid)
    (ht : k.handles pid = some t) (hlive : (t.entries (slotOf fd)).Live 0) :
    ∃ t', t'.entries = update t.entries (slotOf fd)
        { capId := 0, active := false, generation := 1 } ∧
      k.syscallClose fd = let closed := k.vfs.vfsClose ⟨(t.entries (slotOf fd)).capId.toUInt32⟩
        ({ k.setTable pid t' with vfs := closed.1 },
          match closed.2 with
          | .ok () => .value 0
          | .error _ => .failed) := by
  have hcur := currentTable_eq_some.mpr ⟨hpid, ht⟩
  have hresolve : k.resolveFd fd = some ⟨(t.entries (slotOf fd)).capId.toUInt32⟩ := by
    rw [resolveFd, resolveHandle_eq_some.mpr ⟨pid, t, hpid, ht, hlive, rfl⟩]
    rfl
  have hlive' : (t.entries (HandleId.pack fd.toUInt8 0).slot).Live
      (HandleId.pack fd.toUInt8 0).generation := by
    rwa [slot_pack, generation_pack]
  have hrelease := HandleTable.release_of_live hlive'
  rw [slot_pack, generation_pack] at hrelease
  refine ⟨(t.release (.pack fd.toUInt8 0)).1, by rw [hrelease]; rfl, ?_⟩
  simp only [syscallClose, hresolve, releaseFd, hcur, setTable]
  rcases k.vfs.vfsClose ⟨(t.entries (slotOf fd)).capId.toUInt32⟩ with ⟨vfs, e | u⟩ <;> rfl

end FdKernel

end Fabric
