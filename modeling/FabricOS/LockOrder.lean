/-
The order of locks (`sync/mod.rs`), for the calls that sign and verify.

Each lock has a level.  In a debug build `lock` records the level among those that are held, and
aborts unless it is above all of them.  Both the capability store and the key of
`hmac_engine.rs` are at the level of the store, which is below the level of the bus.
-/
import FabricOS.BusSend

namespace Fabric

open CapabilityStore

/-! ### Tracking -/

inductive LockOp
  | lock (level : ℕ)
  | unlock (level : ℕ)

/-- `MAX_HELD`. -/
def maxHeld : ℕ := 8

def pushLevel (held : List ℕ) (level : ℕ) : Exec (List ℕ) :=
  if held.any (level ≤ ·) then .panic
  else if held.length ≥ maxHeld then .panic
  else .ok (held ++ [level])

def popLevel (held : List ℕ) (level : ℕ) : List ℕ := held.erase level

/-- The levels that are held after some operations on locks. -/
def track : List ℕ → List LockOp → Exec (List ℕ)
  | held, [] => .ok held
  | held, .lock level :: ops => do
    let held ← pushLevel held level
    track held ops
  | held, .unlock level :: ops => track (popLevel held level) ops

/-- What is done while a lock is held. -/
def locked (level : ℕ) (ops : List LockOp) : List LockOp := .lock level :: ops ++ [.unlock level]

lemma track_append (held : List ℕ) (ops ops' : List LockOp) :
    track held (ops ++ ops') = track held ops >>= (track · ops') := by
  induction ops generalizing held with
  | nil => rfl
  | cons op ops ih =>
    cases op with
    | lock level =>
      rw [List.cons_append, track, track]
      cases pushLevel held level <;> first | rfl | exact ih _
    | unlock level => exact ih _

/-! ### The calls -/

def governanceLevel : ℕ := 5
def tableLevel : ℕ := 6
def storeLevel : ℕ := 7
def busLevel : ℕ := 9

/-- `sign` and `verify`. -/
def keyLocks : List LockOp := locked storeLevel []

namespace CapabilityStore

def createLocks (s : CapabilityStore) : List LockOp :=
  locked storeLevel (if s.tokens.len ≥ maxTokens then [] else keyLocks)

/-- The checks of `delegate` before the token is signed. -/
def Delegates (s : CapabilityStore) (parentId : UInt64) (permissions : Perm) : Prop :=
  s.tokens.len < maxTokens ∧ ∃ parent, s.tokens.get parentId = some parent ∧
    parent.token.permissions.contains Perm.grant = true ∧
    permissions.isSubsetOf parent.token.permissions = true

def delegateLocks (s : CapabilityStore) (parentId : UInt64) (permissions : Perm) : List LockOp :=
  locked storeLevel <|
    if s.tokens.len ≥ maxTokens then []
    else
      match s.tokens.get parentId with
      | none => []
      | some parent =>
        if !parent.token.permissions.contains Perm.grant then []
        else if !permissions.isSubsetOf parent.token.permissions then []
        else keyLocks

def validateLocks (s : CapabilityStore) (tokenId : UInt64) : List LockOp :=
  locked storeLevel <|
    match s.tokens.get tokenId with
    | none => []
    | some _ => keyLocks

end CapabilityStore

/-- The router comes to the point where it signs the message. -/
def BusRouter.signs (r : BusRouter) (header : MessageHeader) (payload : Option (List UInt8)) :
    Bool :=
  match r.checkRoute header payload with
  | .error _ => false
  | .ok data =>
    match r.sequences.check header.sender header.sequence with
    | .ok (_, .ok ()) => (stow r.arena data).isSome
    | _ => false

namespace Kernel

def policyLocks (c : Crypto) (k : Kernel) (header : MessageHeader) : List LockOp :=
  let g := k.governance
  if !g.initialized || g.breakGlass.active then locked governanceLevel []
  else
    let ctx := g.context header ((k.priorityOf header.sender).getD 0)
      (((k.store.getTokenInfo header.capabilityId).map fun info => ResourceId.kind info.2).getD 0)
    locked governanceLevel (locked tableLevel [] ++ locked storeLevel []) ++
      match (g.rules.evaluateWithAction ctx).1 with
      | .escalateToTier2 =>
        -- the lock is dropped for the council, and taken again to count a denial
        locked storeLevel [] ++
          if (k.evaluatePolicy c header).2.2.isOk then [] else locked governanceLevel []
      | _ => []

def sendLocks (c : Crypto) (k : Kernel) (header : MessageHeader) (payload : Option (List UInt8))
    (nonce : UInt32) : List LockOp :=
  k.policyLocks c header ++
    match (k.evaluatePolicy c header).2.2 with
    | .error _ => []
    | .ok () =>
      (if header.capabilityId ≠ 0 then
        k.store.validateLocks header.capabilityId ++
          match k.store.validate c header.capabilityId Perm.write nonce with
          | .ok (_, .ok ()) => locked storeLevel []
          | _ => []
      else []) ++
      match checkCapability c k.store header nonce with
      | .ok (_, .ok ()) =>
        locked busLevel (if k.router.signs header payload then keyLocks else [])
      | _ => []

end Kernel

/-- A call; the other arguments of the first three do not matter to the locks. -/
inductive LockCall
  | create
  | delegate (parentId : UInt64) (permissions : Perm)
  | validate (tokenId : UInt64)
  | send (header : MessageHeader) (payload : Option (List UInt8)) (nonce : UInt32)

namespace LockCall

def locks (c : Crypto) (k : Kernel) : LockCall → List LockOp
  | create => k.store.createLocks
  | delegate parentId permissions => k.store.delegateLocks parentId permissions
  | validate tokenId => k.store.validateLocks tokenId
  | send header payload nonce => k.sendLocks c header payload nonce

/-- The call comes to the point where it signs or verifies something. -/
def UsesKey (c : Crypto) (k : Kernel) : LockCall → Prop
  | create => k.store.tokens.len < maxTokens
  | delegate parentId permissions => k.store.Delegates parentId permissions
  | validate tokenId => (k.store.tokens.get tokenId).isSome
  | send header payload _ => (k.evaluatePolicy c header).2.2 = .ok () ∧
    if header.capabilityId ≠ 0 then (k.store.tokens.get header.capabilityId).isSome
    else k.router.signs header payload

end LockCall

/-! ### The order -/

lemma track_policyLocks (c : Crypto) (k : Kernel) (header : MessageHeader) :
    track [] (k.policyLocks c header) = .ok [] := by
  simp only [Kernel.policyLocks]
  split
  · rfl
  · split
    · split <;> rfl
    · rfl

/-- Signing or verifying while the lock of the store or of the bus is held aborts. -/
lemma track_locked_key {level : ℕ} (h : storeLevel ≤ level) (ops : List LockOp) :
    track [] (locked level keyLocks ++ ops) = .panic := by
  have hpush : pushLevel [level] storeLevel = .panic := by simp [pushLevel, h]
  change (pushLevel [level] storeLevel >>= _) = _
  rw [hpush]
  rfl

/-- The levels ascend, so that the check of the debug build passes, exactly in the calls that end
before they sign or verify anything. -/
theorem locks_ascend_iff (c : Crypto) (k : Kernel) (call : LockCall) :
    track [] (call.locks c k) = .ok [] ↔ ¬ call.UsesKey c k := by
  have hkey : ∀ {level}, storeLevel ≤ level → track [] (locked level keyLocks) = .panic :=
    fun h => by simpa using track_locked_key h []
  cases call with
  | create =>
    simp only [LockCall.locks, createLocks, LockCall.UsesKey]
    split <;> rename_i hfull
    · exact iff_of_true rfl (by omega)
    · exact iff_of_false (fun h => by cases h) (by omega)
  | delegate parentId permissions =>
    simp only [LockCall.locks, delegateLocks, LockCall.UsesKey, CapabilityStore.Delegates]
    split
    · exact iff_of_true rfl (by omega)
    split
    · exact iff_of_true rfl (by simp_all)
    split_ifs
    · exact iff_of_true rfl (by simp_all)
    · exact iff_of_true rfl (by simp_all)
    · exact iff_of_false (fun h => by cases h) (by simp_all)
  | validate tokenId =>
    simp only [LockCall.locks, validateLocks, LockCall.UsesKey]
    split
    · exact iff_of_true rfl (by simp_all)
    · exact iff_of_false (fun h => by cases h) (by simp_all)
  | send header payload nonce =>
    simp only [LockCall.locks, Kernel.sendLocks, LockCall.UsesKey, track_append,
      track_policyLocks, Exec.ok_bind]
    split
    · exact iff_of_true rfl (by simp_all)
    rename_i hpolicy
    simp only [hpolicy, true_and]
    split
    · rename_i hcap
      cases hget : k.store.tokens.get header.capabilityId with
      | none =>
        -- nothing is verified, and the call fails
        have hvalidate : k.store.validate c header.capabilityId Perm.write nonce =
            .ok (k.store, .error .notFound) := by simp [validate, hget]
        simp only [validateLocks, hget, hvalidate, Kernel.checkCapability, if_pos hcap]
        exact iff_of_true rfl (by simp)
      | some stored =>
        simp only [validateLocks, hget]
        exact iff_of_false (fun h => by cases h) (by simp)
    · rename_i hcap
      simp only [Kernel.checkCapability, hcap, if_false]
      by_cases hsigns : k.router.signs header payload = true
      · simp only [hsigns, if_true]
        exact iff_of_false (fun h => by cases h) (by simp)
      · simp only [hsigns]
        exact iff_of_true rfl (by simp)

/-- The first capability of a new store cannot be created in a debug build. -/
theorem create_violates_order : track [] CapabilityStore.new.createLocks = .panic := by
  decide +kernel

end Fabric
