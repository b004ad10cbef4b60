/-
The capability store (`capability/store.rs`, `nonce.rs`, `budget.rs`).

A store maps ids to tokens, each with its HMAC, budget, creation tick and two
intrusive links: `firstChild` heads the list of tokens delegated from it, and
`nextSibling` continues the list the token itself is in (0 ends a list).

Conventions.  Ticks are natural numbers.  An id must fit the `u64` key of the
table, so allocating past the last one aborts (`allocId`).  The loops that follow
links run for at most one iteration more than there are tokens, and `diverge` if
that is not enough; a list without repetitions always ends within it.  The stack
of `revoke` is a list whose head is the top of the `Vec`.
-/
import FabricOS.Machine
import FabricOS.Slab
import FabricOS.WireTypes

namespace Fabric

/-! ### Trackers -/

/-- The highest accepted nonce per capability id. -/
structure NonceTracker where
  lastSeen : Slab UInt32

namespace NonceTracker

def new : NonceTracker := ⟨Slab.new⟩

/-- Accept a nonce strictly above the last accepted one, and record it. -/
def checkAndAdvance (t : NonceTracker) (capId : UInt64) (nonce : UInt32) :
    Exec (NonceTracker × Bool) := do
  let (lastSeen, entry) ← t.lastSeen.getOrInsert capId 0 fun e => if nonce > e then nonce else e
  .ok (⟨lastSeen⟩, decide (nonce > entry))

def remove (t : NonceTracker) (capId : UInt64) : NonceTracker := ⟨(t.lastSeen.remove capId).1⟩

end NonceTracker

/-- Uses in the current interval and the tick it started, per capability id. -/
structure BudgetTracker where
  usage : Slab (ℕ × ℕ)

namespace BudgetTracker

def new : BudgetTracker := ⟨Slab.new⟩

def refresh (budget : Budget) (currentTick : ℕ) (entry : ℕ × ℕ) : ℕ × ℕ :=
  if currentTick - entry.2 ≥ budget.intervalTicks then (0, currentTick) else entry

def checkAndConsume (t : BudgetTracker) (capId : UInt64) (budget : Budget) (currentTick : ℕ) :
    Exec (BudgetTracker × Bool) := do
  let (usage, entry) ← t.usage.getOrInsert capId (0, currentTick) fun e =>
    let e := refresh budget currentTick e
    if e.1 < budget.maxUses then (e.1 + 1, e.2) else e
  .ok (⟨usage⟩, decide ((refresh budget currentTick entry).1 < budget.maxUses))

def remove (t : BudgetTracker) (capId : UInt64) : BudgetTracker := ⟨(t.usage.remove capId).1⟩

end BudgetTracker

/-! ### The store -/

/-- A token with the fields that never leave the kernel, apart from its links. -/
structure TokenData where
  token : CapabilityToken
  hmac : Digest
  budget : Option Budget
  createdAt : ℕ

/-- A token as it is stored: first child and next sibling by id, 0 for none. -/
structure StoredToken extends TokenData where
  firstChild : UInt64
  nextSibling : UInt64

/-- The token counts as expired at tick `tick`. -/
def TokenData.expiredAt (stored : TokenData) (tick : ℕ) : Bool :=
  stored.token.expires > 0 && stored.createdAt + stored.token.expires.toNat ≤ tick

inductive CapabilityError where
  | notFound
  | invalidHmac
  | expired
  | insufficientPermission
  | budgetExhausted
  | nonceReplay
  | delegationDenied
  | permissionEscalation
  | storeFull
  deriving DecidableEq

def maxTokens : ℕ := 12288

structure CapabilityStore where
  tokens : Slab StoredToken
  nextId : ℕ
  budgetTracker : BudgetTracker
  nonceTracker : NonceTracker
  currentTick : ℕ

namespace CapabilityStore

def new : CapabilityStore where
  tokens := Slab.new
  nextId := 1
  budgetTracker := BudgetTracker.new
  nonceTracker := NonceTracker.new
  currentTick := 0

/-- The next unique id; incrementing the `u64` counter past its end aborts. -/
def allocId (s : CapabilityStore) : Exec (UInt64 × CapabilityStore) :=
  if s.nextId + 1 < 2 ^ 64 then
    .ok (UInt64.ofNat s.nextId, { s with nextId := s.nextId + 1 })
  else .panic

/-- A signed token as `create` and `delegate` build it, with its place among its siblings. -/
def mint (c : Crypto) (s : CapabilityStore) (id : UInt64) (permissions : Perm) (owner : ProcessId)
    (resource : ResourceId) (delegatedFrom : UInt64) (expires : UInt32) (budget : Option Budget)
    (nextSibling : UInt64) : StoredToken :=
  let token : CapabilityToken :=
    { version := CapabilityToken.version1, permissions, owner, id, resource
      delegatedFrom, nonce := 0, expires }
  { token, hmac := c.hmac token.activeBytes, budget, createdAt := s.currentTick
    firstChild := 0, nextSibling }

def create (c : Crypto) (s : CapabilityStore) (resource : ResourceId) (permissions : Perm)
    (owner : ProcessId) (expires : Option UInt32) (budget : Option Budget) :
    Exec (CapabilityStore × Except CapabilityError CapabilityId) :=
  if s.tokens.len ≥ maxTokens then .ok (s, .error .storeFull)
  else do
    let (id, s) ← s.allocId
    let stored := s.mint c id permissions owner resource 0 (expires.getD 0) budget 0
    .ok ({ s with tokens := (s.tokens.insert id stored).1 }, .ok id)

/-- The expiry a child gets: the requested one, capped by the parent's number. -/
def childExpires (expires : Option UInt32) (parentExpires : UInt32) : UInt32 :=
  match expires with
  | some e => if parentExpires > 0 && e > parentExpires then parentExpires else e
  | none => parentExpires

/-- Delegate: create a child of `parentId`, at the head of its child list. -/
def delegate (c : Crypto) (s : CapabilityStore) (parentId : UInt64) (newOwner : ProcessId)
    (permissions : Perm) (expires : Option UInt32) (budget : Option Budget) :
    Exec (CapabilityStore × Except CapabilityError CapabilityId) :=
  if s.tokens.len ≥ maxTokens then .ok (s, .error .storeFull)
  else
    match s.tokens.get parentId with
    | none => .ok (s, .error .notFound)
    | some parent =>
      if !parent.token.permissions.contains Perm.grant then .ok (s, .error .delegationDenied)
      else if !permissions.isSubsetOf parent.token.permissions then
        .ok (s, .error .permissionEscalation)
      else do
        let (id, s) ← s.allocId
        let stored := s.mint c id permissions newOwner parent.token.resource parentId
          (childExpires expires parent.token.expires) budget parent.firstChild
        -- the child already points to the old head of the list; now the parent points to it
        let tokens := (s.tokens.insert id stored).1
        let tokens := (tokens.getMut parentId fun p => { p with firstChild := id }).1
        .ok ({ s with tokens }, .ok id)

/-- Validate a use: existence, HMAC, expiry, permission, then the two steps that
record it, nonce and budget. -/
def validate (c : Crypto) (s : CapabilityStore) (tokenId : UInt64) (requiredPerm : Perm)
    (presentedNonce : UInt32) : Exec (CapabilityStore × Except CapabilityError Unit) :=
  match s.tokens.get tokenId with
  | none => .ok (s, .error .notFound)
  | some stored =>
    if c.hmac stored.token.activeBytes ≠ stored.hmac then .ok (s, .error .invalidHmac)
    else if stored.expiredAt s.currentTick then .ok (s, .error .expired)
    else if !stored.token.permissions.contains requiredPerm then
      .ok (s, .error .insufficientPermission)
    else do
      -- the nonce is used up here, also when the budget then refuses
      let (nonceTracker, accepted) ← s.nonceTracker.checkAndAdvance tokenId presentedNonce
      let s := { s with nonceTracker }
      if !accepted then .ok (s, .error .nonceReplay)
      else
        match stored.budget with
        | none => .ok (s, .ok ())
        | some b => do
            let (budgetTracker, allowed) ← s.budgetTracker.checkAndConsume tokenId b s.currentTick
            let s := { s with budgetTracker }
            if !allowed then .ok (s, .error .budgetExhausted) else .ok (s, .ok ())

/-- The token after `id` in its sibling list; 0 at the end. -/
def nextSiblingOf (s : CapabilityStore) (id : UInt64) : UInt64 :=
  ((s.tokens.get id).map (·.nextSibling)).getD 0

def firstChildOf (s : CapabilityStore) (id : UInt64) : UInt64 :=
  ((s.tokens.get id).map (·.firstChild)).getD 0

/-- Walk to the predecessor of `childId` and link it past the child. -/
def unlinkFrom (s : CapabilityStore) (childId childNext : UInt64) :
    ℕ → UInt64 → Exec CapabilityStore
  | 0, _ => .diverge
  | fuel + 1, prevId =>
    if prevId = 0 then .ok s
    else if s.nextSiblingOf prevId = childId then
      .ok { s with
        tokens := (s.tokens.getMut prevId fun p => { p with nextSibling := childNext }).1 }
    else unlinkFrom s childId childNext fuel (s.nextSiblingOf prevId)

def unlinkChild (s : CapabilityStore) (parentId childId : UInt64) : Exec CapabilityStore :=
  let childNext := s.nextSiblingOf childId
  let parentFirst := s.firstChildOf parentId
  if parentFirst = childId then
    .ok { s with
      tokens := (s.tokens.getMut parentId fun p => { p with firstChild := childNext }).1 }
  else s.unlinkFrom childId childNext (s.tokens.len + 1) parentFirst

/-- The ids of the sibling list that starts at `childId`. -/
def collectFrom (s : CapabilityStore) : ℕ → UInt64 → Exec (List UInt64)
  | 0, _ => .diverge
  | fuel + 1, childId =>
    if childId = 0 then .ok []
    else do
      let rest ← collectFrom s fuel (s.nextSiblingOf childId)
      .ok (childId :: rest)

def collectChildren (s : CapabilityStore) (parentId : UInt64) : Exec (List UInt64) :=
  s.collectFrom (s.tokens.len + 1) (s.firstChildOf parentId)

def removeToken (s : CapabilityStore) (id : UInt64) : CapabilityStore :=
  { s with
    tokens := (s.tokens.remove id).1
    budgetTracker := s.budgetTracker.remove id
    nonceTracker := s.nonceTracker.remove id }

/-- Depth-first deletion: pop an id, push its children, remove it. -/
def revokeLoop : ℕ → CapabilityStore → List UInt64 → ℕ → Exec (CapabilityStore × ℕ)
  | 0, _, _, _ => .diverge
  | _ + 1, s, [], count => .ok (s, count)
  | fuel + 1, s, id :: stack, count => do
      let children ← s.collectChildren id
      -- the source's stack grows at its end, so the last child is popped first
      let stack := children.reverse ++ stack
      if (s.tokens.remove id).2.isSome then revokeLoop fuel (s.removeToken id) stack (count + 1)
      else revokeLoop fuel { s with tokens := (s.tokens.remove id).1 } stack count

/-- Revoke a token and all its descendants; the answer counts them. -/
def revoke (s : CapabilityStore) (tokenId : UInt64) :
    Exec (CapabilityStore × Except CapabilityError ℕ) :=
  match s.tokens.get tokenId with
  | none => .ok (s, .error .notFound)
  | some stored => do
      let parentId := stored.token.delegatedFrom
      let s ← (if parentId ≠ 0 then s.unlinkChild parentId tokenId else .ok s : Exec _)
      let (s, count) ← revokeLoop (s.tokens.len + 1) s [tokenId] 0
      .ok (s, .ok count)

def getTokenInfo (s : CapabilityStore) (tokenId : UInt64) : Option (ProcessId × ResourceId) :=
  (s.tokens.get tokenId).map fun t => (t.token.owner, t.token.resource)

def tick (s : CapabilityStore) : CapabilityStore := { s with currentTick := s.currentTick + 1 }

/-! ### The store as a machine -/

inductive Op where
  | create (resource : ResourceId) (permissions : Perm) (owner : ProcessId)
      (expires : Option UInt32) (budget : Option Budget)
  | delegate (parentId : UInt64) (newOwner : ProcessId) (permissions : Perm)
      (expires : Option UInt32) (budget : Option Budget)
  | validate (tokenId : UInt64) (requiredPerm : Perm) (presentedNonce : UInt32)
  | revoke (tokenId : UInt64)
  | tick

inductive Answer where
  | id (r : Except CapabilityError CapabilityId)
  | checked (r : Except CapabilityError Unit)
  | revoked (r : Except CapabilityError ℕ)
  | ticked

def step (c : Crypto) (s : CapabilityStore) : Op → Exec (CapabilityStore × Answer)
  | .create resource permissions owner expires budget => do
      let (s, r) ← s.create c resource permissions owner expires budget
      .ok (s, .id r)
  | .delegate parentId newOwner permissions expires budget => do
      let (s, r) ← s.delegate c parentId newOwner permissions expires budget
      .ok (s, .id r)
  | .validate tokenId requiredPerm presentedNonce => do
      let (s, r) ← s.validate c tokenId requiredPerm presentedNonce
      .ok (s, .checked r)
  | .revoke tokenId => do
      let (s, r) ← s.revoke tokenId
      .ok (s, .revoked r)
  | .tick => .ok (s.tick, .ticked)

def Reachable (c : Crypto) (s : CapabilityStore) : Prop :=
  Machine.Reachable (step c) new s

end CapabilityStore

end Fabric
