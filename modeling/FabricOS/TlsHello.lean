/-
The first flight of the TLS client (`network/tls.rs`) and the generator behind it
(`random_bytes_32` of `network/crypto.rs`).

The generator hashes the tick counter together with a counter of its calls; but that counter is
a new variable in every call, so two calls in one tick return the same bytes.  A handshake
calls it twice: the first result is the private key, the second one is sent in the clear.

SHA-256 (an external crate) and the scalar multiplication are parameters.
-/
import FabricOS.NetTypes
import FabricOS.WireTypes

namespace Fabric

/-- `[u8; 32]`. -/
abbrev Bytes32 := Vector UInt8 32

/-- The functions that the handshake computes with. -/
structure TlsCrypto where
  sha256 : List UInt8 → Bytes32
  x25519 : Bytes32 → Bytes32 → Bytes32

inductive TlsError
  | socketError
  | socketClosed
  | timeout
  | recordTooLarge
  | unexpectedMessage
  | parseError
  | unsupportedCipher
  | decryptError
  | handshakeFailed
  | invalidSession
  | notReady
  | alertReceived
  | noSessions
  deriving DecidableEq

/-- A session, as far as the first flight fills it in. -/
structure TlsSession where
  socketId : SocketId
  clientPrivate : Bytes32
  /-- The handshake messages hashed so far. -/
  transcript : List UInt8
  deriving DecidableEq

/-- `MAX_TLS_SESSIONS`. -/
def maxTlsSessions : ℕ := 8

/-- `TLS_SESSIONS`. -/
abbrev TlsSessions := Fin maxTlsSessions → Option TlsSession

namespace Tls

/-! ### The generator -/

/-- What `random_bytes_32` hashes at a reading of the tick counter: the counter of calls is
local to the call. -/
def randomSeed (tick : UInt64) : List UInt8 :=
  let counter : UInt64 := 0
  let cnt := counter
  toLeBytes 8 tick.toNat ++ toLeBytes 8 cnt.toNat

def randomBytes32 (c : TlsCrypto) (tick : UInt64) : Bytes32 := c.sha256 (randomSeed tick)

lemma zero_lt_thirtyTwo : 0 < 32 := by decide

def x25519Basepoint : Bytes32 := (Vector.replicate 32 0).set 0 9 zero_lt_thirtyTwo

def x25519Keypair (c : TlsCrypto) (seed : Bytes32) : Bytes32 × Bytes32 :=
  (seed, c.x25519 seed x25519Basepoint)

/-! ### The ClientHello -/

def extension (extType : UInt16) (data : List UInt8) : List UInt8 :=
  toBe16 extType ++ toBe16 (.ofNat data.length) ++ data

/-- `EXT_SERVER_NAME`: a list of one name. -/
def serverName (hostname : List UInt8) : List UInt8 :=
  extension 0x0000 (toBe16 (.ofNat (3 + hostname.length)) ++ [0] ++
    toBe16 (.ofNat hostname.length) ++ hostname)

/-- `EXT_SUPPORTED_VERSIONS`: TLS 1.3. -/
def supportedVersions : List UInt8 := extension 0x002B ([2] ++ toBe16 0x0304)

/-- `EXT_KEY_SHARE`: the X25519 public key. -/
def keyShare (clientPublic : Bytes32) : List UInt8 :=
  extension 0x0033 (toBe16 36 ++ toBe16 0x001D ++ toBe16 32 ++ clientPublic.toList)

/-- `EXT_SIGNATURE_ALGORITHMS`. -/
def signatureAlgorithms : List UInt8 :=
  extension 0x000D (toBe16 8 ++ toBe16 0x0403 ++ toBe16 0x0804 ++ toBe16 0x0401 ++ toBe16 0x0501)

def sessionIdText : List UInt8 :=
  [102, 97, 98, 114, 105, 99, 45, 111, 115, 45, 115, 101, 115, 115, 105, 111, 110, 45, 105, 100]

def helloTail (c : TlsCrypto) (hostname : List UInt8) (clientPublic : Bytes32) : List UInt8 :=
  let sessionId := c.sha256 sessionIdText
  let extensions := serverName hostname ++ supportedVersions ++ keyShare clientPublic ++
    signatureAlgorithms
  [32] ++ sessionId.toList ++ toBe16 4 ++ toBe16 0x1303 ++ toBe16 0x1301 ++ [1, 0] ++
    toBe16 (.ofNat extensions.length) ++ extensions

/-- The message, with a random drawn at reading `tick`. -/
def buildClientHello (c : TlsCrypto) (tick : UInt64) (hostname : List UInt8)
    (clientPublic : Bytes32) : List UInt8 :=
  let hello := toBe16 0x0303 ++ (randomBytes32 c tick).toList ++ helloTail c hostname clientPublic
  [1, byteAt hello.length 2, byteAt hello.length 1, byteAt hello.length 0] ++ hello

def buildRecord (contentType : UInt8) (payload : List UInt8) : List UInt8 :=
  [contentType] ++ toBe16 0x0303 ++ toBe16 (.ofNat payload.length) ++ payload

/-! ### The first flight -/

/-- What the first flight leaves behind. -/
structure Hello where
  sessions : TlsSessions
  index : Fin maxTlsSessions
  /-- The private key of the handshake. -/
  privateKey : Bytes32
  /-- The record that is sent. -/
  record : List UInt8

/-- `tls_connect` until the ClientHello is sent; the generator is called at the readings `tick₁`
and `tick₂`. -/
def tlsHello (c : TlsCrypto) (sessions : TlsSessions) (sockId : SocketId) (hostname : List UInt8)
    (tick₁ tick₂ : UInt64) : Except TlsError Hello :=
  match firstSlot fun i => (sessions i).isNone with
  | none => .error .noSessions
  | some index =>
    let seed := randomBytes32 c tick₁
    let (privateKey, publicKey) := x25519Keypair c seed
    let clientHello := buildClientHello c tick₂ hostname publicKey
    let session := { socketId := sockId, clientPrivate := privateKey, transcript := clientHello }
    .ok { sessions := Function.update sessions index (some session), index, privateKey
          record := buildRecord 22 clientHello }

/-- The 32 bytes in the clear behind the headers of the record and of the message and the
version. -/
def clearRandom (record : List UInt8) : List UInt8 := (record.drop 11).take 32

variable {c : TlsCrypto} {sessions : TlsSessions} {sockId : SocketId} {hostname : List UInt8}
  {tick₁ tick₂ : UInt64} {hello : Hello}

lemma privateKey_tlsHello (h : tlsHello c sessions sockId hostname tick₁ tick₂ = .ok hello) :
    hello.privateKey = randomBytes32 c tick₁ := by
  rw [tlsHello] at h
  split at h
  · cases h
  · exact (congrArg Hello.privateKey (Except.ok.inj h)).symm

lemma clearRandom_tlsHello (h : tlsHello c sessions sockId hostname tick₁ tick₂ = .ok hello) :
    clearRandom hello.record = (randomBytes32 c tick₂).toList := by
  rw [tlsHello] at h
  split at h
  · cases h
  rw [← Except.ok.inj h]
  exact List.take_left' (Vector.length_toList)

/-! ### Freshness -/

lemma randomSeed_inj {a b : UInt64} (h : randomSeed a = randomSeed b) : a = b := by
  obtain ⟨htick, -⟩ := List.append_inj h (by simp)
  exact UInt64.toNat_inj.mp (toLeBytes_inj a.toNat_lt b.toNat_lt htick)

/-- For calls of the generator at these readings, in their order: two calls hash different inputs;
the random that a handshake sends is not its private key, whichever two calls it makes; and the
private keys of two handshakes differ. -/
def Fresh (c : TlsCrypto) (readings : List UInt64) : Prop :=
  readings.Pairwise (fun a b => randomSeed a ≠ randomSeed b) ∧
  readings.Pairwise (fun a b => ∀ sessions sockId hostname hello,
    tlsHello c sessions sockId hostname a b = .ok hello →
      clearRandom hello.record ≠ hello.privateKey.toList) ∧
  readings.Pairwise (fun a b => ∀ sessions sockId hostname tick hello sessions' sockId' hostname'
    tick' hello', tlsHello c sessions sockId hostname a tick = .ok hello →
      tlsHello c sessions' sockId' hostname' b tick' = .ok hello' →
      hello.privateKey ≠ hello'.privateKey)

/-- **Keys are secret and differ** exactly if no two calls of the generator read the same tick. -/
theorem keys_fresh_iff (c : TlsCrypto)
    (hinj : ∀ a b, c.sha256 (randomSeed a) = c.sha256 (randomSeed b) → randomSeed a = randomSeed b)
    (readings : List UInt64) (hmono : readings.Pairwise (· ≤ ·)) :
    Fresh c readings ↔ readings.Pairwise (· < ·) := by
  constructor
  · rintro ⟨hseeds, -, -⟩
    refine hmono.imp₂ (fun a b hle hne => ?_) hseeds
    exact UInt64.lt_of_le_of_ne hle fun heq => hne (heq ▸ rfl)
  · intro hstrict
    have hne : ∀ {a b : UInt64}, a < b → randomBytes32 c a ≠ randomBytes32 c b :=
      fun hlt heq => UInt64.ne_of_lt hlt (randomSeed_inj (hinj _ _ heq))
    refine ⟨hstrict.imp fun hlt heq => ?_, hstrict.imp fun hlt => ?_, hstrict.imp fun hlt => ?_⟩
    · exact UInt64.ne_of_lt hlt (randomSeed_inj heq)
    · intro sessions sockId hostname hello h heq
      rw [clearRandom_tlsHello h, privateKey_tlsHello h] at heq
      exact hne hlt (Vector.toList_inj.mp heq).symm
    · intro sessions sockId hostname tick hello sessions' sockId' hostname' tick' hello' h h' heq
      rw [privateKey_tlsHello h, privateKey_tlsHello h'] at heq
      exact hne hlt heq

/-- A stand-in for the hash that pads with zeros: injective on inputs of one length up to 32. -/
def padHash (bytes : List UInt8) : Bytes32 := Vector.ofFn fun i => bytes.getD i 0

lemma padHash_inj {a b : List UInt8} (ha : a.length ≤ 32) (hlen : a.length = b.length)
    (h : padHash a = padHash b) : a = b := by
  refine List.ext_getElem hlen fun i hi hi' => ?_
  have hat := congrArg (fun v : Bytes32 => v[(⟨i, by omega⟩ : Fin 32)]) h
  simpa [padHash, List.getD_eq_getElem, hi, hi'] using hat

def padCrypto : TlsCrypto where
  sha256 := padHash
  x25519 scalar _ := scalar

theorem two_ticks_fresh : Fresh padCrypto [1, 2] :=
  (keys_fresh_iff padCrypto
    (fun _ _ h => padHash_inj (by simp [randomSeed]) (by simp [randomSeed]) h)
    [1, 2] (by decide)).mpr (by decide)

/-- Both calls of one handshake in tick 7: the record holds the private key. -/
theorem one_tick_sends_key : ([7, 7] : List UInt64).Pairwise (· ≤ ·) ∧ ¬ Fresh padCrypto [7, 7] ∧
    ∃ hello, tlsHello padCrypto (fun _ => none) ⟨0⟩ [] 7 7 = .ok hello ∧
      clearRandom hello.record = hello.privateKey.toList := by
  refine ⟨by decide, fun h => ?_, _, rfl, rfl⟩
  exact (List.pairwise_cons.mp h.1).1 7 (by simp) rfl

end Tls

end Fabric
