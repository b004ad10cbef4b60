/-
The handshake of the TLS client (`tls_connect` of `network/tls.rs`).

Everything after the ClientHello is driven by the server: records with a length, handshake
messages with a length inside them, and a ServerHello with a session id and extensions, again
with lengths.  Accesses to these bytes are checked (`index`, `slice`), as they are in the
source: one that is out of bounds is a panic of the kernel.

A connection is a parameter (`Transport`): what arrives, when, and whether the socket still
exists.  The cryptographic functions are parameters too.
-/
import FabricOS.Routine
import FabricOS.SocketBuffer
import FabricOS.TlsHello

open Function Nat Option

namespace Fabric

open Exec

/-! ### Checked accesses -/

namespace Tls

def index (data : List UInt8) (i : ℕ) : Exec UInt8 :=
  if h : i < data.length then .ok data[i] else .panic

/-- `data[start..stop]`. -/
def slice (data : List UInt8) (start stop : ℕ) : Exec (List UInt8) :=
  if start ≤ stop ∧ stop ≤ data.length then .ok ((data.take stop).drop start) else .panic

def u16At (data : List UInt8) (i : ℕ) : Exec UInt16 := do
  let b₀ ← index data i
  let b₁ ← index data (i + 1)
  .ok (be16 b₀ b₁)

def u24At (data : List UInt8) (i : ℕ) : Exec ℕ := do
  let b₀ ← index data i
  let b₁ ← index data (i + 1)
  let b₂ ← index data (i + 2)
  .ok (b₀.toNat * 65536 + b₁.toNat * 256 + b₂.toNat)

variable {data : List UInt8} {i : ℕ}

lemma index_of_lt (h : i < data.length) : index data i = .ok (data.getD i 0) := by
  rw [index, dif_pos h, List.getD_eq_getElem _ _ h]

lemma index_of_le (h : data.length ≤ i) : index data i = .panic :=
  dif_neg (not_lt.mpr h)

lemma slice_of_le {start stop : ℕ} (hle : start ≤ stop)
    (hstop : stop ≤ data.length) : slice data start stop = .ok ((data.take stop).drop start) :=
  if_pos ⟨hle, hstop⟩

lemma u16At_of_le (h : i + 2 ≤ data.length) :
    u16At data i = .ok (be16 (data.getD i 0) (data.getD (i + 1) 0)) := by
  rw [u16At, index_of_lt (by omega), ok_bind, index_of_lt (by omega), ok_bind]

/-- The number in the three bytes from `i` on. -/
def u24 (data : List UInt8) (i : ℕ) : ℕ :=
  (data.getD i 0).toNat * 65536 + (data.getD (i + 1) 0).toNat * 256 + (data.getD (i + 2) 0).toNat

lemma u24At_of_le (h : i + 3 ≤ data.length) : u24At data i = .ok (u24 data i) := by
  rw [u24At, index_of_lt (by omega), ok_bind, index_of_lt (by omega), ok_bind,
    index_of_lt (by omega), ok_bind, u24]

lemma u24At_of_lt (h : data.length < i + 3) : u24At data i = .panic := by
  unfold u24At
  obtain h0 | h0 := le_or_gt data.length i
  · rw [index_of_le h0, panic_bind]
  rw [index_of_lt h0, ok_bind]
  obtain h₁ | h₁ := le_or_gt data.length (i + 1)
  · rw [index_of_le h₁, panic_bind]
  rw [index_of_lt h₁, ok_bind, index_of_le (by omega), panic_bind]

end Tls

/-! ### Connections -/

/-- A TCP connection as the client uses it. -/
structure Transport (σ : Type) where
  /-- One pending packet is delivered. -/
  deliver : σ → σ
  /-- What is in the receive buffer, if the socket exists. -/
  rx : σ → Option (List UInt8)
  /-- So many bytes are taken from the receive buffer. -/
  take : σ → ℕ → σ
  /-- The bytes are sent, or refused. -/
  send : σ → List UInt8 → σ × Bool

abbrev Bytes12 := Vector UInt8 12

abbrev Bytes16 := Vector UInt8 16

/-- The functions of the record layer and of the key schedule. -/
structure TlsSuite extends TlsCrypto where
  hmacSha256 : List UInt8 → List UInt8 → Bytes32
  /-- Key, nonce, associated data, plaintext. -/
  aeadEncrypt : Bytes32 → Bytes12 → List UInt8 → List UInt8 → List UInt8 × Bytes16
  /-- Key, nonce, associated data, ciphertext, tag. -/
  aeadDecrypt : Bytes32 → Bytes12 → List UInt8 → List UInt8 → Bytes16 → Option (List UInt8)

inductive TlsState where
  | initial
  | clientHelloSent
  | serverHelloReceived
  | handshakeComplete
  | applicationData
  | closed
  | error
  deriving DecidableEq

/-- A session with all that the record layer uses. -/
structure TlsConnection extends TlsSession where
  state : TlsState
  clientAppKey : Bytes32
  clientAppIv : Bytes12
  serverAppKey : Bytes32
  serverAppIv : Bytes12
  clientSeq : UInt64
  serverSeq : UInt64

structure TlsWorld (σ : Type) where
  /-- `TLS_SESSIONS`. -/
  sessions : Fin maxTlsSessions → Option TlsConnection
  conns : SocketId → σ
  /-- What has been sent, oldest first. -/
  sent : List (SocketId × List UInt8)

abbrev TlsRoutine (σ α : Type) := Routine (TlsWorld σ) TlsError α

namespace Tls

variable {σ : Type}

/-! ### Sessions -/

def emptyConnection (sockId : SocketId) : TlsConnection where
  socketId := sockId
  clientPrivate := Vector.replicate 32 0
  transcript := []
  state := .initial
  clientAppKey := Vector.replicate 32 0
  clientAppIv := Vector.replicate 12 0
  serverAppKey := Vector.replicate 32 0
  serverAppIv := Vector.replicate 12 0
  clientSeq := 0
  serverSeq := 0

def allocSession (sockId : SocketId) : TlsRoutine σ (Fin maxTlsSessions) := fun w =>
  match firstSlot fun i => (w.sessions i).isNone with
  | none => .ok (.error .noSessions, w)
  | some i =>
    .ok (.ok i, { w with
      sessions := update w.sessions i (some (emptyConnection sockId)) })

def freeSession (idx : Fin maxTlsSessions) : TlsRoutine σ Unit :=
  Routine.modify fun w => { w with sessions := update w.sessions idx none }

def updateSession (idx : Fin maxTlsSessions) (f : TlsConnection → TlsConnection) :
    TlsRoutine σ Unit :=
  Routine.modify fun w =>
    { w with sessions := update w.sessions idx ((w.sessions idx).map f) }

def updateTranscript (idx : Fin maxTlsSessions) (message : List UInt8) : TlsRoutine σ Unit :=
  updateSession idx fun s => { s with transcript := s.transcript ++ message }

/-- The hash of the handshake so far; the session must exist. -/
def currentHash (c : TlsSuite) (idx : Fin maxTlsSessions) : TlsRoutine σ Bytes32 := fun w =>
  match w.sessions idx with
  | some s => .ok (.ok (c.sha256 s.transcript), w)
  | none => .panic

/-! ### Bytes from and to the connection -/

def recvAttempts : ℕ := 200000

/-- Poll a socket until `len` bytes are there; `got` are those already read. -/
def recvLoop (t : Transport σ) (sockId : SocketId) (len : ℕ) :
    ℕ → List UInt8 → TlsRoutine σ (List UInt8)
  | 0, _ => Routine.fail .timeout
  | attempts + 1, got => fun w =>
    let conn := t.deliver (w.conns sockId)
    let w := { w with conns := update w.conns sockId conn }
    match t.rx conn with
    | none => .ok (.error .socketClosed, w)
    | some buffered =>
      -- `RingBuffer::available` is the room in the ring, not what there is to read
      let avail := ringBufSize - buffered.length
      if avail > 0 then
        let toRead := min (len - got.length) avail
        -- the slice of the buffer that is filled
        if got.length + toRead ≤ len then
          let n := min toRead buffered.length
          let got := got ++ buffered.take n
          let w := { w with conns := update w.conns sockId (t.take conn n) }
          if got.length ≥ len then .ok (.ok got, w) else recvLoop t sockId len attempts got w
        else .panic
      else recvLoop t sockId len attempts got w

def tcpRecvExact (t : Transport σ) (sockId : SocketId) (len : ℕ) : TlsRoutine σ (List UInt8) :=
  recvLoop t sockId len recvAttempts []

def tcpSendRaw (t : Transport σ) (sockId : SocketId) (data : List UInt8) : TlsRoutine σ Unit :=
  fun w =>
    let (conn, accepted) := t.send (w.conns sockId) data
    let w := { w with conns := update w.conns sockId conn }
    if accepted then .ok (.ok (), { w with sent := w.sent ++ [(sockId, data)] })
    else .ok (.error .socketError, w)

def readTlsRecord (t : Transport σ) (sockId : SocketId) : TlsRoutine σ (UInt8 × List UInt8) := do
  -- the header is an array of five bytes
  let header ← tcpRecvExact t sockId 5
  let length := (be16 (header.getD 3 0) (header.getD 4 0)).toNat
  if length > 16384 + 256 then Routine.fail .recordTooLarge
  else do
    let payload ← tcpRecvExact t sockId length
    pure (header.getD 0 0, payload)

/-! ### Encrypted records -/

/-- The initialisation vector, with the sequence number over its last eight bytes. -/
def nonce (iv : Bytes12) (seq : UInt64) : Bytes12 :=
  Vector.ofFn fun i => if i.val < 4 then iv.get i else iv.get i ^^^ byteAt seq.toNat (11 - i)

def recordHeader (length : ℕ) : List UInt8 := [23, 0x03, 0x03, byteAt length 1, byteAt length 0]

def buildEncryptedRecord (c : TlsSuite) (key : Bytes32) (iv : Bytes12) (seq : UInt64)
    (innerType : UInt8) (payload : List UInt8) : List UInt8 :=
  let inner := payload ++ [innerType]
  let aad := recordHeader (inner.length + 16)
  let (ciphertext, tag) := c.aeadEncrypt key (nonce iv seq) aad inner
  aad ++ ciphertext ++ tag.toList

/-- An array of `n` bytes from a slice. -/
def toArray (n : ℕ) (l : List UInt8) : Vector UInt8 n := Vector.ofFn fun i => l.getD i 0

def decryptRecord (c : TlsSuite) (key : Bytes32) (iv : Bytes12) (seq : UInt64)
    (header encrypted : List UInt8) : Exec (Option (UInt8 × List UInt8)) :=
  if encrypted.length < 16 then .ok none
  else do
    let ctLen := encrypted.length - 16
    let ciphertext ← slice encrypted 0 ctLen
    let tag ← slice encrypted ctLen encrypted.length
    match c.aeadDecrypt key (nonce iv seq) header ciphertext (toArray 16 tag) with
    | none => .ok none
    | some plaintext =>
      match plaintext.getLast? with
      | none => .ok none
      | some innerType => do
        let inner ← slice plaintext 0 (plaintext.length - 1)
        .ok (some (innerType, inner))

lemma decryptRecord_returns (c : TlsSuite) (key : Bytes32) (iv : Bytes12) (seq : UInt64)
    (header encrypted : List UInt8) : ∃ r, decryptRecord c key iv seq header encrypted = .ok r := by
  unfold decryptRecord
  by_cases hshort : encrypted.length < 16
  · exact ⟨none, if_pos hshort⟩
  rw [if_neg hshort]
  dsimp only
  rw [slice_of_le (zero_le _) (sub_le _ _), ok_bind, slice_of_le (sub_le _ _) le_rfl, ok_bind]
  split
  · exact ⟨none, rfl⟩
  split
  · exact ⟨none, rfl⟩
  rw [slice_of_le (zero_le _) (sub_le _ _)]
  exact ⟨_, rfl⟩

/-! ### The ServerHello -/

structure ServerHelloData where
  serverRandom : List UInt8
  cipherSuite : UInt16
  serverPublicKey : Bytes32

/-- The key in an extension whose data starts at `pos`, if it is an X25519 key share. -/
def keyShareAt (data : List UInt8) (extType : UInt16) (extDataLen pos : ℕ) :
    Exec (Option Bytes32) :=
  if extType = 0x0033 ∧ extDataLen ≥ 36 then do
    let group ← u16At data pos
    let keyLen ← u16At data (pos + 2)
    if group = 0x001D ∧ keyLen = 32 then do
      let key ← slice data (pos + 4) (pos + 36)
      .ok (some (toArray 32 key))
    else .ok none
  else .ok none

/-- The last key share of the extensions from `pos` on, or else the key found before. -/
def findKeyShare (data : List UInt8) (extEnd : ℕ) :
    ℕ → ℕ → Option Bytes32 → Exec (Option Bytes32)
  | 0, _, _ => .diverge
  | fuel + 1, pos, found =>
    if pos + 4 ≤ extEnd ∧ pos + 4 ≤ data.length then do
      let extType ← u16At data pos
      let extDataLen ← u16At data (pos + 2)
      if pos + 4 + extDataLen.toNat > data.length then .ok found
      else do
        let key ← keyShareAt data extType extDataLen.toNat (pos + 4)
        findKeyShare data extEnd fuel (pos + 4 + extDataLen.toNat) (key <|> found)
    else .ok found

def parseServerHello (data : List UInt8) : Exec (Option ServerHelloData) :=
  if data.length < 38 then .ok none
  else do
    let serverRandom ← slice data 2 34
    let sessionIdLen ← index data 34
    let pos := 35 + sessionIdLen.toNat
    if pos + 2 > data.length then .ok none
    else do
      let cipherSuite ← u16At data pos
      -- the compression method is skipped
      let pos := pos + 3
      if pos + 2 > data.length then .ok none
      else do
        let extLen ← u16At data pos
        let pos := pos + 2
        let key ← findKeyShare data (pos + extLen.toNat) (data.length + 1) pos none
        .ok (key.map fun serverPublicKey => { serverRandom, cipherSuite, serverPublicKey })

lemma keyShareAt_returns {data : List UInt8} {extDataLen pos : ℕ} (extType : UInt16)
    (h : pos + extDataLen ≤ data.length) :
    ∃ key, keyShareAt data extType extDataLen pos = .ok key := by
  unfold keyShareAt
  split_ifs with hshare
  · rw [u16At_of_le (by omega), ok_bind, u16At_of_le (by omega), ok_bind]
    split_ifs
    · rw [slice_of_le (by omega) (by omega)]
      exact ⟨_, rfl⟩
    · exact ⟨none, rfl⟩
  · exact ⟨none, rfl⟩

lemma findKeyShare_returns (data : List UInt8) (extEnd : ℕ) :
    ∀ (fuel pos : ℕ) (found : Option Bytes32), data.length < fuel + pos → 0 < fuel →
      ∃ key, findKeyShare data extEnd fuel pos found = .ok key := by
  intro fuel
  induction fuel with
  | zero =>
    omega
  | succ fuel ih =>
    intro pos found hfuel _
    rw [findKeyShare]
    split_ifs with hmore
    · rw [u16At_of_le (by omega), ok_bind, u16At_of_le (by omega), ok_bind]
      split_ifs with hlong
      · exact ⟨found, rfl⟩
      · obtain ⟨key, hkey⟩ := keyShareAt_returns _ (not_lt.mp hlong)
        rw [hkey, ok_bind]
        exact ih _ _ (by omega) (by omega)
    · exact ⟨found, rfl⟩

lemma parseServerHello_returns (data : List UInt8) : ∃ r, parseServerHello data = .ok r := by
  unfold parseServerHello
  split_ifs with hshort
  · exact ⟨none, rfl⟩
  rw [slice_of_le (by omega) (by omega), ok_bind, index_of_lt (by omega), ok_bind]
  dsimp only
  split_ifs with hcipher hext
  · exact ⟨none, rfl⟩
  · rw [u16At_of_le (not_lt.mp hcipher)]
    exact ⟨none, rfl⟩
  rw [u16At_of_le (not_lt.mp hcipher), ok_bind, u16At_of_le (not_lt.mp hext), ok_bind]
  obtain ⟨key, hkey⟩ := findKeyShare_returns data _ (data.length + 1) _ none
    (lt_of_lt_of_le (lt_succ_self _) (le_add_right _ _)) (succ_pos _)
  rw [hkey]
  exact ⟨_, rfl⟩

/-! ### Keys -/

structure KeySchedule where
  handshakeSecret : Bytes32
  clientHsTrafficSecret : Bytes32
  serverHsTrafficSecret : Bytes32
  clientHsKey : Bytes32
  clientHsIv : Bytes12
  serverHsKey : Bytes32
  serverHsIv : Bytes12
  masterSecret : Bytes32

def hkdfExtract (c : TlsSuite) (salt ikm : List UInt8) : Bytes32 :=
  c.hmacSha256 (if salt.isEmpty then List.replicate 32 0 else salt) ikm

/-- `hkdf_expand_32` of the label with `tls13 ` before it. -/
def hkdfExpandLabel (c : TlsSuite) (secret : Bytes32) (label context : List UInt8)
    (length : UInt16) : Bytes32 :=
  let info := toBe16 length ++ [.ofNat (6 + label.length)] ++ [116, 108, 115, 49, 51, 32] ++
    label ++ [.ofNat context.length] ++ context
  c.hmacSha256 secret.toList (info ++ [0x01])

def deriveSecret (c : TlsSuite) (secret : Bytes32) (label : List UInt8) (hash : Bytes32) :
    Bytes32 := hkdfExpandLabel c secret label hash.toList 32

/-- `derived`. -/
def labelDerived : List UInt8 := [100, 101, 114, 105, 118, 101, 100]

/-- `c hs traffic`, and with other letters the labels of the other traffic secrets. -/
def labelTraffic (side stage₀ stage₁ : UInt8) : List UInt8 :=
  [side, 32, stage₀, stage₁, 32, 116, 114, 97, 102, 102, 105, 99]

/-- `key`. -/
def labelKey : List UInt8 := [107, 101, 121]

/-- `iv`. -/
def labelIv : List UInt8 := [105, 118]

/-- `finished`. -/
def labelFinished : List UInt8 := [102, 105, 110, 105, 115, 104, 101, 100]

def trafficKey (c : TlsSuite) (secret : Bytes32) : Bytes32 :=
  hkdfExpandLabel c secret labelKey [] 32

def trafficIv (c : TlsSuite) (secret : Bytes32) : Bytes12 :=
  toArray 12 (hkdfExpandLabel c secret labelIv [] 12).toList

def computeKeySchedule (c : TlsSuite) (sharedSecret helloHash : Bytes32) : KeySchedule :=
  let zeroKey := List.replicate 32 0
  let emptyHash := c.sha256 []
  let earlySecret := hkdfExtract c zeroKey zeroKey
  let derived := deriveSecret c earlySecret labelDerived emptyHash
  let handshakeSecret := hkdfExtract c derived.toList sharedSecret.toList
  let clientHs := deriveSecret c handshakeSecret (labelTraffic 99 104 115) helloHash
  let serverHs := deriveSecret c handshakeSecret (labelTraffic 115 104 115) helloHash
  let derived₂ := deriveSecret c handshakeSecret labelDerived emptyHash
  { handshakeSecret
    clientHsTrafficSecret := clientHs
    serverHsTrafficSecret := serverHs
    clientHsKey := trafficKey c clientHs
    clientHsIv := trafficIv c clientHs
    serverHsKey := trafficKey c serverHs
    serverHsIv := trafficIv c serverHs
    masterSecret := hkdfExtract c derived₂.toList zeroKey }

def appSecrets (c : TlsSuite) (masterSecret handshakeHash : Bytes32) : Bytes32 × Bytes32 :=
  (deriveSecret c masterSecret (labelTraffic 99 97 112) handshakeHash,
    deriveSecret c masterSecret (labelTraffic 115 97 112) handshakeHash)

/-! ### The handshake -/

/-- Handle the messages of a decrypted record from `pos` on; whether a Finished was among
them or had come before. -/
def handshakeMessages (idx : Fin maxTlsSessions) (inner : List UInt8) :
    ℕ → ℕ → Bool → TlsRoutine σ Bool
  | 0, _, _ => Routine.lift .diverge
  | fuel + 1, pos, gotFinished =>
    if pos + 4 ≤ inner.length then do
      let hsType ← Routine.lift (index inner pos)
      let hsLen ← Routine.lift (u24At inner (pos + 1))
      let msgEnd := pos + 4 + hsLen
      if msgEnd > inner.length then pure gotFinished
      else do
        let message ← Routine.lift (slice inner pos msgEnd)
        updateTranscript idx message
        -- the verify data is copied, and not looked at
        let _ ← Routine.lift
          (if hsType = 20 ∧ hsLen = 32 then slice inner (pos + 4) (pos + 36) else .ok [])
        handshakeMessages idx inner fuel msgEnd (gotFinished || hsType == 20)
    else pure gotFinished

/-- Read records, at most so many, until the server has finished. -/
def receiveFinished (c : TlsSuite) (t : Transport σ) (sockId : SocketId)
    (idx : Fin maxTlsSessions) (ks : KeySchedule) : ℕ → UInt64 → TlsRoutine σ Bool
  | 0, _ => pure false
  | records + 1, seq => do
    let (ct, payload) ← readTlsRecord t sockId
    if ct = 20 then receiveFinished c t sockId idx ks records seq
    else if ct = 23 then do
      let decrypted ← Routine.lift (decryptRecord c ks.serverHsKey ks.serverHsIv seq
        (recordHeader payload.length) payload)
      match decrypted with
      | none => do
        freeSession idx
        Routine.fail .decryptError
      | some (innerType, inner) =>
        if innerType ≠ 22 then receiveFinished c t sockId idx ks records (seq + 1)
        else do
          let gotFinished ← handshakeMessages idx inner (inner.length + 1) 0 false
          if gotFinished then pure true
          else receiveFinished c t sockId idx ks records (seq + 1)
    else receiveFinished c t sockId idx ks records seq

/-- The session that is set up, its private key, and the record that answers the ClientHello. -/
structure FirstFlight where
  idx : Fin maxTlsSessions
  privateKey : Bytes32
  contentType : UInt8
  payload : List UInt8

def exchangeHello (c : TlsSuite) (t : Transport σ) (sockId : SocketId) (hostname : List UInt8)
    (tick₁ tick₂ : UInt64) (idx : Fin maxTlsSessions) : TlsRoutine σ FirstFlight := do
  let (privateKey, publicKey) := x25519Keypair c.toTlsCrypto (randomBytes32 c.toTlsCrypto tick₁)
  let clientHello := buildClientHello c.toTlsCrypto tick₂ hostname publicKey
  updateSession idx fun s =>
    { s with clientPrivate := privateKey, transcript := s.transcript ++ clientHello }
  tcpSendRaw t sockId (buildRecord 22 clientHello)
  let (contentType, payload) ← readTlsRecord t sockId
  pure { idx, privateKey, contentType, payload }

/-- `tls_connect` until the answer to the ClientHello has been read. -/
def firstFlight (c : TlsSuite) (t : Transport σ) (sockId : SocketId) (hostname : List UInt8)
    (tick₁ tick₂ : UInt64) : TlsRoutine σ FirstFlight := do
  let idx ← allocSession sockId
  exchangeHello c t sockId hostname tick₁ tick₂ idx

def serverHelloOf (payload : List UInt8) : Exec (Option ServerHelloData) := do
  let shLen ← u24At payload 1
  let message ← slice payload 4 (4 + shLen)
  parseServerHello message

/-- `tls_connect` from the key exchange on. -/
def secondFlight (c : TlsSuite) (t : Transport σ) (sockId : SocketId) (first : FirstFlight)
    (hello : ServerHelloData) : TlsRoutine σ (Fin maxTlsSessions) := do
  updateTranscript first.idx first.payload
  let helloHash ← currentHash c first.idx
  let ks := computeKeySchedule c (c.x25519 first.privateKey hello.serverPublicKey) helloHash
  let gotFinished ← receiveFinished c t sockId first.idx ks 20 0
  if !gotFinished then do
    freeSession first.idx
    Routine.fail .handshakeFailed
  else do
    let handshakeHash ← currentHash c first.idx
    let (clientSecret, serverSecret) := appSecrets c ks.masterSecret handshakeHash
    let finishedKey := hkdfExpandLabel c ks.clientHsTrafficSecret labelFinished [] 32
    let verifyData := c.hmacSha256 finishedKey.toList handshakeHash.toList
    let finished := buildEncryptedRecord c ks.clientHsKey ks.clientHsIv 0 22
      ([20, 0, 0, 32] ++ verifyData.toList)
    tcpSendRaw t sockId (buildRecord 20 [1])
    tcpSendRaw t sockId finished
    updateSession first.idx fun s => { s with
      clientAppKey := trafficKey c clientSecret
      clientAppIv := trafficIv c clientSecret
      serverAppKey := trafficKey c serverSecret
      serverAppIv := trafficIv c serverSecret
      clientSeq := 0
      serverSeq := 0
      state := .applicationData }
    pure first.idx

def isServerHello (contentType : UInt8) (payload : List UInt8) : Bool :=
  contentType == 22 && payload.head? == some 2

/-- `tls_connect` once the ClientHello is answered. -/
def answered (c : TlsSuite) (t : Transport σ) (sockId : SocketId) (first : FirstFlight) :
    TlsRoutine σ (Fin maxTlsSessions) :=
  if !isServerHello first.contentType first.payload then do
    freeSession first.idx
    Routine.fail .unexpectedMessage
  else do
    let hello ← Routine.lift (serverHelloOf first.payload)
    match hello with
    | none => do
      freeSession first.idx
      Routine.fail .parseError
    | some hello =>
      if hello.cipherSuite ≠ 0x1303 ∧ hello.cipherSuite ≠ 0x1301 then do
        freeSession first.idx
        Routine.fail .unsupportedCipher
      else secondFlight c t sockId first hello

def tlsConnect (c : TlsSuite) (t : Transport σ) (sockId : SocketId) (hostname : List UInt8)
    (tick₁ tick₂ : UInt64) : TlsRoutine σ (Fin maxTlsSessions) := do
  let first ← firstFlight c t sockId hostname tick₁ tick₂
  answered c t sockId first

/-! ### What the handshake changes -/

open Routine

/-- Apart from one slot and one socket nothing changes, and the session in the slot stays on
the socket. -/
structure Frame (idx : Fin maxTlsSessions) (sock : SocketId) (w w' : TlsWorld σ) : Prop where
  sessions : ∀ i, i ≠ idx → w'.sessions i = w.sessions i
  socket : (∀ conn, w.sessions idx = some conn → conn.socketId = sock) →
    ∀ conn, w'.sessions idx = some conn → conn.socketId = sock
  conns : ∀ s, s ≠ sock → w'.conns s = w.conns s
  sent : ∃ records : List (List UInt8), w'.sent = w.sent ++ records.map (sock, ·)

instance (idx : Fin maxTlsSessions) (sock : SocketId) :
    Std.Refl (Frame idx sock : TlsWorld σ → TlsWorld σ → Prop) where
  refl _ := ⟨fun _ _ => rfl, fun h => h, fun _ _ => rfl, [], by simp⟩

instance (idx : Fin maxTlsSessions) (sock : SocketId) :
    IsTrans (TlsWorld σ) (Frame idx sock) where
  trans w₁ w₂ w₃ h₁ h₂ := by
    obtain ⟨records₁, hsent₁⟩ := h₁.sent
    obtain ⟨records₂, hsent₂⟩ := h₂.sent
    refine ⟨fun i hi => (h₂.sessions i hi).trans (h₁.sessions i hi),
      fun h => h₂.socket (h₁.socket h), fun s hs => (h₂.conns s hs).trans (h₁.conns s hs),
      records₁ ++ records₂, ?_⟩
    rw [hsent₂, hsent₁, List.map_append, List.append_assoc]

section Ends

variable {c : TlsSuite} {t : Transport σ} {idx : Fin maxTlsSessions} {sock : SocketId}
  {w w₀ w' : TlsWorld σ}

lemma frame_update {s : Option TlsConnection}
    (hs : (∀ conn, w.sessions idx = some conn → conn.socketId = sock) →
      ∀ conn, s = some conn → conn.socketId = sock) :
    Frame idx sock w { w with sessions := update w.sessions idx s } where
  sessions i hi := update_of_ne hi _ _
  socket h conn hconn := hs h conn ((update_self idx s w.sessions).symm.trans hconn)
  conns _ _ := rfl
  sent := ⟨[], by simp⟩

lemma frame_conn (w : TlsWorld σ) (conn : σ) :
    Frame idx sock w { w with conns := update w.conns sock conn } :=
  ⟨fun _ _ => rfl, fun h => h, fun _ hs => update_of_ne hs _ _, [], by simp⟩

lemma keeps_freeSession : Keeps (Frame idx sock) (freeSession idx : TlsRoutine σ Unit) :=
  Keeps.modify fun _ => frame_update fun _ _ h => absurd h (by simp)

lemma keeps_updateSession {f : TlsConnection → TlsConnection}
    (hf : ∀ s, (f s).socketId = s.socketId) :
    Keeps (Frame idx sock) (updateSession idx f : TlsRoutine σ Unit) := by
  refine Keeps.modify fun w => frame_update fun h conn hconn => ?_
  obtain ⟨s, hs, rfl⟩ := map_eq_some_iff.mp hconn
  rw [hf s]
  exact h s hs

lemma keeps_recvLoop (len : ℕ) : ∀ (attempts : ℕ) (got : List UInt8),
    Keeps (Frame idx sock) (recvLoop t sock len attempts got) := by
  intro attempts
  induction attempts with
  | zero => exact fun _ => Keeps.fail _
  | succ attempts ih =>
    intro got w w' r h
    have hdeliver : Frame idx sock w _ := frame_conn w (t.deliver (w.conns sock))
    unfold recvLoop at h
    dsimp only at h
    cases hrx : t.rx (t.deliver (w.conns sock)) with
    | none =>
      rw [hrx] at h
      cases h
      exact hdeliver
    | some buffered =>
      rw [hrx] at h
      dsimp only at h
      split_ifs at h
      · cases h
        exact IsTrans.trans _ _ _ hdeliver (frame_conn _ _)
      · exact IsTrans.trans _ _ _ (IsTrans.trans _ _ _ hdeliver (frame_conn _ _)) (ih _ h)
      · exact IsTrans.trans _ _ _ hdeliver (ih _ h)

lemma keeps_readTlsRecord : Keeps (Frame idx sock) (readTlsRecord t sock) := by
  refine (keeps_recvLoop 5 _ _).bind fun header => ?_
  dsimp only
  split_ifs
  · exact Keeps.fail _
  · exact (keeps_recvLoop _ _ _).bind fun payload => Keeps.pure _

lemma keeps_tcpSendRaw (data : List UInt8) : Keeps (Frame idx sock) (tcpSendRaw t sock data) := by
  intro w w' r h
  unfold tcpSendRaw at h
  dsimp only at h
  split_ifs at h
  · cases h
    exact ⟨fun _ _ => rfl, fun h => h, fun _ hs => update_of_ne hs _ _, [data], rfl⟩
  · cases h
    exact frame_conn w _

/-! ### How its parts end -/

def Present (idx : Fin maxTlsSessions) (w : TlsWorld σ) : Prop := (w.sessions idx).isSome = true

/-- The errors in which reading from the socket and writing to it end. -/
def ofSocket : TlsError → Bool
  | .socketError | .socketClosed | .timeout | .recordTooLarge => true
  | _ => false

def Holds (idx : Fin maxTlsSessions) (sock : SocketId) (w₀ w : TlsWorld σ) : Prop :=
  Frame idx sock w₀ w ∧ Present idx w

/-- The session is given up, unless the error is one of the socket. -/
def GivesUp (idx : Fin maxTlsSessions) (sock : SocketId) (w₀ : TlsWorld σ) (e : TlsError)
    (w : TlsWorld σ) : Prop :=
  Frame idx sock w₀ w ∧ (Present idx w ↔ ofSocket e = true)

def Holding {α : Type} (idx : Fin maxTlsSessions) (sock : SocketId) (w₀ : TlsWorld σ)
    (m : TlsRoutine σ α) : Prop :=
  Triple (Holds idx sock w₀) m (fun _ => Holds idx sock w₀) (GivesUp idx sock w₀)

lemma holding_of_keeps {α : Type} {m : TlsRoutine σ α} (hkeeps : Keeps (Frame idx sock) m)
    (h : Triple (Present idx) m (fun _ => Present idx)
      fun e w => Present idx w ∧ ofSocket e = true) :
    Holding idx sock w₀ m := by
  rintro w ⟨hframe, hw⟩
  obtain ⟨⟨r, w'⟩, hr, hpost⟩ := h w hw
  have hframe' : Frame idx sock w₀ w' := IsTrans.trans _ _ _ hframe (hkeeps hr)
  cases r with
  | ok a => exact ⟨_, hr, hframe', hpost⟩
  | error e => exact ⟨_, hr, hframe', iff_of_true hpost.1 hpost.2⟩

lemma recvLoop_triple (len : ℕ) : ∀ (attempts : ℕ) {got : List UInt8}, got.length ≤ len →
    Triple (Present idx) (recvLoop t sock len attempts got) (fun _ => Present idx)
      fun e w => Present idx w ∧ ofSocket e = true := by
  intro attempts
  induction attempts with
  | zero => exact fun _ => Triple.fail fun w hw => ⟨hw, rfl⟩
  | succ attempts ih =>
    intro got hgot w hw
    unfold recvLoop
    dsimp only
    cases hrx : t.rx (t.deliver (w.conns sock)) with
    | none => exact ⟨_, rfl, hw, rfl⟩
    | some buffered =>
      have hfits : got.length + min (len - got.length) (ringBufSize - buffered.length) ≤ len := by
        omega
      dsimp only
      split_ifs with hbuffered hfull
      · exact ⟨_, rfl, hw⟩
      · exact ih (by rw [List.length_append, List.length_take]; omega) _ hw
      · exact ih hgot _ hw

lemma tcpRecvExact_holding (len : ℕ) : Holding idx sock w₀ (tcpRecvExact t sock len) :=
  holding_of_keeps (keeps_recvLoop _ _ _) (recvLoop_triple len recvAttempts (zero_le len))

lemma readTlsRecord_holding : Holding idx sock w₀ (readTlsRecord t sock) := by
  refine Triple.bind (tcpRecvExact_holding 5) fun header => ?_
  dsimp only
  split_ifs
  · exact Triple.fail fun w hw => ⟨hw.1, iff_of_true hw.2 rfl⟩
  · exact Triple.bind (tcpRecvExact_holding _) fun payload => Triple.pure fun _ hw => hw

lemma tcpSendRaw_holding (data : List UInt8) : Holding idx sock w₀ (tcpSendRaw t sock data) := by
  refine holding_of_keeps (keeps_tcpSendRaw data) fun w hw => ?_
  unfold tcpSendRaw
  dsimp only
  split_ifs
  · exact ⟨_, rfl, hw⟩
  · exact ⟨_, rfl, hw, rfl⟩

lemma updateSession_holding {f : TlsConnection → TlsConnection}
    (hf : ∀ s, (f s).socketId = s.socketId) :
    Holding idx sock w₀ (updateSession idx f : TlsRoutine σ Unit) := by
  refine holding_of_keeps (keeps_updateSession hf) (Triple.modify fun w hw => ?_)
  simpa [Present] using hw

lemma freeSession_triple {α : Type} {Q : α → TlsWorld σ → Prop} {e : TlsError}
    (he : ofSocket e = false) :
    Triple (Holds idx sock w₀) (freeSession idx >>= fun _ => fail e) Q (GivesUp idx sock w₀) := by
  intro w hw
  refine ⟨_, rfl, IsTrans.trans _ _ _ hw.1 (keeps_freeSession rfl), ?_⟩
  simp [Present, he]

lemma currentHash_holding : Holding idx sock w₀ (currentHash c idx : TlsRoutine σ Bytes32) := by
  intro w hw
  obtain ⟨s, hs⟩ := isSome_iff_exists.mp hw.2
  exact ⟨(.ok _, w), by rw [currentHash, hs], hw⟩

lemma handshakeMessages_holding (inner : List UInt8) :
    ∀ (fuel pos : ℕ) (gotFinished : Bool), inner.length < fuel + pos → 0 < fuel →
      Holding idx sock w₀
        (handshakeMessages idx inner fuel pos gotFinished : TlsRoutine σ Bool) := by
  intro fuel
  induction fuel with
  | zero =>
    omega
  | succ fuel ih =>
    intro pos gotFinished hfuel _
    rw [handshakeMessages]
    split_ifs with hmore
    swap
    · exact Triple.pure fun _ hw => hw
    refine Triple.lift_bind (index_of_lt (by omega)) ?_
    refine Triple.lift_bind (u24At_of_le (by omega)) ?_
    dsimp only
    split_ifs with hlong hverify
    · exact Triple.pure fun _ hw => hw
    · refine Triple.lift_bind (slice_of_le (by omega) (by omega)) ?_
      refine Triple.bind (updateSession_holding fun _ => rfl) fun _ => ?_
      exact Triple.lift_bind (slice_of_le (by omega) (by omega)) (ih _ _ (by omega) (by omega))
    · refine Triple.lift_bind (slice_of_le (by omega) (by omega)) ?_
      refine Triple.bind (updateSession_holding fun _ => rfl) fun _ => ?_
      exact Triple.lift_bind rfl (ih _ _ (by omega) (by omega))

lemma receiveFinished_holding (ks : KeySchedule) : ∀ (records : ℕ) (seq : UInt64),
    Holding idx sock w₀ (receiveFinished c t sock idx ks records seq) := by
  intro records
  induction records with
  | zero => exact fun _ => Triple.pure fun _ hw => hw
  | succ records ih =>
    intro seq
    refine Triple.bind readTlsRecord_holding fun record => ?_
    dsimp only
    split_ifs
    · exact ih seq
    · obtain ⟨decrypted, hdecrypted⟩ := decryptRecord_returns c ks.serverHsKey ks.serverHsIv seq
        (recordHeader record.2.length) record.2
      refine Triple.lift_bind hdecrypted ?_
      cases decrypted with
      | none => exact freeSession_triple rfl
      | some r =>
        dsimp only
        split_ifs
        · exact ih _
        refine Triple.bind (handshakeMessages_holding _ _ _ _ (by omega) (by omega))
          fun gotFinished => ?_
        cases gotFinished with
        | true => exact Triple.pure fun _ hw => hw
        | false => exact ih _
    · exact ih seq

lemma secondFlight_triple (first : FirstFlight) (hello : ServerHelloData) :
    Triple (Holds first.idx sock w₀) (secondFlight c t sock first hello)
      (fun i w => i = first.idx ∧ Frame first.idx sock w₀ w) (GivesUp first.idx sock w₀) := by
  refine Triple.bind (updateSession_holding fun _ => rfl) fun _ => ?_
  refine Triple.bind currentHash_holding fun helloHash => ?_
  refine Triple.bind (receiveFinished_holding _ 20 0) fun gotFinished => ?_
  cases gotFinished with
  | false => exact freeSession_triple rfl
  | true =>
    refine Triple.bind currentHash_holding fun handshakeHash => ?_
    refine Triple.bind (tcpSendRaw_holding _) fun _ => ?_
    refine Triple.bind (tcpSendRaw_holding _) fun _ => ?_
    refine Triple.bind (updateSession_holding fun _ => rfl) fun _ => ?_
    exact Triple.pure fun _ hw => ⟨rfl, hw.1⟩

lemma exchangeHello_triple (hostname : List UInt8) (tick₁ tick₂ : UInt64) :
    Triple (Holds idx sock w₀) (exchangeHello c t sock hostname tick₁ tick₂ idx)
      (fun first w => first.idx = idx ∧ Holds idx sock w₀ w) (GivesUp idx sock w₀) := by
  refine Triple.bind (updateSession_holding fun _ => rfl) fun _ => ?_
  refine Triple.bind (tcpSendRaw_holding _) fun _ => Triple.bind readTlsRecord_holding fun _ => ?_
  exact Triple.pure fun _ hw => ⟨rfl, hw⟩

/-- The handshake fails before the answer is read, perhaps with a session, or it holds one. -/
lemma firstFlight_cases (c : TlsSuite) (t : Transport σ) (sock : SocketId)
    (hostname : List UInt8) (tick₁ tick₂ : UInt64) (w : TlsWorld σ) :
    (∃ e w', firstFlight c t sock hostname tick₁ tick₂ w = .ok (.error e, w') ∧
      ((w' = w ∧ e = .noSessions) ∨ ∃ idx, w.sessions idx = none ∧ GivesUp idx sock w e w')) ∨
    ∃ first w', firstFlight c t sock hostname tick₁ tick₂ w = .ok (.ok first, w') ∧
      w.sessions first.idx = none ∧ Holds first.idx sock w w' := by
  unfold firstFlight
  cases hslot : firstSlot fun i => (w.sessions i).isNone with
  | none =>
    have halloc : allocSession sock w = .ok (.error .noSessions, w) := by rw [allocSession, hslot]
    exact .inl ⟨_, w, bind_of_error halloc, .inl ⟨rfl, rfl⟩⟩
  | some idx =>
    have hfree : w.sessions idx = none :=
      isNone_iff_eq_none.mp (firstSlot_eq_some.mp hslot).1
    have halloc : allocSession sock w = .ok (.ok idx, { w with
        sessions := update w.sessions idx (some (emptyConnection sock)) }) := by
      rw [allocSession, hslot]
    have hframe : Frame idx sock w { w with
        sessions := update w.sessions idx (some (emptyConnection sock)) } := by
      refine frame_update fun _ conn hconn => ?_
      cases hconn
      rfl
    rw [bind_of_ok halloc]
    obtain ⟨⟨r, w'⟩, hr, hpost⟩ :=
      exchangeHello_triple hostname tick₁ tick₂ _ ⟨hframe, by simp [Present]⟩
    cases r with
    | error e => exact .inl ⟨e, w', hr, .inr ⟨idx, hfree, hpost⟩⟩
    | ok first =>
      obtain ⟨rfl, hholds⟩ := hpost
      exact .inr ⟨first, w', hr, hfree, hholds⟩

end Ends

/-! ### The length of the ServerHello -/

def framed (payload : List UInt8) : Bool :=
  4 ≤ payload.length && 4 + u24 payload 1 ≤ payload.length

lemma serverHelloOf_returns_iff (payload : List UInt8) :
    (serverHelloOf payload).returns = true ↔ framed payload = true := by
  unfold serverHelloOf
  obtain hshort | hheader := lt_or_ge payload.length 4
  · rw [u24At_of_lt (by omega), panic_bind]
    simp [returns, framed, hshort]
  rw [u24At_of_le (by omega), ok_bind]
  obtain hfits | hlong := le_or_gt (4 + u24 payload 1) payload.length
  · obtain ⟨r, hr⟩ := parseServerHello_returns ((payload.take (4 + u24 payload 1)).drop 4)
    rw [slice_of_le (by omega) hfits, ok_bind, hr]
    simp [returns, framed, hheader, hfits]
  · have hslice : slice payload 4 (4 + u24 payload 1) = .panic := if_neg fun h => by omega
    rw [hslice, panic_bind]
    simp [returns, framed, hlong]

section Answered

variable {c : TlsSuite} {t : Transport σ} {sock : SocketId} {first : FirstFlight}
  {w₀ w : TlsWorld σ}

lemma answered_triple
    (h : isServerHello first.contentType first.payload = true → framed first.payload = true) :
    Triple (Holds first.idx sock w₀) (answered c t sock first)
      (fun i w => i = first.idx ∧ Frame first.idx sock w₀ w) (GivesUp first.idx sock w₀) := by
  unfold answered
  cases hhello : isServerHello first.contentType first.payload with
  | false => exact freeSession_triple rfl
  | true =>
    obtain ⟨hello, hserver⟩ := returns_iff.mp ((serverHelloOf_returns_iff _).mpr (h hhello))
    refine Triple.lift_bind hserver ?_
    cases hello with
    | none => exact freeSession_triple rfl
    | some hello =>
      dsimp only
      split_ifs
      · exact freeSession_triple rfl
      · exact secondFlight_triple first hello

lemma answered_returns_iff (hw : Holds first.idx sock w₀ w) :
    (answered c t sock first w).returns = true ↔
      (isServerHello first.contentType first.payload = true → framed first.payload = true) := by
  refine ⟨fun hreturns hhello => ?_, fun h => (answered_triple h).returns hw⟩
  rw [answered, hhello] at hreturns
  exact (serverHelloOf_returns_iff _).mp (returns_of_lift_bind hreturns)

end Answered

/-- The record with which the peer answers the ClientHello, if one arrives. -/
def firstAnswer (c : TlsSuite) (t : Transport σ) (sockId : SocketId) (hostname : List UInt8)
    (tick₁ tick₂ : UInt64) (w : TlsWorld σ) : Option (UInt8 × List UInt8) :=
  match firstFlight c t sockId hostname tick₁ tick₂ w with
  | .ok (.ok first, _) => some (first.contentType, first.payload)
  | _ => none

/-- **The handshake ends in a session or in an error** just if the peer's first record, when it
starts like a ServerHello, holds all of this message. -/
theorem tlsConnect_returns_iff (c : TlsSuite) (t : Transport σ) (sockId : SocketId)
    (hostname : List UInt8) (tick₁ tick₂ : UInt64) (w : TlsWorld σ) :
    (tlsConnect c t sockId hostname tick₁ tick₂ w).returns = true ↔
      ∀ ct payload, firstAnswer c t sockId hostname tick₁ tick₂ w = some (ct, payload) →
        isServerHello ct payload = true → framed payload = true := by
  unfold tlsConnect firstAnswer
  obtain ⟨e, w', hfirst, -⟩ | ⟨first, w', hfirst, -, hholds⟩ :=
    firstFlight_cases c t sockId hostname tick₁ tick₂ w
  · rw [bind_of_error hfirst, hfirst]
    exact iff_of_true rfl fun _ _ h => nomatch h
  rw [bind_of_ok hfirst, hfirst, answered_returns_iff hholds]
  refine ⟨?_, fun h => h _ _ rfl⟩
  rintro h ct payload heq
  obtain ⟨rfl, rfl⟩ := Prod.mk.inj (some.inj heq)
  exact h

/-! ### Failed handshakes -/

section Failed

variable {c : TlsSuite} {t : Transport σ} {sock : SocketId} {hostname : List UInt8}
  {tick₁ tick₂ : UInt64} {w w' : TlsWorld σ}

lemma tlsConnect_cases {r : Except TlsError (Fin maxTlsSessions)}
    (h : tlsConnect c t sock hostname tick₁ tick₂ w = .ok (r, w')) :
    (w' = w ∧ r = .error .noSessions) ∨
      ∃ idx, w.sessions idx = none ∧ Frame idx sock w w' ∧ (∀ i, r = .ok i → i = idx) ∧
        ∀ e, r = .error e → (Present idx w' ↔ ofSocket e = true) := by
  unfold tlsConnect at h
  obtain ⟨e, w₁, hfirst, hfail⟩ | ⟨first, w₁, hfirst, hfree, hholds⟩ :=
    firstFlight_cases c t sock hostname tick₁ tick₂ w
  · rw [bind_of_error hfirst] at h
    cases h
    obtain ⟨rfl, rfl⟩ | ⟨idx, hfree, hframe, hpresent⟩ := hfail
    · exact .inl ⟨rfl, rfl⟩
    · refine .inr ⟨idx, hfree, hframe, (fun _ hi => nomatch hi), ?_⟩
      rintro e' ⟨⟩
      exact hpresent
  · rw [bind_of_ok hfirst] at h
    have hframed := (answered_returns_iff hholds).mp (returns_iff.mpr ⟨_, h⟩)
    obtain ⟨r', hr, hpost⟩ := answered_triple hframed w₁ hholds
    rw [h] at hr
    cases hr
    cases r with
    | ok i =>
      obtain ⟨rfl, hframe⟩ := hpost
      exact .inr ⟨_, hfree, hframe, fun _ hi => (Except.ok.inj hi).symm, fun _ he => nomatch he⟩
    | error e =>
      refine .inr ⟨_, hfree, hpost.1, (fun _ hi => nomatch hi), ?_⟩
      rintro e' ⟨⟩
      exact hpost.2

def occupied (w : TlsWorld σ) : Fin maxTlsSessions → Bool := fun i => (w.sessions i).isSome

lemma occupied_iff {e : TlsError}
    (h : tlsConnect c t sock hostname tick₁ tick₂ w = .ok (.error e, w')) :
    occupied w' = occupied w ↔ ofSocket e = false := by
  obtain ⟨rfl, heq⟩ | ⟨idx, hfree, hframe, -, hpresent⟩ := tlsConnect_cases h
  · cases heq
    exact iff_of_true rfl rfl
  have hidx : occupied w idx = false := by simp [occupied, hfree]
  rw [← Bool.not_eq_true, ← hpresent e rfl]
  refine ⟨fun heq hp => ?_, fun hgone => funext fun i => ?_⟩
  · exact Bool.false_ne_true (hidx.symm.trans ((congrFun heq idx).symm.trans hp))
  · obtain rfl | hi := eq_or_ne i idx
    · exact (Bool.eq_false_of_not_eq_true hgone).trans hidx.symm
    · exact congrArg isSome (hframe.sessions i hi)

end Failed

/-- A handshake fails, and not with an error of the socket. -/
def FailsClean (c : TlsSuite) (t : Transport σ) (w w' : TlsWorld σ) : Prop :=
  ∃ sockId hostname tick₁ tick₂ e,
    tlsConnect c t sockId hostname tick₁ tick₂ w = .ok (.error e, w') ∧ ofSocket e = false

/-- A connection on which bytes wait to be read, and nothing else arrives. -/
def script : Transport (List UInt8) where
  deliver bytes := bytes
  rx bytes := some bytes
  take bytes n := bytes.drop n
  send bytes _ := (bytes, true)

def idle : TlsSuite where
  sha256 _ := Vector.replicate 32 0
  x25519 _ _ := Vector.replicate 32 0
  hmacSha256 _ _ := Vector.replicate 32 0
  aeadEncrypt _ _ _ plaintext := (plaintext, Vector.replicate 16 0)
  aeadDecrypt _ _ _ ciphertext _ := some ciphertext

def waiting (bytes : List UInt8) : TlsWorld (List UInt8) := ⟨fun _ => none, fun _ => bytes, []⟩

/-- A handshake record of one byte, the type of a ServerHello, makes the client read behind it,
and one with a header that announces 200 bytes makes it slice behind it. -/
theorem truncated_hello_panics :
    tlsConnect idle script ⟨0⟩ [] 1 2 (waiting [22, 3, 3, 0, 1, 2]) = .panic ∧
      tlsConnect idle script ⟨0⟩ [] 1 2 (waiting [22, 3, 3, 0, 4, 2, 0, 0, 200]) = .panic :=
  ⟨rfl, rfl⟩

end Tls

end Fabric
