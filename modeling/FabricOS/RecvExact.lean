/-
Reading from a receive ring (`tcp_recv_exact` of `network/tls.rs`).

The loop asks the ring for its free room where it wants to know what there is to read.  It gets
along with that as long as there is room; from a full ring it reads nothing, nothing more fits
into it, and the loop runs into its timeout.
-/
import FabricOS.TlsConnect

open Function List Nat

namespace Fabric

open SocketBuffer

namespace Tls

/-- The receive ring of a socket, and the segments that arrive, one with each delivery. -/
structure RingConn where
  rx : SocketBuffer
  arriving : List (List UInt8)

def ring : Transport RingConn where
  deliver c :=
    match c.arriving with
    | [] => c
    | segment :: rest => ⟨(c.rx.write segment).1, rest⟩
  rx c := some c.rx.contents
  take c n := { c with rx := c.rx.discard n }
  send c _ := (c, true)

namespace RingConn

/-- The bytes that are still to be read. -/
def stream (c : RingConn) : List UInt8 := c.rx.contents ++ c.arriving.flatten

/-- How many bytes there are within `k` deliveries. -/
def provided (k : ℕ) (c : RingConn) : ℕ := c.rx.len + (c.arriving.take k).flatten.length

/-- One poll with room in the ring, after `got` has been read. -/
def poll (len : ℕ) (got : List UInt8) (c : RingConn) : List UInt8 × RingConn :=
  let conn := ring.deliver c
  let n := min (min (len - got.length) conn.rx.available) conn.rx.len
  (got ++ conn.rx.contents.take n, ring.take conn n)

/-- At each poll there is room in the ring, until the bytes have been read. -/
def Roomy (len : ℕ) : ℕ → List UInt8 → RingConn → Prop
  | 0, _, _ => True
  | polls + 1, got, c => 0 < (ring.deliver c).rx.available ∧
      ((poll len got c).1.length < len → Roomy len polls (poll len got c).1 (poll len got c).2)

variable {c : RingConn} {len : ℕ} {got : List UInt8}

lemma deliver_cases (c : RingConn) :
    (c.arriving = [] ∧ ring.deliver c = c) ∨ ∃ segment rest, c.arriving = segment :: rest ∧
      ring.deliver c = ⟨(c.rx.write segment).1, rest⟩ := by
  obtain ⟨rx, _ | ⟨segment, rest⟩⟩ := c
  · exact .inl ⟨rfl, rfl⟩
  · exact .inr ⟨segment, rest, rfl, rfl⟩

/-- If there is room afterwards, the whole segment was stored. -/
lemma deliver_of_room (h : 0 < (ring.deliver c).rx.available) :
    (ring.deliver c).stream = c.stream ∧ ∀ k, c.provided k ≤ (ring.deliver c).provided (k - 1) := by
  obtain ⟨harriving, hdeliver⟩ | ⟨segment, rest, harriving, hdeliver⟩ := c.deliver_cases
  · rw [hdeliver]
    simp [provided, harriving]
  rw [hdeliver] at h ⊢
  have hfits : segment.length ≤ c.rx.available := by
    simp only [SocketBuffer.write, SocketBuffer.available] at h ⊢
    omega
  refine ⟨?_, fun k => ?_⟩
  · rw [stream, stream, contents_write_of_le _ hfits, harriving, flatten_cons, append_assoc]
  have hwrite : (c.rx.write segment).1.len = c.rx.len + segment.length :=
    congrArg (c.rx.len + ·) (min_eq_left hfits)
  cases k with
  | zero => simp [provided, hwrite]
  | succ k => simp [provided, hwrite, harriving, add_assoc]

lemma poll_spec (h : 0 < (ring.deliver c).rx.available) (hgot : got.length ≤ len) :
    ∃ n ≤ len - got.length, (poll len got c).1 = got ++ c.stream.take n ∧
      (poll len got c).1.length = got.length + n ∧ (poll len got c).2.stream = c.stream.drop n ∧
      (∀ k, c.provided k ≤ (poll len got c).2.provided (k - 1) + n) ∧
      (0 < c.rx.len → got.length < len → 0 < n) := by
  obtain ⟨hstream, hprovided⟩ := deliver_of_room h
  have hmore : c.rx.len ≤ (ring.deliver c).rx.len := by simpa [provided] using hprovided 0
  rw [← hstream]
  simp only [poll]
  generalize ring.deliver c = conn at *
  generalize hn : min (min (len - got.length) conn.rx.available) conn.rx.len = n
  have hle : n ≤ conn.rx.contents.length := by
    rw [length_contents]
    omega
  refine ⟨n, by omega, ?_, ?_, ?_, fun k => ?_, fun _ _ => by omega⟩
  · rw [stream, take_append_of_le_length hle]
  · rw [length_append, length_take_of_le hle]
  · rw [stream, stream, drop_append_of_le_length hle]
    exact congrArg (· ++ _) (contents_discard _ n)
  have hlen : (conn.rx.discard n).len = conn.rx.len - n := by
    simp only [SocketBuffer.discard]
    omega
  have hk := hprovided k
  simp only [provided, ring, hlen] at hk ⊢
  omega

/-- In a full ring nothing is stored, so it stays full. -/
lemma deliver_of_full (h : (ring.deliver c).rx.available = 0) :
    (ring.deliver (ring.deliver c)).rx.available = 0 := by
  obtain ⟨-, hdeliver⟩ | ⟨segment, rest, -, hdeliver⟩ := (ring.deliver c).deliver_cases
  · rwa [hdeliver]
  · rw [hdeliver]
    simp only [SocketBuffer.write, SocketBuffer.available] at h ⊢
    omega

end RingConn

open RingConn

variable {w : TlsWorld RingConn} {id : SocketId} {len polls : ℕ} {got : List UInt8}

def put (w : TlsWorld RingConn) (id : SocketId) (c : RingConn) : TlsWorld RingConn :=
  { w with conns := update w.conns id c }

lemma recvLoop_of_room (h : 0 < (ring.deliver (w.conns id)).rx.available)
    (hgot : got.length ≤ len) :
    recvLoop ring id len (polls + 1) got w =
      if len ≤ (poll len got (w.conns id)).1.length then
        .ok (.ok (poll len got (w.conns id)).1, put w id (poll len got (w.conns id)).2)
      else recvLoop ring id len polls (poll len got (w.conns id)).1
        (put w id (poll len got (w.conns id)).2) := by
  have hfits : got.length + min (len - got.length) (ring.deliver (w.conns id)).rx.available ≤
      len := by omega
  rw [recvLoop]
  simp only [show ring.rx = fun c => some c.rx.contents from rfl, length_contents,
    put, poll, update_idem, ge_iff_le]
  exact (if_pos h).trans (if_pos hfits)

lemma recvLoop_of_full (h : (ring.deliver (w.conns id)).rx.available = 0) :
    ∃ w', recvLoop ring id len polls got w = .ok (.error .timeout, w') := by
  induction polls generalizing w with
  | zero => exact ⟨w, rfl⟩
  | succ polls ih =>
    obtain ⟨w', hw'⟩ := ih (w := put w id (ring.deliver (w.conns id)))
      (by simpa [put] using deliver_of_full h)
    refine ⟨w', ?_⟩
    rw [recvLoop]
    simp only [show ring.rx = fun c => some c.rx.contents from rfl, length_contents]
    exact (if_neg (not_lt.mpr h.le)).trans hw'

/-- `len` bytes are read, `got` among them, and those that follow stay. -/
def ReadsExact (r : Exec (Except TlsError (List UInt8) × TlsWorld RingConn))
    (w : TlsWorld RingConn) (id : SocketId) (got : List UInt8) (len : ℕ) : Prop :=
  ∃ c, r = .ok (.ok (got ++ (w.conns id).stream.take (len - got.length)), put w id c) ∧
    c.stream = (w.conns id).stream.drop (len - got.length)

lemma recvLoop_iff : ∀ (polls k : ℕ) (got : List UInt8) (w : TlsWorld RingConn), 0 < polls →
    got.length ≤ len → len - got.length ≤ (w.conns id).provided k →
    k + (len - got.length) ≤ polls →
    (ReadsExact (recvLoop ring id len polls got w) w id got len ↔
      Roomy len polls got (w.conns id)) := by
  intro polls
  induction polls with
  | zero => exact fun _ _ _ h => absurd h (lt_irrefl 0)
  | succ polls ih =>
    intro k got w _ hgot hprovided hk
    obtain hfull | hroom := Nat.eq_zero_or_pos (ring.deliver (w.conns id)).rx.available
    · obtain ⟨w', hw'⟩ := recvLoop_of_full hfull
      refine iff_of_false ?_ fun hroomy => hroomy.1.ne' hfull
      rintro ⟨c, hc, -⟩
      rw [hw'] at hc
      cases hc
    rw [recvLoop_of_room hroom hgot, Roomy, and_iff_right hroom]
    obtain ⟨n, hn, hread, hlength, hstream, hmore, hprogress⟩ := poll_spec hroom hgot
    have hk' := hmore k
    generalize poll len got (w.conns id) = s at *
    split_ifs with hdone
    · refine iff_of_true ⟨s.2, ?_, ?_⟩ fun h => absurd h (by omega)
      · rw [hread, show n = len - got.length by omega]
      · rw [hstream, show n = len - got.length by omega]
    have hstep : 0 < k ∨ 0 < n := by
      refine or_iff_not_imp_left.mpr fun hk0 => hprogress ?_ (by omega)
      obtain rfl : k = 0 := by omega
      simp only [provided, take_zero, flatten_nil, length_nil] at hprovided
      omega
    have hself : (put w id s.2).conns id = s.2 := update_self ..
    have hiff := ih (k - 1) s.1 (put w id s.2) (by omega) (by omega)
      (by rw [hself]; omega) (by omega)
    rw [forall_prop_of_true (by omega), ← hself, ← hiff]
    -- the bytes of this poll and those of the following ones
    have hrest : len - got.length = n + (len - s.1.length) := by omega
    refine exists_congr fun c => ?_
    rw [hself, hstream, hrest, take_add, ← append_assoc, ← hread, drop_drop]
    simp only [put, update_idem]

/-- **The next bytes of the stream are read**, just these, if `len` bytes are provided early
enough to leave a poll for each; and just if the ring has room at each poll until then. -/
theorem tcpRecvExact_iff (w : TlsWorld RingConn) (id : SocketId) (len k : ℕ)
    (hprovided : len ≤ (w.conns id).provided k) (hk : k + len ≤ recvAttempts) :
    ReadsExact (tcpRecvExact ring id len w) w id [] len ↔ Roomy len recvAttempts [] (w.conns id) :=
  recvLoop_iff recvAttempts k [] w (by decide) (zero_le _) hprovided hk

/-- A world in which every socket has these bytes in its ring, and nothing arrives. -/
def holding (bytes : List UInt8) : TlsWorld RingConn :=
  ⟨fun _ => none, fun _ => ⟨(SocketBuffer.new.write bytes).1, []⟩, []⟩

theorem five_bytes_read : ReadsExact (tcpRecvExact ring ⟨0⟩ 5 (holding [1, 2, 3, 4, 5, 6]))
    (holding [1, 2, 3, 4, 5, 6]) ⟨0⟩ [] 5 :=
  (tcpRecvExact_iff (holding [1, 2, 3, 4, 5, 6]) ⟨0⟩ 5 0 (by decide) (by decide)).mpr
    ⟨by decide, fun h => absurd h (by decide)⟩

lemma holding_full {bytes : List UInt8} (h : bytes.length = ringBufSize) :
    ((holding bytes).conns id).rx.len = ringBufSize ∧
      (ring.deliver ((holding bytes).conns id)).rx.available = 0 := by
  have hlen : 0 + min bytes.length (ringBufSize - 0) = ringBufSize := by omega
  exact ⟨hlen, Nat.sub_eq_zero_of_le hlen.ge⟩

/-- Of the bytes in a full ring not five are read. -/
theorem full_ring_not_read :
    5 ≤ ((holding (List.replicate ringBufSize 7)).conns ⟨0⟩).provided 0 ∧
      ¬ReadsExact (tcpRecvExact ring ⟨0⟩ 5 (holding (List.replicate ringBufSize 7)))
        (holding (List.replicate ringBufSize 7)) ⟨0⟩ [] 5 := by
  obtain ⟨hlen, hfull⟩ : _ ∧ (ring.deliver ((holding (List.replicate ringBufSize 7)).conns
    ⟨0⟩)).rx.available = 0 := holding_full length_replicate
  refine ⟨(by decide : 5 ≤ ringBufSize).trans (hlen.ge.trans (le_add_right _ _)), ?_⟩
  rintro ⟨c, hc, -⟩
  obtain ⟨w', hw'⟩ := recvLoop_of_full hfull
  rw [tcpRecvExact, hw'] at hc
  cases hc

end Tls

end Fabric
