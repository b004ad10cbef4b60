/-
Payloads in the arena.

The arena is a ring that never frees: a payload stays where it was copied until the
write cursor has come round.  An envelope waits in an inbox or is being read for as
long as its receiver likes, so what it carries is intact exactly as long as no later
message was laid over it (`run_intact`), and the cursor needs almost a whole arena of
later payloads to come back (`run_spares`).
-/
import FabricOS.BusDelivery

open List

namespace Fabric

open PayloadArena

/-! ### The arena -/

def ArenaSlice.Apart (s t : ArenaSlice) : Prop :=
  s.offset + s.len ≤ t.offset ∨ t.offset + t.len ≤ s.offset

namespace PayloadArena

variable {a a' : PayloadArena} {data : List UInt8} {slice other : ArenaSlice}

lemma place_add_le (a : PayloadArena) {len : ℕ} (hlen : len ≤ maxPayloadSize) :
    a.place len + len ≤ arenaCapacity := by
  unfold place
  split_ifs with h
  · exact Nat.le_trans (Nat.le_of_eq (Nat.zero_add len)) (Nat.le_trans hlen (by decide))
  · exact Nat.le_of_not_lt h

lemma get_allocate (h : a.allocate data = some (a', slice)) : a'.get slice = .ok data := by
  obtain ⟨-, hle, rfl, -, buf, -, hbuf⟩ := allocate_spec h
  simp only [get, hbuf, if_pos (a.place_add_le hle), Exec.ok.injEq]
  refine ext_getElem (by simp) fun i hi hi' => ?_
  simp only [getElem_map, getElem_range, copyIn]
  simp [List.getD, hi']

lemma get_allocate_of_apart (h : a.allocate data = some (a', slice))
    (hapart : other.Apart slice) : a'.get other = a.get other := by
  obtain ⟨-, -, rfl, -, buf, hbuf, hbuf'⟩ := allocate_spec h
  simp only [get, hbuf, hbuf']
  congr 2
  refine map_congr_left fun i hi => ?_
  have hi := mem_range.mp hi
  rcases hapart with hapart | hapart
  · exact if_neg fun hin => by simp only at hapart; omega
  · exact if_neg fun hin => by simp only at hapart; omega

/-- `Round slice n a`: since `slice` was written, `n` more bytes were, and the cursor has
gone on from its end, or it has wrapped once and not come back to its beginning. -/
def Round (slice : ArenaSlice) (n : ℕ) (a : PayloadArena) : Prop :=
  a.writeCursor = slice.offset + slice.len + n ∨
    a.writeCursor ≤ slice.offset ∧
      a.writeCursor + arenaCapacity < slice.offset + slice.len + n + maxPayloadSize

lemma Round.allocate {n : ℕ} (h : Round slice n a)
    (hslice : slice.offset + slice.len ≤ arenaCapacity)
    (halloc : a.allocate data = some (a', other))
    (hn : n + data.length + slice.len + maxPayloadSize ≤ arenaCapacity) :
    slice.Apart other ∧ Round slice (n + data.length) a' := by
  obtain ⟨hpos, hle, rfl, hcursor, -⟩ := allocate_spec halloc
  unfold Round ArenaSlice.Apart
  rw [hcursor]
  unfold place
  rcases h with h | ⟨h, hwrapped⟩
  · split_ifs with hfit
    · -- the cursor wraps, past the end of the slice
      simp only
      omega
    · simp only
      omega
  · split_ifs with hfit
    · -- a second wrap would take more bytes than the bound allows
      omega
    · simp only
      omega

end PayloadArena

namespace BusRouter

variable {c : Crypto} {r r' : BusRouter} {q : ProcessId} {env : Envelope} {slice : ArenaSlice}

/-! ### What events write -/

/-- The arena region that an event wrote: that of a send that got past the arena,
whether or not its receiver had room. -/
def wrote (ev : BusEvent) : Option ArenaSlice :=
  match ev.input, ev.output with
  | .send header payload _, .sent (.ok ())
  | .send header payload _, .sent (.error .receiverQueueFull) =>
    match ev.before.checkRoute header payload with
    | .ok (some data) => some ⟨ev.before.arena.place data.length, data.length⟩
    | _ => none
  | _, _ => none

def passed (ev : BusEvent) : List UInt8 :=
  match ev.input with
  | .send _ payload _ => payload.getD []
  | _ => []

def bytesWritten (evs : List BusEvent) : ℕ :=
  (evs.map fun ev => (wrote ev).elim 0 (·.len)).sum

def readPayload (r : BusRouter) (env : Envelope) : Exec (List UInt8) :=
  match env.payload with
  | none => .ok []
  | some slice => r.payload slice

/-- The ways a step treats the arena: it leaves it, or it writes one payload. -/
inductive Wrote (a a' : PayloadArena) : Option ArenaSlice → Prop
  | nothing : a' = a → Wrote a a' none
  | payload {data : List UInt8} {slice : ArenaSlice} :
      a.allocate data = some (a', slice) → Wrote a a' (some slice)

lemma Wrote.get_eq {a a' : PayloadArena} {written : Option ArenaSlice} (h : Wrote a a' written)
    (hapart : ∀ other, written = some other → slice.Apart other) : a'.get slice = a.get slice := by
  cases h with
  | nothing harena => rw [harena]
  | payload halloc => exact get_allocate_of_apart halloc (hapart _ rfl)

lemma Wrote.round {a a' : PayloadArena} {written : Option ArenaSlice} {n : ℕ}
    (h : Wrote a a' written) (hround : PayloadArena.Round slice n a)
    (hslice : slice.offset + slice.len ≤ arenaCapacity)
    (hn : n + written.elim 0 (·.len) + slice.len + maxPayloadSize ≤ arenaCapacity) :
    (∀ other, written = some other → slice.Apart other) ∧
      PayloadArena.Round slice (n + written.elim 0 (·.len)) a' := by
  cases h with
  | nothing harena => exact ⟨by simp, harena ▸ hround⟩
  | payload halloc =>
    obtain ⟨-, -, rfl, -⟩ := allocate_spec halloc
    obtain ⟨hapart, hround⟩ := hround.allocate hslice halloc hn
    refine ⟨fun other hother => ?_, hround⟩
    cases hother
    exact hapart

variable {header : MessageHeader}

variable {payload : Option (List UInt8)} {op : Op}

lemma wrote_of_stow {data : Option (List UInt8)} {res : Except BusError Unit} {arena : PayloadArena}
    {slice : Option ArenaSlice} (hres : res = .ok () ∨ res = .error .receiverQueueFull)
    (nonce : UInt32) (hroute : r.checkRoute header payload = .ok data)
    (hstow : stow r.arena data = some (arena, slice)) :
    wrote ⟨r, .send header payload nonce, .sent res⟩ = slice ∧ Wrote r.arena arena slice := by
  have hwrote : wrote ⟨r, .send header payload nonce, .sent res⟩ =
      data.map fun bytes => ⟨r.arena.place bytes.length, bytes.length⟩ := by
    rcases hres with rfl | rfl <;> cases data <;> simp [wrote, hroute]
  rw [hwrote]
  obtain ⟨rfl, rfl, rfl⟩ | ⟨bytes, region, rfl, rfl, halloc⟩ := stow_cases hstow
  · exact ⟨rfl, .nothing rfl⟩
  · obtain ⟨-, -, rfl, -⟩ := allocate_spec halloc
    exact ⟨rfl, .payload halloc⟩

lemma wrote_of_refused {e : BusError} (hroute : r.checkRoute header payload = .error e)
    (nonce : UInt32) : wrote ⟨r, .send header payload nonce, .sent (.error e)⟩ = none := by
  unfold wrote
  split <;> simp_all

lemma getD_of_checkRoute {data : Option (List UInt8)}
    (hroute : r.checkRoute header payload = .ok data) : data.getD [] = payload.getD [] := by
  obtain ⟨-, -, -, hpayload⟩ := checkRoute_ok hroute
  unfold checkPayload at hpayload
  cases payload with
  | none =>
    split_ifs at hpayload
    obtain rfl := Except.ok.inj hpayload
    rfl
  | some bytes =>
    simp only at hpayload
    split_ifs at hpayload with hempty
    · obtain rfl := Except.ok.inj hpayload
      simp [hempty.2]
    · obtain rfl := Except.ok.inj hpayload
      rfl

variable {ans : Answer}

lemma step_wrote (h : step c r op = .ok (r', ans)) :
    Wrote r.arena r'.arena (wrote ⟨r, op, ans⟩) := by
  cases step_cases h with
  | registered pid =>
    refine .nothing ?_
    unfold registerProcess
    split_ifs <;> rfl
  | unregistered pid =>
    refine .nothing ?_
    unfold unregisterProcess
    split <;> rfl
  | received pid =>
    refine .nothing ?_
    unfold receive
    split <;> rfl
  | quiet hop hquiet =>
    have hnone : wrote ⟨r, op, ans⟩ = none := by
      cases op <;> simp_all [Op.isQuiet, wrote]
    rw [hnone]
    exact .nothing hquiet.arena
  | sent nonce hsent =>
    cases hsent with
    | refused hroute => exact wrote_of_refused hroute nonce ▸ .nothing rfl
    | @outOfSequence _ e hroute hcheck => cases e <;> exact .nothing rfl
    | arenaFull hroute hcheck hstow => exact .nothing rfl
    | queueFull hroute hcheck hstow hinbox hfull =>
      obtain ⟨hwrote, hstep⟩ := wrote_of_stow (Or.inr rfl) nonce hroute hstow
      exact hwrote ▸ hstep
    | accepted hroute hcheck hstow hinbox hroom =>
      obtain ⟨hwrote, hstep⟩ := wrote_of_stow (Or.inl rfl) nonce hroute hstow
      exact hwrote ▸ hstep

/-! ### Whole runs -/

def Spares (slice : ArenaSlice) (ev : BusEvent) : Prop :=
  ∀ other, wrote ev = some other → slice.Apart other

variable {evs : List BusEvent}

lemma run_intact (h : Machine.Run (step c) r evs r')
    (hspares : ∀ ev ∈ evs, Spares slice ev) : r'.payload slice = r.payload slice := by
  induction h with
  | nil => rfl
  | @snoc evs s s' op ans _ hstep ih =>
    have hlast := hspares ⟨s, op, ans⟩ (by simp)
    calc s'.payload slice = s.payload slice := (step_wrote hstep).get_eq hlast
      _ = r.payload slice := ih fun ev hev => hspares ev (by simp [hev])

lemma bytesWritten_snoc (evs : List BusEvent) (ev : BusEvent) :
    bytesWritten (evs ++ [ev]) = bytesWritten evs + (wrote ev).elim 0 (·.len) := by
  simp [bytesWritten]

lemma run_spares (h : Machine.Run (step c) r evs r')
    (hslice : slice.offset + slice.len ≤ arenaCapacity)
    (hcursor : r.arena.writeCursor = slice.offset + slice.len)
    (hbytes : bytesWritten evs + slice.len + maxPayloadSize ≤ arenaCapacity) :
    (∀ ev ∈ evs, Spares slice ev) ∧ PayloadArena.Round slice (bytesWritten evs) r'.arena := by
  induction h with
  | nil => exact ⟨by simp, Or.inl hcursor⟩
  | @snoc evs s s' op ans _ hstep ih =>
    rw [bytesWritten_snoc] at hbytes ⊢
    obtain ⟨hspares, hround⟩ := ih (by omega)
    obtain ⟨hlast, hround⟩ := (step_wrote hstep).round hround hslice hbytes
    refine ⟨fun ev hev => ?_, hround⟩
    rcases mem_append.mp hev with hev | hev
    · exact hspares ev hev
    · rw [mem_singleton.mp hev]
      exact hlast

/-! ### Where envelopes come from -/

lemma step_origin (h : step c r op = .ok (r', ans)) (henv : env ∈ r'.pending q) :
    env ∈ r.pending q ∨ accepted c ⟨r, op, ans⟩ = some env := by
  by_cases hq : op = .unregister q
  · -- an inbox that is dropped has nothing pending
    subst hq
    cases h
    unfold unregisterProcess at henv
    split at henv
    · exact Or.inl henv
    · simp [pending] at henv
  · have hmem : env ∈ (received q ⟨r, op, ans⟩).toList ++ r'.pending q :=
      mem_append_right _ henv
    rw [step_delivery h hq] at hmem
    rcases mem_append.mp hmem with hmem | hmem
    · exact Or.inl hmem
    · exact Or.inr (Option.mem_toList.mp (mem_of_mem_filter hmem))

lemma step_received (h : step c r op = .ok (r', ans)) (henv : received q ⟨r, op, ans⟩ = some env) :
    env ∈ r.pending q := by
  have hop : ∃ pid, op = .receive pid := by
    cases op <;> simp_all [received]
  obtain ⟨pid, rfl⟩ := hop
  have hmem : env ∈ (received q ⟨r, .receive pid, ans⟩).toList ++ r'.pending q := by
    simp [henv]
  rw [step_delivery h (by simp)] at hmem
  simpa [accepted] using hmem

lemma run_origin {r0 : BusRouter} (h : Machine.Run (step c) r0 evs r)
    (hempty : r0.pending q = []) (henv : env ∈ r.pending q) :
    ∃ ev ∈ evs, accepted c ev = some env := by
  induction h with
  | nil => simp [hempty] at henv
  | @snoc evs s s' op ans _ hstep ih =>
    rcases step_origin hstep henv with hold | hnew
    · obtain ⟨ev, hev, haccepted⟩ := ih hold
      exact ⟨ev, by simp [hev], haccepted⟩
    · exact ⟨_, by simp, hnew⟩

lemma step_accepted (h : step c r op = .ok (r', ans)) (henv : accepted c ⟨r, op, ans⟩ = some env) :
    r'.readPayload env = .ok (passed ⟨r, op, ans⟩) ∧
      env.hmac = c.hmac (env.header.activeBytes ++ passed ⟨r, op, ans⟩) ∧
      ∀ slice, env.payload = some slice → slice.offset + slice.len ≤ arenaCapacity ∧
        r'.arena.writeCursor = slice.offset + slice.len := by
  have hop : ∃ header payload nonce, op = .send header payload nonce ∧ ans = .sent (.ok ()) := by
    unfold accepted at henv
    split at henv
    · exact ⟨_, _, _, ‹_›, ‹_›⟩
    · simp at henv
  obtain ⟨header, payload, nonce, rfl, rfl⟩ := hop
  cases step_cases h with
  | quiet hop _ => simp [Op.isQuiet] at hop
  | sent _ hsent =>
    cases hsent with
    | @accepted data sequences arena slice inbox hroute hcheck hstow hinbox hroom =>
      simp only [accepted, envelope_of_stow hroute hstow, Option.some.injEq] at henv
      subst henv
      have hbytes := getD_of_checkRoute hroute
      refine ⟨?_, by simp [sign, passed, hbytes], ?_⟩
      · obtain ⟨rfl, rfl, rfl⟩ | ⟨bytes, region, rfl, rfl, halloc⟩ := stow_cases hstow
        · simp [readPayload, passed, ← hbytes]
        · have hget := get_allocate halloc
          simpa [readPayload, BusRouter.payload, passed, ← hbytes] using hget
      · rintro slice' rfl
        obtain ⟨-, -, habsurd⟩ | ⟨bytes, region, rfl, heq, halloc⟩ := stow_cases hstow
        · cases habsurd
        · cases heq
          obtain ⟨-, hle, rfl, hcursor, -⟩ := allocate_spec halloc
          exact ⟨r.arena.place_add_le hle, hcursor⟩

/-- **Payloads are intact until they are overwritten.**  In every run of an initialised
router, every envelope that is pending or has just been received was accepted by some
send of the run.  As long as no later send has laid its payload over that of the
envelope, its payload reads back as the bytes that were passed to the send, and the
stored HMAC is the one over them.  No later send has as long as together they wrote no
more than the arena holds beside the payload and one of maximal size. -/
theorem payload_intact_until_overwritten {evs : List BusEvent}
    (h : Machine.Run (step c) new.init evs r)
    (henv : env ∈ r.pending q ∨ ∃ evs' ev, evs = evs' ++ [ev] ∧ received q ev = some env) :
    (∃ ev ∈ evs, accepted c ev = some env) ∧
    ∀ evs₁ ev evs₂, evs = evs₁ ++ ev :: evs₂ → accepted c ev = some env →
      ((∀ slice, env.payload = some slice → ∀ later ∈ evs₂, Spares slice later) →
        r.readPayload env = .ok (passed ev) ∧
          c.hmac (env.header.activeBytes ++ passed ev) = env.hmac) ∧
      ∀ slice, env.payload = some slice →
        bytesWritten evs₂ + slice.len + maxPayloadSize ≤ arenaCapacity →
        ∀ later ∈ evs₂, Spares slice later := by
  constructor
  · rcases henv with henv | ⟨evs', ev, rfl, hreceived⟩
    · exact run_origin h rfl henv
    · obtain ⟨s, hrun, hstep, -⟩ := h.split
      obtain ⟨ev', hev', haccepted⟩ := run_origin hrun rfl (step_received hstep hreceived)
      exact ⟨ev', by simp [hev'], haccepted⟩
  · rintro evs₁ ev evs₂ rfl haccepted
    -- cut the run at the send: it writes the payload, and the rest has to spare it
    obtain ⟨s, -, hstep, hrun⟩ := h.split
    obtain ⟨hread, hhmac, hplace⟩ := step_accepted hstep haccepted
    refine ⟨fun hspares => ⟨?_, hhmac.symm⟩, fun slice hslice hbytes => ?_⟩
    · rw [← hread]
      unfold readPayload
      cases hslice : env.payload with
      | none => rfl
      | some slice => exact run_intact hrun (hspares slice hslice)
    · obtain ⟨hfits, hcursor⟩ := hplace slice hslice
      exact (run_spares hrun hfits hcursor hbytes).1

/-- A message of three bytes from process 1 to process 2. -/
def noteHeader : MessageHeader := { plainHeader 1 2 1 with payloadLen := 3 }

def noteEnvelope : Envelope := ⟨noteHeader, Crypto.zero.hmac [], some ⟨0, 3⟩⟩

def noted : BusRouter := Machine.final (step Crypto.zero) new.init
  [.register 1, .register 2, .send noteHeader (some [1, 2, 3]) 0]

lemma run_noted : ∃ evs ev, Machine.Run (step Crypto.zero) new.init (evs ++ [ev]) noted ∧
    accepted Crypto.zero ev = some noteEnvelope ∧ passed ev = [1, 2, 3] :=
  ⟨_, _, .snoc (i := .send noteHeader (some [1, 2, 3]) 0)
    (.snoc (i := .register 2) (.snoc (i := .register 1) .nil rfl) rfl) rfl, rfl, rfl⟩

theorem noted_payload_intact : noteEnvelope ∈ noted.pending 2 ∧
    noted.readPayload noteEnvelope = .ok [1, 2, 3] := by
  obtain ⟨evs, ev, hrun, haccepted, hpassed⟩ := run_noted
  have hpending : noteEnvelope ∈ noted.pending 2 := by decide +kernel
  have hintact :=
    (payload_intact_until_overwritten hrun (Or.inl hpending)).2 evs ev [] rfl haccepted
  exact ⟨hpending, hpassed ▸ (hintact.1 (by simp)).1⟩

/-- Sixty-four messages of maximal size to the same process, more than its inbox holds. -/
def pageOps : List Op := (List.range 64).map fun i =>
  .send { plainHeader 1 2 (UInt64.ofNat (i + 2)) with payloadLen := 4096 }
    (some (List.replicate maxPayloadSize 7)) 0

def paged : BusRouter := Machine.final (step Crypto.zero) noted pageOps

/-- The last of them wraps to the beginning of the arena, where the payload of the first
message is, which is still pending. -/
theorem pending_payload_overwritten :
    ∃ evs, Machine.Run (step Crypto.zero) new.init evs paged ∧ noteEnvelope ∈ paged.pending 2 ∧
      (∃ ev ∈ evs, accepted Crypto.zero ev = some noteEnvelope ∧ passed ev = [1, 2, 3]) ∧
      paged.readPayload noteEnvelope = .ok [7, 7, 7] := by
  obtain ⟨evs1, ev, hrun1, haccepted, hpassed⟩ := run_noted
  have heval : (Machine.run (step Crypto.zero) noted pageOps).returns = true ∧
      noteEnvelope ∈ paged.pending 2 ∧ paged.readPayload noteEnvelope = .ok [7, 7, 7] := by
    decide +kernel
  obtain ⟨hreturns, hpending, hread⟩ := heval
  obtain ⟨evs2, hrun2, -⟩ := Machine.Run.of_returns hreturns
  exact ⟨_, hrun1.append hrun2, hpending, ⟨ev, by simp, haccepted, hpassed⟩, hread⟩

end BusRouter

end Fabric
