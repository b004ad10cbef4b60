/-
The cache of resolved names (`DnsCache` of `network/dns.rs`).

A name is kept in a buffer of 64 bytes: `insert` cuts a longer one off there, while `lookup`
compares the name as it is.  So what was stored for a longer name is found under its first 64
bytes.  For names that fit the cache answers with what was stored last for this name, and
evicts the name whose last use is the longest ago.
-/
import FabricOS.NetTypes
import FabricOS.Slots

open Function List Option

namespace Fabric

def dnsCacheSize : ℕ := 32

structure DnsCacheEntry where
  hostname : List UInt8
  ip : Ipv4Addr
  expiryTick : ℕ
  lastAccess : ℕ
  valid : Bool

structure DnsCache where
  entries : Fin dnsCacheSize → DnsCacheEntry
  accessSeq : ℕ

namespace DnsCache

def new : DnsCache := ⟨fun _ => ⟨[], ⟨0, 0, 0, 0⟩, 0, 0, false⟩, 0⟩

def nextSeq (c : DnsCache) : ℕ := (c.accessSeq + 1) % 2 ^ 64

/-- Where both loops over the entries stop. -/
def slotOf (c : DnsCache) (hostname : List UInt8) : Option (Fin dnsCacheSize) :=
  firstSlot fun i => (c.entries i).valid && (c.entries i).hostname == hostname

def lookup (c : DnsCache) (now : ℕ) (hostname : List UInt8) : Option Ipv4Addr × DnsCache :=
  match c.slotOf hostname with
  | some i =>
    let entry := c.entries i
    if now < entry.expiryTick then
      (some entry.ip, ⟨update c.entries i { entry with lastAccess := c.nextSeq }, c.nextSeq⟩)
    else (none, ⟨update c.entries i { entry with valid := false }, c.nextSeq⟩)
  | none => (none, { c with accessSeq := c.nextSeq })

/-- The loop of `find_slot` for the least `last_access`. -/
def lruSlot (access : Fin dnsCacheSize → ℕ) : ℕ × Fin dnsCacheSize :=
  (List.finRange dnsCacheSize).foldl
    (fun best i => if access i < best.1 then (access i, i) else best) (2 ^ 64 - 1, ⟨0, by decide⟩)

def findSlot (c : DnsCache) : Fin dnsCacheSize :=
  match firstSlot fun i => !(c.entries i).valid with
  | some i => i
  | none => (lruSlot fun i => (c.entries i).lastAccess).2

def insert (c : DnsCache) (now : ℕ) (hostname : List UInt8) (ip : Ipv4Addr) (ttlSecs : ℕ) :
    DnsCache :=
  let expiry := (now + ttlSecs * 1000) % 2 ^ 64
  match c.slotOf (hostname.take 64) with
  | some i => ⟨update c.entries i
      { c.entries i with ip := ip, expiryTick := expiry, lastAccess := c.nextSeq }, c.nextSeq⟩
  | none =>
    ⟨update c.entries c.findSlot ⟨hostname.take 64, ip, expiry, c.nextSeq, true⟩, c.nextSeq⟩

/-! ### Histories -/

inductive Call
  | lookup (hostname : List UInt8)
  | insert (hostname : List UInt8) (ip : Ipv4Addr) (ttlSecs : ℕ)

def Call.hostname : Call → List UInt8
  | .lookup hostname => hostname
  | .insert hostname _ _ => hostname

def step (c : DnsCache) : ℕ × Call → DnsCache
  | (now, .lookup hostname) => (c.lookup now hostname).2
  | (now, .insert hostname ip ttlSecs) => c.insert now hostname ip ttlSecs

-- A history lists the calls with their ticks, the most recent one first.

def run : List (ℕ × Call) → DnsCache
  | [] => new
  | call :: calls => (run calls).step call

/-- What the most recent insert for a name stored, and the end of its time to live. -/
def stored (name : List UInt8) : List (ℕ × Call) → Option (Ipv4Addr × ℕ)
  | [] => none
  | (_, .lookup _) :: calls => stored name calls
  | (now, .insert hostname ip ttlSecs) :: calls =>
    if hostname = name then some (ip, now + ttlSecs * 1000) else stored name calls

/-- The name that a call inserts or finds. -/
def used (c : DnsCache) : ℕ × Call → Option (List UInt8)
  | (now, .lookup hostname) => (c.lookup now hostname).1.map fun _ => hostname
  | (_, .insert hostname _ _) => some hostname

def uses : List (ℕ × Call) → List (Option (List UInt8))
  | [] => []
  | call :: calls => (run calls).used call :: uses calls

/-- How many calls there have been since a name was used. -/
def age (calls : List (ℕ × Call)) (name : List UInt8) : ℕ := (uses calls).idxOf (some name)

/-- There is at most one valid entry for a name. -/
def Distinct (c : DnsCache) : Prop :=
  ∀ i j, (c.entries i).valid → (c.entries j).valid →
    (c.entries i).hostname = (c.entries j).hostname → i = j

/-- In a full cache a new name replaces the one whose last use is the longest ago. -/
def EvictsLru (calls : List (ℕ × Call)) (c : DnsCache) : Prop :=
  ∀ now name ip ttlSecs, (∀ i, (c.entries i).valid) → c.slotOf (name.take 64) = none →
    ∃ i, ((c.insert now name ip ttlSecs).entries i).hostname = name.take 64 ∧
      ∀ j, j ≠ i → (c.insert now name ip ttlSecs).entries j = c.entries j ∧
        age calls (c.entries j).hostname < age calls (c.entries i).hostname

/-- The names that are inserted fit into an entry. -/
def Short : ℕ × Call → Prop
  | (_, .lookup _) => True
  | (_, .insert hostname _ _) => hostname.length ≤ 64

variable {c : DnsCache} {calls : List (ℕ × Call)} {call : ℕ × Call} {name : List UInt8}
  {i j : Fin dnsCacheSize} {e : DnsCacheEntry}

lemma slotOf_eq_none (h : c.slotOf name = none) (hvalid : (c.entries j).valid) :
    (c.entries j).hostname ≠ name := by
  simpa [hvalid] using firstSlot_eq_none.mp h j

lemma slotOf_eq_some (h : c.slotOf name = some i) :
    (c.entries i).valid ∧ (c.entries i).hostname = name := by
  simpa using (firstSlot_eq_some.mp h).1

/-! ### The invariant -/

/-- An entry holds what was stored last for its name, and the number of its last use. -/
structure Current (calls : List (ℕ × Call)) (e : DnsCacheEntry) : Prop where
  stored : ∃ expiry, stored e.hostname calls = some (e.ip, expiry) ∧ e.expiryTick ≤ expiry
  access : e.lastAccess + age calls e.hostname = calls.length
  pos : 0 < e.lastAccess

structure Inv (calls : List (ℕ × Call)) (c : DnsCache) : Prop where
  seq : c.accessSeq = calls.length
  distinct : c.Distinct
  current : ∀ i, (c.entries i).valid → Current calls (c.entries i)

lemma length_uses (calls : List (ℕ × Call)) : (uses calls).length = calls.length := by
  induction calls with
  | nil => rfl
  | cons call calls ih => exact congrArg (· + 1) ih

/-- A call is about one name. -/
lemma Current.other (h : Current calls e) (hne : call.2.hostname ≠ e.hostname) :
    Current (call :: calls) e := by
  have hcall : (run calls).used call ≠ some e.hostname ∧
      DnsCache.stored e.hostname (call :: calls) = DnsCache.stored e.hostname calls := by
    obtain ⟨now, hostname | ⟨hostname, ip, ttlSecs⟩⟩ := call
    · refine ⟨fun heq => ?_, rfl⟩
      obtain ⟨-, -, hname⟩ := map_eq_some_iff.mp heq
      exact hne hname
    · exact ⟨fun heq => hne (some.inj heq), if_neg hne⟩
  refine ⟨hcall.2 ▸ h.stored, ?_, h.pos⟩
  rw [age, uses, idxOf_cons_ne _ hcall.1, length_cons, ← h.access]
  rfl

lemma Current.own (hseq : e.lastAccess = calls.length + 1)
    (hused : (run calls).used call = some e.hostname)
    (hstored : ∃ expiry, DnsCache.stored e.hostname (call :: calls) = some (e.ip, expiry) ∧
      e.expiryTick ≤ expiry) : Current (call :: calls) e := by
  refine ⟨hstored, ?_, by omega⟩
  rw [age, uses, hused, idxOf_cons_self, hseq]
  rfl

/-- A call leaves an entry of its name in one slot, or none. -/
lemma Inv.put (hinv : Inv calls c) (hseq : c.nextSeq = calls.length + 1)
    (hothers : ∀ j, j ≠ i → (c.entries j).valid → (c.entries j).hostname ≠ call.2.hostname)
    (he : e.valid → e.hostname = call.2.hostname ∧ Current (call :: calls) e) :
    Inv (call :: calls) ⟨update c.entries i e, c.nextSeq⟩ := by
  refine ⟨hseq, fun j k hj hk heq => ?_, fun j hj => ?_⟩
  · simp only [update_apply] at hj hk heq
    split_ifs at hj hk heq with hji hki hki
    · exact hji.trans hki.symm
    · exact absurd (heq.symm.trans (he hj).1) (hothers k hki hk)
    · exact absurd (heq.trans (he hk).1) (hothers j hji hj)
    · exact hinv.distinct j k hj hk heq
  · simp only [update_apply] at hj ⊢
    split_ifs at hj ⊢ with hji
    · exact (he hj).2
    · exact (hinv.current j hj).other (hothers j hji hj).symm

lemma Inv.others (hinv : Inv calls c) (h : c.slotOf name = some i) (j : Fin dnsCacheSize)
    (hne : j ≠ i) (hvalid : (c.entries j).valid) : (c.entries j).hostname ≠ name := by
  obtain ⟨hvalid', rfl⟩ := slotOf_eq_some h
  exact fun heq => hne (hinv.distinct j i hvalid hvalid' heq)

lemma Inv.step (hinv : Inv calls (run calls)) (hshort : Short call)
    (hlen : calls.length + 1 < 2 ^ 64) : Inv (call :: calls) (run (call :: calls)) := by
  have hseq : (run calls).nextSeq = calls.length + 1 := by
    rw [nextSeq, hinv.seq, Nat.mod_eq_of_lt hlen]
  obtain ⟨now, hostname | ⟨hostname, ip, ttlSecs⟩⟩ := call
  · rw [run, DnsCache.step, lookup]
    cases hslot : (run calls).slotOf hostname with
    | none =>
      refine ⟨hseq, hinv.distinct, fun j hj => ?_⟩
      exact (hinv.current j hj).other (slotOf_eq_none hslot hj).symm
    | some i =>
      obtain ⟨hvalid, rfl⟩ := slotOf_eq_some hslot
      simp only
      split_ifs with hfresh
      · refine hinv.put hseq (hinv.others hslot) fun _ => ⟨rfl, .own hseq ?_ ?_⟩
        · simp [used, lookup, hslot, hfresh]
        · exact (hinv.current i hvalid).stored
      · exact hinv.put hseq (hinv.others hslot) fun h => nomatch h
  · have hname : hostname.take 64 = hostname := take_of_length_le hshort
    have hown : ∀ valid, Current ((now, .insert hostname ip ttlSecs) :: calls)
        ⟨hostname, ip, (now + ttlSecs * 1000) % 2 ^ 64, (run calls).nextSeq, valid⟩ :=
      fun _ => .own hseq rfl ⟨now + ttlSecs * 1000, if_pos rfl, Nat.mod_le _ _⟩
    rw [run, DnsCache.step, insert]
    cases hslot : (run calls).slotOf (hostname.take 64) with
    | some i =>
      have hi := (slotOf_eq_some hslot).2.trans hname
      exact hinv.put hseq (hname ▸ hinv.others hslot) fun _ => ⟨hi, hi ▸ hown _⟩
    | none =>
      refine hinv.put hseq (fun j _ hj => ?_) fun _ => ⟨hname, hname.symm ▸ hown _⟩
      exact hname ▸ slotOf_eq_none hslot hj

lemma inv_run (hshort : ∀ call ∈ calls, Short call) (hlen : calls.length < 2 ^ 64) :
    Inv calls (run calls) := by
  induction calls with
  | nil => exact ⟨rfl, (fun _ _ h => nomatch h), fun _ h => nomatch h⟩
  | cons call calls ih =>
    obtain ⟨hcall, hcalls⟩ := forall_mem_cons.mp hshort
    exact (ih hcalls (Nat.lt_of_succ_lt hlen)).step hcall hlen

/-! ### Eviction -/

lemma lruSlot_le (access : Fin dnsCacheSize → ℕ) (h : ∀ i, access i < 2 ^ 64)
    (i : Fin dnsCacheSize) : access (lruSlot access).2 ≤ access i := by
  have hloop : ∀ (slots : List (Fin dnsCacheSize)) (best : ℕ × Fin dnsCacheSize),
      access best.2 ≤ best.1 →
      ∀ r, slots.foldl (fun best i => if access i < best.1 then (access i, i) else best) best = r →
        access r.2 ≤ r.1 ∧ r.1 ≤ best.1 ∧ ∀ i ∈ slots, r.1 ≤ access i := by
    intro slots
    induction slots with
    | nil =>
      rintro best hbest _ rfl
      exact ⟨hbest, le_rfl, fun _ hi => nomatch hi⟩
    | cons j slots ih =>
      rintro best hbest r hr
      rw [foldl_cons] at hr
      rw [forall_mem_cons]
      split_ifs at hr with hless
      · obtain ⟨hle, hbelow, hmin⟩ := ih _ le_rfl r hr
        exact ⟨hle, hbelow.trans hless.le, hbelow, hmin⟩
      · obtain ⟨hle, hbelow, hmin⟩ := ih _ hbest r hr
        exact ⟨hle, hbelow, hbelow.trans (Nat.not_lt.mp hless), hmin⟩
  obtain ⟨hle, -, hmin⟩ := hloop _ (_, _) (Nat.le_sub_one_of_lt (h _)) _ rfl
  exact hle.trans (hmin i (mem_finRange i))

lemma Inv.evictsLru (hinv : Inv calls c) (hlen : calls.length < 2 ^ 64) :
    c.EvictsLru calls := by
  intro now name ip ttlSecs hfull hnew
  have hslot : c.findSlot = (lruSlot fun i => (c.entries i).lastAccess).2 := by
    rw [findSlot, firstSlot_eq_none.mpr fun i => by simp [hfull i]]
  refine ⟨c.findSlot, by simp [insert, hnew], fun j hj => ⟨by simp [insert, hnew, hj], ?_⟩⟩
  have hle : (c.entries c.findSlot).lastAccess ≤ (c.entries j).lastAccess := by
    rw [hslot]
    refine lruSlot_le (fun i => (c.entries i).lastAccess) (fun i => ?_) j
    have haccess := (hinv.current i (hfull i)).access
    omega
  obtain ⟨-, haccess, -⟩ := hinv.current _ (hfull c.findSlot)
  obtain ⟨-, haccessj, hpos⟩ := hinv.current j (hfull j)
  refine Nat.lt_of_le_of_ne (by omega) fun heq => hj ?_
  have hmem : some (c.entries j).hostname ∈ uses calls := by
    rw [← idxOf_lt_length_iff, length_uses]
    change age calls _ < _
    omega
  exact hinv.distinct j _ (hfull j) (hfull _) (some.inj ((idxOf_inj hmem).mp heq))

/-- **The cache answers only for the name asked**, if the names that are inserted have at most
64 bytes, whatever the ticks of the calls. -/
theorem answers_for_name (calls : List (ℕ × Call)) (hshort : ∀ call ∈ calls, Short call)
    (hlen : calls.length < 2 ^ 64) :
    (∀ now name ip, ((run calls).lookup now name).1 = some ip →
      ∃ expiry, stored name calls = some (ip, expiry) ∧ now < expiry) ∧
    (run calls).Distinct ∧ (run calls).EvictsLru calls := by
  have hinv := inv_run hshort hlen
  refine ⟨fun now name ip hfound => ?_, hinv.distinct, hinv.evictsLru hlen⟩
  rw [lookup] at hfound
  split at hfound
  next i hslot =>
    obtain ⟨hvalid, rfl⟩ := slotOf_eq_some hslot
    simp only at hfound
    split_ifs at hfound with hfresh
    obtain ⟨expiry, hstored, hle⟩ := (hinv.current i hvalid).stored
    exact ⟨expiry, some.inj hfound ▸ hstored, hfresh.trans_le hle⟩
  · cases hfound

/-- Address 10.0.0.1 is stored for a name of `n` letters. -/
def stores (n : ℕ) : List (ℕ × Call) := [(0, .insert (List.replicate n 97) ⟨10, 0, 0, 1⟩ 300)]

theorem answers_for_short_name : ((run (stores 3)).lookup 5 [97, 97, 97]).1 =
    some ⟨10, 0, 0, 1⟩ ∧
      ∃ expiry, stored [97, 97, 97] (stores 3) = some (⟨10, 0, 0, 1⟩, expiry) ∧ 5 < expiry :=
  ⟨by decide +kernel, (answers_for_name (stores 3) (by simp [stores, Short]) (by decide)).1 5 _ _
    (by decide +kernel)⟩

/-- What was stored for a name of 65 letters is found under its first 64. -/
theorem long_name_aliased :
    ((run (stores 65)).lookup 5 (List.replicate 64 97)).1 = some ⟨10, 0, 0, 1⟩ ∧
      stored (List.replicate 64 97) (stores 65) = none := by
  decide +kernel

end DnsCache

end Fabric
