/-
Archives in the newc format of CPIO (`vfs/cpio.rs`).

An entry is a header of 110 bytes, in which every number is written as eight hexadecimal
digits, the name of the file and its data, both padded to four bytes.
-/
import FabricOS.Exec
import Mathlib.Algebra.Group.Nat.Defs

namespace Fabric

/-- `&bytes[start..stop]`, for bounds that are in range. -/
def slice (bytes : List UInt8) (start stop : ℕ) : List UInt8 :=
  (bytes.drop start).take (stop - start)

structure CpioEntry where
  name : List UInt8
  data : List UInt8
  isDirectory : Bool
  deriving DecidableEq

inductive CpioError
  | tooShort
  | badMagic
  | badHex
  | outOfBounds
  deriving DecidableEq

namespace Cpio

/-- `CPIO_MAGIC`, "070701". -/
def magic : List UInt8 := [48, 55, 48, 55, 48, 49]

def trailer : List UInt8 := [84, 82, 65, 73, 76, 69, 82, 33, 33, 33]

/-! ### Numbers -/

def hexDigit (b : UInt8) : Option UInt32 :=
  if 48 ≤ b ∧ b ≤ 57 then some (b - 48).toUInt32
  else if 97 ≤ b ∧ b ≤ 102 then some (b - 97 + 10).toUInt32
  else if 65 ≤ b ∧ b ≤ 70 then some (b - 65 + 10).toUInt32
  else none

def parseHex8 (bytes : List UInt8) : Except CpioError UInt32 :=
  if bytes.length < 8 then .error .badHex
  else
    (bytes.take 8).foldlM (fun value b =>
      match hexDigit b with
      | none => .error .badHex
      | some digit => .ok (value <<< 4 ||| digit)) 0

/-- `(pos + 3) & !3`. -/
def align4 (pos : ℕ) : ℕ := (pos + 3) / 4 * 4

lemma le_align4 (pos : ℕ) : pos ≤ align4 pos := by
  unfold align4
  omega

/-! ### Entries -/

/-- The name without the NUL at its end, if there is one. -/
def entryName (archive : List UInt8) (start stop : ℕ) : List UInt8 :=
  if start < stop ∧ archive[stop - 1]? = some 0 then slice archive start (stop - 1)
  else slice archive start stop

/-- The entry whose header starts at `pos`, and where the next one starts; none at the
trailer. -/
def parseEntry (archive : List UInt8) (pos : ℕ) : Except CpioError (Option (CpioEntry × ℕ)) := do
  if slice archive pos (pos + 6) ≠ magic then .error .badMagic
  else
    let mode ← parseHex8 (slice archive (pos + 14) (pos + 22))
    let filesize ← parseHex8 (slice archive (pos + 54) (pos + 62))
    let namesize ← parseHex8 (slice archive (pos + 94) (pos + 102))
    let nameStart := pos + 110
    let nameEnd := nameStart + namesize.toNat
    if nameEnd > archive.length then .error .outOfBounds
    else
      let name := entryName archive nameStart nameEnd
      if name = trailer then .ok none
      else
        let dataStart := align4 nameEnd
        let dataEnd := dataStart + filesize.toNat
        if dataEnd > archive.length then .error .outOfBounds
        else
          -- `S_IFDIR` in the bits of `S_IFMT`
          let isDirectory := mode &&& 0o170000 == 0o040000
          .ok (some (⟨name, slice archive dataStart dataEnd, isDirectory⟩, align4 dataEnd))

/-- The loop of `parse_cpio`; an archive that ends without a trailer gives what was read so
far, if that is anything. -/
def parseFrom (archive : List UInt8) :
    ℕ → (pos : ℕ) → List CpioEntry → Exec (Except CpioError (List CpioEntry))
  | 0, _, _ => .diverge
  | fuel + 1, pos, entries =>
    if pos + 110 > archive.length then
      .ok (if entries.isEmpty then .error .tooShort else .ok entries)
    else
      match parseEntry archive pos with
      | .error e => .ok (.error e)
      | .ok none => .ok (.ok entries)
      | .ok (some (entry, next)) =>
        -- the entry of the root directory is skipped
        parseFrom archive fuel next (if entry.name = [46] then entries else entries ++ [entry])

end Cpio

open Cpio in
def parseCpio (archive : List UInt8) : Exec (Except CpioError (List CpioEntry)) :=
  parseFrom archive (archive.length + 1) 0 []

namespace Cpio

variable {archive : List UInt8} {entries : List CpioEntry}

lemma parseEntry_cases {pos next : ℕ} {entry : CpioEntry}
    (h : parseEntry archive pos = .ok (some (entry, next))) :
    pos + 110 ≤ next ∧ entry.data.length < 2 ^ 32 := by
  unfold parseEntry at h
  split_ifs at h
  cases hmode : parseHex8 (slice archive (pos + 14) (pos + 22)) with
  | error e => simp [hmode, bind, Except.bind] at h
  | ok mode =>
    cases hfile : parseHex8 (slice archive (pos + 54) (pos + 62)) with
    | error e => simp [hmode, hfile, bind, Except.bind] at h
    | ok filesize =>
      cases hname : parseHex8 (slice archive (pos + 94) (pos + 102)) with
      | error e => simp [hmode, hfile, hname, bind, Except.bind] at h
      | ok namesize =>
        simp only [hmode, hfile, hname, bind, Except.bind] at h
        split_ifs at h
        · cases h
        have hname := le_align4 (pos + 110 + namesize.toNat)
        have hdata := le_align4 (align4 (pos + 110 + namesize.toNat) + filesize.toNat)
        have hsize := filesize.toNat_lt
        cases h
        simp only [slice, List.length_take, List.length_drop]
        omega

lemma parseFrom_returns {fuel pos : ℕ} (hfuel : archive.length < pos + fuel) (hpos : 0 < fuel) :
    ∃ r, parseFrom archive fuel pos entries = .ok r := by
  induction fuel generalizing pos entries with
  | zero => omega
  | succ fuel ih =>
    unfold parseFrom
    by_cases hend : pos + 110 > archive.length
    · exact ⟨_, if_pos hend⟩
    rw [if_neg hend]
    cases hentry : parseEntry archive pos with
    | error e => exact ⟨_, rfl⟩
    | ok found =>
      cases found with
      | none => exact ⟨_, rfl⟩
      | some p =>
        obtain ⟨entry, next⟩ := p
        have hnext : pos + 110 ≤ next := (parseEntry_cases hentry).1
        refine ih ?_ ?_
        · omega
        · omega

lemma parseFrom_forall {P : CpioEntry → Prop}
    (hP : ∀ {pos entry next}, parseEntry archive pos = .ok (some (entry, next)) →
      entry.name ≠ [46] → P entry) {fuel pos : ℕ} {found : List CpioEntry}
    (h : parseFrom archive fuel pos entries = .ok (.ok found)) (hentries : ∀ e ∈ entries, P e) :
    ∀ e ∈ found, P e := by
  induction fuel generalizing pos entries with
  | zero => exact absurd h (by simp [parseFrom])
  | succ fuel ih =>
    unfold parseFrom at h
    split_ifs at h with hend hempty
    · cases h
    · obtain rfl := Except.ok.inj (Exec.ok.inj h)
      exact hentries
    cases hentry : parseEntry archive pos with
    | error e => simp [hentry] at h
    | ok next =>
      cases next with
      | none =>
        simp only [hentry, Exec.ok.injEq, Except.ok.injEq] at h
        exact h ▸ hentries
      | some p =>
        simp only [hentry] at h
        refine ih h ?_
        split_ifs with hdot
        · exact hentries
        intro e he
        rcases List.mem_append.mp he with he | he
        · exact hentries e he
        · exact List.mem_singleton.mp he ▸ hP hentry hdot

end Cpio

lemma parseCpio_returns (archive : List UInt8) : ∃ r, parseCpio archive = .ok r :=
  Cpio.parseFrom_returns (by omega) (by omega)

/-! ### Archives for tests -/

namespace Cpio

/-- A digit of `{:08X}`. -/
def hexByte (digit : ℕ) : UInt8 := .ofNat (if digit < 10 then 48 + digit else 55 + digit)

/-- `{:08X}`. -/
def hex8 (n : ℕ) : List UInt8 :=
  [7, 6, 5, 4, 3, 2, 1, 0].map fun i => hexByte (n / 16 ^ i % 16)

def header (ino mode nlink filesize namesize : ℕ) : List UInt8 :=
  magic ++ [ino, mode, 0, 0, nlink, 0, filesize, 0, 0, 0, 0, namesize, 0].flatMap hex8

def pad4 (bytes : List UInt8) : List UInt8 :=
  bytes ++ List.replicate (align4 bytes.length - bytes.length) 0

def appendEntry (archive : List UInt8) (ino : ℕ) (entry : CpioEntry) : List UInt8 :=
  let mode := if entry.isDirectory then 0o040755 else 0o100644
  let data := if entry.isDirectory then [] else entry.data
  let named := pad4 (archive ++ header ino mode 1 data.length (entry.name.length + 1) ++
    entry.name ++ [0])
  if entry.isDirectory then named else pad4 (named ++ data)

/-- All entries, numbered from `ino` on. -/
def appendEntries : List UInt8 → ℕ → List CpioEntry → List UInt8
  | archive, _, [] => archive
  | archive, ino, entry :: entries =>
    appendEntries (appendEntry archive ino entry) (ino + 1) entries

/-- `build_test_cpio`. -/
def buildTestCpio (entries : List CpioEntry) : List UInt8 :=
  pad4 (appendEntries [] 1 entries ++ header 0 0 0 0 (trailer.length + 1) ++ trailer ++ [0])

end Cpio

end Fabric
