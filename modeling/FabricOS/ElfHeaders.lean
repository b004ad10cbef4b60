/-
The table of segments (`elf/mod.rs`, `program_headers`).

The header of a file gives the offset of the table, the size of an entry and their number.  The
check adds them up with 64 bits, and the table is then read as an array of 56-byte entries.
-/
import FabricOS.ElfLoader

namespace Fabric.Elf

/-- The table holds the declared entries, at their declared places, all inside of the file. -/
structure TableRead (data : Slice) (header : Elf64Header) (phdrs : List Elf64Phdr) : Prop where
  length : phdrs.length = header.ePhnum.toNat
  entry : ∀ i < header.ePhnum.toNat, phdrs[i]? =
    some (data.phdr (header.ePhoff + .ofNat i * header.ePhentsize.toUInt64))
  inside : ∀ i < header.ePhnum.toNat,
    header.ePhoff.toNat + i * header.ePhentsize.toNat + 56 ≤ data.len.toNat

section

variable {data : Slice} {header : Elf64Header} {phdrs : List Elf64Phdr}

lemma programHeaders_eq_ok (h : programHeaders data header = .ok phdrs) :
    56 ≤ header.ePhentsize.toNat ∧
    (header.ePhoff.toNat + header.ePhnum.toNat * header.ePhentsize.toNat) % 2 ^ 64 ≤
      data.len.toNat ∧
    phdrs = (List.range header.ePhnum.toNat).map fun i =>
      data.phdr (header.ePhoff + .ofNat i * sizeOfPhdr) := by
  simp only [programHeaders] at h
  split at h
  · cases h
  rename_i hsize
  split at h
  · cases h
  rename_i hlast
  cases h
  simp only [sizeOfPhdr, UInt64.not_lt, gt_iff_lt, UInt64.le_iff_toNat_le, UInt64.toNat_add,
    UInt64.toNat_mul, UInt16.toNat_toUInt64, UInt64.reduceToNat, Nat.add_mod_mod] at hsize hlast
  exact ⟨hsize, hlast, by rw [UInt16.toNat_toUInt64]⟩

end

/-- A file of 192 bytes with two entries of `entsize` bytes, from the offset `off` on. -/
def tableImage (off : List UInt8) (entsize : UInt8) : Slice where
  bytes i := ([0x7F, 0x45, 0x4C, 0x46, 2, 1, 1, 0, 0, 0, 0, 0, 0, 0, 0, 0,
    2, 0, 0x3E, 0, 1, 0, 0, 0, 0, 0, 0x40, 0, 0, 0, 0, 0] ++ off ++
    [0, 0, 0, 0, 0, 0, 0, 0, 0, 0, 0, 0, 0x40, 0, entsize, 0, 2, 0, 0, 0, 0, 0, 0, 0] ++
    List.replicate 64 0 ++ [1]).getD i.toNat 0
  len := 192

/-- The file is accepted, but its table is not read as declared. -/
def Misread (data : Slice) : Prop :=
  ∃ header phdrs, parseHeader data = .ok header ∧ programHeaders data header = .ok phdrs ∧
    ¬ TableRead data header phdrs

end Fabric.Elf
