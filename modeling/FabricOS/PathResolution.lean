/-
From a path to its mount and the rest behind it (`MountTable::resolve`, `resolve_path`).

The search goes over all mounts and keeps the best match so far.  What it finds is a longest
mount point that the path starts with (`longest_of_found`), and the rest of the path is
copied into an array that has the size of a mount point, not that of a path.
-/
import FabricOS.Vfs

open List

namespace Fabric

open MountTable

namespace MountTable

variable {t : MountTable} {path mountPath : List UInt8} {i j : Fin maxMounts}

/-! ### What a mount point leaves of a path -/

/-- The path is the mount point, or goes on behind it with a slash; below `/` it may go on with
anything. -/
def Below (mountPath path : List UInt8) : Prop :=
  mountPath <+: path ∧
    (mountPath = [47] ∨ path = mountPath ∨ ∃ rest, path = mountPath ++ 47 :: rest)

lemma matchesAt_iff : matchesAt mountPath path = true ↔ Below mountPath path := by
  have hprefix : (path.length ≥ mountPath.length ∧ path.take mountPath.length = mountPath) ↔
      mountPath <+: path := by
    rw [prefix_iff_eq_take]
    constructor
    · rintro ⟨-, htake⟩
      exact htake.symm
    · intro htake
      refine ⟨?_, htake.symm⟩
      have hlen := congrArg length htake
      rw [length_take] at hlen
      omega
  simp only [matchesAt, Bool.and_eq_true, Bool.or_eq_true, beq_iff_eq, decide_eq_true_eq, hprefix,
    Below]
  refine and_congr_right ?_
  rintro ⟨tail, rfl⟩
  cases tail with
  | nil => simp
  | cons b tail => simp [eq_comm]

/-- What is left of a path behind a mount point, without the slash between them. -/
def rest (mountPath path : List UInt8) : List UInt8 :=
  match path.drop mountPath.length with
  | [] => []
  | b :: tail => if b = 47 then tail else b :: tail

lemma remainder_eq_rest : remainder path mountPath.length = rest mountPath path := by
  unfold remainder rest
  by_cases hlen : path.length ≤ mountPath.length
  · simp [hlen, drop_eq_nil_of_le hlen]
  have hlt : mountPath.length < path.length := by omega
  have hdrop : path.drop mountPath.length =
      path[mountPath.length] :: path.drop (mountPath.length + 1) := drop_eq_getElem_cons hlt
  simp only [hlen, if_false, hdrop, getElem?_eq_getElem hlt, beq_iff_eq, Option.some.injEq]
  split_ifs
  · rfl
  · exact hdrop

lemma length_rest_le (mountPath path : List UInt8) :
    (rest mountPath path).length ≤ path.length - mountPath.length := by
  rw [← length_drop, rest]
  split
  · simp
  rename_i b tail hdrop
  split_ifs
  · simp [hdrop]
  · rw [hdrop]

/-! ### The search -/

/-- The path belongs to this mount; an empty mount point is never found. -/
def Candidate (t : MountTable) (path : List UInt8) (i : Fin maxMounts) : Prop :=
  (t.entries i).active = true ∧ (t.entries i).path ≠ [] ∧ Below (t.entries i).path path

def Longest (t : MountTable) (path : List UInt8) (i : Fin maxMounts) : Prop :=
  t.Candidate path i ∧
    ∀ j, t.Candidate path j → (t.entries j).path.length ≤ (t.entries i).path.length

/-- What the search knows after the mounts in `seen`. -/
structure Best (t : MountTable) (path : List UInt8) (seen : List (Fin maxMounts))
    (best : Option (Fin maxMounts) × ℕ) : Prop where
  len : best.2 = (best.1.map fun i => (t.entries i).path.length).getD 0
  candidate : ∀ i, best.1 = some i → t.Candidate path i
  longest : ∀ j ∈ seen, t.Candidate path j → (t.entries j).path.length ≤ best.2

lemma Best.better {seen : List (Fin maxMounts)} {best : Option (Fin maxMounts) × ℕ}
    (h : t.Best path seen best) (i : Fin maxMounts) :
    t.Best path (seen ++ [i]) (t.better path best i) := by
  simp only [MountTable.better]
  split_ifs with hbetter
  · simp only [Bool.and_eq_true, matchesAt_iff, decide_eq_true_eq] at hbetter
    obtain ⟨⟨hactive, hbelow⟩, hlonger⟩ := hbetter
    have hne : (t.entries i).path ≠ [] := ne_nil_of_length_pos (by omega)
    refine ⟨rfl, ?_, ?_⟩
    · rintro j hj
      cases hj
      exact ⟨hactive, hne, hbelow⟩
    intro j hj hcandidate
    rcases mem_append.mp hj with hj | hj
    · exact (h.longest j hj hcandidate).trans hlonger.le
    · rw [mem_singleton.mp hj]
  · simp only [Bool.and_eq_true, matchesAt_iff, decide_eq_true_eq] at hbetter
    refine ⟨h.len, h.candidate, fun j hj hcandidate => ?_⟩
    rcases mem_append.mp hj with hj | hj
    · exact h.longest j hj hcandidate
    · obtain rfl := mem_singleton.mp hj
      by_contra hlonger
      exact hbetter ⟨⟨hcandidate.1, hcandidate.2.2⟩, by omega⟩

lemma Best.foldl {seen : List (Fin maxMounts)} {best : Option (Fin maxMounts) × ℕ}
    (h : t.Best path seen best) (mounts : List (Fin maxMounts)) :
    t.Best path (seen ++ mounts) (mounts.foldl (t.better path) best) := by
  induction mounts generalizing seen best with
  | nil => simpa using h
  | cons i mounts ih => simpa using ih (h.better i)

def found (t : MountTable) (path : List UInt8) : Option (Fin maxMounts) :=
  ((List.finRange maxMounts).foldl (t.better path) (none, 0)).1

lemma best_found (t : MountTable) (path : List UInt8) :
    ∃ len, t.Best path (List.finRange maxMounts) (t.found path, len) := by
  have hnew : t.Best path [] (none, 0) := ⟨rfl, by simp, by simp⟩
  have hall := hnew.foldl (finRange maxMounts)
  exact ⟨_, hall⟩

lemma longest_of_found (h : t.found path = some i) : t.Longest path i := by
  obtain ⟨len, hbest⟩ := t.best_found path
  have hlen : len = (t.entries i).path.length := by simpa [h] using hbest.len
  refine ⟨hbest.candidate i h, fun j hj => ?_⟩
  exact hlen ▸ hbest.longest j (mem_finRange j) hj

lemma not_candidate_of_found (h : t.found path = none) (j : Fin maxMounts) :
    ¬ t.Candidate path j := by
  obtain ⟨len, hbest⟩ := t.best_found path
  have hlen : len = 0 := by simpa [h] using hbest.len
  intro hj
  have hle : (t.entries j).path.length ≤ len := hbest.longest j (mem_finRange j) hj
  exact hj.2.1 (eq_nil_of_length_eq_zero (by omega))

lemma Longest.path_eq (hi : t.Longest path i) (hj : t.Longest path j) :
    (t.entries i).path = (t.entries j).path := by
  have hlen : (t.entries i).path.length = (t.entries j).path.length :=
    Nat.le_antisymm (hj.2 i hi.1) (hi.2 j hj.1)
  rw [prefix_iff_eq_take.mp hi.1.2.2.1, prefix_iff_eq_take.mp hj.1.2.2.1, hlen]

/-! ### Resolution -/

/-- What is left of the path behind its longest mount point fits into the result. -/
def RestFits (t : MountTable) (path : List UInt8) : Prop :=
  ∀ i, t.Longest path i → (rest (t.entries i).path path).length ≤ maxMountPath

lemma resolve_eq (t : MountTable) (path : List UInt8) :
    t.resolve path = match t.found path with
      | none => .ok none
      | some i =>
        if (rest (t.entries i).path path).length > maxMountPath then .panic
        else .ok (some ⟨i, rest (t.entries i).path path⟩) := by
  unfold resolve
  simp only [remainder_eq_rest]
  rfl

lemma restFits_iff (h : t.found path = some i) :
    t.RestFits path ↔ (rest (t.entries i).path path).length ≤ maxMountPath := by
  constructor
  · intro hfits
    exact hfits i (longest_of_found h)
  · intro hfits j hj
    rwa [hj.path_eq (longest_of_found h)]

/-- A result is complete: it names a longest mount point and has all of the rest. -/
def Complete (t : MountTable) (path : List UInt8) : Option ResolveResult → Prop
  | none => ∀ i, ¬ t.Candidate path i
  | some r => t.Longest path r.mountIndex ∧ r.remaining = rest (t.entries r.mountIndex).path path

lemma resolve_of_restFits (h : t.RestFits path) :
    ∃ r, t.resolve path = .ok r ∧ t.Complete path r := by
  rw [resolve_eq]
  cases hfound : t.found path with
  | none => exact ⟨none, rfl, not_candidate_of_found hfound⟩
  | some i =>
    have hlen := (restFits_iff hfound).mp h
    refine ⟨some ⟨i, _⟩, if_neg (by omega), longest_of_found hfound, rfl⟩

lemma resolve_of_not_restFits (h : ¬ t.RestFits path) : t.resolve path = .panic := by
  rw [resolve_eq]
  cases hfound : t.found path with
  | none => exact absurd (fun i hi => absurd hi.1 (not_candidate_of_found hfound i)) h
  | some i =>
    rw [restFits_iff hfound] at h
    exact if_pos (by omega)

end MountTable

namespace Vfs

/-- Both functions return for this path, and nothing behind the mount point is lost. -/
def Resolves (v : Vfs) (path : List UInt8) : Prop :=
  (∃ r, v.mounts.resolve path = .ok r ∧ v.mounts.Complete path r) ∧
    ∃ r, v.resolvePath path = .ok r

lemma resolvePath_returns {v : Vfs} {path : List UInt8} {r : Option ResolveResult}
    (h : v.mounts.resolve path = .ok r) : ∃ r', v.resolvePath path = .ok r' := by
  unfold resolvePath
  split_ifs
  · exact ⟨_, rfl⟩
  simp only [h, Exec.ok_bind]
  split <;> exact ⟨_, rfl⟩

lemma resolvePath_ne_diverge (v : Vfs) (path : List UInt8) : v.resolvePath path ≠ .diverge := by
  by_cases hfits : v.mounts.RestFits path
  · obtain ⟨r, hr, -⟩ := resolve_of_restFits hfits
    obtain ⟨r', hr'⟩ := resolvePath_returns hr
    simp [hr']
  unfold resolvePath
  rw [resolve_of_not_restFits hfits]
  split_ifs <;> simp

lemma resolvePath_of_found {v : Vfs} {p : List UInt8} {i : Fin maxMounts}
    (hfound : v.mounts.found (47 :: p) = some i)
    (hfits : (MountTable.rest (v.mounts.entries i).path (47 :: p)).length ≤ maxMountPath) :
    v.resolvePath (47 :: p) =
      .ok ((v.lookupIn (v.mounts.entries i)
        (MountTable.rest (v.mounts.entries i).path (47 :: p))).elim (.error .notFound) .ok) := by
  have hactive : (v.mounts.entries i).active = true := (longest_of_found hfound).1.1
  have hresolve : v.mounts.resolve (47 :: p) =
      .ok (some ⟨i, MountTable.rest (v.mounts.entries i).path (47 :: p)⟩) := by
    rw [resolve_eq, hfound]
    exact if_neg (by omega)
  simp only [resolvePath, head?_cons, ne_eq, not_true_eq_false, if_false, hresolve,
    Exec.ok_bind, Option.bind_some, MountTable.get, hactive, if_true]
  cases v.lookupIn (v.mounts.entries i) (MountTable.rest (v.mounts.entries i).path (47 :: p)) with
  | none | some inodeId => rfl

/-- **Path resolution returns with the whole rest of the path** exactly if the rest behind the
longest mount point has no more than 64 bytes. -/
theorem resolves_iff (v : Vfs) (path : List UInt8) : v.Resolves path ↔ v.mounts.RestFits path := by
  constructor
  · rintro ⟨⟨r, hr, -⟩, -⟩
    by_contra hfits
    rw [resolve_of_not_restFits hfits] at hr
    cases hr
  · intro hfits
    obtain ⟨r, hr, hcomplete⟩ := resolve_of_restFits hfits
    exact ⟨⟨r, hr, hcomplete⟩, resolvePath_returns hr⟩

def longPath : List UInt8 := 47 :: List.replicate 65 97

/-- The file system as it is booted aborts on a path of 66 bytes. -/
theorem longPath_panics :
    longPath.length = 66 ∧ booted.mounts.resolve longPath = .panic ∧
      booted.resolvePath longPath = .panic := by
  decide +kernel

end Vfs

end Fabric
