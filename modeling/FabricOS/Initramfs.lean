/-
Loading the initial files (`load_initramfs` of `vfs/mod.rs`).

Every entry of the archive gets an inode and is listed in the root directory, under its whole
path.  Opening goes down one directory for each component of a path, so only files of the top
level are found again.
-/
import FabricOS.Cpio
import FabricOS.PathResolution

open Function Option List Bool

namespace Fabric

open MountTable Tmpfs

/-! ### Inodes that are numbered -/

namespace InodeTable

variable {t : InodeTable} {n : ℕ}

/-- The first `n` entries are in use, with the numbers from 1 on. -/
structure Numbered (t : InodeTable) (n : ℕ) : Prop where
  next : t.nextId.toNat = n + 1
  active : ∀ i, (t.entries i).active = true ↔ i.val < n
  inodeId : ∀ i, i.val < n → (t.entries i).inodeId.raw.toNat = i.val + 1

lemma numbered_new : new.Numbered 0 where
  next := rfl
  active i := by simp [new, Inode.empty]
  inodeId i h := absurd h (by omega)

def fresh (t : InodeTable) (inodeType : InodeType) (fsId : UInt16) : Inode where
  inodeId := ⟨t.nextId⟩
  inodeType
  size := 0
  fsId
  active := true

lemma Numbered.alloc (h : t.Numbered n) (hn : n < maxInodes) (inodeType : InodeType)
    (fsId : UInt16) :
    ∃ t', t.alloc inodeType fsId = some (t', ⟨t.nextId⟩) ∧ t'.Numbered (n + 1) ∧
      t'.entries = update t.entries ⟨n, hn⟩ (t.fresh inodeType fsId) := by
  have hfirst : firstSlot (fun i => !(t.entries i).active) = some ⟨n, hn⟩ := by
    refine firstSlot_eq_some.mpr ⟨?_, fun j hj => ?_⟩
    · have hfree : (t.entries ⟨n, hn⟩).active = false := by
        rw [eq_false_iff, ne_eq, h.active]
        simp
      simp [hfree]
    · simp [(h.active j).mpr hj]
  refine ⟨⟨update t.entries ⟨n, hn⟩ (t.fresh inodeType fsId), t.nextId + 1⟩, ?_,
    ⟨?_, fun i => ?_, fun i hi => ?_⟩, rfl⟩
  · unfold InodeTable.alloc
    rw [hfirst]
    rfl
  · have hmax : n + 1 + 1 < 2 ^ 32 := by simp only [maxInodes] at hn; omega
    rw [UInt32.toNat_add, h.next]
    exact Nat.mod_eq_of_lt hmax
  · by_cases hi : i = ⟨n, hn⟩
    · subst hi
      simp [fresh]
    · have hval : i.val ≠ n := fun heq => hi (Fin.ext heq)
      simp only [update_of_ne hi, h.active]
      omega
  · by_cases hin : i = ⟨n, hn⟩
    · subst hin
      simp [fresh, h.next]
    · have hval : i.val ≠ n := fun heq => hin (Fin.ext heq)
      simp only [update_of_ne hin]
      exact h.inodeId i (by omega)

lemma Numbered.get_alloc {t' : InodeTable} {hn : n < maxInodes} {inode : Inode}
    (h : t.Numbered n) (hid : inode.inodeId = ⟨t.nextId⟩) (hactive : inode.active = true)
    (hentries : t'.entries = update t.entries ⟨n, hn⟩ inode) (id : InodeId) :
    t'.get id = if id = ⟨t.nextId⟩ then some inode else t.get id := by
  unfold get find
  rw [hentries]
  have hbefore : ∀ j : Fin maxInodes, (t.entries j).active = true →
      (t.entries j).inodeId ≠ ⟨t.nextId⟩ := by
    intro j hj heq
    have hlt := (h.active j).mp hj
    have hraw := h.inodeId j hlt
    rw [heq, h.next] at hraw
    omega
  split_ifs with hnew
  · have hfirst : firstSlot (fun i => (update t.entries ⟨n, hn⟩ inode i).active &&
        (update t.entries ⟨n, hn⟩ inode i).inodeId == id) = some ⟨n, hn⟩ := by
      refine firstSlot_eq_some.mpr ⟨by simp [hid, hactive, hnew], fun j hj => ?_⟩
      rw [update_of_ne hj.ne]
      cases hused : (t.entries j).active with
      | false => rfl
      | true => simpa [hnew] using hbefore j hused
    rw [hfirst]
    simp
  · have hsearch : (firstSlot fun i => (update t.entries ⟨n, hn⟩ inode i).active &&
        (update t.entries ⟨n, hn⟩ inode i).inodeId == id) =
          firstSlot fun i => (t.entries i).active && (t.entries i).inodeId == id := by
      refine congrArg firstSlot (funext fun j => ?_)
      by_cases hj : j = ⟨n, hn⟩
      · subst hj
        have hfree : (t.entries ⟨n, hn⟩).active = false := by
          rw [eq_false_iff, ne_eq, h.active]
          simp
        simpa [hid, hactive, hfree] using fun heq => hnew heq.symm
      · rw [update_of_ne hj]
    rw [hsearch]
    cases hfind : firstSlot fun i => (t.entries i).active && (t.entries i).inodeId == id with
    | none => rfl
    | some j =>
      have hj : j ≠ ⟨n, hn⟩ := by
        rintro rfl
        have hused := (firstSlot_eq_some.mp hfind).1
        simp only [and_eq_true] at hused
        exact absurd ((h.active _).mp hused.1) (lt_irrefl n)
      simp [update_of_ne hj]

lemma Numbered.alloc_full (h : t.Numbered maxInodes) (inodeType : InodeType) (fsId : UInt16) :
    t.alloc inodeType fsId = none := by
  have hfirst : firstSlot (fun i => !(t.entries i).active) = none :=
    firstSlot_eq_none.mpr fun i => by simp [(h.active i).mpr i.isLt]
  unfold InodeTable.alloc
  rw [hfirst]
  rfl

lemma Numbered.modify (h : t.Numbered n) (id : InodeId) {f : Inode → Inode}
    (hid : ∀ inode, (f inode).inodeId = inode.inodeId)
    (hactive : ∀ inode, (f inode).active = inode.active) : (t.modify id f).Numbered n := by
  unfold InodeTable.modify
  split
  · exact h
  rename_i j _
  refine ⟨h.next, fun i => ?_, fun i hi => ?_⟩
  · by_cases hij : i = j
    · subst hij
      simp [hactive, h.active]
    · simp only [update_of_ne hij, h.active]
  · by_cases hij : i = j
    · subst hij
      simp [hid, h.inodeId i hi]
    · simp only [update_of_ne hij, h.inodeId i hi]

end InodeTable

/-! ### Loading -/

namespace CpioEntry

/-- The path of an entry, without `./` in front of it. -/
def path (entry : CpioEntry) : List UInt8 :=
  if [46, 47].isPrefixOf entry.name then entry.name.drop 2 else entry.name

def skipped (entry : CpioEntry) : Bool :=
  entry.name.isEmpty || entry.name == [46] || entry.name == [46, 47] || entry.path.isEmpty

def fileData (entry : CpioEntry) : Option (List UInt8) :=
  if entry.isDirectory then none else some entry.data

lemma skipped_iff {entry : CpioEntry} (h : entry.name ≠ [46]) :
    entry.skipped = true ↔ entry.path = [] := by
  constructor
  · intro hskipped
    simp only [skipped, or_eq_true, List.isEmpty_iff, beq_iff_eq] at hskipped
    rcases hskipped with ((hname | hname) | hname) | hpath
    · simp [path, hname]
    · exact absurd hname h
    · simp [path, hname]
    · exact hpath
  · intro hpath
    simp [skipped, hpath]

end CpioEntry

namespace Vfs

/-- One round of the loop; without a free inode the entry is dropped. -/
def addEntry (v : Vfs) (entry : CpioEntry) : Vfs :=
  if entry.skipped then v
  else if entry.isDirectory then
    match v.inodes.alloc .directory v.tmpfs.fsId with
    | none => v
    | some (inodes, id) =>
      { v with
        inodes
        tmpfs := (v.tmpfs.registerDir id).addDirEntry v.tmpfs.rootInode entry.path id }
  else
    match v.inodes.alloc .file v.tmpfs.fsId with
    | none => v
    | some (inodes, id) =>
      { v with
        inodes := inodes.modify id fun inode => { inode with size := .ofNat entry.data.length }
        tmpfs := (v.tmpfs.createFileWithData id entry.data).addDirEntry v.tmpfs.rootInode
          entry.path id }

/-- `load_initramfs`; an archive that cannot be parsed is ignored. -/
def loadInitramfs (v : Vfs) (archive : List UInt8) : Exec Vfs := do
  match ← parseCpio archive with
  | .error _ => .ok v
  | .ok entries => .ok (entries.foldl addEntry v)

end Vfs

/-! ### The root directory -/

def devName : List UInt8 := [100, 101, 118]

/-- The files and directories of `kept`, all in the root directory, which has inode 1; the
directories are empty. -/
structure Tree (kept : List CpioEntry) (fs : Tmpfs) : Prop where
  root : fs.rootInode = ⟨1⟩
  listed : ∃ entries, fs.dirs 1 = some entries ∧
    (∀ d ∈ entries, 2 ≤ d.inodeId.raw.toNat ∧ d.inodeId.raw.toNat < 6 + kept.length) ∧
    entries.find? (·.name == devName) = some ⟨devName, ⟨2⟩⟩ ∧
    ∀ name, name ≠ devName →
      (entries.find? (·.name == name)).map (fun d => fs.files d.inodeId.raw) =
        (kept.find? (·.path == name)).map CpioEntry.fileData
  empty : ∀ raw, raw ≠ 1 → fs.dirs raw = none ∨ fs.dirs raw = some []
  files : ∀ raw, fs.files raw ≠ none → 6 ≤ raw.toNat ∧ raw.toNat < 6 + kept.length

variable {kept : List CpioEntry} {fs fs1 : Tmpfs}

variable {id : InodeId}

lemma Tree.add {e : CpioEntry} (h : Tree kept fs)
    (hid : id.raw.toNat = 6 + kept.length) (hutf8 : isUtf8 e.path = true)
    (hroot : fs1.rootInode = fs.rootInode) (hdir : fs1.dirs 1 = fs.dirs 1)
    (hempty : ∀ raw, raw ≠ 1 → fs1.dirs raw = none ∨ fs1.dirs raw = some [])
    (hfiles : ∀ raw, fs1.files raw = if raw = id.raw then e.fileData else fs.files raw) :
    Tree (kept ++ [e]) (fs1.addDirEntry fs.rootInode e.path id) := by
  obtain ⟨entries, hentries, hbound, hdev, hshows⟩ := h.listed
  have hadd : fs1.addDirEntry fs.rootInode e.path id = { fs1 with
      dirs := update fs1.dirs 1 (some (entries ++ [⟨e.path, id⟩])) } := by
    simp [addDirEntry, h.root, hdir, hentries, hutf8]
  rw [hadd]
  refine ⟨hroot.trans h.root, ⟨entries ++ [⟨e.path, id⟩], by simp, ?_, ?_, ?_⟩, ?_, ?_⟩
  · intro d hd
    rw [length_append, length_singleton]
    rcases mem_append.mp hd with hd | hd
    · have := hbound d hd
      omega
    · rw [mem_singleton.mp hd, hid]
      omega
  · simp [find?_append, hdev]
  · intro name hname
    have hold := hshows name hname
    rw [find?_append, find?_append]
    cases hfind : entries.find? (·.name == name) with
    | some d =>
      -- the entries before keep their files: the number is new
      have hne : d.inodeId.raw ≠ id.raw := by
        intro heq
        have hlt := (hbound d (mem_of_find?_eq_some hfind)).2
        rw [heq, hid] at hlt
        omega
      cases hkept : kept.find? (·.path == name) with
      | none => simp [hfind, hkept] at hold
      | some e' => simpa [hfind, hkept, hfiles, hne] using hold
    | none =>
      have hkept : kept.find? (·.path == name) = none := by simpa [hfind] using hold.symm
      by_cases hpath : e.path = name
      · simp [hkept, hpath, hfiles]
      · simp [hkept, hpath]
  · intro raw hraw
    simp only [update_of_ne hraw]
    exact hempty raw hraw
  · intro raw hraw
    rw [length_append, length_singleton]
    simp only [hfiles] at hraw
    split_ifs at hraw with heq
    · rw [heq, hid]
      omega
    · have := h.files raw hraw
      omega

lemma tree_init : Tree [] ((Tmpfs.new.init 1 ⟨1⟩).addDirEntry ⟨1⟩ devName ⟨2⟩) := by
  have hutf8 : isUtf8 devName = true := by decide
  have hdirs : ∀ raw, ((Tmpfs.new.init 1 ⟨1⟩).addDirEntry ⟨1⟩ devName ⟨2⟩).dirs raw =
      if raw = 1 then some [⟨devName, ⟨2⟩⟩] else none := by
    simp [Tmpfs.addDirEntry, Tmpfs.init, Tmpfs.registerDir, Tmpfs.new, hutf8, update_apply]
  refine ⟨rfl, ⟨[⟨devName, ⟨2⟩⟩], hdirs 1, by simp, by simp, fun name hname => ?_⟩, ?_, ?_⟩
  · simp [hname.symm]
  · intro raw hraw
    exact Or.inl (by simp [hdirs, hraw])
  · intro raw hraw
    exact absurd rfl hraw

namespace Vfs

variable {v : Vfs}

/-- The booted file system with the files of `kept`. -/
structure Loaded (kept : List CpioEntry) (v : Vfs) : Prop where
  mounts : v.mounts = booted.mounts
  openFiles : v.openFiles = .new
  devfs : v.devfs = booted.devfs
  numbered : v.inodes.Numbered (5 + kept.length)
  tree : Tree kept v.tmpfs

lemma expect_eq_ok {α : Type} {o : Option α} {a : α} : expect o = .ok a ↔ o = some a := by
  cases o <;> simp [expect]

lemma init_eq_ok (h : init = .ok v) :
    v.inodes.Numbered 5 ∧ v.tmpfs = (Tmpfs.new.init 1 ⟨1⟩).addDirEntry ⟨1⟩ devName ⟨2⟩ := by
  simp only [init, Exec.bind_eq_ok, expect_eq_ok] at h
  obtain ⟨⟨inodes1, root⟩, hroot, fsId, hmount, ⟨inodes2, devDir⟩, hdev, fsId', -, ⟨devfs, inodes3⟩,
    hdevfs, h⟩ := h
  obtain ⟨t1, halloc, h1, -⟩ := InodeTable.numbered_new.alloc (by decide) .directory 0
  rw [halloc, some.injEq, Prod.mk.injEq] at hroot
  obtain ⟨rfl, rfl⟩ := hroot
  obtain rfl : fsId = 1 := by
    have hfirst : (new.mount [47] .tmpfs ⟨InodeTable.new.nextId⟩).2.toOption = some 1 :=
      rfl
    exact (some.inj hmount).symm
  have h1 := h1.modify ⟨InodeTable.new.nextId⟩ (f := fun inode => { inode with fsId := 1 })
    (fun _ => rfl) (fun _ => rfl)
  obtain ⟨t2, halloc, h2, -⟩ := h1.alloc (by decide) .directory 0
  rw [halloc, some.injEq, Prod.mk.injEq] at hdev
  obtain ⟨rfl, rfl⟩ := hdev
  obtain ⟨t3, halloc3, h3, -⟩ := h2.alloc (by decide) .charDevice fsId'
  obtain ⟨t4, halloc4, h4, -⟩ := h3.alloc (by decide) .charDevice fsId'
  obtain ⟨t5, halloc5, h5, -⟩ := h4.alloc (by decide) .charDevice fsId'
  have hdevDir : (t1.modify ⟨InodeTable.new.nextId⟩ fun inode => { inode with fsId := 1 }).nextId =
      2 := UInt32.toNat.inj h1.next
  simp only [Devfs.init, halloc3, halloc4, halloc5, bind_eq_bind, bind_some] at hdevfs
  cases hdevfs
  rw [← Exec.ok.inj h]
  refine ⟨h5, ?_⟩
  simp only [hdevDir]
  rfl

lemma booted_eq_ok : init = .ok booted := by
  obtain ⟨v, hv⟩ := init_returns
  have hbooted : v = booted := Exec.Post.get (P := fun w => v = w) ⟨v, hv, rfl⟩
  rw [hv, hbooted]

lemma loaded_booted : Loaded [] booted := by
  obtain ⟨hnumbered, htmpfs⟩ := init_eq_ok booted_eq_ok
  refine ⟨rfl, booted_openFiles, rfl, hnumbered, ?_⟩
  rw [htmpfs]
  exact tree_init

lemma Loaded.addEntry {e : CpioEntry} (h : Loaded kept v) (hkept : e.skipped = false)
    (hutf8 : isUtf8 e.path = true) (hroom : kept.length < 1019) :
    Loaded (kept ++ [e]) (v.addEntry e) := by
  have hn : 5 + kept.length < maxInodes := by simp only [maxInodes]; omega
  have hid : v.inodes.nextId.toNat = 6 + kept.length := by rw [h.numbered.next]; omega
  have hraw : v.inodes.nextId ≠ 1 := by
    intro heq
    rw [heq] at hid
    simp at hid
    omega
  have hlen : 5 + (kept ++ [e]).length = 5 + kept.length + 1 := by simp [Nat.add_assoc]
  simp only [Vfs.addEntry, hkept, false_eq_true, if_false]
  cases hdir : e.isDirectory with
  | true =>
    obtain ⟨inodes, halloc, hnumbered, -⟩ := h.numbered.alloc hn .directory v.tmpfs.fsId
    simp only [if_true, halloc]
    rw [← hlen] at hnumbered
    refine ⟨h.mounts, h.openFiles, h.devfs, hnumbered, ?_⟩
    refine h.tree.add hid hutf8 rfl ?_ ?_ ?_
    · simp [registerDir, hraw.symm]
    · intro raw hne
      by_cases hnew : raw = v.inodes.nextId
      · simp [registerDir, hnew]
      · simpa [registerDir, hnew] using h.tree.empty raw hne
    · intro raw
      split_ifs with hnew
      · -- the number is new, so there is no file under it
        by_contra hfile
        have hold : v.tmpfs.files raw ≠ none := by
          simpa [CpioEntry.fileData, hdir, registerDir] using hfile
        have hlt := (h.tree.files raw hold).2
        rw [hnew, hid] at hlt
        omega
      · rfl
  | false =>
    obtain ⟨inodes, halloc, hnumbered, -⟩ := h.numbered.alloc hn .file v.tmpfs.fsId
    simp only [false_eq_true, if_false, halloc]
    have hsized := hnumbered.modify ⟨v.inodes.nextId⟩
      (f := fun inode => { inode with size := .ofNat e.data.length }) (fun _ => rfl) (fun _ => rfl)
    rw [← hlen] at hsized
    refine ⟨h.mounts, h.openFiles, h.devfs, by simpa only using hsized, ?_⟩
    refine h.tree.add hid hutf8 rfl rfl h.tree.empty ?_
    intro raw
    by_cases hnew : raw = v.inodes.nextId
    · simp [createFileWithData, hnew, CpioEntry.fileData, hdir]
    · simp [createFileWithData, hnew]

lemma Loaded.foldl {entries : List CpioEntry} (h : Loaded kept v)
    (hutf8 : ∀ e ∈ entries, isUtf8 e.path = true)
    (hroom : kept.length + (entries.filter (!·.skipped)).length ≤ 1019) :
    Loaded (kept ++ entries.filter (!·.skipped)) (entries.foldl Vfs.addEntry v) := by
  induction entries generalizing kept v with
  | nil => simpa using h
  | cons e entries ih =>
    have hutf8' : ∀ e ∈ entries, isUtf8 e.path = true :=
      fun e he => hutf8 e (mem_cons_of_mem _ he)
    rw [foldl_cons]
    cases hkept : e.skipped with
    | true =>
      have hsame : v.addEntry e = v := by simp [Vfs.addEntry, hkept]
      simp only [filter_cons, hkept] at hroom ⊢
      rw [hsame]
      exact ih h hutf8' hroom
    | false =>
      simp only [filter_cons, hkept, Bool.not_false, if_true, length_cons] at hroom ⊢
      have hadd := h.addEntry hkept (hutf8 e mem_cons_self) (by omega)
      have hrest := ih hadd hutf8' (by simp only [length_append, length_singleton]; omega)
      rwa [append_assoc, singleton_append] at hrest

/-! ### Paths after loading -/

def components (path : List UInt8) : List (List UInt8) :=
  (path.splitOn 47).filter (!·.isEmpty)

lemma components_slash (path : List UInt8) : components (47 :: path) = components path := by
  have hsplit : (47 :: path).splitOn 47 = [[]] ++ path.splitOn 47 := by
    have happend : ([] ++ 47 :: path).splitOn 47 = [].splitOn 47 ++ path.splitOn (47 : UInt8) :=
      splitOn_append_cons_self [] path
    simpa using happend
  simp [components, hsplit]

lemma walk_components (fs : Tmpfs) (root : InodeId) (path : List UInt8) :
    walk fs root (path.splitOn 47) = (components path).foldlM fs.lookup root := by
  unfold walk components
  generalize path.splitOn 47 = cs
  induction cs generalizing root with
  | nil => rfl
  | cons c cs ih =>
    cases hc : c.isEmpty with
    | true =>
      simp only [foldlM_cons, filter_cons, hc, Bool.not_true, if_true]
      exact ih root
    | false =>
      simp only [foldlM_cons, filter_cons, hc, Bool.not_false, if_true,
        false_eq_true, if_false]
      exact congrArg _ (funext ih)

lemma booted_mounts : ∀ i, booted.mounts.entries i =
    if i.val = 0 then ⟨[47], .tmpfs, ⟨1⟩, true⟩
    else if i.val = 1 then ⟨47 :: devName, .devfs, ⟨2⟩, true⟩
    else .empty := by
  decide +kernel

lemma zero_lt_maxMounts : 0 < maxMounts := by decide

lemma one_lt_maxMounts : 1 < maxMounts := by decide

lemma val_of_candidate {path : List UInt8} {i : Fin maxMounts}
    (h : booted.mounts.Candidate path i) : i.val = 0 ∨ i.val = 1 := by
  by_contra hi
  have hinactive : (booted.mounts.entries i).active = false := by
    rw [booted_mounts, if_neg (by omega), if_neg (by omega)]
    rfl
  simp [MountTable.Candidate, hinactive] at h

lemma found_booted (p : List UInt8) :
    booted.mounts.found (47 :: p) =
      if MountTable.matchesAt (47 :: devName) (47 :: p) then some ⟨1, one_lt_maxMounts⟩
      else some ⟨0, zero_lt_maxMounts⟩ := by
  have hroot : booted.mounts.Candidate (47 :: p) ⟨0, zero_lt_maxMounts⟩ := by
    rw [MountTable.Candidate, booted_mounts]
    exact ⟨rfl, by simp, ⟨p, rfl⟩, Or.inl rfl⟩
  have hdev : booted.mounts.Candidate (47 :: p) ⟨1, one_lt_maxMounts⟩ ↔
      matchesAt (47 :: devName) (47 :: p) = true := by
    rw [MountTable.Candidate, booted_mounts, matchesAt_iff]
    simp
  cases hfound : booted.mounts.found (47 :: p) with
  | none => exact absurd hroot (not_candidate_of_found hfound _)
  | some i =>
    have hlongest := longest_of_found hfound
    rcases val_of_candidate hlongest.1 with hi | hi
    · obtain rfl : i = ⟨0, zero_lt_maxMounts⟩ := Fin.ext hi
      rw [if_neg]
      -- otherwise `/dev` would be a longer mount point
      intro hmatches
      have hle := hlongest.2 _ (hdev.mpr hmatches)
      simp [booted_mounts, devName] at hle
    · obtain rfl : i = ⟨1, one_lt_maxMounts⟩ := Fin.ext hi
      rw [if_pos (hdev.mp hlongest.1)]

lemma lookupIn_root (v : Vfs) (p : List UInt8) :
    v.lookupIn ⟨[47], .tmpfs, ⟨1⟩, true⟩ (MountTable.rest [47] (47 :: p)) =
      (components p).foldlM v.tmpfs.lookup ⟨1⟩ := by
  have hlookup : ∀ q, v.lookupIn ⟨[47], .tmpfs, ⟨1⟩, true⟩ q =
      (components q).foldlM v.tmpfs.lookup ⟨1⟩ := by
    intro q
    cases q with
    | nil => rfl
    | cons b q => simp only [lookupIn, isEmpty_cons, false_eq_true, if_false,
        walk_components]
  rw [hlookup]
  -- the slash that `rest` drops is no component
  cases p with
  | nil => rfl
  | cons b p =>
    by_cases hb : b = 47
    · simp [rest, hb, components_slash]
    · simp [rest, hb]

lemma resolvePath_mounted (h : v.mounts = booted.mounts) {p : List UInt8} (hlen : p.length ≤ 64) :
    v.resolvePath (47 :: p) =
      .ok ((if MountTable.matchesAt (47 :: devName) (47 :: p) then
          v.lookupIn ⟨47 :: devName, .devfs, ⟨2⟩, true⟩ (MountTable.rest (47 :: devName) (47 :: p))
        else (components p).foldlM v.tmpfs.lookup ⟨1⟩).elim (.error .notFound) .ok) := by
  have hfound := found_booted p
  rw [← h] at hfound
  by_cases hdev : matchesAt (47 :: devName) (47 :: p) = true
  · rw [if_pos hdev] at hfound
    have hentry : v.mounts.entries ⟨1, one_lt_maxMounts⟩ = ⟨47 :: devName, .devfs, ⟨2⟩, true⟩ := by
      rw [h, booted_mounts]
      rfl
    have hfits := length_rest_le (47 :: devName) (47 :: p)
    rw [resolvePath_of_found hfound, hentry, if_pos hdev]
    rw [hentry]
    simp only [length_cons] at hfits
    simp only [maxMountPath]
    omega
  · rw [if_neg hdev] at hfound
    have hentry : v.mounts.entries ⟨0, zero_lt_maxMounts⟩ = ⟨[47], .tmpfs, ⟨1⟩, true⟩ := by
      rw [h, booted_mounts]
      rfl
    have hfits := length_rest_le [47] (47 :: p)
    rw [resolvePath_of_found hfound, hentry, lookupIn_root, if_neg hdev]
    rw [hentry]
    simp only [length_cons, length_nil] at hfits
    simp only [maxMountPath]
    omega

lemma components_dev {p : List UInt8} (h : MountTable.matchesAt (47 :: devName) (47 :: p) = true) :
    ∃ cs, components p = devName :: cs := by
  obtain ⟨-, hroot | hpath | ⟨rest, hpath⟩⟩ := matchesAt_iff.mp h
  · simp [devName] at hroot
  · obtain rfl := tail_eq_of_cons_eq hpath
    exact ⟨[], by decide⟩
  · obtain rfl : p = devName ++ 47 :: rest := tail_eq_of_cons_eq hpath
    have hdev : (devName.splitOn 47).filter (!·.isEmpty) = [devName] := by decide
    exact ⟨components rest, by simp [components, splitOn_append_cons_self, hdev]⟩

def Opens (v : Vfs) (e : CpioEntry) : Prop :=
  ∃ id, v.resolvePath (47 :: e.path) = .ok (.ok id) ∧ v.tmpfs.files id.raw = some e.data

/-- The path has one component only, not `dev`, and the first entry with that name is a file
with the same data. -/
def TopLevel (entries : List CpioEntry) (e : CpioEntry) : Prop :=
  ∃ name e', components e.path = [name] ∧ name ≠ devName ∧
    entries.find? (·.path == name) = some e' ∧ e'.isDirectory = false ∧ e'.data = e.data

lemma lookup_of_ne_root (h : Tree kept fs) (hid : id.raw ≠ 1) (name : List UInt8) :
    fs.lookup id name = none := by
  unfold Tmpfs.lookup
  split_ifs
  · rcases h.empty id.raw hid with hdir | hdir <;> simp [hdir]
  · rfl

lemma lookup_root_ne (h : Tree kept fs) {name : List UInt8}
    (hlookup : fs.lookup ⟨1⟩ name = some id) : id.raw ≠ 1 := by
  obtain ⟨entries, hentries, hbound, -⟩ := h.listed
  simp only [Tmpfs.lookup, hentries, bind_some, ite_none_right_eq_some, map_eq_some_iff] at hlookup
  obtain ⟨-, d, hd, rfl⟩ := hlookup
  intro heq
  have hlow := (hbound d (mem_of_find?_eq_some hd)).1
  rw [heq] at hlow
  exact absurd hlow (by decide)

lemma files_of_lt (h : Tree kept fs) {raw : UInt32} (hraw : raw.toNat < 6) :
    fs.files raw = none := by
  by_contra hfile
  have hle := (h.files raw hfile).1
  omega

lemma lookup_root_files (h : Tree kept fs) (hutf8 : ∀ e ∈ kept, isUtf8 e.path = true)
    (name data : List UInt8) :
    (∃ id, fs.lookup ⟨1⟩ name = some id ∧ fs.files id.raw = some data) ↔
      name ≠ devName ∧ ∃ e, kept.find? (·.path == name) = some e ∧ e.isDirectory = false ∧
        e.data = data := by
  obtain ⟨entries, hentries, -, hdev, hshows⟩ := h.listed
  have hlookup : fs.lookup ⟨1⟩ name = if isUtf8 name then
      (entries.find? (·.name == name)).map (·.inodeId) else none := by
    simp [Tmpfs.lookup, hentries]
  constructor
  · rintro ⟨id, hid, hfile⟩
    rw [hlookup, ite_none_right_eq_some, map_eq_some_iff] at hid
    obtain ⟨-, d, hd, rfl⟩ := hid
    have hname : name ≠ devName := by
      rintro rfl
      rw [hdev] at hd
      cases hd
      rw [files_of_lt h (by decide)] at hfile
      cases hfile
    have hshow := hshows name hname
    rw [hd, map_some, hfile] at hshow
    obtain ⟨e, he, hdata⟩ := map_eq_some_iff.mp hshow.symm
    simp only [CpioEntry.fileData, ite_none_left_eq_some, some.injEq] at hdata
    exact ⟨hname, e, he, by simpa using hdata.1, hdata.2⟩
  · rintro ⟨hname, e, he, hfile, rfl⟩
    have hpath : e.path = name := by simpa using find?_some he
    have hvalid : isUtf8 name = true := hpath ▸ hutf8 e (mem_of_find?_eq_some he)
    have hshow := hshows name hname
    rw [he, map_some, map_eq_some_iff] at hshow
    obtain ⟨d, hd, hdata⟩ := hshow
    refine ⟨d.inodeId, by rw [hlookup, if_pos hvalid, hd, map_some], ?_⟩
    rw [hdata, CpioEntry.fileData, hfile]
    rfl

lemma walk_files (h : Tree kept fs) (hutf8 : ∀ e ∈ kept, isUtf8 e.path = true)
    (cs : List (List UInt8)) (data : List UInt8) :
    (∃ id, cs.foldlM fs.lookup ⟨1⟩ = some id ∧ fs.files id.raw = some data) ↔
      ∃ name e, cs = [name] ∧ name ≠ devName ∧ kept.find? (·.path == name) = some e ∧
        e.isDirectory = false ∧ e.data = data := by
  rcases cs with _ | ⟨name, _ | ⟨c, cs⟩⟩
  · have hroot : fs.files 1 = none := files_of_lt h (by decide)
    simp [hroot]
  · simpa using lookup_root_files h hutf8 name data
  -- the second component is looked up in an empty directory
  have hnone : (name :: c :: cs).foldlM fs.lookup ⟨1⟩ = none := by
    rw [foldlM_cons]
    cases hname : fs.lookup ⟨1⟩ name with
    | none => rfl
    | some id => simp [lookup_of_ne_root h (lookup_root_ne h hname)]
  simp [hnone]

lemma lookupIn_dev (h : Loaded kept v) {rest : List UInt8}
    (hid : v.lookupIn ⟨47 :: devName, .devfs, ⟨2⟩, true⟩ rest = some id) : id.raw.toNat < 6 := by
  have hdevices : booted.devfs.nullInode.raw.toNat < 6 ∧ booted.devfs.zeroInode.raw.toNat < 6 ∧
      booted.devfs.randomInode.raw.toNat < 6 := by decide +kernel
  simp only [lookupIn, h.devfs, Devfs.lookup] at hid
  split_ifs at hid <;> obtain rfl := some.inj hid
  · decide
  · exact hdevices.1
  · exact hdevices.2.1
  · exact hdevices.2.2

lemma find_kept {entries : List CpioEntry} (hdot : ∀ e ∈ entries, e.name ≠ [46])
    {name : List UInt8} (hname : name ≠ []) :
    (entries.filter (!·.skipped)).find? (·.path == name) = entries.find? (·.path == name) := by
  induction entries with
  | nil => rfl
  | cons e entries ih =>
    have ih := ih fun e he => hdot e (mem_cons_of_mem _ he)
    by_cases hpath : e.path = name
    · have hkept : e.skipped = false := by
        rw [eq_false_iff, ne_eq, CpioEntry.skipped_iff (hdot e mem_cons_self), hpath]
        exact hname
      simp [hkept, hpath]
    · cases hkept : e.skipped with
      | true | false => simp [hkept, hpath, ih]

/-- **Which files can be opened** after the archive was loaded: those whose path has one
component. -/
theorem opens_iff {archive : List UInt8} {entries : List CpioEntry} {e : CpioEntry}
    (hparse : parseCpio archive = .ok (.ok entries))
    (hutf8 : ∀ e ∈ entries, isUtf8 e.path = true) (hlen : ∀ e ∈ entries, e.path.length ≤ 64)
    (hroom : (entries.filter (!·.skipped)).length ≤ 1019) (he : e ∈ entries) :
    ∃ v, booted.loadInitramfs archive = .ok v ∧ (v.Opens e ↔ TopLevel entries e) := by
  have hload : booted.loadInitramfs archive = .ok (entries.foldl addEntry booted) := by
    simp [loadInitramfs, hparse]
  have hloaded := loaded_booted.foldl hutf8 (by simpa using hroom)
  rw [nil_append] at hloaded
  have hkept : ∀ e ∈ entries.filter (!·.skipped), isUtf8 e.path = true :=
    fun e he => hutf8 e (mem_filter.mp he).1
  refine ⟨_, hload, ?_⟩
  generalize entries.foldl addEntry booted = v at hloaded
  have hresolve := resolvePath_mounted hloaded.mounts (hlen e he)
  by_cases hdev : matchesAt (47 :: devName) (47 :: e.path) = true
  · rw [if_pos hdev] at hresolve
    refine iff_of_false ?_ ?_
    · rintro ⟨id, hid, hfile⟩
      cases hfound : v.lookupIn ⟨47 :: devName, .devfs, ⟨2⟩, true⟩
          (rest (47 :: devName) (47 :: e.path)) with
      | none => simp [hresolve, hfound] at hid
      | some id' =>
        obtain rfl : id' = id := by simpa [hresolve, hfound] using hid
        rw [files_of_lt hloaded.tree (lookupIn_dev hloaded hfound)] at hfile
        cases hfile
    · rintro ⟨name, e', hname, hne, -⟩
      obtain ⟨cs, hcs⟩ := components_dev hdev
      rw [hcs] at hname
      exact hne (cons.inj hname).1.symm
  · rw [if_neg hdev] at hresolve
    have hwalk := walk_files hloaded.tree hkept (components e.path) e.data
    have hopens : v.Opens e ↔ ∃ id, (components e.path).foldlM v.tmpfs.lookup ⟨1⟩ = some id ∧
        v.tmpfs.files id.raw = some e.data := by
      cases hfound : (components e.path).foldlM v.tmpfs.lookup ⟨1⟩ with
      | none | some id => simp [Opens, hresolve, hfound]
    rw [hopens, hwalk, TopLevel]
    refine exists_congr fun name => exists_congr fun e' => and_congr_right fun hcs => ?_
    have hname : name ≠ [] := by
      have hmem : name ∈ components e.path := hcs ▸ mem_singleton_self name
      simpa [components] using (mem_filter.mp hmem).2
    rw [find_kept (Cpio.parseFrom_forall (fun _ hname => hname) hparse (by simp)) hname]

/-- A directory `bin` with a file `a` in it, and a file `b` beside it. -/
def nestedEntries : List CpioEntry :=
  [⟨[98, 105, 110], [], true⟩, ⟨[98, 105, 110, 47, 97], [1, 2, 3], false⟩, ⟨[98], [4], false⟩]

lemma parse_nested : parseCpio (Cpio.buildTestCpio nestedEntries) = .ok (.ok nestedEntries) := by
  decide +kernel

/-- The file in the directory is not found. -/
theorem nested_file_not_found :
    ∃ v, booted.loadInitramfs (Cpio.buildTestCpio nestedEntries) = .ok v ∧
      v.resolvePath [47, 98, 105, 110, 47, 97] = .ok (.error .notFound) := by
  refine ⟨nestedEntries.foldl addEntry booted, by simp [loadInitramfs, parse_nested], ?_⟩
  decide +kernel

/-- The file beside it is. -/
theorem top_level_file_opens :
    ∃ v, booted.loadInitramfs (Cpio.buildTestCpio nestedEntries) = .ok v ∧
      v.Opens ⟨[98], [4], false⟩ := by
  obtain ⟨v, hload, hopens⟩ := opens_iff parse_nested (by decide) (by decide) (by decide)
    (e := ⟨[98], [4], false⟩) (by decide)
  exact ⟨v, hload, hopens.mpr ⟨[98], _, by decide, by decide, rfl, rfl, rfl⟩⟩

end Vfs

end Fabric
