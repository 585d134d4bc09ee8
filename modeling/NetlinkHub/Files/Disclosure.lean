import NetlinkHub.Files.Resolve
import NetlinkHub.Posix.Agreement

/-! # What the vault discloses

Where the answers of `List`, `Open` and `Checksum` come from. An answer describes a real node at or
below the named root (`list_inside`, `openFile_inside`, `checksum_inside`). And whatever the answer
is, an error included, it does not depend on the bytes of any file outside the root: two trees that
differ in such bytes only get the same answer (`list_eq`, `openFile_eq`, `checksum_eq`). -/

namespace Files

open Posix Filepath

variable {v : Vault} {fs fs' : FileSystem} {root : Root} {rootID : String}
  {relative resolved : Bytes} {loc : Location} {attrs : Attributes} {toLower sha256 : Bytes → Bytes}

/-! ## Where an answer comes from -/

/-- A node that the answer of `Resolve` leads to is real and inside the root. -/
theorem Resolved.of_follow (h : Resolved fs root relative resolved)
    (hf : follow fs (components resolved) = .ok (.found loc)) :
    resolved = render loc ∧ Real fs loc ∧ root.location <+: loc := by
  cases h with
  | real l hreal hin =>
    rw [components_render hreal.validLocation] at hf
    have hself : follow fs l = .ok (.found l) := by
      rcases hreal with h | ⟨_, h⟩ <;> exact walk_of_node h (by simp)
    rw [hself] at hf
    cases hf
    exact ⟨rfl, hreal, hin⟩
  | absent way name ha =>
    rw [components_render ha.valid] at hf
    exact absurd hf ha.not_found

/-- The same for the node that `Stat` reports. -/
theorem Resolved.of_stat {x : Node} (h : Resolved fs root relative resolved)
    (hs : Os.stat fs resolved = .ok (loc, x)) :
    resolved = render loc ∧ Real fs loc ∧ root.location <+: loc ∧ fs.node loc = some x := by
  obtain ⟨hf, hx⟩ := Posix.stat_ok hs
  obtain ⟨hr, hreal, hin⟩ := h.of_follow hf
  exact ⟨hr, hreal, hin, hx⟩

/-- What an entry of a listing says: it describes a node of the directory, by its name and its path
from the root, and if that node is a symbolic link then one that leads inside the root. -/
structure Describes (attrs : Attributes) (fs : FileSystem) (root : Root) (dir : Location)
    (e : Entry) (x : Node) : Prop where
  node_eq : fs.node (dir ++ [e.name]) = some x
  path_eq : ∃ below, root.location ++ below = dir ++ [e.name] ∧ e.path = [slash].intercalate below
  isDir_eq : e.isDir = decide (x = .dir)
  sizeBytes_eq : e.sizeBytes = attrs.size (dir ++ [e.name]) x
  modifiedAt_eq : e.modifiedAt = attrs.modTime (dir ++ [e.name])
  link_inside : ∀ target, x = .link target → ∃ end_,
    evalSymlinks fs (render (dir ++ [e.name])) = .ok (render end_) ∧ Real fs end_ ∧
      root.location <+: end_

/-- The entry of an item of a directory inside the root. -/
theorem entry_of_node {item : Name} {x : Node} {above : Location} (hdir : fs.node (root.location ++ above) = some .dir)
    (hx : fs.node (root.location ++ above ++ [item]) = some x) :
    Vault.entry fs attrs root (render (root.location ++ above)) item =
      if Vault.leadsOut fs root (render (root.location ++ above ++ [item])) x then none
      else some
        { name := item, path := [slash].intercalate (above ++ [item]), isDir := x = .dir,
          sizeBytes := attrs.size (root.location ++ above ++ [item]) x,
          modifiedAt := attrs.modTime (root.location ++ above ++ [item]) } := by
  have hitem : fs.node (root.location ++ above ++ [item]) ≠ none := by
    rw [hx]
    simp
  have hn := fs.validName hitem
  have hthere : fs.node (root.location ++ above) ≠ none := by
    rw [hdir]
    simp
  have hloc : ValidLocation (root.location ++ above) := FileSystem.validLocation hthere
  have hrel : rel root.path (render (root.location ++ above ++ [item])) =
      some ([slash].intercalate (above ++ [item])) := by
    rw [List.append_assoc] at hitem ⊢
    rw [← root.render_location, rel_render (FileSystem.validLocation hitem) (by simp)]
  have hlstat : Os.lstat fs (render (root.location ++ above) ++ slash :: item) =
      .ok (root.location ++ above ++ [item], x) := by
    rw [Os.lstat, components_render_slash hloc hn, lstat_of_node hx]
  rw [Vault.entry, hlstat]
  simp only [join_render hloc hn, hrel, Option.map_some]

/-- The entry of an item of a directory describes the item. -/
theorem describes_of_entry {item : Name} {e : Entry} (hdir : fs.node loc = some .dir)
    (hin : root.location <+: loc) (hitem : fs.node (loc ++ [item]) ≠ none)
    (h : Vault.entry fs attrs root (render loc) item = some e) :
    e.name = item ∧ ∃ x, Describes attrs fs root loc e x := by
  obtain ⟨x, hx⟩ := Option.ne_none_iff_exists'.mp hitem
  obtain ⟨above, rfl⟩ := hin
  rw [entry_of_node hdir hx] at h
  split at h
  · cases h
  · rename_i hesc
    cases h
    refine ⟨rfl, x, hx, ⟨above ++ [item], by simp, rfl⟩, rfl, rfl, rfl, ?_⟩
    rintro target rfl
    rw [Vault.leadsOut] at hesc
    split at hesc
    · simp at hesc
    · rename_i resolved he
      obtain ⟨end_, rfl, hend, hreal⟩ := node_of_evalSymlinks he
      exact ⟨end_, he, hreal, (withinRoot_path hend).mp (by simpa using hesc)⟩

/-- A listing is made of the entries of a folder inside the root, in some order. -/
theorem list_ok {es : List Entry} (h : v.list fs attrs toLower rootID relative = .ok es) :
    ∃ root loc, v.root rootID = .ok root ∧ v.resolve fs rootID relative = .ok (render loc, root) ∧
      root.location <+: loc ∧ fs.node loc = some .dir ∧
      es.Perm ((fs.entries loc).filterMap (Vault.entry fs attrs root (render loc))) := by
  unfold Vault.list at h
  split at h
  · cases h
  · rename_i resolved root hres
    obtain ⟨hroot, hresolved⟩ := resolve_ok hres
    split at h
    · cases h
    · rename_i loc x hstat
      obtain ⟨rfl, -, hin, hx⟩ := hresolved.of_stat hstat
      split at h
      · cases h
      · rename_i hdir
        obtain rfl : x = .dir := by simpa using hdir
        refine ⟨root, loc, hroot, hres, hin, hx, ?_⟩
        rw [Os.readDir, hstat] at h
        cases h
        exact (List.mergeSort_perm _ _).trans ((List.mergeSort_perm _ _).filterMap _)

/-- **A listing describes a folder inside the root.** -/
theorem list_inside {es : List Entry}
    (h : v.list fs attrs toLower rootID relative = .ok es) :
    ∃ root loc, v.root rootID = .ok root ∧ root.location <+: loc ∧ fs.node loc = some .dir ∧
      ∀ e ∈ es, ∃ x, Describes attrs fs root loc e x := by
  obtain ⟨root, loc, hroot, -, hin, hdir, hperm⟩ := list_ok h
  refine ⟨root, loc, hroot, hin, hdir, fun e he => ?_⟩
  obtain ⟨item, hitem, hentry⟩ := List.mem_filterMap.mp (hperm.mem_iff.mp he)
  exact (describes_of_entry hdir hin (FileSystem.mem_entries.mp hitem) hentry).2

/-- **An open file is a file inside the root.** -/
theorem openFile_inside {offset size : Int} {file : OpenFile}
    (h : v.openFile fs rootID relative offset = .ok (file, size)) :
    ∃ root, v.root rootID = .ok root ∧ root.location <+: file.location ∧
      fs.node file.location = some (.file file.content) ∧ size = file.content.length ∧
      file.position = offset.toNat := by
  unfold Vault.openFile at h
  split at h
  · cases h
  · rename_i resolved root hres
    obtain ⟨hroot, hresolved⟩ := resolve_ok hres
    split at h
    · cases h
    · cases h
    · rename_i loc x hnotdir hstat
      obtain ⟨-, hreal, hin, hx⟩ := hresolved.of_stat hstat
      have hfile : fs.node loc = some (.file (contentAt fs loc)) := by
        rcases hreal with hd | ⟨content, hc⟩
        · rw [hx] at hd
          cases hd
          exact absurd rfl hnotdir
        · rw [contentAt, hc]
      simp only at h
      split at h
      · split at h
        · cases h
        · cases h
          exact ⟨root, hroot, hin, hfile, rfl, rfl⟩
      · rename_i hpos
        cases h
        exact ⟨root, hroot, hin, hfile, rfl, (Int.toNat_of_nonpos (by omega)).symm⟩

/-- **A checksum is that of a file inside the root.** -/
theorem checksum_inside {digest : List Char}
    (h : v.checksum fs sha256 rootID relative = .ok digest) :
    ∃ root loc content, v.root rootID = .ok root ∧ root.location <+: loc ∧
      fs.node loc = some (.file content) ∧ digest = hexEncode (sha256 content) := by
  unfold Vault.checksum at h
  split at h
  · cases h
  · rename_i reader size hopen
    cases h
    obtain ⟨root, hroot, hin, hfile, -, hpos⟩ := openFile_inside hopen
    exact ⟨root, _, _, hroot, hin, hfile, by rw [hpos]; rfl⟩

/-! ## What an answer does not depend on -/

/-- Two trees that agree but for the bytes of files outside the named root. -/
def AgreeInside (v : Vault) (rootID : String) (fs fs' : FileSystem) : Prop :=
  ∀ root, v.root rootID = .ok root → AgreeBelow root.location fs fs'

theorem evalSymlinks_eq {top : Location} (h : AgreeBelow top fs fs') (path : Bytes) :
    evalSymlinks fs' path = evalSymlinks fs path := by
  unfold evalSymlinks
  rw [h.walk_eq]

theorem ancestorLoop_eq {top : Location} (h : AgreeBelow top fs fs') (root : Bytes) (rounds : Nat)
    (current : Bytes) : ancestorLoop fs' root rounds current = ancestorLoop fs root rounds current := by
  induction rounds generalizing current with
  | zero => rfl
  | succ rounds ih => rw [ancestorLoop, ancestorLoop, evalSymlinks_eq h, ih]

/-- `Resolve` reads no bytes. -/
theorem resolve_eq (h : AgreeInside v rootID fs fs') :
    v.resolve fs' rootID relative = v.resolve fs rootID relative := by
  unfold Vault.resolve
  split
  · rfl
  · rename_i root hroot
    simp only [evalSymlinks_eq (h root hroot), existingAncestorIsInside,
      ancestorLoop_eq (h root hroot)]
    rfl

/-- The status of an answer of `Resolve` is the same. -/
theorem Resolved.stat_eq (h : Resolved fs root relative resolved)
    (hagree : AgreeBelow root.location fs fs') : Os.stat fs' resolved = Os.stat fs resolved := by
  unfold Os.stat Posix.stat
  rw [follow, hagree.walk_eq, ← follow]
  split
  · rfl
  · rfl
  · rename_i loc hf
    rw [hagree.below loc (h.of_follow hf).2.2]

/-- The entry of an item of a directory inside the root is the same. -/
theorem entry_eq {item : Name} (hagree : AgreeBelow root.location fs fs')
    (hdir : fs.node loc = some .dir) (hin : root.location <+: loc)
    (hitem : fs.node (loc ++ [item]) ≠ none) :
    Vault.entry fs' attrs root (render loc) item = Vault.entry fs attrs root (render loc) item := by
  have hn := fs.validName hitem
  have hloc : ValidLocation loc := FileSystem.validLocation (by rw [hdir]; simp)
  obtain ⟨x, hx⟩ := Option.ne_none_iff_exists'.mp hitem
  have hx' : fs'.node (loc ++ [item]) = some x := by
    rw [hagree.below _ (hin.trans (List.prefix_append ..)), hx]
  have hlstat : ∀ {fs : FileSystem}, fs.node (loc ++ [item]) = some x →
      Os.lstat fs (render loc ++ slash :: item) = .ok (loc ++ [item], x) := by
    intro fs hx
    rw [Os.lstat, components_render_slash hloc hn, lstat_of_node hx]
  have hleads : ∀ full, Vault.leadsOut fs' root full x = Vault.leadsOut fs root full x := by
    intro full
    cases x with
    | link target => simp only [Vault.leadsOut, evalSymlinks_eq hagree]
    | _ => rfl
  simp only [Vault.entry, hlstat hx, hlstat hx', hleads]

/-- **A listing does not depend on bytes outside the root.** -/
theorem list_eq (h : AgreeInside v rootID fs fs') :
    v.list fs' attrs toLower rootID relative = v.list fs attrs toLower rootID relative := by
  unfold Vault.list
  rw [resolve_eq h]
  split
  · rfl
  · rename_i resolved root hres
    obtain ⟨hroot, hresolved⟩ := resolve_ok hres
    have hagree := h root hroot
    unfold Os.readDir
    rw [hresolved.stat_eq hagree]
    split
    · rfl
    · rename_i loc x hstat
      obtain ⟨rfl, -, hin, hx⟩ := hresolved.of_stat hstat
      split
      · rfl
      · rename_i hdir
        obtain rfl : x = .dir := by simpa using hdir
        simp only [hstat, Os.mergeSort_eq_of_perm (hagree.perm_entries loc)]
        congr 2
        refine List.filterMap_congr fun item hitem => entry_eq hagree hx hin ?_
        rwa [List.mem_mergeSort, FileSystem.mem_entries] at hitem

/-- **An open file does not depend on bytes outside the root.** -/
theorem openFile_eq (h : AgreeInside v rootID fs fs') (offset : Int) :
    v.openFile fs' rootID relative offset = v.openFile fs rootID relative offset := by
  unfold Vault.openFile
  rw [resolve_eq h]
  split
  · rfl
  · rename_i resolved root hres
    obtain ⟨hroot, hresolved⟩ := resolve_ok hres
    have hagree := h root hroot
    rw [hresolved.stat_eq hagree]
    split
    · rfl
    · rfl
    · rename_i loc x _ hstat
      have hcontent : contentAt fs' loc = contentAt fs loc := by
        rw [contentAt, contentAt, hagree.below loc (hresolved.of_stat hstat).2.2.1]
      rw [hcontent]

/-- **A checksum does not depend on bytes outside the root.** -/
theorem checksum_eq (h : AgreeInside v rootID fs fs') :
    v.checksum fs' sha256 rootID relative = v.checksum fs sha256 rootID relative := by
  unfold Vault.checksum
  rw [openFile_eq h]

/-! ## Read confinement -/

/-- **Read confinement.** What a listing, an open file or a checksum says is about a real node at or
below the named root; and no answer at all depends on the bytes of a file outside it. -/
theorem read_confinement (v : Vault) (fs : FileSystem) (attrs : Attributes)
    (toLower sha256 : Bytes → Bytes) (rootID : String) (relative : Bytes) :
    (∀ es, v.list fs attrs toLower rootID relative = .ok es →
      ∃ root loc, v.root rootID = .ok root ∧ root.location <+: loc ∧ fs.node loc = some .dir ∧
        ∀ e ∈ es, ∃ x, Describes attrs fs root loc e x) ∧
    (∀ offset file size, v.openFile fs rootID relative offset = .ok (file, size) →
      ∃ root, v.root rootID = .ok root ∧ root.location <+: file.location ∧
        fs.node file.location = some (.file file.content) ∧ size = file.content.length ∧
        file.position = offset.toNat) ∧
    (∀ digest, v.checksum fs sha256 rootID relative = .ok digest →
      ∃ root loc content, v.root rootID = .ok root ∧ root.location <+: loc ∧
        fs.node loc = some (.file content) ∧ digest = hexEncode (sha256 content)) ∧
    ∀ fs', AgreeInside v rootID fs fs' →
      v.list fs' attrs toLower rootID relative = v.list fs attrs toLower rootID relative ∧
      (∀ offset, v.openFile fs' rootID relative offset = v.openFile fs rootID relative offset) ∧
      v.checksum fs' sha256 rootID relative = v.checksum fs sha256 rootID relative :=
  ⟨fun _ => list_inside, fun _ _ _ => openFile_inside, fun _ => checksum_inside,
    fun _ h => ⟨list_eq h, openFile_eq h, checksum_eq h⟩⟩

end Files
