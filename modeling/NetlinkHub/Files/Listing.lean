import NetlinkHub.Files.Disclosure
import NetlinkHub.Files.Upload

/-! # What the vault lists it serves

`List` builds the path of an entry from the names on the way to it, `Resolve` reads a path as a client of any
platform may have spelled it: it refuses a colon, and takes a backslash for a separator. The two agree on an
entry unless its path has one of these (`list_serves_iff`). -/

namespace Files

open Posix Filepath

/-- Where an entry ends: at itself, or at what the link leads to that it is. -/
inductive EndsAt (fs : FileSystem) (loc : Location) : Location → Prop where
  | itself : Real fs loc → EndsAt fs loc loc
  | link (target : Bytes) (last : Location) : fs.node loc = some (.link target) →
      evalSymlinks fs (render loc) = .ok (render last) → Real fs last → EndsAt fs loc last

/-- The listing of a folder is one of what is served: every path leads to its entry, no two entries have one path,
and every file, every directory and every link that leads to a place inside the root is listed. -/
structure Vault.ServesListing (v : Vault) (fs : FileSystem) (rootID : String) (root : Root) (folder : Location)
    (es : List Entry) : Prop where
  served : ∀ e ∈ es, ∃ last, EndsAt fs (folder ++ [e.name]) last ∧
    v.resolve fs rootID e.path = .ok (render last, root)
  distinct : (es.map Entry.path).Nodup
  complete : ∀ name last, EndsAt fs (folder ++ [name]) last → root.location <+: last → ∃ e ∈ es, e.name = name

/-- The path of what is at `loc` can be read back: it has no colon, and if it has a backslash, then not two at its
beginning, and with separators for backslashes it stays inside the root and leads to the same place. -/
def ReadsBack (fs : FileSystem) (root : Root) (loc : Location) (path : Bytes) : Prop :=
  colon ∉ path ∧ (backslash ∈ path → isUNCPath path = false ∧
    withinRoot root.path (join [root.path, cleanRelative path]) = true ∧
    evalSymlinks fs (join [root.path, cleanRelative path]) = evalSymlinks fs (render loc))

variable {v : Vault} {fs : FileSystem} {root : Root} {rootID : String} {relative path : Bytes}
  {loc folder last below : Location} {attrs : Attributes} {toLower : Bytes → Bytes} {es : List Entry}

theorem EndsAt.leads (h : EndsAt fs loc last) : evalSymlinks fs (render loc) = .ok (render last) ∧ Real fs last := by
  cases h with
  | itself hreal =>
    refine ⟨?_, hreal⟩
    have hwalk : walk fs maxLinksWalked [] loc = .ok (.found loc) := by
      rcases hreal with h | ⟨_, h⟩
      · exact walk_of_node h (by simp)
      · exact walk_of_node h (by simp)
    rw [evalSymlinks, components_render hreal.validLocation, hwalk]
  | link target last _ hleads hreal => exact ⟨hleads, hreal⟩

/-- `Resolve` leads to a real place inside the root where its candidate does. -/
theorem resolve_iff_of_real (hroot : v.root rootID = .ok root) (hreal : Real fs last)
    (hin : root.location <+: last) : v.resolve fs rootID path = .ok (render last, root) ↔
      ∃ cand, candidate root path = .ok cand ∧ evalSymlinks fs cand = .ok (render last) := by
  constructor
  · intro h
    obtain ⟨cand, hroot', hcand, hleads | ⟨heq, habsent⟩⟩ := resolve_cases h
    · exact ⟨cand, hcand, hleads⟩
    · -- what is there is not absent
      rw [← heq, (EndsAt.itself hreal).leads.1] at habsent
      cases habsent
  · rintro ⟨cand, hcand, hleads⟩
    have hwithin : withinRoot root.path (render last) = true := (withinRoot_path hreal.validLocation).mpr hin
    rw [Vault.resolve, hroot]
    dsimp only
    rw [hcand]
    dsimp only
    rw [hleads]
    dsimp only
    rw [if_pos hwithin]

/-! ## The path of an entry as a client's -/

theorem replaceBackslashes_of_notMem (h : backslash ∉ path) : replaceBackslashes path = path := by
  rw [replaceBackslashes]
  refine (List.map_congr_left fun c hc => ?_).trans (List.map_id' path)
  rw [if_neg]
  rintro rfl
  exact h hc

/-- The path of an entry, joined to the root again, is where the entry is. -/
theorem join_cleanRelative (hvalid : ValidLocation (root.location ++ below)) (hne : below ≠ [])
    (h : backslash ∉ [slash].intercalate below) :
    join [root.path, cleanRelative ([slash].intercalate below)] = render (root.location ++ below) := by
  obtain ⟨hroot, hbelow⟩ := validLocation_append.mp hvalid
  have hdot : [slash].intercalate below ≠ dot := by
    intro hdot
    have hsplit := splitOn_intercalate_slash hbelow hne
    rw [hdot] at hsplit
    have hname : dot ∈ below := by
      rw [← hsplit]
      decide
    exact (hbelow dot hname).ne_dot rfl
  rw [cleanRelative, replaceBackslashes_of_notMem h, clean_intercalate hbelow hne, if_neg hdot,
    ← root.render_location, join_render_intercalate hroot hbelow hne]

theorem colon_mem_of_hasDriveLetter (h : hasDriveLetter path = true) : colon ∈ path := by
  unfold hasDriveLetter at h
  split at h
  · simp only [decide_eq_true_eq] at h
    simp [h.1]
  · cases h

theorem zero_notMem_intercalate (hbelow : ValidLocation below) : 0 ∉ [slash].intercalate below := by
  intro h
  rcases Delimited.mem_of_mem_intercalate h with hslash | ⟨n, hn, h0⟩
  · revert hslash
    decide
  · exact (hbelow n hn).nul_notMem h0

/-- The path of an entry is relative and has no NUL: only a colon, two backslashes at its beginning, or the way
out of the root can be wrong with it. -/
theorem candidate_ok_iff (hbelow : ValidLocation below) (hpath : path = [slash].intercalate below) (cand : Bytes) :
    candidate root path = .ok cand ↔ colon ∉ path ∧ isUNCPath path = false ∧
      withinRoot root.path (join [root.path, cleanRelative path]) = true ∧
      cand = join [root.path, cleanRelative path] := by
  have habs : isAbs path = false := by rw [hpath, isAbs_intercalate hbelow]
  have hnul : 0 ∉ path := by
    rw [hpath]
    exact zero_notMem_intercalate hbelow
  rw [candidate, habs]
  by_cases hcolon : colon ∈ path
  · simp [hcolon]
  · have hdrive : hasDriveLetter path = false :=
      Bool.eq_false_iff.mpr fun h => hcolon (colon_mem_of_hasDriveLetter h)
    rw [hdrive]
    cases hunc : isUNCPath path with
    | true => simp
    | false =>
      cases hwithin : withinRoot root.path (join [root.path, cleanRelative path]) with
      | true => simp [hnul, hcolon, hwithin, eq_comm]
      | false => simp [hnul, hcolon, hwithin]

theorem isUNCPath_of_notMem (hbelow : ValidLocation below) (h : backslash ∉ [slash].intercalate below) :
    isUNCPath ([slash].intercalate below) = false := by
  have habs := isAbs_intercalate hbelow
  cases hpath : [slash].intercalate below with
  | nil => rfl
  | cons c path =>
    rw [hpath] at h habs
    have hslash : slash ≠ c := fun hc => by simp [isAbs, hc] at habs
    have hback : backslash ≠ c := fun hc => h (by simp [hc])
    simp [isUNCPath, hslash, hback]

/-- **One entry**: its path leads to where the entry ends exactly if it can be read back. -/
theorem candidate_leads_iff (hvalid : ValidLocation (root.location ++ below)) (hne : below ≠ [])
    (hends : EndsAt fs (root.location ++ below) last) (hin : root.location <+: root.location ++ below) :
    (∃ cand, candidate root ([slash].intercalate below) = .ok cand ∧ evalSymlinks fs cand = .ok (render last)) ↔
      ReadsBack fs root (root.location ++ below) ([slash].intercalate below) := by
  have hbelow := (validLocation_append.mp hvalid).2
  have hcand : (∃ cand, candidate root ([slash].intercalate below) = .ok cand ∧
      evalSymlinks fs cand = .ok (render last)) ↔ colon ∉ [slash].intercalate below ∧
        isUNCPath ([slash].intercalate below) = false ∧
        withinRoot root.path (join [root.path, cleanRelative ([slash].intercalate below)]) = true ∧
        evalSymlinks fs (join [root.path, cleanRelative ([slash].intercalate below)]) = .ok (render last) := by
    simp only [candidate_ok_iff hbelow rfl]
    constructor
    · rintro ⟨cand, ⟨hcolon, hunc, hwithin, rfl⟩, hleads⟩
      exact ⟨hcolon, hunc, hwithin, hleads⟩
    · rintro ⟨hcolon, hunc, hwithin, hleads⟩
      exact ⟨_, ⟨hcolon, hunc, hwithin, rfl⟩, hleads⟩
  rw [hcand, ReadsBack, hends.leads.1]
  by_cases hback : backslash ∈ [slash].intercalate below
  · simp only [hback, forall_const]
  · -- without a backslash it is read as it was written
    have hjoin := join_cleanRelative hvalid hne hback
    have hwithin : withinRoot root.path (render (root.location ++ below)) = true :=
      (withinRoot_path hvalid).mpr hin
    simp [hback, hjoin, hwithin, hends.leads.1, isUNCPath_of_notMem hbelow hback]

/-! ## The listing of a folder -/

/-- An entry ends inside the root. -/
theorem Describes.endsAt {e : Entry} {x : Node} (h : Describes attrs fs root folder e x)
    (hin : root.location <+: folder) : ∃ last, EndsAt fs (folder ++ [e.name]) last ∧ root.location <+: last := by
  cases x with
  | dir => exact ⟨_, .itself (.inl h.node_eq), hin.trans (List.prefix_append ..)⟩
  | file content => exact ⟨_, .itself (.inr ⟨content, h.node_eq⟩), hin.trans (List.prefix_append ..)⟩
  | link target =>
    obtain ⟨last, hleads, hreal, hinside⟩ := h.link_inside target rfl
    exact ⟨last, .link target last h.node_eq hleads hreal, hinside⟩

/-- Whatever ends inside the root is listed. -/
theorem exists_entry_of_endsAt (attrs : Attributes) {above : Location} {name : Name} (hdir : fs.node (root.location ++ above) = some .dir)
    (hends : EndsAt fs (root.location ++ above ++ [name]) last) (hin : root.location <+: last) :
    fs.node (root.location ++ above ++ [name]) ≠ none ∧
      ∃ e, Vault.entry fs attrs root (render (root.location ++ above)) name = some e := by
  cases hends with
  | itself hreal =>
    rcases hreal with hnode | ⟨content, hnode⟩
    · refine ⟨by rw [hnode]; simp, ?_⟩
      rw [entry_of_node hdir hnode]
      simp [Vault.leadsOut]
    · refine ⟨by rw [hnode]; simp, ?_⟩
      rw [entry_of_node hdir hnode]
      simp [Vault.leadsOut]
  | link target last hnode hleads hreal =>
    have hwithin : withinRoot root.path (render last) = true := (withinRoot_path hreal.validLocation).mpr hin
    have hstays : Vault.leadsOut fs root (render (root.location ++ above ++ [name])) (.link target) = false := by
      rw [Vault.leadsOut, hleads]
      simp [hwithin]
    refine ⟨by rw [hnode]; simp, ?_⟩
    rw [entry_of_node hdir hnode, hstays]
    simp

/-- No two entries of a folder have one path. -/
theorem nodup_paths (hin : root.location <+: folder) (hdir : fs.node folder = some .dir)
    (hperm : es.Perm ((fs.entries folder).filterMap (Vault.entry fs attrs root (render folder)))) :
    (es.map Entry.path).Nodup := by
  obtain ⟨above, rfl⟩ := hin
  rw [(hperm.map Entry.path).nodup_iff, List.map_filterMap]
  -- The names differ, and the last name of a path is its entry's.
  have hlast : ∀ item path, fs.node (root.location ++ above ++ [item]) ≠ none →
      (Vault.entry fs attrs root (render (root.location ++ above)) item).map Entry.path = some path →
      path.splitOn slash = above ++ [item] := by
    intro item path hitem h
    obtain ⟨x, hx⟩ := Option.ne_none_iff_exists'.mp hitem
    have hvalid := FileSystem.validLocation hitem
    rw [List.append_assoc, validLocation_append] at hvalid
    rw [entry_of_node hdir hx] at h
    split at h
    · cases h
    · cases h
      exact splitOn_intercalate_slash hvalid.2 (by simp)
  refine List.Pairwise.filterMap _ ?_ (List.Pairwise.and_mem.mp (fs.nodup_entries (root.location ++ above)))
  rintro a b ⟨ha, hb, hne⟩ path hpath path' hpath' rfl
  have heq := (hlast a path (FileSystem.mem_entries.mp ha) hpath).symm.trans
    (hlast b path (FileSystem.mem_entries.mp hb) hpath')
  exact hne (by simpa using heq)

/-- **Listing and serving.** The listing of a folder is one of what is served exactly if every path in it can be
read back, as it can if it has neither a colon nor a backslash. -/
theorem list_serves_iff (h : v.list fs attrs toLower rootID relative = .ok es) :
    ∃ root folder, v.resolve fs rootID relative = .ok (render folder, root) ∧ fs.node folder = some .dir ∧
      (v.ServesListing fs rootID root folder es ↔ ∀ e ∈ es, ReadsBack fs root (folder ++ [e.name]) e.path) := by
  obtain ⟨root, folder, hroot, hres, hin, hdir, hperm⟩ := list_ok h
  refine ⟨root, folder, hres, hdir, ?_⟩
  have hserved : ∀ e ∈ es, (∃ last, EndsAt fs (folder ++ [e.name]) last ∧
      v.resolve fs rootID e.path = .ok (render last, root)) ↔ ReadsBack fs root (folder ++ [e.name]) e.path := by
    intro e he
    obtain ⟨item, hitem, hentry⟩ := List.mem_filterMap.mp (hperm.mem_iff.mp he)
    obtain ⟨-, x, hdescribes⟩ := describes_of_entry hdir hin (FileSystem.mem_entries.mp hitem) hentry
    obtain ⟨last, hends, hinside⟩ := hdescribes.endsAt hin
    obtain ⟨below, hbelow, hpath⟩ := hdescribes.path_eq
    have hvalid : ValidLocation (root.location ++ below) := by
      rw [hbelow]
      exact FileSystem.validLocation (by rw [hdescribes.node_eq]; simp)
    have hne : below ≠ [] := by
      rintro rfl
      have hlength := congrArg List.length hbelow
      have hle := hin.length_le
      simp only [List.append_nil, List.length_append, List.length_singleton] at hlength
      omega
    have hresolve : (∃ last, EndsAt fs (folder ++ [e.name]) last ∧
        v.resolve fs rootID e.path = .ok (render last, root)) ↔
          v.resolve fs rootID e.path = .ok (render last, root) := by
      constructor
      · rintro ⟨last', hends', hres'⟩
        have hsame := hends.leads.1.symm.trans hends'.leads.1
        rw [hres', Except.ok.inj hsame]
      · exact fun hres' => ⟨last, hends, hres'⟩
    rw [hresolve, resolve_iff_of_real hroot hends.leads.2 hinside, hpath, ← hbelow]
    rw [← hbelow] at hends
    exact candidate_leads_iff hvalid hne hends (List.prefix_append ..)
  constructor
  · intro hserves e he
    exact (hserved e he).mp (hserves.served e he)
  · intro hreads
    refine ⟨fun e he => (hserved e he).mpr (hreads e he), nodup_paths hin hdir hperm, fun name last hends hlast => ?_⟩
    obtain ⟨above, rfl⟩ := hin
    obtain ⟨hnode, e, hentry⟩ := exists_entry_of_endsAt attrs hdir hends hlast
    exact ⟨e, hperm.mem_iff.mpr (List.mem_filterMap.mpr ⟨name, FileSystem.mem_entries.mpr hnode, hentry⟩),
      (describes_of_entry hdir (List.prefix_append ..) hnode hentry).1⟩

/-- A tree with the folder `/r` and one empty file in it. -/
def oneFileTree (name : Name) : FileSystem := (FileSystem.empty.insert [] [114] .dir).insert [[114]] name (.file [])

/-- The listing of a folder with one file. -/
theorem list_of_oneFile {e : Entry} (hres : v.resolve fs rootID [] = .ok (render [[114]], root))
    (hstat : Os.stat fs (render [[114]]) = .ok ([[114]], .dir)) (hentries : fs.entries [[114]] = [e.name])
    (hentry : Vault.entry fs attrs root (render [[114]]) e.name = some e) :
    v.list fs attrs toLower rootID [] = .ok [e] := by
  rw [Vault.list, hres]
  dsimp only
  rw [Os.readDir, hstat]
  simp [hentries, hentry]

/-- The file `f` is listed and served. -/
theorem list_serves_oneFile : ∃ root folder,
    linkedVault.resolve (oneFileTree [102]) "docs" [] = .ok (render folder, root) ∧
      linkedVault.ServesListing (oneFileTree [102]) "docs" root folder [⟨[102], [102], false, 0, 0⟩] := by
  have hlist : linkedVault.list (oneFileTree [102]) ⟨fun _ => 0, fun _ => 0⟩ id "docs" [] =
      .ok [⟨[102], [102], false, 0, 0⟩] :=
    list_of_oneFile rfl (by decide +kernel) (by decide +kernel) (by decide +kernel)
  obtain ⟨root, folder, hres, -, hserves⟩ := list_serves_iff hlist
  refine ⟨root, folder, hres, hserves.mpr fun e he => ?_⟩
  rw [List.mem_singleton.mp he]
  exact ⟨by decide, fun h => absurd h (by decide)⟩

/-- A file with the name `a:b` is listed, and refused. -/
theorem lists_colon : ¬ ∀ (v : Vault) (fs : FileSystem) (attrs : Attributes) (toLower : Bytes → Bytes)
    (rootID : String) (relative : Bytes) (es : List Entry),
    v.list fs attrs toLower rootID relative = .ok es →
      ∃ root folder, v.resolve fs rootID relative = .ok (render folder, root) ∧
        v.ServesListing fs rootID root folder es := by
  intro h
  have hlist : linkedVault.list (oneFileTree [97, colon, 98]) ⟨fun _ => 0, fun _ => 0⟩ id "docs" [] =
      .ok [⟨[97, colon, 98], [97, colon, 98], false, 0, 0⟩] :=
    list_of_oneFile rfl (by decide +kernel) (by decide +kernel) (by decide +kernel)
  obtain ⟨root, folder, -, hserves⟩ := h linkedVault (oneFileTree [97, colon, 98]) _ id "docs" [] _ hlist
  obtain ⟨last, -, hres⟩ := hserves.served _ (List.mem_singleton_self _)
  have hrefused : (linkedVault.resolve (oneFileTree [97, colon, 98]) "docs" [97, colon, 98]).isOk = false := by
    decide +kernel
  rw [hres] at hrefused
  cases hrefused

end Files
