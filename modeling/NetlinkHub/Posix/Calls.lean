import NetlinkHub.Posix.Resolve

/-! # File system calls

The system calls a program reaches the tree with. A path is given by its components and starts at
the root. Calls that create or remove an entry do not follow a symbolic link at the very end of the
path (`parent`); opening a file for writing does, and creates what a dangling link points to. Each
call that changes the tree has one lemma that says which location it changes. -/

namespace Posix

/-- How many symbolic links the kernel follows along one path. -/
def maxLinks : Nat := 40

/-- Follow a path, also where it ends in a symbolic link. -/
def follow (fs : FileSystem) (path : List Name) : Except Errno Lookup := walk fs maxLinks [] path

/-- The end of a path whose last component is not followed. -/
inductive Last where
  /-- An entry of a directory, which may be free. -/
  | norm (dir : Location) (name : Name)
  /-- The root, `.` or `..`. -/
  | dots (loc : Location)
  deriving DecidableEq, Repr

/-- Follow a path up to its last component. -/
def parent (fs : FileSystem) (path : List Name) : Except Errno Last :=
  match path.getLast? with
  | none => .ok (.dots [])
  | some name =>
    match follow fs path.dropLast with
    | .error e => .error e
    | .ok (.missing ..) => .error .ENOENT
    | .ok (.found dir) =>
      if fs.node dir ≠ some .dir then .error .ENOTDIR
      else if name = dot then .ok (.dots dir)
      else if name = dotDot then .ok (.dots dir.dropLast)
      else .ok (.norm dir name)

/-! ## Calls that only look -/

/-- The node a path leads to, with its location. -/
def stat (fs : FileSystem) (path : List Name) : Except Errno (Location × Node) :=
  match follow fs path with
  | .error e => .error e
  | .ok (.missing ..) => .error .ENOENT
  | .ok (.found loc) =>
    match fs.node loc with
    | none => .error .ENOENT
    | some x => .ok (loc, x)

/-- The node at a path, which may be a symbolic link, with its location. -/
def lstat (fs : FileSystem) (path : List Name) : Except Errno (Location × Node) :=
  match parent fs path with
  | .error e => .error e
  | .ok (.dots loc) => .ok (loc, .dir)
  | .ok (.norm dir name) =>
    match fs.node (dir ++ [name]) with
    | none => .error .ENOENT
    | some x => .ok (dir ++ [name], x)

/-! ## Calls that change the tree -/

/-- Create a directory. -/
def mkdir (fs : FileSystem) (path : List Name) : Except Errno FileSystem :=
  match parent fs path with
  | .error e => .error e
  | .ok (.dots _) => .error .EEXIST
  | .ok (.norm dir name) =>
    if fs.node (dir ++ [name]) = none then .ok (fs.insert dir name .dir) else .error .EEXIST

/-- Open a file for writing, creating it where the path leads to a free name, and cutting it to
nothing if `trunc` is set. The result is the location of the open file. -/
def openCreate (fs : FileSystem) (path : List Name) (trunc : Bool) :
    Except Errno (Location × FileSystem) :=
  match follow fs path with
  | .error e => .error e
  | .ok (.missing dir name) => .ok (dir ++ [name], fs.insert dir name (.file []))
  | .ok (.found loc) =>
    match fs.node loc with
    | some (.file _) => .ok (loc, if trunc then fs.setContent loc [] else fs)
    | _ => .error .EISDIR

/-- Remove an entry that is not a directory. -/
def unlink (fs : FileSystem) (path : List Name) : Except Errno FileSystem :=
  match parent fs path with
  | .error e => .error e
  | .ok (.dots _) => .error .EISDIR
  | .ok (.norm dir name) =>
    match fs.node (dir ++ [name]) with
    | none => .error .ENOENT
    | some .dir => .error .EISDIR
    | some _ => .ok (fs.erase (dir ++ [name]))

/-- Remove an empty directory. -/
def rmdir (fs : FileSystem) (path : List Name) : Except Errno FileSystem :=
  match parent fs path with
  | .error e => .error e
  | .ok (.dots _) => .error .EBUSY
  | .ok (.norm dir name) =>
    match fs.node (dir ++ [name]) with
    | none => .error .ENOENT
    | some .dir =>
      if fs.entries (dir ++ [name]) = [] then .ok (fs.erase (dir ++ [name])) else .error .ENOTEMPTY
    | some _ => .error .ENOTDIR

/-- Give an entry another place, over what is there if the two are of one kind and nothing is lost
but a file, a link or an empty directory. -/
def rename (fs : FileSystem) (old new : List Name) : Except Errno FileSystem :=
  match parent fs old, parent fs new with
  | .error e, _ => .error e
  | _, .error e => .error e
  | .ok (.norm srcDir srcName), .ok (.norm dir name) =>
    let src := srcDir ++ [srcName]
    let dst := dir ++ [name]
    match fs.node src with
    | none => .error .ENOENT
    | some x =>
      if src <+: dir then .error .EINVAL
      else if dst <+: srcDir then .error .ENOTEMPTY
      else if src = dst then .ok fs
      else match fs.node dst with
        | none => .ok (fs.move src dir name)
        | some .dir =>
          if x ≠ .dir then .error .EISDIR
          else if fs.entries dst = [] then .ok (fs.move src dir name) else .error .ENOTEMPTY
        | some _ => if x = .dir then .error .ENOTDIR else .ok (fs.move src dir name)
  | _, _ => .error .EBUSY

variable {fs fs' : FileSystem} {path path' : List Name} {loc dir p : Location} {name : Name}
  {x : Node}

/-! ## What the last component is -/

/-- The entry at the end of a path is one of a directory the rest of the path leads to. -/
theorem parent_norm (h : parent fs path = .ok (.norm dir name)) :
    ∃ up, path = up ++ [name] ∧ follow fs up = .ok (.found dir) ∧ fs.node dir = some .dir ∧
      name ≠ dot ∧ name ≠ dotDot := by
  unfold parent at h
  split at h
  · cases h
  · rename_i last hlast
    have hpath : path = path.dropLast ++ [last] := by
      have hne : path ≠ [] := by rintro rfl; cases hlast
      rw [List.getLast?_eq_some_getLast hne, Option.some.injEq] at hlast
      rw [← hlast, List.dropLast_append_getLast hne]
    split at h
    · cases h
    · cases h
    · rename_i d hfollow
      split at h
      · cases h
      · rename_i hdir
        split at h
        · cases h
        · rename_i hdot
          split at h
          · cases h
          · rename_i hdotDot
            cases h
            exact ⟨_, hpath, hfollow, by simpa using hdir, hdot, hdotDot⟩

/-- A path to a directory, and a name below it. -/
theorem parent_append (h : follow fs path = .ok (.found dir)) (hdir : fs.node dir = some .dir)
    (hdot : name ≠ dot) (hdotDot : name ≠ dotDot) :
    parent fs (path ++ [name]) = .ok (.norm dir name) := by
  simp [parent, h, hdir, hdot, hdotDot]

/-- What the end of a path is, where the path spells a real location. -/
theorem parent_of_node (hx : fs.node (dir ++ [name]) ≠ none) :
    parent fs (dir ++ [name]) = .ok (.norm dir name) := by
  have hdir := fs.node_parent hx
  have hn := fs.validName hx
  exact parent_append (walk_of_node hdir (by simp)) hdir hn.ne_dot hn.ne_dotDot

/-- Going on to an entry of a directory that a path leads to. -/
theorem follow_append (h : follow fs path = .ok (.found dir)) (hdir : fs.node dir = some .dir)
    (hx : fs.node (dir ++ [name]) = some x) (hlink : ∀ t, x ≠ .link t) :
    follow fs (path ++ [name]) = .ok (.found (dir ++ [name])) := by
  have hn : ValidName name := fs.validName (by rw [hx]; simp)
  obtain ⟨k, -, hall⟩ := walk_append_of_found fs.node_root h hdir
  rw [follow, hall]
  apply walk_of_reached
  rw [scan, if_neg hn.ne_dot, if_neg hn.ne_dotDot, hx]
  cases x with
  | dir => rfl
  | file content => rfl
  | link t => exact absurd rfl (hlink t)

/-- A path to a directory, and a free name in it. -/
theorem walk_missing_of_free {b : Nat} (h : walk fs b [] path = .ok (.found dir))
    (hdir : fs.node dir = some .dir) (hdot : name ≠ dot) (hdotDot : name ≠ dotDot)
    (hfree : fs.node (dir ++ [name]) = none) :
    walk fs b [] (path ++ [name]) = .ok (.missing dir name) := by
  obtain ⟨k, -, hall⟩ := walk_append_of_found fs.node_root h hdir
  have hscan : scan fs dir [name] = .absent dir name [] := by
    rw [scan, if_neg hdot, if_neg hdotDot, hfree]
  rw [hall, walk_of_absent hscan, if_pos rfl]

/-- A free name in a directory that a path leads to, whatever the budgets. -/
theorem walk_append_of_free {b b' : Nat} (h : walk fs b [] path = .ok (.found dir))
    (hdir : fs.node dir = some .dir) (hdot : name ≠ dot) (hdotDot : name ≠ dotDot)
    (hfree : fs.node (dir ++ [name]) = none) {r : Lookup}
    (hr : walk fs b' [] (path ++ [name]) = .ok r) : r = .missing dir name :=
  walk_ok_unique hr (walk_missing_of_free h hdir hdot hdotDot hfree)

/-- A beginning of a path that leads to a node leads to a directory. -/
theorem exists_follow_of_append {rest : List Name} {r : Lookup} (hrest : rest ≠ [])
    (h : follow fs (path ++ rest) = .ok r) :
    ∃ dir, follow fs path = .ok (.found dir) ∧ fs.node dir = some .dir := by
  obtain ⟨dir, _, hd, hdir, -⟩ := exists_found_of_walk_append fs.node_root hrest h
  exact ⟨dir, hd, hdir⟩

/-! ## Looking at a real location -/

theorem stat_of_follow (h : follow fs path = .ok (.found loc)) (hx : fs.node loc = some x) :
    stat fs path = .ok (loc, x) := by
  simp [stat, h, hx]

theorem stat_ok (h : stat fs path = .ok (loc, x)) :
    follow fs path = .ok (.found loc) ∧ fs.node loc = some x := by
  unfold stat at h
  split at h
  · cases h
  · cases h
  · rename_i hf
    split at h
    · cases h
    · rename_i hx
      cases h
      exact ⟨hf, hx⟩

/-- **A real location is its own status.** -/
theorem stat_of_node (hx : fs.node loc = some x) (hlink : ∀ t, x ≠ .link t) :
    stat fs loc = .ok (loc, x) :=
  stat_of_follow (walk_of_node hx hlink) hx

theorem lstat_of_node (hx : fs.node loc = some x) : lstat fs loc = .ok (loc, x) := by
  induction loc using List.reverseRecOn with
  | nil =>
    rw [fs.node_root] at hx
    cases hx
    rfl
  | append_singleton dir name _ =>
    simp [lstat, parent_of_node (show fs.node (dir ++ [name]) ≠ none by simp [hx]), hx]

/-! ## What a call changes -/

/-- **Opening for writing** changes at most the file that is opened. -/
theorem openCreate_ok {trunc : Bool} (h : openCreate fs path trunc = .ok (loc, fs')) :
    (∃ dir name, follow fs path = .ok (.missing dir name) ∧ loc = dir ++ [name] ∧
      fs' = fs.insert dir name (.file [])) ∨
    (∃ old, follow fs path = .ok (.found loc) ∧ fs.node loc = some (.file old) ∧
      fs' = if trunc then fs.setContent loc [] else fs) := by
  unfold openCreate at h
  split at h
  · cases h
  · rename_i d n hf
    cases h
    exact .inl ⟨d, n, hf, rfl, rfl⟩
  · rename_i l hf
    split at h
    · rename_i old hold
      cases h
      exact .inr ⟨old, hf, hold, rfl⟩
    · cases h

theorem unlink_ok (h : unlink fs path = .ok fs') :
    ∃ dir name, parent fs path = .ok (.norm dir name) ∧ fs' = fs.erase (dir ++ [name]) := by
  unfold unlink at h
  split at h
  · cases h
  · cases h
  · rename_i d n hp
    split at h
    · cases h
    · cases h
    · cases h
      exact ⟨d, n, hp, rfl⟩

theorem rmdir_ok (h : rmdir fs path = .ok fs') :
    ∃ dir name, parent fs path = .ok (.norm dir name) ∧ fs' = fs.erase (dir ++ [name]) := by
  unfold rmdir at h
  split at h
  · cases h
  · cases h
  · rename_i d n hp
    split at h
    · cases h
    · split at h
      · cases h
        exact ⟨d, n, hp, rfl⟩
      · cases h
    · cases h

/-- **Renaming** moves one entry of a directory to another, or does nothing. -/
theorem rename_ok (h : rename fs path path' = .ok fs') :
    ∃ srcDir srcName dir name, parent fs path = .ok (.norm srcDir srcName) ∧
      parent fs path' = .ok (.norm dir name) ∧
      (fs' = fs ∨ fs' = fs.move (srcDir ++ [srcName]) dir name) := by
  unfold rename at h
  split at h
  · cases h
  · cases h
  · rename_i sd sn d n hp hp'
    refine ⟨sd, sn, d, n, hp, hp', ?_⟩
    simp only at h
    repeat' split at h
    all_goals first | (cases h; done) | (cases h; simp)
  · cases h

end Posix
