import NetlinkHub.Posix.FileSystem

/-! # Resolving a path

How a list of components is followed through a file system, symbolic links included. `scan` goes
along real entries up to the first link, `walk` follows the links with a budget that bounds their
number. Walking composes (`exists_found_of_walk_append`, `walk_append_of_found`), does not depend on
the budget but for running out of it (`walk_unique`), and survives the growth of the tree
(`walk_found_of_grows`). -/

namespace Posix

/-- The error numbers the modelled calls return. -/
inductive Errno where
  | ENOENT | EEXIST | ENOTDIR | EISDIR | EINVAL | ENOTEMPTY | ELOOP | EBUSY
  deriving DecidableEq, Repr

/-- Where following a path ends when nothing is wrong on the way. -/
inductive Lookup where
  /-- At a node that is not a symbolic link. -/
  | found (loc : Location)
  /-- At a free name of a directory. -/
  | missing (dir : Location) (name : Name)
  deriving DecidableEq, Repr

/-- Why going along real entries stops. -/
inductive Stop where
  /-- Every component is used up. -/
  | reached (loc : Location)
  /-- Something that is not a directory was asked for an entry. -/
  | notDir
  /-- A directory has no entry of that name. -/
  | absent (dir : Location) (name : Name) (rest : List Name)
  /-- The entry is a symbolic link. -/
  | symlink (dir : Location) (target : Bytes) (rest : List Name)
  deriving DecidableEq, Repr

/-- Go along real entries from a directory. -/
def scan (fs : FileSystem) (cur : Location) : List Name → Stop
  | [] => .reached cur
  | n :: rest =>
    if n = dot then scan fs cur rest
    else if n = dotDot then scan fs cur.dropLast rest
    else match fs.node (cur ++ [n]) with
      | none => .absent cur n rest
      | some .dir => scan fs (cur ++ [n]) rest
      | some (.file _) => if rest = [] then .reached (cur ++ [n]) else .notDir
      | some (.link target) => .symlink cur target rest

/-- Where a link found in `dir` is resolved from: absolute targets start at the root. -/
def linkBase (dir : Location) (target : Bytes) : Location :=
  if target.head? = some slash then [] else dir

/-- Follow a path from a directory through at most `budget` symbolic links. -/
def walk (fs : FileSystem) : Nat → Location → List Name → Except Errno Lookup
  | budget, cur, path =>
    match scan fs cur path with
    | .reached loc => .ok (.found loc)
    | .notDir => .error .ENOTDIR
    | .absent dir name rest => if rest = [] then .ok (.missing dir name) else .error .ENOENT
    | .symlink dir target rest =>
      match budget with
      | 0 => .error .ELOOP
      | budget + 1 => walk fs budget (linkBase dir target) (components target ++ rest)

variable {fs fs' : FileSystem} {cur loc dir : Location} {n name : Name} {xs ys rest : List Name}
  {target : Bytes} {b b' : Nat} {r : Lookup}

/-! ## One walk -/

theorem walk_of_reached (h : scan fs cur xs = .reached loc) :
    walk fs b cur xs = .ok (.found loc) := by
  unfold walk; rw [h]

theorem walk_of_notDir (h : scan fs cur xs = .notDir) : walk fs b cur xs = .error .ENOTDIR := by
  unfold walk; rw [h]

theorem walk_of_absent (h : scan fs cur xs = .absent dir name rest) :
    walk fs b cur xs = if rest = [] then .ok (.missing dir name) else .error .ENOENT := by
  unfold walk; rw [h]

theorem walk_zero_of_symlink (h : scan fs cur xs = .symlink dir target rest) :
    walk fs 0 cur xs = .error .ELOOP := by
  unfold walk; rw [h]

theorem walk_succ_of_symlink (h : scan fs cur xs = .symlink dir target rest) :
    walk fs (b + 1) cur xs = walk fs b (linkBase dir target) (components target ++ rest) := by
  conv_lhs => unfold walk
  rw [h]

@[simp] theorem walk_nil : walk fs b cur [] = .ok (.found cur) := walk_of_reached rfl

/-- The three ways a walk can succeed. -/
theorem walk_ok_cases (h : walk fs b cur xs = .ok r) :
    (∃ loc, scan fs cur xs = .reached loc ∧ r = .found loc) ∨
    (∃ dir name, scan fs cur xs = .absent dir name [] ∧ r = .missing dir name) ∨
    ∃ k dir target rest, b = k + 1 ∧ scan fs cur xs = .symlink dir target rest ∧
      walk fs k (linkBase dir target) (components target ++ rest) = .ok r := by
  cases hscan : scan fs cur xs with
  | reached loc => rw [walk_of_reached hscan] at h; cases h; exact .inl ⟨loc, rfl, rfl⟩
  | notDir => rw [walk_of_notDir hscan] at h; cases h
  | absent dir name rest =>
    rw [walk_of_absent hscan] at h
    split at h
    · rename_i hrest
      cases h
      exact .inr (.inl ⟨dir, name, by rw [hrest], rfl⟩)
    · cases h
  | symlink dir target rest =>
    cases b with
    | zero => rw [walk_zero_of_symlink hscan] at h; cases h
    | succ k =>
      rw [walk_succ_of_symlink hscan] at h
      exact .inr (.inr ⟨k, dir, target, rest, rfl, rfl, h⟩)

/-- A larger budget only matters to a walk that ran out of it. -/
theorem walk_mono (hb : b ≤ b') (h : walk fs b cur xs ≠ .error .ELOOP) :
    walk fs b' cur xs = walk fs b cur xs := by
  induction b generalizing b' cur xs with
  | zero =>
    cases hscan : scan fs cur xs with
    | reached loc => rw [walk_of_reached hscan, walk_of_reached hscan]
    | notDir => rw [walk_of_notDir hscan, walk_of_notDir hscan]
    | absent dir name rest => rw [walk_of_absent hscan, walk_of_absent hscan]
    | symlink dir target rest => exact absurd (walk_zero_of_symlink hscan) h
  | succ b ih =>
    obtain ⟨k, rfl⟩ : ∃ k, b' = k + 1 := ⟨b' - 1, by omega⟩
    cases hscan : scan fs cur xs with
    | reached loc => rw [walk_of_reached hscan, walk_of_reached hscan]
    | notDir => rw [walk_of_notDir hscan, walk_of_notDir hscan]
    | absent dir name rest => rw [walk_of_absent hscan, walk_of_absent hscan]
    | symlink dir target rest =>
      rw [walk_succ_of_symlink hscan] at h ⊢
      rw [walk_succ_of_symlink hscan]
      exact ih (by omega) h

/-- **Two walks along one path agree** whatever their budgets, unless one of them gives up. -/
theorem walk_unique (h : walk fs b cur xs ≠ .error .ELOOP) (h' : walk fs b' cur xs ≠ .error .ELOOP) :
    walk fs b cur xs = walk fs b' cur xs := by
  rcases Nat.le_total b b' with hb | hb
  · exact (walk_mono hb h).symm
  · exact walk_mono hb h'

theorem walk_ok_unique {r' : Lookup} (h : walk fs b cur xs = .ok r)
    (h' : walk fs b' cur xs = .ok r') : r = r' := by
  have hne : walk fs b cur xs ≠ .error .ELOOP := by rw [h]; simp
  have hne' : walk fs b' cur xs ≠ .error .ELOOP := by rw [h']; simp
  have hsame := walk_unique hne hne'
  rw [h, h'] at hsame
  cases hsame
  rfl

/-! ## What a scan says about the tree -/

/-- What the result of a scan stands for. -/
def Stop.Sound (fs : FileSystem) : Stop → Prop
  | .reached loc => fs.node loc = some .dir ∨ ∃ content, fs.node loc = some (.file content)
  | .notDir => True
  | .absent dir name _ => fs.node dir = some .dir ∧ fs.node (dir ++ [name]) = none ∧
      name ≠ dot ∧ name ≠ dotDot
  | .symlink dir target _ => fs.node dir = some .dir ∧
      ∃ name, fs.node (dir ++ [name]) = some (.link target)

theorem scan_sound (hcur : fs.node cur = some .dir) (xs : List Name) :
    (scan fs cur xs).Sound fs := by
  induction xs generalizing cur with
  | nil => exact .inl hcur
  | cons n xs ih =>
    rw [scan]
    split
    · exact ih hcur
    · rename_i hdot
      split
      · exact ih (FileSystem.node_dropLast hcur)
      · rename_i hdotDot
        split
        · rename_i hnone
          exact ⟨hcur, hnone, hdot, hdotDot⟩
        · rename_i hdir
          exact ih hdir
        · rename_i content hfile
          split
          · exact .inr ⟨content, hfile⟩
          · trivial
        · rename_i target hlink
          exact ⟨hcur, n, hlink⟩

/-- A link is resolved from a directory. -/
theorem node_linkBase (h : fs.node dir = some .dir) (target : Bytes) :
    fs.node (linkBase dir target) = some .dir := by
  unfold linkBase
  split
  · exact fs.node_root
  · exact h

/-- What the result of a walk stands for. -/
def Lookup.Sound (fs : FileSystem) : Lookup → Prop
  | .found loc => fs.node loc = some .dir ∨ ∃ content, fs.node loc = some (.file content)
  | .missing dir name => fs.node dir = some .dir ∧ fs.node (dir ++ [name]) = none ∧
      name ≠ dot ∧ name ≠ dotDot

/-- **A walk ends at a real node** or at a free name of a real directory. -/
theorem walk_sound (hcur : fs.node cur = some .dir) (h : walk fs b cur xs = .ok r) :
    r.Sound fs := by
  induction b generalizing cur xs with
  | zero =>
    have hs := scan_sound hcur xs
    rcases walk_ok_cases h with ⟨loc, hscan, rfl⟩ | ⟨dir, name, hscan, rfl⟩ | ⟨k, _, _, _, hk, -⟩
    · rwa [hscan] at hs
    · rwa [hscan] at hs
    · omega
  | succ b ih =>
    have hs := scan_sound hcur xs
    rcases walk_ok_cases h with ⟨loc, hscan, rfl⟩ | ⟨dir, name, hscan, rfl⟩ |
      ⟨k, dir, target, rest, hk, hscan, hw⟩
    · rwa [hscan] at hs
    · rwa [hscan] at hs
    · obtain rfl : b = k := by omega
      rw [hscan] at hs
      exact ih (node_linkBase hs.1 target) hw

theorem node_ne_none_of_found (hcur : fs.node cur = some .dir)
    (h : walk fs b cur xs = .ok (.found loc)) : fs.node loc ≠ none := by
  rcases walk_sound hcur h with h | ⟨_, h⟩ <;> rw [h] <;> simp

/-- What a scan leaves over was on the path. -/
theorem scan_subset (fs : FileSystem) (cur : Location) (xs : List Name) :
    (∀ dir name rest, scan fs cur xs = .absent dir name rest → name ∈ xs ∧ rest ⊆ xs) ∧
      ∀ dir target rest, scan fs cur xs = .symlink dir target rest → rest ⊆ xs := by
  induction xs generalizing cur with
  | nil => exact ⟨fun _ _ _ h => (nomatch h), fun _ _ _ h => (nomatch h)⟩
  | cons n xs ih =>
    have hlift : ∀ cur', (∀ dir name rest, scan fs cur' xs = .absent dir name rest →
        name ∈ n :: xs ∧ rest ⊆ n :: xs) ∧
        ∀ dir target rest, scan fs cur' xs = .symlink dir target rest → rest ⊆ n :: xs := by
      intro cur'
      obtain ⟨ha, hs⟩ := ih cur'
      exact ⟨fun d m rest h => ⟨List.mem_cons_of_mem _ (ha d m rest h).1,
          List.subset_cons_of_subset _ (ha d m rest h).2⟩,
        fun d t rest h => List.subset_cons_of_subset _ (hs d t rest h)⟩
    rw [scan]
    split
    · exact hlift _
    · split
      · exact hlift _
      · split
        · refine ⟨fun d m rest h => ?_, fun _ _ _ h => (nomatch h)⟩
          cases h
          exact ⟨by simp, List.subset_cons_self ..⟩
        · exact hlift _
        · refine ⟨fun _ _ _ h => ?_, fun _ _ _ h => ?_⟩ <;> split at h <;> cases h
        · refine ⟨fun _ _ _ h => (nomatch h), fun d t rest h => ?_⟩
          cases h
          exact List.subset_cons_self ..

/-- **The free name a walk ends at is a valid one**, if the components of the path are. -/
theorem validName_of_missing (hcur : fs.node cur = some .dir) (hxs : ∀ n ∈ xs, IsComponent n)
    (h : walk fs b cur xs = .ok (.missing dir name)) : ValidName name := by
  obtain ⟨-, -, hdot, hdotDot⟩ := walk_sound hcur h
  refine ⟨?_, hdot, hdotDot⟩
  induction b using Nat.strong_induction_on generalizing cur xs with
  | _ b ih =>
    have hs := scan_sound hcur xs
    rcases walk_ok_cases h with ⟨_, _, he⟩ | ⟨d, m, hscan, he⟩ | ⟨k, d, t, rest, rfl, hscan, hw⟩
    · cases he
    · cases he
      exact hxs _ ((scan_subset fs cur xs).1 _ _ _ hscan).1
    · rw [hscan] at hs
      obtain ⟨hdir, m, hlink⟩ := hs
      refine ih k (by omega) (node_linkBase hdir t) (fun n hn => ?_) hw
      rcases List.mem_append.mp hn with hn | hn
      · exact isComponent_of_mem_components (fs.valid_node hlink).2 hn
      · exact hxs n ((scan_subset fs cur xs).2 _ _ _ hscan hn)

/-! ## Composition -/

/-- What a scan of a longer path does after the scan of a beginning of it. -/
theorem scan_append (hcur : fs.node cur = some .dir) (xs : List Name) (hys : ys ≠ []) :
    scan fs cur (xs ++ ys) = match scan fs cur xs with
      | .reached loc => if fs.node loc = some .dir then scan fs loc ys else .notDir
      | .notDir => .notDir
      | .absent dir name rest => .absent dir name (rest ++ ys)
      | .symlink dir target rest => .symlink dir target (rest ++ ys) := by
  induction xs generalizing cur with
  | nil => simp [scan, hcur]
  | cons n xs ih =>
    rw [List.cons_append, scan, scan]
    split
    · exact ih hcur
    · split
      · exact ih (FileSystem.node_dropLast hcur)
      · split
        · rfl
        · rename_i hdir
          exact ih hdir
        · rename_i hfile
          rw [if_neg (by simp [hys])]
          split <;> rename_i hs <;> split at hs <;> cases hs <;> simp_all
        · rfl

/-- **What a path that leads on was led by.** A walk along `xs ++ ys` that succeeds comes by a
directory that `xs` alone leads to. -/
theorem exists_found_of_walk_append (hcur : fs.node cur = some .dir) (hys : ys ≠ [])
    (h : walk fs b cur (xs ++ ys) = .ok r) :
    ∃ dir k, walk fs b cur xs = .ok (.found dir) ∧ fs.node dir = some .dir ∧ k ≤ b ∧
      walk fs k dir ys = .ok r := by
  induction b using Nat.strong_induction_on generalizing cur xs with
  | _ b ih =>
    have happ := scan_append hcur xs hys
    have hs := scan_sound hcur xs
    cases hscan : scan fs cur xs with
    | reached loc =>
      rw [hscan] at happ
      simp only at happ
      split at happ
      · rename_i hdir
        refine ⟨loc, b, walk_of_reached hscan, hdir, le_rfl, ?_⟩
        rw [← h]
        unfold walk
        rw [happ]
      · rw [walk_of_notDir happ] at h
        cases h
    | notDir =>
      rw [hscan] at happ
      rw [walk_of_notDir happ] at h
      cases h
    | absent dir name rest =>
      rw [hscan] at happ
      rw [walk_of_absent happ, if_neg (by simp [hys])] at h
      cases h
    | symlink dir target rest =>
      rw [hscan] at happ hs
      cases b with
      | zero => rw [walk_zero_of_symlink happ] at h; cases h
      | succ b =>
        rw [walk_succ_of_symlink happ, ← List.append_assoc] at h
        obtain ⟨d, k, hd, hdir, hk, hw⟩ := ih b (by omega) (node_linkBase hs.1 target) h
        exact ⟨d, k, by rw [walk_succ_of_symlink hscan, hd], hdir, by omega, hw⟩

/-- **Going on from where a path leads.** A walk along `xs` to a directory leaves some budget for
what comes after `xs`. -/
theorem walk_append_of_found (hcur : fs.node cur = some .dir)
    (h : walk fs b cur xs = .ok (.found dir)) (hdir : fs.node dir = some .dir) :
    ∃ k ≤ b, ∀ ys, walk fs b cur (xs ++ ys) = walk fs k dir ys := by
  induction b using Nat.strong_induction_on generalizing cur xs with
  | _ b ih =>
    have hs := scan_sound hcur xs
    rcases walk_ok_cases h with ⟨loc, hscan, he⟩ | ⟨_, _, _, he⟩ | ⟨k, d, t, rest, rfl, hscan, hw⟩
    · cases he
      refine ⟨b, le_rfl, fun ys => ?_⟩
      by_cases hys : ys = []
      · rw [hys, List.append_nil, h, walk_nil]
      · have happ := scan_append hcur xs hys
        rw [hscan] at happ
        simp only [hdir, if_true] at happ
        unfold walk
        rw [happ]
    · cases he
    · rw [hscan] at hs
      obtain ⟨k', hk', hall⟩ := ih k (by omega) (node_linkBase hs.1 t) hw
      refine ⟨k', by omega, fun ys => ?_⟩
      by_cases hys : ys = []
      · have := hall []
        rw [walk_nil] at this
        rw [hys, List.append_nil, h, walk_nil]
      · have happ := scan_append hcur xs hys
        rw [hscan] at happ
        rw [walk_succ_of_symlink happ, ← List.append_assoc, hall]

/-! ## Real locations -/

/-- Going down real directories is free. -/
theorem scan_of_dir (h : fs.node (cur ++ xs) = some .dir) (hxs : ValidLocation xs) :
    ∀ ys, scan fs cur (xs ++ ys) = scan fs (cur ++ xs) ys := by
  induction xs generalizing cur with
  | nil => simp
  | cons n xs ih =>
    intro ys
    rw [validLocation_cons] at hxs
    have hn : fs.node (cur ++ [n]) = some .dir := by
      rw [List.append_cons] at h
      by_cases hx : xs = []
      · rwa [hx, List.append_nil] at h
      · exact FileSystem.node_of_node_below (by rw [h]; simp) hx
    have hdown : fs.node ((cur ++ [n]) ++ xs) = some .dir := by simpa using h
    have hrest := ih hdown hxs.2 ys
    rw [List.append_assoc, List.singleton_append] at hrest
    rw [List.cons_append, scan, if_neg hxs.1.ne_dot, if_neg hxs.1.ne_dotDot, hn]
    exact hrest

/-- **A real location is its own resolution.** -/
theorem walk_of_node {x : Node} (hx : fs.node loc = some x) (hlink : ∀ t, x ≠ .link t) :
    walk fs b [] loc = .ok (.found loc) := by
  apply walk_of_reached
  induction loc using List.reverseRecOn with
  | nil => rfl
  | append_singleton p n _ =>
    have hne : fs.node (p ++ [n]) ≠ none := by rw [hx]; simp
    have hvalid := FileSystem.validLocation hne
    rw [validLocation_append] at hvalid
    have hn := fs.validName hne
    have hdown : scan fs [] (p ++ [n]) = scan fs p [n] :=
      scan_of_dir (fs.node_parent hne) hvalid.1 [n]
    rw [hdown, scan, if_neg hn.ne_dot, if_neg hn.ne_dotDot, hx]
    cases x with
    | dir => rfl
    | file content => rfl
    | link t => exact absurd rfl (hlink t)

/-! ## A growing tree -/

/-- Every node of `fs` is still there in `fs'`. -/
def Grows (fs fs' : FileSystem) : Prop := ∀ p, fs.node p ≠ none → fs'.node p = fs.node p

theorem Grows.refl (fs : FileSystem) : Grows fs fs := fun _ _ => rfl

theorem grows_insert {new : Node} (hfree : fs.node (dir ++ [name]) = none) :
    Grows fs (fs.insert dir name new) := by
  intro p hp
  by_contra hne
  exact hp (FileSystem.eq_of_node_insert_ne hne ▸ hfree)

/-- A scan that comes to no free name goes the same way in a larger tree. -/
theorem scan_of_grows (hg : Grows fs fs') (cur : Location) (xs : List Name) :
    (∃ dir name rest, scan fs cur xs = .absent dir name rest) ∨
      scan fs' cur xs = scan fs cur xs := by
  induction xs generalizing cur with
  | nil => exact .inr rfl
  | cons n xs ih =>
    rw [scan, scan]
    split
    · exact ih _
    · split
      · exact ih _
      · cases hn : fs.node (cur ++ [n]) with
        | none => exact .inl ⟨cur, n, xs, rfl⟩
        | some x =>
          rw [hg _ (by rw [hn]; simp), hn]
          cases x with
          | dir => exact ih _
          | file content => exact .inr rfl
          | link t => exact .inr rfl

/-- **Growth keeps what was found.** -/
theorem walk_found_of_grows (hg : Grows fs fs') (h : walk fs b cur xs = .ok (.found loc)) :
    walk fs' b cur xs = .ok (.found loc) := by
  induction b using Nat.strong_induction_on generalizing cur xs with
  | _ b ih =>
    rcases walk_ok_cases h with ⟨_, hscan, he⟩ | ⟨_, _, _, he⟩ | ⟨k, d, t, rest, rfl, hscan, hw⟩
    · cases he
      rcases scan_of_grows hg cur xs with ⟨_, _, _, ha⟩ | hsame
      · rw [hscan] at ha; cases ha
      · exact walk_of_reached (hsame.trans hscan)
    · cases he
    · rcases scan_of_grows hg cur xs with ⟨_, _, _, ha⟩ | hsame
      · rw [hscan] at ha; cases ha
      · rw [walk_succ_of_symlink (hsame.trans hscan)]
        exact ih k (by omega) hw

/-- A scan that stops at a free name in the end comes to the file that is put there. -/
theorem scan_insert_of_absent (content : Bytes) (hcur : fs.node cur = some .dir)
    (hname : ValidName name) (h : scan fs cur xs = .absent dir name []) :
    scan (fs.insert dir name (.file content)) cur xs = .reached (dir ++ [name]) := by
  have hs := scan_sound hcur xs
  rw [h] at hs
  obtain ⟨hdir, hfree, -, -⟩ := hs
  have hins := FileSystem.node_insert hdir hname hfree (Node.valid_file content)
  induction xs generalizing cur with
  | nil => cases h
  | cons n xs ih =>
    rw [scan] at h ⊢
    split at h
    · rename_i hdot
      rw [if_pos hdot]
      exact ih hcur h
    · rename_i hdot
      rw [if_neg hdot]
      split at h
      · rename_i hdotDot
        rw [if_pos hdotDot]
        exact ih (FileSystem.node_dropLast hcur) h
      · rename_i hdotDot
        rw [if_neg hdotDot]
        split at h
        · cases h
          rw [hins, if_pos rfl]
          rfl
        · rename_i hdown
          rw [grows_insert hfree _ (by rw [hdown]; simp), hdown]
          exact ih hdown h
        · split at h <;> cases h
        · cases h

/-- **Where a walk ends at a free name, it comes to the file that is put there.** -/
theorem walk_insert_of_missing (content : Bytes) (hcur : fs.node cur = some .dir)
    (hname : ValidName name) (h : walk fs b cur xs = .ok (.missing dir name)) :
    walk (fs.insert dir name (.file content)) b cur xs = .ok (.found (dir ++ [name])) := by
  have hfree : fs.node (dir ++ [name]) = none := (walk_sound hcur h).2.1
  induction b using Nat.strong_induction_on generalizing cur xs with
  | _ b ih =>
    have hs := scan_sound hcur xs
    rcases walk_ok_cases h with ⟨_, _, he⟩ | ⟨d, m, hscan, he⟩ | ⟨k, d, t, rest, rfl, hscan, hw⟩
    · cases he
    · cases he
      exact walk_of_reached (scan_insert_of_absent content hcur hname hscan)
    · rw [hscan] at hs
      have hgrow : Grows fs (fs.insert dir name (.file content)) := grows_insert hfree
      rcases scan_of_grows hgrow cur xs with ⟨_, _, _, ha⟩ | hsame
      · rw [hscan] at ha; cases ha
      · rw [walk_succ_of_symlink (hsame.trans hscan)]
        exact ih k (by omega) (node_linkBase hs.1 t) hw

end Posix
