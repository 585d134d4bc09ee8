import NetlinkHub.Posix.Calls
import NetlinkHub.Go.Filepath
import Mathlib.Data.List.Lex

/-! # Go's `os` on Unix

The functions of the standard library that are more than one system call: `MkdirAll`, `Remove` and
`Rename`, and `ReadDir`. The result of a call that may change the tree is the tree afterwards and
the error, if there is one. `MkdirAll` has the one lemma with an argument in it
(`mkdirAll_spec`): what it creates lies below the deepest directory its path leads to. -/

namespace Os

open Posix

/-- `IsNotExist`. -/
def isNotExist (e : Errno) : Bool := e = .ENOENT

/-- `Stat`. -/
def stat (fs : FileSystem) (path : Bytes) : Except Errno (Location × Node) :=
  Posix.stat fs (components path)

/-- `Lstat`. -/
def lstat (fs : FileSystem) (path : Bytes) : Except Errno (Location × Node) :=
  Posix.lstat fs (components path)

/-- `ReadDir`: the names in a directory, in order. -/
def readDir (fs : FileSystem) (path : Bytes) : Except Errno (List Name) :=
  match stat fs path with
  | .error e => .error e
  | .ok (loc, .dir) => .ok ((fs.entries loc).mergeSort (· ≤ ·))
  | .ok _ => .error .ENOTDIR

/-- `Mkdir`, and a second look where it fails: the directory may be there. -/
def mkdirLast (fs : FileSystem) (path : List Name) : FileSystem × Except Errno Unit :=
  match mkdir fs path with
  | .ok fs' => (fs', .ok ())
  | .error e =>
    match Posix.lstat fs path with
    | .ok (_, .dir) => (fs, .ok ())
    | _ => (fs, .error e)

/-- `MkdirAll` of the path with the given components, last one first. -/
def mkdirAllRev (fs : FileSystem) : List Name → FileSystem × Except Errno Unit
  | [] => (fs, .ok ())
  | n :: up =>
    match Posix.stat fs (n :: up).reverse with
    | .ok (_, .dir) => (fs, .ok ())
    | .ok _ => (fs, .error .ENOTDIR)
    | .error _ =>
      match mkdirAllRev fs up with
      | (fs', .error e) => (fs', .error e)
      | (fs', .ok ()) => mkdirLast fs' (n :: up).reverse

/-- `MkdirAll`. -/
def mkdirAll (fs : FileSystem) (path : Bytes) : FileSystem × Except Errno Unit :=
  mkdirAllRev fs (components path).reverse

/-- `Remove`: as a file, and failing that as an empty directory. -/
def remove (fs : FileSystem) (path : Bytes) : Except Errno FileSystem :=
  match unlink fs (components path) with
  | .ok fs' => .ok fs'
  | .error e =>
    match rmdir fs (components path) with
    | .ok fs' => .ok fs'
    | .error e' => .error (if e' ≠ .ENOTDIR then e' else e)

/-- `Rename`: an existing directory is not replaced. -/
def rename (fs : FileSystem) (oldpath newpath : Bytes) : Except Errno FileSystem :=
  match lstat fs newpath with
  | .ok (loc, .dir) =>
    match lstat fs oldpath with
    | .error e => .error e
    | .ok (oldLoc, _) =>
      if newpath = oldpath ∨ oldLoc ≠ loc then .error .EEXIST
      else Posix.rename fs (components oldpath) (components newpath)
  | _ => Posix.rename fs (components oldpath) (components newpath)

variable {fs fs' : FileSystem} {path : List Name} {dir : Location} {name : Name}

/-- Sorting names forgets the order they came in. -/
theorem mergeSort_eq_of_perm {a b : List Name} (h : a.Perm b) :
    a.mergeSort (· ≤ ·) = b.mergeSort (· ≤ ·) := by
  have hsorted : ∀ l : List Name, (l.mergeSort (· ≤ ·)).Pairwise (· ≤ ·) := by
    intro l
    have htrans : ∀ x y z : Name, decide (x ≤ y) = true → decide (y ≤ z) = true →
        decide (x ≤ z) = true := by
      intro x y z
      simpa using List.le_trans
    have htotal : ∀ x y : Name, (decide (x ≤ y) || decide (y ≤ x)) = true := by
      intro x y
      simpa using List.le_total x y
    simpa using List.pairwise_mergeSort htrans htotal l
  refine List.Perm.eq_of_pairwise (fun x y _ _ => List.le_antisymm) (hsorted a) (hsorted b) ?_
  exact ((List.mergeSort_perm _ _).trans h).trans (List.mergeSort_perm _ _).symm

/-! ## Directories on the way -/

/-- What `MkdirAll` may have done: `name` was free in `dir`, a directory that a beginning of the
path leads to, and everything that is different now lies at or below it. -/
structure MadeAt (fs fs' : FileSystem) (path : List Name) (dir : Location) (name : Name) : Prop where
  exists_up : ∃ up, up ++ [name] <+: path ∧ follow fs up = .ok (.found dir)
  node_dir : fs.node dir = some .dir
  free : fs.node (dir ++ [name]) = none
  changed : ∀ p, fs'.node p ≠ fs.node p → dir ++ [name] <+: p

/-- The path leads to an empty directory at or below `top`. -/
def LeadsToEmpty (fs : FileSystem) (path : List Name) (top : Location) : Prop :=
  ∃ last, follow fs path = .ok (.found last) ∧ top <+: last ∧ ∀ m, fs.node (last ++ [m]) = none

theorem MadeAt.longer {m : Name} (h : MadeAt fs fs' path dir name) :
    MadeAt fs fs' (path ++ [m]) dir name := by
  obtain ⟨up, hup, hf⟩ := h.exists_up
  exact ⟨⟨up, hup.trans (List.prefix_append ..), hf⟩, h.node_dir, h.free, h.changed⟩

section Insert

variable {fs₁ : FileSystem} {last : Location} {n : Name}

/-- Making one more directory in a tree where the directories above it are. -/
theorem follow_insert (hlast : follow fs₁ path = .ok (.found last))
    (hdir : fs₁.node last = some .dir) (hn : ValidName n) (hfree : fs₁.node (last ++ [n]) = none) :
    follow (fs₁.insert last n .dir) (path ++ [n]) = .ok (.found (last ++ [n])) ∧
      ∀ m, (fs₁.insert last n .dir).node (last ++ [n] ++ [m]) = none := by
  have hins := FileSystem.node_insert hdir hn hfree Node.valid_dir
  have hgrow : Grows fs₁ (fs₁.insert last n .dir) := grows_insert hfree
  constructor
  · refine follow_append (walk_found_of_grows hgrow hlast) ?_ (by rw [hins, if_pos rfl]) (by simp)
    rw [hgrow last (by simp [hdir]), hdir]
  · intro m
    rw [hins, if_neg (by simp)]
    exact FileSystem.node_eq_none_of_not_dir (by simp [hfree]) (by simp)

/-- The last directory, in a tree that was untouched before. -/
theorem madeAt_insert (hlast : follow fs path = .ok (.found last))
    (hdir : fs.node last = some .dir) (hfree : fs.node (last ++ [n]) = none) :
    MadeAt fs (fs.insert last n .dir) (path ++ [n]) last n :=
  ⟨⟨path, List.prefix_rfl, hlast⟩, hdir, hfree, fun p hp => by
    rw [FileSystem.eq_of_node_insert_ne hp]⟩

/-- The last directory, after some above it. -/
theorem MadeAt.insert (h : MadeAt fs fs₁ path dir name) (htop : dir ++ [name] <+: last) :
    MadeAt fs (fs₁.insert last n .dir) (path ++ [n]) dir name := by
  refine ⟨h.longer.exists_up, h.node_dir, h.free, fun p hp => ?_⟩
  by_cases hsame : (fs₁.insert last n .dir).node p = fs₁.node p
  · exact h.changed p (hsame ▸ hp)
  · rw [FileSystem.eq_of_node_insert_ne hsame]
    exact htop.trans (List.prefix_append ..)

/-- The last step in a directory: it makes what is missing, and accepts a directory. -/
theorem mkdirLast_of_found (hlast : follow fs₁ path = .ok (.found last))
    (hdir : fs₁.node last = some .dir) (hn : ValidName n) :
    (fs₁.node (last ++ [n]) = none ∧
      mkdirLast fs₁ (path ++ [n]) = (fs₁.insert last n .dir, .ok ())) ∨
    (fs₁.node (last ++ [n]) = some .dir ∧ mkdirLast fs₁ (path ++ [n]) = (fs₁, .ok ())) ∨
    (fs₁.node (last ++ [n]) ≠ none ∧ mkdirLast fs₁ (path ++ [n]) = (fs₁, .error .EEXIST)) := by
  have hp := parent_append hlast hdir hn.ne_dot hn.ne_dotDot
  cases hx : fs₁.node (last ++ [n]) with
  | none => exact .inl ⟨rfl, by simp [mkdirLast, mkdir, hp, hx]⟩
  | some x =>
    cases x with
    | dir => exact .inr (.inl ⟨rfl, by simp [mkdirLast, mkdir, Posix.lstat, hp, hx]⟩)
    | file content =>
      exact .inr (.inr ⟨by simp, by simp [mkdirLast, mkdir, Posix.lstat, hp, hx]⟩)
    | link target =>
      exact .inr (.inr ⟨by simp, by simp [mkdirLast, mkdir, Posix.lstat, hp, hx]⟩)

end Insert

/-- **What `MkdirAll` does.** It leaves the tree as it was, or makes directories from the first
free name on; and if it succeeds the path leads to a directory, a new and empty one if any was
made. -/
theorem mkdirAllRev_spec {up : List Name} {r : Except Errno Unit} (hvalid : ValidLocation up.reverse)
    (h : mkdirAllRev fs up = (fs', r)) :
    (fs' = fs ∨ ∃ dir name, MadeAt fs fs' up.reverse dir name ∧
      (r = .ok () → LeadsToEmpty fs' up.reverse (dir ++ [name]))) ∧
    (r = .ok () → ∃ last, follow fs' up.reverse = .ok (.found last) ∧
      fs'.node last = some .dir) := by
  induction up generalizing fs' r with
  | nil =>
    cases h
    exact ⟨.inl rfl, fun _ => ⟨[], walk_nil, fs.node_root⟩⟩
  | cons n up ih =>
    rw [List.reverse_cons, validLocation_append, validLocation_cons] at hvalid
    rw [mkdirAllRev] at h
    cases hst : Posix.stat fs (n :: up).reverse with
    | ok found =>
      obtain ⟨loc, x⟩ := found
      obtain ⟨hf, hx⟩ := stat_ok hst
      rw [hst] at h
      cases x with
      | dir =>
        cases h
        exact ⟨.inl rfl, fun _ => ⟨loc, hf, hx⟩⟩
      | file content =>
        cases h
        exact ⟨.inl rfl, fun hr => by cases hr⟩
      | link target =>
        cases h
        exact ⟨.inl rfl, fun hr => by cases hr⟩
    | error e =>
      rw [hst] at h
      rw [List.reverse_cons] at h ⊢
      obtain ⟨⟨fs₁, r₁⟩, hrec⟩ : ∃ out, mkdirAllRev fs up = out := ⟨_, rfl⟩
      rw [hrec] at h
      obtain ⟨hmade, hfound⟩ := ih hvalid.1 hrec
      cases r₁ with
      | error e₁ =>
        -- The directories above could not be made.
        cases h
        refine ⟨hmade.imp_right ?_, fun hr => by cases hr⟩
        rintro ⟨dir, name, hm, -⟩
        exact ⟨dir, name, hm.longer, fun hr => by cases hr⟩
      | ok u =>
        obtain ⟨last, hlast, hdir⟩ := hfound rfl
        rcases mkdirLast_of_found hlast hdir hvalid.2.1 with ⟨hfree, he⟩ | ⟨hx, he⟩ | ⟨hx, he⟩
        · obtain ⟨hf, hempty⟩ := follow_insert hlast hdir hvalid.2.1 hfree
          have hnew : (fs₁.insert last n .dir).node (last ++ [n]) = some .dir := by
            rw [FileSystem.node_insert hdir hvalid.2.1 hfree Node.valid_dir, if_pos rfl]
          simp only [he] at h
          cases h
          refine ⟨.inr ?_, fun _ => ⟨_, hf, hnew⟩⟩
          rcases hmade with rfl | ⟨dir, name, hm, hlead⟩
          · exact ⟨last, n, madeAt_insert hlast hdir hfree, fun _ => ⟨_, hf, List.prefix_rfl, hempty⟩⟩
          · obtain ⟨last', hlast', htop, -⟩ := hlead rfl
            have := walk_ok_unique hlast hlast'
            cases this
            exact ⟨dir, name, hm.insert htop,
              fun _ => ⟨_, hf, htop.trans (List.prefix_append ..), hempty⟩⟩
        · simp only [he] at h
          cases h
          refine ⟨hmade.imp_right ?_, fun _ => ⟨_, follow_append hlast hdir hx (by simp), hx⟩⟩
          rintro ⟨dir, name, hm, hlead⟩
          -- A directory that was just made has no entries yet.
          obtain ⟨last', hlast', -, hempty⟩ := hlead rfl
          have := walk_ok_unique hlast hlast'
          cases this
          rw [hempty n] at hx
          cases hx
        · simp only [he] at h
          cases h
          refine ⟨hmade.imp_right ?_, fun hr => by cases hr⟩
          rintro ⟨dir, name, hm, -⟩
          exact ⟨dir, name, hm.longer, fun hr => by cases hr⟩

/-- **Where `MkdirAll` fails it has made nothing**: only what was there can be in its way. -/
theorem mkdirAllRev_error {up : List Name} {e : Errno} (hvalid : ValidLocation up.reverse)
    (h : mkdirAllRev fs up = (fs', .error e)) : fs' = fs := by
  induction up generalizing fs' e with
  | nil => cases h
  | cons n up ih =>
    rw [List.reverse_cons, validLocation_append, validLocation_cons] at hvalid
    rw [mkdirAllRev] at h
    cases hst : Posix.stat fs (n :: up).reverse with
    | ok found =>
      obtain ⟨loc, x⟩ := found
      rw [hst] at h
      cases x <;> cases h <;> rfl
    | error e =>
      rw [hst, List.reverse_cons] at h
      obtain ⟨⟨fs₁, r₁⟩, hrec⟩ : ∃ out, mkdirAllRev fs up = out := ⟨_, rfl⟩
      rw [hrec] at h
      cases r₁ with
      | error e₁ =>
        cases h
        exact ih hvalid.1 hrec
      | ok u =>
        obtain ⟨hmade, hfound⟩ := mkdirAllRev_spec hvalid.1 hrec
        obtain ⟨last, hlast, hdir⟩ := hfound rfl
        rcases mkdirLast_of_found hlast hdir hvalid.2.1 with ⟨-, he⟩ | ⟨-, he⟩ | ⟨hx, he⟩
        · simp only [he] at h
          cases h
        · simp only [he] at h
          cases h
        · simp only [he] at h
          cases h
          rcases hmade with hsame | ⟨dir, name, -, hlead⟩
          · exact hsame
          · -- a directory that was just made has no entries yet
            obtain ⟨last', hlast', -, hempty⟩ := hlead rfl
            cases walk_ok_unique hlast hlast'
            exact absurd (hempty n) hx

/-- `MkdirAll` of a path that leads to a node changes nothing. -/
theorem mkdirAllRev_of_stat {up : List Name} {x : Location × Node}
    (h : Posix.stat fs up.reverse = .ok x) : (mkdirAllRev fs up).1 = fs := by
  cases up with
  | nil => rfl
  | cons n up =>
    obtain ⟨loc, x⟩ := x
    rw [mkdirAllRev, h]
    cases x <;> rfl

/-- `MkdirAll` of a path that leads to a directory succeeds. -/
theorem mkdirAllRev_of_dir {up : List Name} (h : follow fs up.reverse = .ok (.found dir))
    (hdir : fs.node dir = some .dir) : mkdirAllRev fs up = (fs, .ok ()) := by
  cases up with
  | nil => rfl
  | cons n up => rw [mkdirAllRev, stat_of_follow h hdir]

/-- **`Remove`** takes away at most the entry at the end of the path. -/
theorem remove_ok {target : Bytes} (h : remove fs target = .ok fs') :
    ∃ dir name, parent fs (components target) = .ok (.norm dir name) ∧
      fs' = fs.erase (dir ++ [name]) := by
  unfold remove at h
  split at h
  · rename_i hu
    cases h
    exact unlink_ok hu
  · split at h
    · rename_i hr
      cases h
      exact rmdir_ok hr
    · cases h

/-- **`Rename`** moves at most the entry at the end of one path to the end of the other. -/
theorem rename_ok {old new : Bytes} (h : rename fs old new = .ok fs') :
    ∃ srcDir srcName dir name, parent fs (components old) = .ok (.norm srcDir srcName) ∧
      parent fs (components new) = .ok (.norm dir name) ∧
      (fs' = fs ∨ fs' = fs.move (srcDir ++ [srcName]) dir name) := by
  unfold rename at h
  split at h
  · split at h
    · cases h
    · split at h
      · cases h
      · exact Posix.rename_ok h
  · exact Posix.rename_ok h

end Os
