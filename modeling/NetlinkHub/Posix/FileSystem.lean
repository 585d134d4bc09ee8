import NetlinkHub.Posix.Path
import Mathlib.Data.List.Dedup
import Mathlib.Tactic.ByContra

/-! # A file system with directories, files and symbolic links

A file system assigns a node to every real, symlink-free location. Being a tree is part of the type:
the root is a directory, what lies above a node is a directory, and the names on the way are names
the kernel accepts. The primitive changes (`insert`, `setContent`, `erase`, `move`) are total and do
nothing where they would leave the type; each has one lemma that says where the result differs. -/

namespace Posix

/-- What a location holds. The target of a symbolic link is a path string, resolved when followed. -/
inductive Node where
  /-- A directory; its entries are the nodes one name below. -/
  | dir
  /-- A regular file with its bytes. -/
  | file (content : Bytes)
  /-- A symbolic link with its target. -/
  | link (target : Bytes)
  deriving DecidableEq, Repr

/-- A link target the kernel accepts: a nonempty string without NUL. -/
def Node.Valid : Node → Prop
  | .link target => target ≠ [] ∧ 0 ∉ target
  | _ => True

instance (n : Node) : Decidable n.Valid :=
  match n with
  | .link target => inferInstanceAs (Decidable (target ≠ [] ∧ 0 ∉ target))
  | .dir | .file _ => isTrue trivial

theorem Node.valid_dir : Node.Valid .dir := trivial

theorem Node.valid_file (content : Bytes) : Node.Valid (.file content) := trivial

/-- A tree of nodes, with a list that covers the occupied locations. -/
structure FileSystem where
  /-- The node at a real location, if there is one. -/
  node : Location → Option Node
  /-- A list containing every occupied location. -/
  support : List Location
  mem_support : ∀ {p}, node p ≠ none → p ∈ support
  node_root : node [] = some .dir
  node_parent : ∀ {p n}, node (p ++ [n]) ≠ none → node p = some .dir
  validName : ∀ {p n}, node (p ++ [n]) ≠ none → ValidName n
  valid_node : ∀ {p x}, node p = some x → x.Valid

namespace FileSystem

variable {fs : FileSystem}

/-- The file system with nothing in the root directory. -/
def empty : FileSystem where
  node p := if p = [] then some .dir else none
  support := [[]]
  mem_support := by simp
  node_root := rfl
  node_parent := by simp
  validName := by simp
  valid_node := by
    intro p x h
    split at h
    · cases h; trivial
    · cases h

/-- Everything above an occupied location is a directory. -/
theorem node_of_node_below {p q : Location} (h : fs.node (p ++ q) ≠ none) (hq : q ≠ []) :
    fs.node p = some .dir := by
  induction q using List.reverseRecOn with
  | nil => exact absurd rfl hq
  | append_singleton q n ih =>
    rw [← List.append_assoc] at h
    have hdir := fs.node_parent h
    by_cases hq' : q = []
    · simpa [hq'] using hdir
    · exact ih (by simp [hdir]) hq'

/-- The names on the way to an occupied location are valid. -/
theorem validLocation {p : Location} (h : fs.node p ≠ none) : ValidLocation p := by
  induction p using List.reverseRecOn with
  | nil => simp
  | append_singleton p n ih =>
    have hdir := fs.node_parent h
    rw [validLocation_append]
    exact ⟨ih (by simp [hdir]), by simpa using fs.validName h⟩

/-- The directory above a directory is a directory; above the root is the root itself. -/
theorem node_dropLast {p : Location} (h : fs.node p = some .dir) :
    fs.node p.dropLast = some .dir := by
  induction p using List.reverseRecOn with
  | nil => simpa using h
  | append_singleton p n _ =>
    rw [List.dropLast_concat]
    exact fs.node_parent (by rw [h]; simp)

/-- A location below something that is not a directory is free. -/
theorem node_eq_none_of_not_dir {p q : Location} (h : fs.node p ≠ some .dir) (hq : q ≠ []) :
    fs.node (p ++ q) = none := by
  by_contra hne
  exact h (node_of_node_below hne hq)

/-! ## Entries of a directory -/

/-- The names of the entries of a directory, each once. -/
def entries (fs : FileSystem) (dir : Location) : List Name :=
  (fs.support.filterMap fun p =>
    if p ≠ [] ∧ p.dropLast = dir ∧ fs.node p ≠ none then p.getLast? else none).dedup

theorem mem_entries {dir : Location} {n : Name} :
    n ∈ fs.entries dir ↔ fs.node (dir ++ [n]) ≠ none := by
  simp only [entries, List.mem_dedup, List.mem_filterMap]
  constructor
  · rintro ⟨p, -, hp⟩
    split at hp
    · rename_i hcond
      obtain ⟨hne, rfl, hnode⟩ := hcond
      rw [List.getLast?_eq_some_getLast hne, Option.some.injEq] at hp
      rwa [← hp, List.dropLast_append_getLast hne]
    · cases hp
  · intro h
    exact ⟨dir ++ [n], fs.mem_support h, by simp [h]⟩

theorem nodup_entries (dir : Location) : (fs.entries dir).Nodup := List.nodup_dedup _

/-- Nothing lies below an empty directory. -/
theorem node_eq_none_of_entries_eq_nil {dir q : Location} (h : fs.entries dir = []) (hq : q ≠ []) :
    fs.node (dir ++ q) = none := by
  obtain ⟨n, q, rfl⟩ := List.exists_cons_of_ne_nil hq
  have hn : fs.node (dir ++ [n]) = none := by
    by_contra hne
    simpa [h] using mem_entries.mpr hne
  by_cases hq' : q = []
  · rwa [hq']
  · rw [List.append_cons]
    exact node_eq_none_of_not_dir (by simp [hn]) hq'

/-! ## Primitive changes -/

/-- Add an entry to a directory. Nothing happens unless the directory is there, the name is valid
and free, and the node is one the kernel accepts. -/
def insert (fs : FileSystem) (dir : Location) (name : Name) (new : Node) : FileSystem :=
  if h : fs.node dir = some .dir ∧ ValidName name ∧ fs.node (dir ++ [name]) = none ∧ new.Valid then
    { node := fun p => if p = dir ++ [name] then some new else fs.node p
      support := (dir ++ [name]) :: fs.support
      mem_support := by
        intro p hp
        by_cases he : p = dir ++ [name]
        · simp [he]
        · rw [if_neg he] at hp
          exact List.mem_cons_of_mem _ (fs.mem_support hp)
      node_root := by
        rw [if_neg (by simp)]
        exact fs.node_root
      node_parent := by
        intro p n hp
        by_cases he : p ++ [n] = dir ++ [name]
        · obtain ⟨rfl, -⟩ := List.append_inj' he rfl
          rw [if_neg (by simp)]
          exact h.1
        · rw [if_neg he] at hp
          have hdir := fs.node_parent hp
          rw [if_neg (fun hpe => by rw [hpe, h.2.2.1] at hdir; cases hdir)]
          exact hdir
      validName := by
        intro p n hp
        by_cases he : p ++ [n] = dir ++ [name]
        · obtain ⟨-, he'⟩ := List.append_inj' he rfl
          rw [List.singleton_inj.mp he']
          exact h.2.1
        · rw [if_neg he] at hp
          exact fs.validName hp
      valid_node := by
        intro p x hx
        split at hx
        · cases hx
          exact h.2.2.2
        · exact fs.valid_node hx }
  else fs

theorem node_insert {dir : Location} {name : Name} {new : Node} (hdir : fs.node dir = some .dir)
    (hname : ValidName name) (hfree : fs.node (dir ++ [name]) = none) (hnew : new.Valid)
    (p : Location) :
    (fs.insert dir name new).node p = if p = dir ++ [name] then some new else fs.node p := by
  rw [insert, dif_pos ⟨hdir, hname, hfree, hnew⟩]

/-- An insertion changes the inserted location only. -/
theorem eq_of_node_insert_ne {dir : Location} {name : Name} {new : Node} {p : Location}
    (h : (fs.insert dir name new).node p ≠ fs.node p) : p = dir ++ [name] := by
  unfold insert at h
  split at h
  · by_contra hp
    exact h (if_neg hp)
  · exact absurd rfl h

instance (fs : FileSystem) (loc : Location) : Decidable (∃ old, fs.node loc = some (.file old)) :=
  match h : fs.node loc with
  | some (.file old) => isTrue ⟨old, rfl⟩
  | some .dir | some (.link _) | none => isFalse (by simp)

/-- Replace the bytes of a file. Nothing happens at a location that holds no file. -/
def setContent (fs : FileSystem) (loc : Location) (content : Bytes) : FileSystem :=
  if h : ∃ old, fs.node loc = some (.file old) then
    { node := fun p => if p = loc then some (.file content) else fs.node p
      support := fs.support
      mem_support := by
        intro p hp
        obtain ⟨old, hold⟩ := h
        by_cases he : p = loc
        · exact fs.mem_support (by rw [he, hold]; simp)
        · rw [if_neg he] at hp
          exact fs.mem_support hp
      node_root := by
        obtain ⟨old, hold⟩ := h
        rw [if_neg (fun he => by rw [← he, fs.node_root] at hold; cases hold)]
        exact fs.node_root
      node_parent := by
        intro p n hp
        obtain ⟨old, hold⟩ := h
        have hdir : fs.node p = some .dir := by
          by_cases he : p ++ [n] = loc
          · exact fs.node_parent (by rw [he, hold]; simp)
          · rw [if_neg he] at hp
            exact fs.node_parent hp
        rw [if_neg (fun he => by rw [← he, hdir] at hold; cases hold)]
        exact hdir
      validName := by
        intro p n hp
        obtain ⟨old, hold⟩ := h
        by_cases he : p ++ [n] = loc
        · exact fs.validName (p := p) (by rw [he, hold]; simp)
        · rw [if_neg he] at hp
          exact fs.validName hp
      valid_node := by
        intro p x hx
        split at hx
        · cases hx
          trivial
        · exact fs.valid_node hx }
  else fs

theorem node_setContent {loc : Location} {old content : Bytes} (h : fs.node loc = some (.file old))
    (p : Location) :
    (fs.setContent loc content).node p = if p = loc then some (.file content) else fs.node p := by
  rw [setContent, dif_pos ⟨old, h⟩]

/-- Replacing a file's bytes changes that file only. -/
theorem eq_of_node_setContent_ne {loc : Location} {content : Bytes} {p : Location}
    (h : (fs.setContent loc content).node p ≠ fs.node p) : p = loc := by
  unfold setContent at h
  split at h
  · by_contra hp
    exact h (if_neg hp)
  · exact absurd rfl h

/-- Remove a node with nothing below it. Nothing happens at the root or at a directory in use. -/
def erase (fs : FileSystem) (loc : Location) : FileSystem :=
  if h : loc ≠ [] ∧ fs.entries loc = [] then
    { node := fun p => if p = loc then none else fs.node p
      support := fs.support
      mem_support := by
        intro p hp
        by_cases he : p = loc
        · rw [if_pos he] at hp
          exact absurd rfl hp
        · rw [if_neg he] at hp
          exact fs.mem_support hp
      node_root := by
        rw [if_neg h.1.symm]
        exact fs.node_root
      node_parent := by
        intro p n hp
        by_cases he : p ++ [n] = loc
        · rw [if_pos he] at hp
          exact absurd rfl hp
        · rw [if_neg he] at hp
          have hne : p ≠ loc := by
            rintro rfl
            exact hp (node_eq_none_of_entries_eq_nil h.2 (by simp))
          rw [if_neg hne]
          exact fs.node_parent hp
      validName := by
        intro p n hp
        by_cases he : p ++ [n] = loc
        · rw [if_pos he] at hp
          exact absurd rfl hp
        · rw [if_neg he] at hp
          exact fs.validName hp
      valid_node := by
        intro p x hx
        split at hx
        · cases hx
        · exact fs.valid_node hx }
  else fs

/-- A removal changes the removed location only. -/
theorem eq_of_node_erase_ne {loc p : Location} (h : (fs.erase loc).node p ≠ fs.node p) :
    p = loc := by
  unfold erase at h
  split at h
  · by_contra hp
    exact h (if_neg hp)
  · exact absurd rfl h

/-- The node seen at a location once the tree at `old` stands at `new` instead. -/
def movedNode (fs : FileSystem) (old new p : Location) : Option Node :=
  if new <+: p then fs.node (old ++ p.drop new.length)
  else if old <+: p then none
  else fs.node p

theorem movedNode_append {old new q : Location} :
    fs.movedNode old new (new ++ q) = fs.node (old ++ q) := by
  simp [movedNode]

theorem movedNode_of_apart {old new p : Location} (hn : ¬ new <+: p) (ho : ¬ old <+: p) :
    fs.movedNode old new p = fs.node p := by
  rw [movedNode, if_neg hn, if_neg ho]

/-- Only what lies at or below one of the two ends of a move is seen differently. -/
theorem prefix_of_movedNode_ne {old new p : Location} (h : fs.movedNode old new p ≠ fs.node p) :
    old <+: p ∨ new <+: p := by
  by_contra hc
  rw [not_or] at hc
  exact h (movedNode_of_apart hc.2 hc.1)

/-- What a move needs: a tree to move other than the root, a directory and a valid name to move it
to, nothing in use there, and a destination that is not inside the tree itself. -/
structure Movable (fs : FileSystem) (old dir : Location) (name : Name) : Prop where
  ne_root : old ≠ []
  node_dir : fs.node dir = some .dir
  validName : ValidName name
  entries_new : fs.entries (dir ++ [name]) = []
  not_inside : ¬ old <+: dir ++ [name]

instance (fs : FileSystem) (old dir : Location) (name : Name) :
    Decidable (fs.Movable old dir name) :=
  decidable_of_iff (old ≠ [] ∧ fs.node dir = some .dir ∧ ValidName name ∧
      fs.entries (dir ++ [name]) = [] ∧ ¬ old <+: dir ++ [name])
    ⟨fun h => ⟨h.1, h.2.1, h.2.2.1, h.2.2.2.1, h.2.2.2.2⟩, fun h => ⟨h.1, h.2, h.3, h.4, h.5⟩⟩

/-- The directory a tree is moved into is where it was. -/
theorem Movable.movedNode_dir {old dir : Location} {name : Name} (h : fs.Movable old dir name) :
    fs.movedNode old (dir ++ [name]) dir = some .dir := by
  rw [movedNode_of_apart _ fun ho => h.not_inside (ho.trans (List.prefix_append ..))]
  · exact h.node_dir
  · intro hp
    have := hp.length_le
    rw [List.length_append, List.length_singleton] at this
    omega

/-- What the names on the way to a node of the moved tree say about the tree before. -/
theorem movedNode_concat_ne_none {old new p : Location} {n : Name}
    (h : fs.movedNode old new (p ++ [n]) ≠ none) :
    new = p ++ [n] ∨ (∃ q, p = new ++ q ∧ fs.node (old ++ q ++ [n]) ≠ none) ∨
      (¬ new <+: p ∧ ¬ old <+: p ∧ fs.node (p ++ [n]) ≠ none) := by
  by_cases hn : new <+: p ++ [n]
  · rcases List.prefix_concat_iff.mp hn with he | ⟨q, rfl⟩
    · exact .inl he
    · rw [List.append_assoc, movedNode_append, ← List.append_assoc] at h
      exact .inr (.inl ⟨q, rfl, h⟩)
  · by_cases ho : old <+: p ++ [n]
    · rw [movedNode, if_neg hn, if_pos ho] at h
      exact absurd rfl h
    · rw [movedNode_of_apart hn ho] at h
      exact .inr (.inr ⟨fun hp => hn (hp.trans (List.prefix_append ..)),
        fun hp => ho (hp.trans (List.prefix_append ..)), h⟩)

/-- Move the tree at `old` to the name `name` in `dir`, over what is there. Nothing happens where
the move is not possible. -/
def move (fs : FileSystem) (old dir : Location) (name : Name) : FileSystem :=
  if h : fs.Movable old dir name then
    { node := fs.movedNode old (dir ++ [name])
      support := fs.support ++ fs.support.map fun p => dir ++ [name] ++ p.drop old.length
      mem_support := by
        intro p hp
        rw [List.mem_append]
        by_cases hn : dir ++ [name] <+: p
        · obtain ⟨q, rfl⟩ := hn
          rw [movedNode_append] at hp
          exact .inr (List.mem_map.mpr ⟨old ++ q, fs.mem_support hp, by simp⟩)
        · by_cases ho : old <+: p
          · rw [movedNode, if_neg hn, if_pos ho] at hp
            exact absurd rfl hp
          · rw [movedNode_of_apart hn ho] at hp
            exact .inl (fs.mem_support hp)
      node_root := by
        rw [movedNode_of_apart (by simp) (by simpa using h.ne_root)]
        exact fs.node_root
      node_parent := by
        intro p n hp
        rcases movedNode_concat_ne_none hp with he | ⟨q, rfl, hq⟩ | ⟨hn, ho, hp'⟩
        · rw [← (List.append_inj' he rfl).1]
          exact h.movedNode_dir
        · rw [movedNode_append]
          exact fs.node_parent hq
        · rw [movedNode_of_apart hn ho]
          exact fs.node_parent hp'
      validName := by
        intro p n hp
        rcases movedNode_concat_ne_none hp with he | ⟨q, rfl, hq⟩ | ⟨-, -, hp'⟩
        · rw [← List.singleton_inj.mp (List.append_inj' he rfl).2]
          exact h.validName
        · exact fs.validName hq
        · exact fs.validName hp'
      valid_node := by
        intro p x hx
        unfold movedNode at hx
        split at hx
        · exact fs.valid_node hx
        · split at hx
          · cases hx
          · exact fs.valid_node hx }
  else fs

/-- A move changes what lies at or below its two ends only. -/
theorem prefix_of_node_move_ne {old dir p : Location} {name : Name}
    (h : (fs.move old dir name).node p ≠ fs.node p) : old <+: p ∨ dir ++ [name] <+: p := by
  unfold move at h
  split at h
  · exact prefix_of_movedNode_ne h
  · exact absurd rfl h

end FileSystem

end Posix
