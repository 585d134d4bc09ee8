import NetlinkHub.Files.Resolve

/-! # What the vault changes

Where the four changing operations change the tree. Everything they make, write, move or remove
lies inside the named root, and nothing changes in a read-only one, but for one case: `Write` to a
name that is a dangling symbolic link. `Resolve` takes the link for a name that does not exist, and
opening the file then follows it. `confined_iff` says that this case alone leaves the root. -/

namespace Files

open Posix Filepath

/-- The operations that may change the tree. -/
inductive Operation where
  | write (rootID : String) (relative : Bytes) (offset : Int) (data : Data)
  | makeDir (rootID : String) (relative : Bytes)
  | rename (rootID : String) («from» «to» : Bytes)
  | delete (rootID : String) (relative : Bytes)

/-- The root an operation names. -/
def Operation.rootID : Operation → String
  | .write rootID .. | .makeDir rootID .. | .rename rootID .. | .delete rootID .. => rootID

/-- Carry out an operation. -/
def Operation.run (v : Vault) (fs : FileSystem) : Operation → Outcome
  | .write rootID relative offset data => v.write fs rootID relative offset data
  | .makeDir rootID relative => v.makeDir fs rootID relative
  | .rename rootID «from» «to» => v.rename fs rootID «from» «to»
  | .delete rootID relative => v.delete fs rootID relative

/-- Every location whose node differs lies inside the named root, which is not read-only. -/
def Confined (v : Vault) (rootID : String) (fs fs' : FileSystem) : Prop :=
  ∀ p, fs'.node p ≠ fs.node p →
    ∃ root, v.root rootID = .ok root ∧ root.readOnly = false ∧ root.location <+: p

/-- A dangling link that leads out of the root: the candidate's directory is inside, its last name
is a link, and following the link ends at a free name `free` of a directory `out`, outside. -/
structure EscapingLink (fs : FileSystem) (root : Root) (relative : Bytes) (way : Location)
    (name : Name) (dir out : Location) (free : Name) : Prop where
  valid : ValidLocation (way ++ [name])
  candidate_eq : candidate root relative = .ok (render (way ++ [name]))
  follow_way : follow fs way = .ok (.found dir)
  dir_inside : root.location <+: dir
  is_link : ∃ target, fs.node (dir ++ [name]) = some (.link target)
  dangles : follow fs (way ++ [name]) = .ok (.missing out free)
  out_outside : ¬ root.location <+: out ++ [free]

/-- A write to an escaping link in a root that may be written to. -/
def Escapes (v : Vault) (fs : FileSystem) : Operation → Prop
  | .write rootID relative _ _ => ∃ root way name dir out free, v.root rootID = .ok root ∧
      root.readOnly = false ∧ EscapingLink fs root relative way name dir out free
  | _ => False

variable {v : Vault} {fs fs' fs₁ fs₂ : FileSystem} {root : Root} {rootID : String}
  {relative resolved : Bytes} {way loc dir p : Location} {name : Name} {trunc : Bool}

theorem confined_refl : Confined v rootID fs fs := fun _ h => absurd rfl h

/-- An operation that stays below a prefix is confined. -/
theorem confined_of_inside (hroot : v.root rootID = .ok root) (hro : root.readOnly = false)
    (h : ∀ p, fs'.node p ≠ fs.node p → root.location <+: p) : Confined v rootID fs fs' :=
  fun p hp => ⟨root, hroot, hro, h p hp⟩

/-! ## Making directories -/

/-- Directories made on the way to an absent candidate are inside the root. -/
theorem AbsentInside.inside_of_madeAt {path : List Name} (ha : AbsentInside fs root relative way name)
    (hpath : path <+: way ++ [name]) {new : Name} (hm : Os.MadeAt fs fs₁ path dir new) :
    root.location <+: dir := by
  obtain ⟨up, hup, hf⟩ := hm.exists_up
  obtain ⟨up', rest, loc, rfl, hanchor⟩ := ha.anchored
  exact hanchor.inside_of_missing ha.valid (hup.trans hpath) hf hm.node_dir hm.free

/-- `MkdirAll` of a real location changes nothing. -/
theorem mkdirAll_of_real {r : Except Errno Unit} (hreal : Real fs loc)
    (hmk : Os.mkdirAll fs (render loc) = (fs₁, r)) : fs₁ = fs := by
  have hstat : ∃ x, Posix.stat fs loc = .ok x := by
    rcases hreal with h | ⟨_, h⟩ <;> exact ⟨_, stat_of_node h (by simp)⟩
  obtain ⟨x, hx⟩ := hstat
  rw [Os.mkdirAll, components_render hreal.validLocation] at hmk
  rw [← List.reverse_reverse loc] at hx
  have := Os.mkdirAllRev_of_stat hx
  rwa [hmk] at this

/-- The location above a real one is a real directory. -/
theorem Real.dropLast (h : Real fs loc) : Real fs loc.dropLast := by
  rcases h with h | ⟨content, h⟩
  · exact .inl (FileSystem.node_dropLast h)
  · induction loc using List.reverseRecOn with
    | nil => exact .inr ⟨content, h⟩
    | append_singleton p n _ =>
      rw [List.dropLast_concat]
      exact .inl (fs.node_parent (by rw [h]; simp))

/-- What `MkdirAll` does on the way to an absent candidate. -/
theorem AbsentInside.mkdirAll_spec {path : List Name} {r : Except Errno Unit}
    (ha : AbsentInside fs root relative way name) (hpath : path <+: way ++ [name])
    (hmk : Os.mkdirAll fs (render path) = (fs₁, r)) :
    (fs₁ = fs ∨ ∃ dir new, Os.MadeAt fs fs₁ path dir new ∧ root.location <+: dir ∧
      (r = .ok () → Os.LeadsToEmpty fs₁ path (dir ++ [new]))) ∧
    (r = .ok () → ∃ last, follow fs₁ path = .ok (.found last) ∧ fs₁.node last = some .dir) := by
  have hvalid : ValidLocation path := by
    obtain ⟨t, ht⟩ := hpath
    have := ha.valid
    rw [← ht, validLocation_append] at this
    exact this.1
  rw [Os.mkdirAll, components_render hvalid] at hmk
  have hspec := Os.mkdirAllRev_spec (by simpa using hvalid) hmk
  rw [List.reverse_reverse] at hspec
  refine hspec.imp_left fun h => h.imp_right ?_
  rintro ⟨dir, new, hm, hlead⟩
  exact ⟨dir, new, hm, ha.inside_of_madeAt hpath hm, hlead⟩

/-- **`MkdirAll` stays inside the root** on the way to an absent candidate. -/
theorem AbsentInside.mkdirAll_inside {path : List Name} {r : Except Errno Unit}
    (ha : AbsentInside fs root relative way name) (hpath : path <+: way ++ [name])
    (hmk : Os.mkdirAll fs (render path) = (fs₁, r)) (hp : fs₁.node p ≠ fs.node p) :
    root.location <+: p := by
  rcases (ha.mkdirAll_spec hpath hmk).1 with rfl | ⟨dir, new, hm, hin, -⟩
  · exact absurd rfl hp
  · exact (hin.trans (List.prefix_append ..)).trans (hm.changed p hp)

/-! ## Opening for writing -/

theorem openCreate_changed (h : openCreate fs way trunc = .ok (loc, fs₁))
    (hp : fs₁.node p ≠ fs.node p) : p = loc := by
  rcases openCreate_ok h with ⟨d, n, -, rfl, rfl⟩ | ⟨old, -, -, rfl⟩
  · exact FileSystem.eq_of_node_insert_ne hp
  · split at hp
    · exact FileSystem.eq_of_node_setContent_ne hp
    · exact absurd rfl hp

/-- The file opened at a real location is the one there. -/
theorem openCreate_of_real (hreal : Real fs loc) {opened : Location}
    (h : openCreate fs loc trunc = .ok (opened, fs₁)) : opened = loc := by
  have hf : follow fs loc = .ok (.found loc) := by
    rcases hreal with h | ⟨_, h⟩ <;> exact walk_of_node h (by simp)
  rcases openCreate_ok h with ⟨d, n, hm, -⟩ | ⟨old, hf', -⟩
  · rw [hf] at hm; cases hm
  · rw [hf] at hf'; cases hf'; rfl

/-- **The file opened at an absent candidate**, once the directories above it are there, is inside
the root unless the candidate is an escaping link. -/
theorem AbsentInside.openCreate_inside {opened : Location}
    (ha : AbsentInside fs root relative way name)
    (hmk : Os.mkdirAll fs (render way) = (fs₁, .ok ()))
    (ho : openCreate fs₁ (way ++ [name]) trunc = .ok (opened, fs₂))
    (hlink : ∀ dir out free, ¬ EscapingLink fs root relative way name dir out free) :
    root.location <+: opened := by
  have hn := (validLocation_append.mp ha.valid).2 name (by simp)
  obtain ⟨hmade, hdone⟩ := ha.mkdirAll_spec (List.prefix_append ..) hmk
  obtain ⟨last, hlast, hdir⟩ := hdone rfl
  rcases hmade with rfl | ⟨dir, new, hm, hin, hlead⟩
  · -- The directory was there: the last name decides.
    have hinside := ha.prefix_of_follow hlast
    rcases openCreate_ok ho with ⟨out, free, hf, rfl, -⟩ | ⟨_, hf, -⟩
    · cases hx : fs₁.node (last ++ [name]) with
      | none =>
        cases walk_append_of_free hlast hdir hn.ne_dot hn.ne_dotDot hx hf
        exact hinside.trans (List.prefix_append ..)
      | some x =>
        cases x with
        | link target =>
          by_contra hout
          exact hlink last out free
            ⟨ha.valid, ha.candidate_eq, hlast, hinside, ⟨target, hx⟩, hf, hout⟩
        | dir => exact absurd (follow_append hlast hdir hx (by simp)) ha.not_found
        | file content => exact absurd (follow_append hlast hdir hx (by simp)) ha.not_found
    · exact absurd hf ha.not_found
  · -- The directory is new and empty: the file is made in it.
    obtain ⟨last', hlast', htop, hempty⟩ := hlead rfl
    cases walk_ok_unique hlast hlast'
    have hroot := (hin.trans (List.prefix_append ..)).trans htop
    have hfree : ∀ {r}, follow fs₁ (way ++ [name]) = .ok r → r = .missing last name :=
      walk_append_of_free hlast hdir hn.ne_dot hn.ne_dotDot (hempty name)
    rcases openCreate_ok ho with ⟨out, free, hf, rfl, -⟩ | ⟨_, hf, -⟩
    · cases hfree hf
      exact hroot.trans (List.prefix_append ..)
    · cases hfree hf

/-! ## The operations one by one -/

/-- A copy to an open file changes that file only. -/
theorem copyTo_changed {position : Nat} {data : Data}
    (hp : (copyTo fs loc position data).fs.node p ≠ fs.node p) : p = loc :=
  FileSystem.eq_of_node_setContent_ne hp

/-- The stages of a write: the directories are made, and then the opened file is written. -/
theorem write_stages (v : Vault) (fs : FileSystem) (rootID : String) (relative : Bytes)
    (offset : Int) (data : Data) :
    (v.write fs rootID relative offset data).fs = fs ∨
    ∃ resolved root fs₁ r, v.resolve fs rootID relative = .ok (resolved, root) ∧
      root.readOnly = false ∧ Os.mkdirAll fs (Filepath.dir resolved) = (fs₁, r) ∧
      ((v.write fs rootID relative offset data).fs = fs₁ ∨
        ∃ opened fs₂, r = .ok () ∧
          openCreate fs₁ (components resolved) (offset = 0) = .ok (opened, fs₂) ∧
          ∀ p, (v.write fs rootID relative offset data).fs.node p ≠ fs₂.node p → p = opened) := by
  unfold Vault.write
  split
  · exact .inl rfl
  · rename_i resolved root hres
    split
    · exact .inl rfl
    · rename_i hro
      right
      split
      · rename_i fs₁ e hmk
        exact ⟨resolved, root, fs₁, _, hres, by simpa using hro, hmk, .inl rfl⟩
      · rename_i fs₁ hmk
        refine ⟨resolved, root, fs₁, _, hres, by simpa using hro, hmk, ?_⟩
        split
        · exact .inl rfl
        · rename_i opened fs₂ ho
          refine .inr ⟨opened, fs₂, rfl, ho, fun p hp => ?_⟩
          simp only at hp
          split at hp
          · split at hp
            · exact absurd rfl hp
            · exact copyTo_changed hp
          · exact copyTo_changed hp

/-- **`Write` stays inside the root**, but for an escaping link. -/
theorem write_inside {offset : Int} {data : Data}
    (hno : ¬ Escapes v fs (.write rootID relative offset data)) :
    Confined v rootID fs (v.write fs rootID relative offset data).fs := by
  rcases write_stages v fs rootID relative offset data with h |
    ⟨resolved, root, fs₁, r, hres, hro, hmk, hout⟩
  · rw [h]
    exact confined_refl
  obtain ⟨hroot, hresolved⟩ := resolve_ok hres
  refine confined_of_inside hroot hro fun p hp => ?_
  cases hresolved with
  | real loc hreal hin =>
    rw [dir_render hreal.validLocation] at hmk
    obtain rfl := mkdirAll_of_real hreal.dropLast hmk
    rcases hout with h | ⟨opened, fs₂, -, ho, hcopy⟩
    · exact absurd (by rw [h]) hp
    · rw [components_render hreal.validLocation] at ho
      obtain rfl := openCreate_of_real hreal ho
      by_cases hp₂ : (v.write fs₁ rootID relative offset data).fs.node p = fs₂.node p
      · rw [hp₂] at hp
        exact openCreate_changed ho hp ▸ hin
      · exact hcopy p hp₂ ▸ hin
  | absent way name ha =>
    rw [dir_render ha.valid, List.dropLast_concat] at hmk
    rcases hout with h | ⟨opened, fs₂, rfl, ho, hcopy⟩
    · rw [h] at hp
      exact ha.mkdirAll_inside (List.prefix_append ..) hmk hp
    · rw [components_render ha.valid] at ho
      have hopened := ha.openCreate_inside hmk ho fun dir out free hlink =>
        hno ⟨root, way, name, dir, out, free, hroot, hro, hlink⟩
      by_cases hp₂ : (v.write fs rootID relative offset data).fs.node p = fs₂.node p
      · by_cases hp₁ : fs₂.node p = fs₁.node p
        · rw [hp₂, hp₁] at hp
          exact ha.mkdirAll_inside (List.prefix_append ..) hmk hp
        · exact openCreate_changed ho hp₁ ▸ hopened
      · exact hcopy p hp₂ ▸ hopened

/-- **`MakeDir` stays inside the root.** -/
theorem makeDir_inside : Confined v rootID fs (v.makeDir fs rootID relative).fs := by
  unfold Vault.makeDir
  split
  · exact confined_refl
  · rename_i resolved root hres
    obtain ⟨hroot, hresolved⟩ := resolve_ok hres
    split
    · exact confined_refl
    · rename_i hro
      have hinside : ∀ {fs₁ r}, Os.mkdirAll fs resolved = (fs₁, r) → Confined v rootID fs fs₁ := by
        intro fs₁ r hmk
        refine confined_of_inside hroot (by simpa using hro) fun p hp => ?_
        cases hresolved with
        | real loc hreal hin => exact absurd (by rw [mkdirAll_of_real hreal hmk]) hp
        | absent way name ha => exact ha.mkdirAll_inside List.prefix_rfl hmk hp
      split
      · rename_i hmk
        exact hinside hmk
      · rename_i hmk
        exact hinside hmk

/-- **`Rename` stays inside the root**: both ends do. -/
theorem rename_inside {«from» «to» : Bytes} :
    Confined v rootID fs (v.rename fs rootID «from» «to»).fs := by
  unfold Vault.rename
  split
  · exact confined_refl
  · rename_i fromPath root hfrom
    obtain ⟨hroot, hold⟩ := resolve_ok hfrom
    split
    · exact confined_refl
    · rename_i hro
      split
      · exact confined_refl
      · rename_i toPath root' hto
        obtain ⟨hroot', hnew⟩ := resolve_ok hto
        obtain rfl : root = root' := by rw [hroot] at hroot'; cases hroot'; rfl
        split
        · exact confined_refl
        · rename_i fs₁ hren
          obtain ⟨srcDir, srcName, dir, name, hp, hp', rfl | rfl⟩ := Os.rename_ok hren
          · exact confined_refl
          · refine confined_of_inside hroot (by simpa using hro) fun p hp'' => ?_
            rcases FileSystem.prefix_of_node_move_ne hp'' with h | h
            · exact (hold.prefix_of_parent hp).trans h
            · exact (hnew.prefix_of_parent hp').trans h

/-- **`Delete` stays inside the root.** -/
theorem delete_inside : Confined v rootID fs (v.delete fs rootID relative).fs := by
  unfold Vault.delete
  split
  · exact confined_refl
  · rename_i resolved root hres
    obtain ⟨hroot, hresolved⟩ := resolve_ok hres
    split
    · exact confined_refl
    · rename_i hro
      split
      · exact confined_refl
      · split
        · exact confined_refl
        · rename_i fs₁ hrm
          obtain ⟨dir, name, hp, rfl⟩ := Os.remove_ok hrm
          refine confined_of_inside hroot (by simpa using hro) fun p hp' => ?_
          rw [FileSystem.eq_of_node_erase_ne hp']
          exact hresolved.prefix_of_parent hp

/-! ## The escaping link -/

/-- A walk of the kernel is one that `EvalSymlinks` agrees with. -/
theorem walk_of_follow {path : List Name} {r : Lookup} (h : follow fs path = .ok r) :
    walk fs maxLinksWalked [] path = .ok r := by
  have hb : maxLinks ≤ maxLinksWalked := by decide
  have hne : walk fs maxLinks [] path ≠ .error .ELOOP := by
    rw [show walk fs maxLinks [] path = .ok r from h]; simp
  rw [walk_mono hb hne]
  exact h

/-- `Resolve` takes an escaping link for a name that does not exist. -/
theorem EscapingLink.resolve {out : Location} {free : Name} (hroot : v.root rootID = .ok root)
    (h : EscapingLink fs root relative way name dir out free) :
    v.resolve fs rootID relative = .ok (render (way ++ [name]), root) := by
  have hway := (validLocation_append.mp h.valid).1
  have hdirv : ValidLocation dir :=
    FileSystem.validLocation (node_ne_none_of_found fs.node_root h.follow_way)
  have habsent : evalSymlinks fs (render (way ++ [name])) = .error .ENOENT := by
    rw [evalSymlinks, components_render h.valid, walk_of_follow h.dangles]
  have hanc : existingAncestorIsInside fs root.path (render (way ++ [name])) = true := by
    have he : evalSymlinks fs (render way) = .ok (render dir) := by
      rw [evalSymlinks, components_render hway, walk_of_follow h.follow_way]
    rw [existingAncestorIsInside, dir_render h.valid, List.dropLast_concat, ancestorLoop, he]
    exact (withinRoot_path hdirv).mpr h.dir_inside
  simp [Vault.resolve, hroot, h.candidate_eq, habsent, Os.isNotExist, hanc]

/-- **A write to an escaping link makes a file outside the root.** -/
theorem not_confined_of_escapes {offset : Int} {data : Data}
    (h : Escapes v fs (.write rootID relative offset data)) :
    ¬ Confined v rootID fs (v.write fs rootID relative offset data).fs := by
  obtain ⟨root, way, name, dir, out, free, hroot, hro, hlink⟩ := h
  have hres := hlink.resolve hroot
  have hway := (validLocation_append.mp hlink.valid).1
  obtain ⟨houtdir, hfree, -⟩ := walk_sound fs.node_root hlink.dangles
  have hdir : fs.node dir = some .dir := by
    obtain ⟨target, ht⟩ := hlink.is_link
    exact fs.node_parent (by rw [ht]; simp)
  have hname : ValidName free := by
    refine validName_of_missing fs.node_root (fun n hn => ?_) hlink.dangles
    exact (hlink.valid n hn).toIsComponent
  have hmk : Os.mkdirAll fs (Filepath.dir (render (way ++ [name]))) = (fs, .ok ()) := by
    rw [dir_render hlink.valid, List.dropLast_concat, Os.mkdirAll, components_render hway]
    exact Os.mkdirAllRev_of_dir (by rw [List.reverse_reverse]; exact hlink.follow_way) hdir
  have hopen : openCreate fs (components (render (way ++ [name]))) (offset = 0) =
      .ok (out ++ [free], fs.insert out free (.file [])) := by
    rw [components_render hlink.valid, openCreate, hlink.dangles]
  have hnew : (fs.insert out free (.file [])).node (out ++ [free]) = some (.file []) := by
    rw [FileSystem.node_insert houtdir hname hfree (Node.valid_file []), if_pos rfl]
  have hcreated : (v.write fs rootID relative offset data).fs.node (out ++ [free]) ≠ none := by
    have hcopy : ∀ position, (copyTo (fs.insert out free (.file [])) (out ++ [free]) position
        data).fs.node (out ++ [free]) ≠ none := by
      intro position
      rw [copyTo, FileSystem.node_setContent hnew, if_pos rfl]
      simp
    simp only [Vault.write, hres, hro, Bool.false_eq_true, if_false, hmk, hopen]
    split
    · split
      · simp [hnew]
      · exact hcopy _
    · exact hcopy _
  intro hconf
  obtain ⟨root', hroot', -, hin⟩ := hconf (out ++ [free]) (by rw [hfree]; exact hcreated)
  rw [hroot] at hroot'
  cases hroot'
  exact hlink.out_outside hin

/-- **Write confinement.** Every operation changes nodes inside the named root only, and nothing in
a read-only one, exactly when it is not a write to a dangling link that leads out of the root. -/
theorem confined_iff (v : Vault) (fs : FileSystem) (op : Operation) :
    Confined v op.rootID fs (op.run v fs).fs ↔ ¬ Escapes v fs op := by
  cases op with
  | write rootID relative offset data =>
    exact ⟨fun h hesc => not_confined_of_escapes hesc h, write_inside⟩
  | makeDir rootID relative => exact iff_of_true makeDir_inside (by simp [Escapes])
  | rename rootID «from» «to» => exact iff_of_true rename_inside (by simp [Escapes])
  | delete rootID relative => exact iff_of_true delete_inside (by simp [Escapes])

/-- An approved folder `/r`, a folder `/o` beside it, and a link `/r/l` to `/o/x`, which does not
exist. -/
def linkedTree : FileSystem :=
  ((FileSystem.empty.insert [] [114] .dir).insert [] [111] .dir).insert [[114]] [108]
    (.link [slash, 111, slash, 120])

/-- The folder `/r`, approved for reading and writing. -/
def linkedVault : Vault where
  roots := [("docs", ⟨"docs", "Docs", [slash, 114], false, [[114]], by decide⟩)]

/-- Writing to `l` makes the file `/o/x`, outside the approved folder. -/
theorem write_linkedTree_not_confined : ¬ Confined linkedVault "docs" linkedTree
    ((Operation.write "docs" [108] 0 ⟨[104, 105], none⟩).run linkedVault linkedTree).fs := by
  intro h
  obtain ⟨root, hroot, -, hin⟩ := h [[111], [120]] (by decide)
  cases hroot
  revert hin
  decide

end Files
