import NetlinkHub.Files.Confinement
import NetlinkHub.Posix.Agreement

/-! # Resumable uploads

A client sends a file in chunks, each with the offset it belongs at. `Write` starts the file afresh at
offset 0, goes on at the end of what is there, and refuses any other positive offset. A negative offset
it does not look at: the chunk goes over the beginning of what is there. Without such chunks the file is
what was put together since the last fresh start (`resumes_iff`). -/

namespace Files

open Posix Filepath

/-! ## The file that is written -/

/-- The bytes of the file that a path leads to, if it leads to a file. -/
def fileAt (fs : FileSystem) (path : Bytes) : Option Bytes :=
  match evalSymlinks fs path with
  | .error _ => none
  | .ok resolved => match fs.node (components resolved) with
    | some (.file content) => some content
    | _ => none

/-- The bytes of the file at a relative path of an approved root. -/
def Vault.file (v : Vault) (fs : FileSystem) (rootID : String) (relative : Bytes) : Option Bytes :=
  match v.root rootID with
  | .error _ => none
  | .ok root => match candidate root relative with
    | .error _ => none
    | .ok path => fileAt fs path

/-- The path leads to a file with these bytes. -/
structure Holds (fs : FileSystem) (path : Bytes) (loc : Location) (content : Bytes) : Prop where
  found : walk fs maxLinksWalked [] (components path) = .ok (.found loc)
  node : fs.node loc = some (.file content)

variable {v : Vault} {fs fs₁ fs₂ : FileSystem} {rootID : String} {relative path resolved : Bytes}
  {root : Root} {loc : Location} {content new : Bytes} {trunc : Bool}

theorem Holds.fileAt (h : Holds fs path loc content) : fileAt fs path = some content := by
  have hvalid : ValidLocation loc := FileSystem.validLocation (by rw [h.node]; simp)
  rw [Files.fileAt, evalSymlinks, h.found]
  dsimp only
  rw [components_render hvalid, h.node]

/-- New bytes for a file leave the way to it as it is. -/
theorem Holds.setContent (h : Holds fs path loc content) (new : Bytes) :
    Holds (fs.setContent loc new) path loc new := by
  have hset : ∀ p, (fs.setContent loc new).node p = if p = loc then some (.file new) else fs.node p :=
    FileSystem.node_setContent h.node
  refine ⟨?_, by rw [hset, if_pos rfl]⟩
  have hagree : AgreeBelow (loc ++ [[]]) fs (fs.setContent loc new) := by
    refine ⟨fun p => ?_, fun p hp => ?_⟩
    · rw [hset]
      split
      · rename_i hp
        rw [hp, h.node]
        rfl
      · rfl
    · rw [hset, if_neg]
      rintro rfl
      have hlength := hp.length_le
      rw [List.length_append, List.length_singleton] at hlength
      omega
  rw [hagree.walk_eq, h.found]

/-! ## The stages of a write -/

/-- What `Resolve` answers, by what the candidate leads to. -/
theorem resolve_cases (h : v.resolve fs rootID relative = .ok (resolved, root)) :
    ∃ path, v.root rootID = .ok root ∧ candidate root relative = .ok path ∧
      (evalSymlinks fs path = .ok resolved ∨
        resolved = path ∧ evalSymlinks fs path = .error .ENOENT) := by
  unfold Vault.resolve at h
  split at h
  · cases h
  rename_i root' hroot
  split at h
  · cases h
  rename_i path hcand
  split at h
  · rename_i e he
    split at h
    · rename_i hne
      split at h
      · cases h
        obtain rfl : e = .ENOENT := by simpa [Os.isNotExist] using hne
        exact ⟨_, hroot, hcand, .inr ⟨rfl, he⟩⟩
      · cases h
    · cases h
  · rename_i path' he
    split at h
    · cases h
      exact ⟨path, hroot, hcand, .inl he⟩
    · cases h

/-- An absent candidate ends in a name. -/
theorem exists_way_of_absent (hcand : candidate root relative = .ok path)
    (habsent : evalSymlinks fs path = .error .ENOENT) :
    ∃ way name, ValidLocation (way ++ [name]) ∧ path = render (way ++ [name]) := by
  obtain ⟨c, hc, rfl, -⟩ := candidate_ok hcand
  induction c using List.reverseRecOn with
  | nil => cases habsent
  | append_singleton way name _ => exact ⟨way, name, hc, rfl⟩

/-- **Making the directories of a write** changes nothing if it fails. -/
theorem mkdirAll_error_of_resolve {e : Errno} (h : v.resolve fs rootID relative = .ok (resolved, root))
    (hmk : Os.mkdirAll fs (dir resolved) = (fs₁, .error e)) : fs₁ = fs := by
  obtain ⟨path, -, hcand, hreal | ⟨rfl, habsent⟩⟩ := resolve_cases h
  · obtain ⟨loc, rfl, hloc, hnode⟩ := node_of_evalSymlinks hreal
    rw [dir_render hloc] at hmk
    -- The directory of something that is there is there, too.
    exact mkdirAll_of_real (Real.dropLast hnode) hmk
  · obtain ⟨way, name, hvalid, rfl⟩ := exists_way_of_absent hcand habsent
    have hway := (validLocation_append.mp hvalid).1
    rw [dir_render hvalid, List.dropLast_concat, Os.mkdirAll, components_render hway] at hmk
    exact Os.mkdirAllRev_error (by simpa using hway) hmk

/-- Once directories have been made on the way to an absent candidate, it leads to a free name. -/
theorem follow_of_made {way : Location} {name : Name} {top : Location}
    (hvalid : ValidLocation (way ++ [name])) (hlead : Os.LeadsToEmpty fs₁ way top)
    (hfound : ∃ last, follow fs₁ way = .ok (.found last) ∧ fs₁.node last = some .dir) :
    ∃ last, follow fs₁ (way ++ [name]) = .ok (.missing last name) := by
  have hname := (validLocation_append.mp hvalid).2 name (by simp)
  obtain ⟨last, hlast, -, hempty⟩ := hlead
  obtain ⟨last', hlast', hdir⟩ := hfound
  cases walk_ok_unique hlast hlast'
  exact ⟨last, walk_missing_of_free hlast hdir hname.ne_dot hname.ne_dotDot (hempty name)⟩

/-- **A file that cannot be opened** leaves nothing behind, not even directories. -/
theorem openCreate_error_of_resolve {e : Errno}
    (h : v.resolve fs rootID relative = .ok (resolved, root))
    (hmk : Os.mkdirAll fs (dir resolved) = (fs₁, .ok ()))
    (ho : openCreate fs₁ (components resolved) trunc = .error e) : fs₁ = fs := by
  obtain ⟨path, -, hcand, hreal | ⟨rfl, habsent⟩⟩ := resolve_cases h
  · obtain ⟨loc, rfl, hloc, hnode⟩ := node_of_evalSymlinks hreal
    rw [dir_render hloc] at hmk
    exact mkdirAll_of_real (Real.dropLast hnode) hmk
  · obtain ⟨way, name, hvalid, rfl⟩ := exists_way_of_absent hcand habsent
    have hway := (validLocation_append.mp hvalid).1
    rw [dir_render hvalid, List.dropLast_concat, Os.mkdirAll, components_render hway] at hmk
    obtain ⟨hmade, hfound⟩ := Os.mkdirAllRev_spec (by simpa using hway) hmk
    rw [List.reverse_reverse] at hmade hfound
    -- If directories were made, the name in the last of them is free, and a file can be opened there.
    rcases hmade with hsame | ⟨dir, new, -, hlead⟩
    · exact hsame
    · obtain ⟨last, hlast⟩ := follow_of_made hvalid (hlead rfl) (hfound rfl)
      rw [components_render hvalid, openCreate, hlast] at ho
      cases ho

/-- **The file that a write opens** is the one its path leads to from then on, with the bytes it had
unless it was cut to nothing. If it was there, nothing else has happened. -/
theorem holds_of_openCreate (h : v.resolve fs rootID relative = .ok (resolved, root))
    (hmk : Os.mkdirAll fs (dir resolved) = (fs₁, .ok ()))
    (ho : openCreate fs₁ (components resolved) trunc = .ok (loc, fs₂)) :
    ∃ path, v.root rootID = .ok root ∧ candidate root relative = .ok path ∧
      Holds fs₂ path loc (if trunc then [] else (fileAt fs path).getD []) ∧
      ∀ old, fileAt fs path = some old →
        fs.node loc = some (.file old) ∧ fs₂ = if trunc then fs.setContent loc [] else fs := by
  obtain ⟨path, hroot, hcand, hcase⟩ := resolve_cases h
  refine ⟨path, hroot, hcand, ?_⟩
  rcases hcase with hreal | ⟨rfl, habsent⟩
  -- The candidate leads to something: no directory is made, and what is opened is what is there.
  · obtain ⟨real, hwalk, rfl⟩ := evalSymlinks_ok hreal
    have hnode : Real fs real := walk_sound fs.node_root hwalk
    rw [dir_render hnode.validLocation] at hmk
    obtain rfl := mkdirAll_of_real (Real.dropLast hnode) hmk
    rw [components_render hnode.validLocation] at ho
    have hfollow : follow fs₁ real = .ok (.found real) := by
      rcases hnode with hdir | ⟨_, hfile⟩
      · exact walk_of_node hdir (by simp)
      · exact walk_of_node hfile (by simp)
    rcases openCreate_ok ho with ⟨d, n, hmiss, -⟩ | ⟨old, hfound, hold, rfl⟩
    · rw [hfollow] at hmiss
      cases hmiss
    · rw [hfollow] at hfound
      cases hfound
      have hholds : Holds fs₁ path loc old := ⟨hwalk, hold⟩
      rw [hholds.fileAt]
      refine ⟨?_, fun old' hold' => ⟨Option.some.inj hold' ▸ hold, rfl⟩⟩
      split
      · exact hholds.setContent []
      · exact hholds
  -- The candidate leads nowhere: the file is new, and there were no bytes at its path.
  · obtain ⟨way, name, hvalid, rfl⟩ := exists_way_of_absent hcand habsent
    have hway := (validLocation_append.mp hvalid).1
    rw [dir_render hvalid, List.dropLast_concat, Os.mkdirAll, components_render hway] at hmk
    obtain ⟨hmade, hfound⟩ := Os.mkdirAllRev_spec (by simpa using hway) hmk
    rw [List.reverse_reverse] at hmade hfound
    have hempty : (if trunc then [] else (fileAt fs (render (way ++ [name]))).getD []) = [] := by
      rw [fileAt, habsent]
      cases trunc <;> rfl
    have hnone : fileAt fs (render (way ++ [name])) = none := by rw [fileAt, habsent]
    rw [hempty]
    refine ⟨?_, fun old hold => by rw [hnone] at hold; cases hold⟩
    rw [components_render hvalid] at ho
    rcases openCreate_ok ho with ⟨d, n, hmiss, rfl, rfl⟩ | ⟨old, hthere, -⟩
    · obtain ⟨hdir, hfree, hdot, hdotDot⟩ := walk_sound fs₁.node_root hmiss
      have hname : ValidName n :=
        validName_of_missing fs₁.node_root (fun m hm => (hvalid m hm).toIsComponent) hmiss
      have hins := FileSystem.node_insert hdir hname hfree (Node.valid_file [])
      refine ⟨?_, by rw [hins, if_pos rfl]⟩
      rw [components_render hvalid]
      -- With symbolic links to follow the path leads no further than without.
      have hwalk := walk_insert_of_missing [] fs₁.node_root hname hmiss
      rw [← hwalk]
      exact walk_mono (by decide) (by rw [hwalk]; simp)
    · -- the path led nowhere before, and after the directories were made it leads to a free name
      exfalso
      rcases hmade with rfl | ⟨dir, new, -, hlead⟩
      · rw [← components_render hvalid] at hthere
        exact not_found_of_evalSymlinks habsent hthere
      · obtain ⟨last, hlast⟩ := follow_of_made hvalid (hlead rfl) (hfound rfl)
        rw [hlast] at hthere
        cases hthere

/-! ## One chunk -/

/-- A chunk of an upload: the offset it is sent with, and what the reader yields. -/
structure Chunk where
  offset : Int
  data : Data
  deriving DecidableEq, Repr

/-- The chunk went into the file: all of it, or all that its reader yielded. -/
def Outcome.taken (o : Outcome) : Bool :=
  match o.err with
  | none => true
  | some (.reader _) => true
  | some _ => false

namespace Vault

variable (v : Vault) (fs : FileSystem) (rootID : String) (relative : Bytes)

/-- A write comes as far as an open file: the path resolves in a root that is not read-only, the
directories can be made, and the file can be opened. -/
def writable : Bool :=
  match v.resolve fs rootID relative with
  | .error _ => false
  | .ok (resolved, root) =>
    !root.readOnly && match Os.mkdirAll fs (dir resolved) with
      | (_, .error _) => false
      | (fs₁, .ok ()) => (openCreate fs₁ (components resolved) false).isOk

/-- The bytes there are, none if there is no file. -/
def stored : Bytes := (v.file fs rootID relative).getD []

/-- `Write` of a chunk. -/
def put (c : Chunk) : Outcome := v.write fs rootID relative c.offset c.data

/-- A resumable upload, one chunk: if it is written to the end, it has started the file afresh, or gone
on where the file ended. -/
def Resumes (c : Chunk) : Prop :=
  (v.put fs rootID relative c).err = none →
    (c.offset = 0 ∧ v.file (v.put fs rootID relative c).fs rootID relative = some c.data.bytes) ∨
    (0 < c.offset ∧ c.offset = (v.stored fs rootID relative).length ∧
      v.file (v.put fs rootID relative c).fs rootID relative =
        some (v.stored fs rootID relative ++ c.data.bytes))

end Vault

/-- What becomes of the bytes that are there when a chunk meets an open file. -/
def Chunk.meets (c : Chunk) (content : Bytes) : Option Bytes :=
  if c.offset = 0 then some c.data.bytes
  else if 0 < c.offset then
    if c.offset = content.length then some (content ++ c.data.bytes) else none
  else some (writeAt content 0 c.data.bytes)

/-- Whether a file can be opened does not depend on whether it is to be cut. -/
theorem openCreate_isOk (fs : FileSystem) (path : List Name) (trunc : Bool) :
    (openCreate fs path trunc).isOk = (openCreate fs path false).isOk := by
  unfold openCreate
  split
  · rfl
  · rfl
  · split <;> rfl

/-- `Resolve` reads no data. -/
theorem resolve_ne_reader (text : String) :
    v.resolve fs rootID relative ≠ .error (.reader text) := by
  intro h
  unfold Vault.resolve at h
  split at h
  · rename_i e hroot
    cases h
    unfold Vault.root at hroot
    split at hroot <;> cases hroot
  split at h
  · rename_i e hcand
    cases h
    rw [candidate] at hcand
    split at hcand
    · cases hcand
    split at hcand
    · cases hcand
    dsimp only at hcand
    split at hcand <;> cases hcand
  · repeat' split at h
    all_goals cases h

/-- **A chunk that does not come to an open file** is refused, and nothing changes. -/
theorem put_of_not_writable {c : Chunk} (h : v.writable fs rootID relative = false) :
    (v.put fs rootID relative c).fs = fs ∧ (v.put fs rootID relative c).taken = false := by
  unfold Vault.put Vault.write
  unfold Vault.writable at h
  cases hres : v.resolve fs rootID relative with
  | error e =>
    refine ⟨rfl, ?_⟩
    cases e with
    | reader text => exact absurd hres (resolve_ne_reader text)
    | _ => rfl
  | ok found =>
    obtain ⟨resolved, root⟩ := found
    rw [hres] at h
    dsimp only at h ⊢
    split
    · exact ⟨rfl, rfl⟩
    rename_i hreadOnly
    cases hmk : Os.mkdirAll fs (dir resolved) with
    | mk fs₁ r =>
      rw [hmk] at h
      cases r with
      | error e => exact ⟨mkdirAll_error_of_resolve hres hmk, rfl⟩
      | ok u =>
        dsimp only at h ⊢
        cases ho : openCreate fs₁ (components resolved) (c.offset = 0) with
        | error e => exact ⟨openCreate_error_of_resolve hres hmk ho, rfl⟩
        | ok opened =>
          -- then it could be opened without cutting it as well
          rw [← openCreate_isOk fs₁ (components resolved) (c.offset = 0), ho, Bool.and_eq_false_iff] at h
          rcases h with hro | hfalse
          · exact absurd (by simpa using hro) hreadOnly
          · cases hfalse

/-- **A chunk that comes to an open file**: the file is the one at the path, with the bytes that were
stored there unless the chunk starts it afresh, and the rest is a matter of the offset. -/
theorem put_of_writable (c : Chunk) (h : v.writable fs rootID relative = true) :
    ∃ path loc fs₂, (∀ fs', v.file fs' rootID relative = fileAt fs' path) ∧
      Holds fs₂ path loc (if c.offset = 0 then [] else v.stored fs rootID relative) ∧
      (∀ old, v.file fs rootID relative = some old → fs.node loc = some (.file old) ∧
        fs₂ = if c.offset = 0 then fs.setContent loc [] else fs) ∧
      v.put fs rootID relative c =
        if 0 < c.offset then
          if (contentAt fs₂ loc).length ≠ c.offset then
            ⟨fs₂, 0, some (.cannotResume c.offset (contentAt fs₂ loc).length)⟩
          else copyTo fs₂ loc c.offset.toNat c.data
        else copyTo fs₂ loc 0 c.data := by
  unfold Vault.writable at h
  cases hres : v.resolve fs rootID relative with
  | error e => rw [hres] at h; cases h
  | ok found =>
    obtain ⟨resolved, root⟩ := found
    rw [hres] at h
    dsimp only at h
    obtain ⟨hreadOnly, h⟩ := Bool.and_eq_true_iff.mp h
    cases hmk : Os.mkdirAll fs (dir resolved) with
    | mk fs₁ r =>
      rw [hmk] at h
      cases r with
      | error e => cases h
      | ok u =>
        dsimp only at h
        rw [← openCreate_isOk fs₁ (components resolved) (c.offset = 0)] at h
        cases ho : openCreate fs₁ (components resolved) (c.offset = 0) with
        | error e => rw [ho] at h; cases h
        | ok opened =>
          obtain ⟨loc, fs₂⟩ := opened
          obtain ⟨path, hroot, hcand, hholds, hthere⟩ := holds_of_openCreate hres hmk ho
          have hfile : ∀ fs', v.file fs' rootID relative = fileAt fs' path := by
            intro fs'
            rw [Vault.file, hroot]
            dsimp only
            rw [hcand]
          refine ⟨path, loc, fs₂, hfile, ?_, ?_, ?_⟩
          · rw [Vault.stored, hfile]
            simpa using hholds
          · rw [hfile]
            simpa using hthere
          · rw [Vault.put, Vault.write, hres]
            dsimp only
            rw [if_neg (by simpa using hreadOnly), hmk]
            dsimp only
            rw [ho]

theorem Holds.contentAt (h : Holds fs path loc content) : contentAt fs loc = content := by
  rw [Files.contentAt, h.node]

/-- A copy to a file that a path leads to. -/
theorem Holds.fileAt_copyTo (h : Holds fs path loc content) (position : Nat) (data : Data) :
    Files.fileAt (copyTo fs loc position data).fs path =
      some (writeAt content position data.bytes) := by
  rw [copyTo, h.contentAt]
  exact (h.setContent _).fileAt

theorem writeAt_nil (data : Bytes) : writeAt [] 0 data = data := by
  simp [writeAt]

theorem writeAt_length (content data : Bytes) : writeAt content content.length data = content ++ data := by
  simp [writeAt]

/-- **What a chunk does to an open file.** It is taken, and the bytes are then those of `meets`; or it
is refused, and the bytes are what they were. -/
theorem put_meets (c : Chunk) (h : v.writable fs rootID relative = true) :
    match c.meets (v.stored fs rootID relative) with
    | some new => v.file (v.put fs rootID relative c).fs rootID relative = some new ∧
        (v.put fs rootID relative c).err = c.data.err.map .reader
    | none => v.stored (v.put fs rootID relative c).fs rootID relative = v.stored fs rootID relative ∧
        (v.put fs rootID relative c).taken = false := by
  obtain ⟨path, loc, fs₂, hfile, hholds, -, hput⟩ := put_of_writable c h
  rw [hput, hfile]
  rcases Int.lt_trichotomy c.offset 0 with hneg | hzero | hpos
  -- A negative offset is not looked at any more: the chunk goes to the beginning of what is there.
  · rw [if_neg (by omega)] at hholds
    rw [if_neg (by omega), Chunk.meets, if_neg (by omega), if_neg (by omega)]
    exact ⟨hholds.fileAt_copyTo 0 c.data, rfl⟩
  -- With offset zero the file has been cut to nothing when it was opened.
  · rw [if_pos hzero] at hholds
    rw [if_neg (by omega), Chunk.meets, if_pos hzero]
    refine ⟨?_, rfl⟩
    rw [hholds.fileAt_copyTo, writeAt_nil]
  · rw [if_neg (by omega)] at hholds
    rw [if_pos hpos, hholds.contentAt, Chunk.meets, if_neg (by omega), if_pos hpos]
    by_cases hend : c.offset = (v.stored fs rootID relative).length
    · rw [if_pos hend, if_neg (by omega)]
      refine ⟨?_, rfl⟩
      rw [hholds.fileAt_copyTo, hend, Int.toNat_natCast, writeAt_length]
    · rw [if_neg hend, if_pos (by omega)]
      refine ⟨?_, rfl⟩
      rw [Vault.stored, hfile, hholds.fileAt]
      rfl

/-- A chunk that ends as its reader does is taken. -/
theorem taken_of_err {o : Outcome} {data : Data} (h : o.err = data.err.map .reader) :
    o.taken = true := by
  unfold Outcome.taken
  rw [h]
  cases data.err <;> rfl

/-- The chunk is accepted with a negative offset, and goes over the beginning of the file. -/
def Vault.Overwrites (v : Vault) (fs : FileSystem) (rootID : String) (relative : Bytes) (c : Chunk) :
    Prop := c.offset < 0 ∧ v.writable fs rootID relative = true

instance : Decidable (v.Overwrites fs rootID relative c) := inferInstanceAs (Decidable (_ ∧ _))

/-- **One chunk** resumes the upload unless it has a negative offset and is written to the end. -/
theorem resumes_iff_not_overwrites (c : Chunk) : v.Resumes fs rootID relative c ↔
    ¬ (v.Overwrites fs rootID relative c ∧ c.data.err = none) := by
  unfold Vault.Resumes
  cases hw : v.writable fs rootID relative with
  | false =>
    have hrefused := (put_of_not_writable (c := c) hw).2
    refine iff_of_true (fun hdone => ?_) (fun h => ?_)
    · rw [Outcome.taken, hdone] at hrefused
      cases hrefused
    · rw [Vault.Overwrites, hw] at h
      cases h.1.2
  | true =>
    have hmeets := put_meets c hw
    rcases Int.lt_trichotomy c.offset 0 with hneg | hzero | hpos
    · rw [Chunk.meets, if_neg (by omega), if_neg (by omega)] at hmeets
      constructor
      · intro h ⟨_, herr⟩
        rcases h (by rw [hmeets.2, herr]; rfl) with ⟨hzero, -⟩ | ⟨hpos, -⟩ <;> omega
      · intro h hdone
        refine absurd ⟨⟨hneg, hw⟩, ?_⟩ h
        rw [hmeets.2] at hdone
        exact Option.map_eq_none_iff.mp hdone
    · rw [Chunk.meets, if_pos hzero] at hmeets
      exact iff_of_true (fun _ => .inl ⟨hzero, hmeets.1⟩) fun h => by have := h.1.1; omega
    · refine iff_of_true (fun hdone => ?_) fun h => by have := h.1.1; omega
      rw [Chunk.meets, if_neg (by omega), if_pos hpos] at hmeets
      split at hmeets
      · rename_i new heq
        split at heq
        · rename_i hend
          cases heq
          exact .inr ⟨hpos, hend, hmeets.1⟩
        · cases heq
      · rw [Outcome.taken, hdone] at hmeets
        cases hmeets.2

/-! ## A sequence of chunks -/

section Run

variable (v : Vault) (rootID : String) (relative : Bytes)

/-- The tree after some chunks. -/
def Vault.puts (fs : FileSystem) (chunks : List Chunk) : FileSystem :=
  chunks.foldl (fun fs c => (v.put fs rootID relative c).fs) fs

/-- The chunks that were taken. -/
def Vault.accepted : FileSystem → List Chunk → List Chunk
  | _, [] => []
  | fs, c :: rest =>
    if (v.put fs rootID relative c).taken then
      c :: Vault.accepted (v.put fs rootID relative c).fs rest
    else Vault.accepted (v.put fs rootID relative c).fs rest

/-- No chunk is accepted with a negative offset. -/
def Vault.NoneOverwrites : FileSystem → List Chunk → Prop
  | _, [] => True
  | fs, c :: rest => ¬ v.Overwrites fs rootID relative c ∧
      Vault.NoneOverwrites (v.put fs rootID relative c).fs rest

end Run

/-- What chunks put together, from what was there: the file starts afresh at offset 0. -/
def assemble (content : Bytes) (chunks : List Chunk) : Bytes :=
  chunks.foldl (fun content c => if c.offset = 0 then c.data.bytes else content ++ c.data.bytes) content

/-- Chunks that do not start the file afresh are appended. -/
theorem assemble_of_ne_zero (content : Bytes) {chunks : List Chunk} (h : ∀ c ∈ chunks, c.offset ≠ 0) :
    assemble content chunks = content ++ chunks.flatMap (·.data.bytes) := by
  induction chunks generalizing content with
  | nil => simp [assemble]
  | cons c rest ih =>
    have hrest := ih (content ++ c.data.bytes) fun d hd => h d (List.mem_cons_of_mem _ hd)
    rw [assemble] at hrest ⊢
    rw [List.foldl_cons, if_neg (h c List.mem_cons_self), hrest, List.flatMap_cons, List.append_assoc]

/-- **Put together** are the chunks since the last one with offset 0. -/
theorem assemble_append (content : Bytes) (earlier : List Chunk) {c : Chunk} {later : List Chunk}
    (hzero : c.offset = 0) (hlater : ∀ d ∈ later, d.offset ≠ 0) :
    assemble content (earlier ++ c :: later) = (c :: later).flatMap (·.data.bytes) := by
  have hrest := assemble_of_ne_zero c.data.bytes hlater
  rw [assemble] at hrest ⊢
  rw [List.foldl_append, List.foldl_cons, if_pos hzero, hrest, List.flatMap_cons]

/-- One chunk that does not overwrite: if it is taken the bytes are put together, else they stay. -/
theorem stored_put {c : Chunk} (hc : ¬ v.Overwrites fs rootID relative c) :
    v.stored (v.put fs rootID relative c).fs rootID relative =
      if (v.put fs rootID relative c).taken then assemble (v.stored fs rootID relative) [c]
      else v.stored fs rootID relative := by
  cases hw : v.writable fs rootID relative with
  | false =>
    obtain ⟨hsame, hrefused⟩ := put_of_not_writable (c := c) hw
    rw [hsame, hrefused, if_neg (by decide)]
  | true =>
    have hforward : 0 ≤ c.offset := Int.not_lt.mp fun hneg => hc ⟨hneg, hw⟩
    have hmeets := put_meets c hw
    by_cases hzero : c.offset = 0
    · rw [Chunk.meets, if_pos hzero] at hmeets
      rw [if_pos (taken_of_err hmeets.2), Vault.stored, hmeets.1, assemble, List.foldl_cons, if_pos hzero]
      rfl
    · rw [Chunk.meets, if_neg hzero, if_pos (by omega)] at hmeets
      split at hmeets
      · rename_i new heq
        split at heq
        · cases heq
          rw [if_pos (taken_of_err hmeets.2), Vault.stored, hmeets.1, assemble, List.foldl_cons,
            if_neg hzero]
          rfl
        · cases heq
      · rw [hmeets.1, hmeets.2, if_neg (by decide)]

/-- **A run of chunks** none of which overwrites puts together the chunks that are taken. -/
theorem stored_puts {chunks : List Chunk} (h : v.NoneOverwrites rootID relative fs chunks) :
    v.stored (v.puts rootID relative fs chunks) rootID relative =
      assemble (v.stored fs rootID relative) (v.accepted rootID relative fs chunks) := by
  induction chunks generalizing fs with
  | nil => rfl
  | cons c rest ih =>
    have hrest := ih h.2
    rw [stored_put h.1] at hrest
    rw [Vault.puts, List.foldl_cons, ← Vault.puts, hrest, Vault.accepted]
    split
    · rfl
    · rfl

/-- **Resumable upload.** A chunk that is written to the end has started the file afresh at offset 0, or
gone on where the file ended, if and only if it was not accepted with a negative offset. And after every
sequence of chunks none of which was, the file is put together from the chunks that were taken since the
last one with offset 0, or from what was there and all of them if there was none. -/
theorem resumes_iff (v : Vault) (fs : FileSystem) (rootID : String) (relative : Bytes) :
    (∀ c : Chunk, v.Resumes fs rootID relative c ↔
      ¬ (v.Overwrites fs rootID relative c ∧ c.data.err = none)) ∧
    ∀ chunks : List Chunk, v.NoneOverwrites rootID relative fs chunks →
      ((∀ earlier c later, v.accepted rootID relative fs chunks = earlier ++ c :: later → c.offset = 0 →
          (∀ d ∈ later, d.offset ≠ 0) →
        v.stored (v.puts rootID relative fs chunks) rootID relative =
          (c :: later).flatMap (·.data.bytes)) ∧
      ((∀ d ∈ v.accepted rootID relative fs chunks, d.offset ≠ 0) →
        v.stored (v.puts rootID relative fs chunks) rootID relative =
          v.stored fs rootID relative ++
            (v.accepted rootID relative fs chunks).flatMap (·.data.bytes))) := by
  refine ⟨resumes_iff_not_overwrites, fun chunks h => ?_⟩
  rw [stored_puts h]
  refine ⟨fun earlier c later heq hzero hlater => ?_, assemble_of_ne_zero _⟩
  rw [heq]
  exact assemble_append _ earlier hzero hlater

/-! ## Uploads to one folder -/

/-- The chunks of an upload that is interrupted, sent on from the wrong place, and resumed. -/
def interruptedUpload : List Chunk :=
  [⟨0, ⟨[97, 98], some "unexpected EOF"⟩⟩, ⟨7, ⟨[120], none⟩⟩, ⟨2, ⟨[99, 100], none⟩⟩]

theorem resumes_interruptedUpload :
    linkedVault.stored (linkedVault.puts "docs" [102] linkedTree interruptedUpload) "docs" [102] =
      [97, 98, 99, 100] :=
  ((resumes_iff linkedVault linkedTree "docs" [102]).2 interruptedUpload
      ⟨by decide, by decide, by decide, trivial⟩).1
    [] ⟨0, ⟨[97, 98], some "unexpected EOF"⟩⟩ [⟨2, ⟨[99, 100], none⟩⟩] (by decide) rfl (by decide)

/-- The folder of `linkedTree` with a file `f` in it, which says "hello". -/
def greetingTree : FileSystem := linkedTree.insert [[114]] [102] (.file [104, 101, 108, 108, 111])

/-- "J" with the offset -1 is accepted, and "hello" becomes "Jello". -/
theorem not_resumes_greetingTree :
    linkedVault.file (linkedVault.put greetingTree "docs" [102] ⟨-1, ⟨[74], none⟩⟩).fs "docs" [102] =
        some [74, 101, 108, 108, 111] ∧
      ¬ linkedVault.Resumes greetingTree "docs" [102] ⟨-1, ⟨[74], none⟩⟩ := by
  refine ⟨by decide, fun h => ?_⟩
  rcases h (by decide) with ⟨hzero, -⟩ | ⟨hpos, -⟩
  · cases hzero
  · cases hpos

end Files
