import NetlinkHub.Files.Vault

/-! # What `Resolve` promises

`Resolve` answers with a path string. `Resolved` says what that string stands for: the spelling of a
real node at or below the root, or a candidate that does not exist, whose deepest existing ancestor
lies at or below the root. The second case promises nothing about the last name of the candidate,
which may be a symbolic link that dangles; what it does promise is that the directory a call would
put an entry into is inside the root (`Resolved.prefix_of_parent`). -/

namespace Files

open Posix Filepath

variable {fs : FileSystem} {v : Vault} {root : Root} {rootID : String} {relative resolved : Bytes}
  {r c : Location}

/-! ## Prefixes -/

theorem getLast?_render_of_ne_nil (hr : ValidLocation r) (hne : r ≠ []) :
    (render r).getLast? ≠ some slash := by
  rw [render_of_ne_nil hne]
  exact getLast?_spell hr

/-- **`withinRoot` compares name by name.** -/
theorem withinRoot_render (hr : ValidLocation r) (hc : ValidLocation c) :
    withinRoot (render r) (render c) = true ↔ r <+: c := by
  rw [withinRoot]
  simp only [decide_eq_true_eq]
  cases r with
  | nil =>
    cases c with
    | nil => simp
    | cons n c => simp [render_of_ne_nil]
  | cons m r =>
    rw [if_neg (getLast?_render_of_ne_nil hr (by simp))]
    constructor
    · rintro (h | ⟨t, ht⟩)
      · exact render_injective hc hr h ▸ List.prefix_rfl
      · cases c with
        | nil =>
          rw [render_of_ne_nil (by simp), render_nil] at ht
          simp at ht
        | cons n c =>
          rw [render_of_ne_nil (by simp), render_of_ne_nil (by simp), List.append_assoc] at ht
          obtain ⟨k, hk, -⟩ := (spell_prefix_iff hr hc (Delimited.atBoundary_cons t)).mp ht.symm
          exact ⟨k, hk.symm⟩
    · rintro ⟨k, rfl⟩
      cases k with
      | nil => exact .inl (by simp)
      | cons n k =>
        right
        rw [render_of_ne_nil (by simp), render_of_ne_nil (by simp), spell_append, spell_cons]
        exact ⟨n ++ spell k, by simp⟩

theorem withinRoot_path (hc : ValidLocation c) :
    withinRoot root.path (render c) = true ↔ root.location <+: c := by
  rw [← root.render_location, withinRoot_render root.validLocation hc]

theorem zero_notMem_cleanRelative (h : 0 ∉ relative) : 0 ∉ cleanRelative relative := by
  have hmap : 0 ∉ replaceBackslashes relative := by
    rw [replaceBackslashes, List.mem_map]
    rintro ⟨c, hc, h0⟩
    split at h0
    · exact absurd h0 (by decide)
    · exact h (h0 ▸ hc)
  rw [cleanRelative]
  split
  · simp
  · exact zero_notMem_clean hmap

/-- A candidate is the spelling of a location at or below the root. -/
theorem candidate_ok {path : Bytes} (h : candidate root relative = .ok path) :
    ∃ c, ValidLocation c ∧ path = render c ∧ root.location <+: c := by
  unfold candidate at h
  split at h
  · cases h
  · split at h
    · cases h
    · rename_i hbytes
      rw [not_or] at hbytes
      simp only at h
      split at h
      · rename_i hwithin
        cases h
        have hroot : 0 ∉ root.path := by
          rw [← root.render_location]
          exact zero_notMem_render root.validLocation
        have habs : isAbs root.path := by
          rw [← root.render_location]
          exact isAbs_render _
        obtain ⟨c, hc, hjoin⟩ := exists_join_eq_render habs hroot (zero_notMem_cleanRelative hbytes.1)
        refine ⟨c, hc, hjoin, ?_⟩
        rw [hjoin] at hwithin
        exact (withinRoot_path hc).mp hwithin
      · cases h

/-! ## The ancestor walk -/

/-- What the walk up from a missing path has found: a beginning of the way to it that leads inside
the root, none longer by a name leading anywhere. -/
structure Anchor (fs : FileSystem) (r : Location) (up rest : List Name) (loc : Location) : Prop where
  leads : ∃ b, walk fs b [] up = .ok (.found loc)
  inside : r <+: loc
  ends : ∀ n more, rest = n :: more → evalSymlinks fs (render (up ++ [n])) = .error .ENOENT

theorem exists_anchor_of_ancestorLoop {k : Location} {rounds : Nat} (hr : ValidLocation r)
    (hk : ValidLocation k) (h : ancestorLoop fs (render r) rounds (render k) = true) :
    ∃ up rest loc, k = up ++ rest ∧ Anchor fs r up rest loc := by
  induction rounds generalizing k with
  | zero => cases h
  | succ rounds ih =>
    rw [ancestorLoop] at h
    cases he : evalSymlinks fs (render k) with
    | ok resolved =>
      rw [he] at h
      obtain ⟨loc, hw, rfl⟩ := evalSymlinks_ok he
      have hloc := FileSystem.validLocation (node_ne_none_of_found fs.node_root hw)
      rw [components_render hk] at hw
      exact ⟨k, [], loc, by simp, ⟨_, hw⟩, (withinRoot_render hr hloc).mp h, fun n m hnm => by cases hnm⟩
    | error e =>
      rw [he] at h
      simp only at h
      split at h
      · cases h
      · rename_i hne
        split at h
        · cases h
        · rename_i hup
          split at h
          · cases h
          · rw [dir_render hk] at h hup
            obtain rfl : e = .ENOENT := by simpa [Os.isNotExist] using hne
            induction k using List.reverseRecOn with
            | nil => exact absurd rfl hup
            | append_singleton k n _ =>
              rw [validLocation_append] at hk
              rw [List.dropLast_concat] at h
              obtain ⟨up, rest, loc, rfl, ha⟩ := ih hk.1 h
              refine ⟨up, rest ++ [n], loc, by simp, ha.leads, ha.inside, fun m more hm => ?_⟩
              cases rest with
              | nil =>
                cases hm
                simpa using he
              | cons x rest =>
                rw [List.cons_append, List.cons.injEq] at hm
                exact ha.ends m rest (by rw [hm.1])

/-- A beginning of the way that leads somewhere is not longer than the anchor. -/
theorem Anchor.prefix_of_follow {up rest up' : List Name} {loc dir : Location}
    (ha : Anchor fs r up rest loc) (hv : ValidLocation (up ++ rest)) (hway : up' <+: up ++ rest)
    (hf : follow fs up' = .ok (.found dir)) : up' <+: up := by
  rcases List.prefix_or_prefix_of_prefix hway (List.prefix_append up rest) with h | ⟨k, rfl⟩
  · exact h
  · cases k with
    | nil => simp
    | cons n k =>
      exfalso
      obtain ⟨more, hmore⟩ := (List.prefix_append_right_inj up).mp hway
      have hend := ha.ends n (k ++ more) (by simpa using hmore.symm)
      have hn : ValidLocation (up ++ [n]) := by
        rw [← hmore] at hv
        simp only [List.cons_append, validLocation_append, validLocation_cons] at hv
        simpa using ⟨hv.1, hv.2.1⟩
      have hno : ∀ l, follow fs (up ++ [n]) ≠ .ok (.found l) := by
        intro l hl
        apply not_found_of_evalSymlinks hend
        rwa [components_render hn]
      by_cases hk : k = []
      · exact hno dir (by rw [← hf, hk])
      · rw [List.append_cons] at hf
        obtain ⟨d, hd, -⟩ := exists_follow_of_append hk hf
        exact hno d hd

/-- Where the whole way leads somewhere, it leads inside the root. -/
theorem Anchor.inside_of_follow {up rest : List Name} {loc dir : Location}
    (ha : Anchor fs r up rest loc) (hv : ValidLocation (up ++ rest))
    (hf : follow fs (up ++ rest) = .ok (.found dir)) : r <+: dir := by
  obtain rfl : rest = [] := by
    have := (ha.prefix_of_follow hv List.prefix_rfl hf).length_le
    rw [List.length_append] at this
    exact List.length_eq_zero_iff.mp (by omega)
  obtain ⟨b, hb⟩ := ha.leads
  rw [List.append_nil] at hf
  cases walk_ok_unique hf hb
  exact ha.inside

/-- **New directories are inside the root.** A name that is missing on the way, in a directory the
names before it lead to, is missing inside the root. -/
theorem Anchor.inside_of_missing {up rest up' : List Name} {loc dir : Location} {name n : Name}
    (ha : Anchor fs r up rest loc) (hv : ValidLocation (up ++ rest ++ [n]))
    (hway : up' ++ [name] <+: up ++ rest ++ [n]) (hf : follow fs up' = .ok (.found dir))
    (hdir : fs.node dir = some .dir) (hfree : fs.node (dir ++ [name]) = none) : r <+: dir := by
  have hvalid := (validLocation_append.mp hv).1
  have hup' : up' <+: up ++ rest := by
    rcases List.prefix_concat_iff.mp hway with h | h
    · rw [(List.append_inj' h rfl).1]
    · exact (List.prefix_append ..).trans h
  obtain ⟨k, rfl⟩ := ha.prefix_of_follow hvalid hup' hf
  obtain ⟨b, hb⟩ := ha.leads
  cases k with
  | nil =>
    rw [List.append_nil] at hb
    cases walk_ok_unique hf hb
    exact ha.inside
  | cons m k =>
    -- The missing name is the next one on the way to the anchor, which exists.
    exfalso
    simp only [List.append_assoc] at hway hv
    obtain ⟨t, ht⟩ := (List.prefix_append_right_inj up').mp hway
    obtain rfl : name = m := by simpa using congrArg List.head? ht
    rw [validLocation_append, List.cons_append, validLocation_cons] at hv
    have hmissing : ∀ l, walk fs b [] (up' ++ [name]) ≠ .ok (.found l) := by
      intro l hl
      cases walk_append_of_free hf hdir hv.2.1.ne_dot hv.2.1.ne_dotDot hfree hl
    cases k with
    | nil => exact hmissing loc hb
    | cons x k =>
      rw [List.append_cons] at hb
      obtain ⟨d, _, hd, -⟩ := exists_found_of_walk_append fs.node_root (by simp) hb
      exact hmissing d hd

/-! ## `Resolve` -/

/-- A node that is not a symbolic link. -/
def Real (fs : FileSystem) (loc : Location) : Prop :=
  fs.node loc = some .dir ∨ ∃ content, fs.node loc = some (.file content)

/-- A node that `EvalSymlinks` says does not exist, on a way whose existing part is inside. -/
structure AbsentInside (fs : FileSystem) (root : Root) (relative : Bytes) (way : Location)
    (name : Name) : Prop where
  valid : ValidLocation (way ++ [name])
  candidate_eq : candidate root relative = .ok (render (way ++ [name]))
  absent : evalSymlinks fs (render (way ++ [name])) = .error .ENOENT
  anchored : ∃ up rest loc, way = up ++ rest ∧ Anchor fs root.location up rest loc

/-- What an answer of `Resolve` stands for. -/
inductive Resolved (fs : FileSystem) (root : Root) (relative : Bytes) : Bytes → Prop where
  /-- The spelling of a real node at or below the root. -/
  | real (loc : Location) : Real fs loc → root.location <+: loc →
      Resolved fs root relative (render loc)
  /-- The candidate itself, where nothing exists. -/
  | absent (way : Location) (name : Name) : AbsentInside fs root relative way name →
      Resolved fs root relative (render (way ++ [name]))

theorem Real.validLocation {loc : Location} (h : Real fs loc) : ValidLocation loc :=
  FileSystem.validLocation (by rcases h with h | ⟨_, h⟩ <;> rw [h] <;> simp)

/-- **What `Resolve` answers.** -/
theorem resolve_ok (h : v.resolve fs rootID relative = .ok (resolved, root)) :
    v.root rootID = .ok root ∧ Resolved fs root relative resolved := by
  unfold Vault.resolve at h
  split at h
  · cases h
  · rename_i root' hroot
    split at h
    · cases h
    · rename_i path hcand
      obtain ⟨c, hc, rfl, hin⟩ := candidate_ok hcand
      split at h
      · rename_i e he
        split at h
        · rename_i hne
          split at h
          · rename_i hanc
            cases h
            refine ⟨hroot, ?_⟩
            obtain rfl : e = .ENOENT := by simpa [Os.isNotExist] using hne
            induction c using List.reverseRecOn with
            | nil => cases he
            | append_singleton way name _ =>
              have hway := (validLocation_append.mp hc).1
              rw [existingAncestorIsInside, dir_render hc, List.dropLast_concat,
                ← root.render_location] at hanc
              obtain ⟨up, rest, loc, hup, ha⟩ :=
                exists_anchor_of_ancestorLoop root.validLocation hway hanc
              exact .absent way name ⟨hc, hcand, he, up, rest, loc, hup, ha⟩
          · cases h
        · cases h
      · rename_i path' he
        split at h
        · rename_i hwithin
          cases h
          obtain ⟨loc, rfl, hloc, hreal⟩ := node_of_evalSymlinks he
          exact ⟨hroot, .real loc hreal ((withinRoot_path hloc).mp hwithin)⟩
        · cases h

/-- An absent candidate is not found by the kernel either. -/
theorem AbsentInside.not_found {way : Location} {name : Name} {loc : Location}
    (h : AbsentInside fs root relative way name) : follow fs (way ++ [name]) ≠ .ok (.found loc) := by
  intro hf
  apply not_found_of_evalSymlinks h.absent
  rwa [components_render h.valid]

/-- The directory of an absent candidate, where there is one, is inside the root. -/
theorem AbsentInside.prefix_of_follow {way dir : Location} {name : Name}
    (h : AbsentInside fs root relative way name) (hf : follow fs way = .ok (.found dir)) :
    root.location <+: dir := by
  obtain ⟨up, rest, loc, rfl, ha⟩ := h.anchored
  exact ha.inside_of_follow (validLocation_append.mp h.valid).1 hf

/-- **Entries are made and removed inside the root.** The directory of the last component of an
answer lies at or below the root, or the entry is the root's own. -/
theorem Resolved.prefix_of_parent {dir : Location} {name : Name}
    (h : Resolved fs root relative resolved)
    (hp : parent fs (components resolved) = .ok (.norm dir name)) :
    root.location <+: dir ++ [name] := by
  cases h with
  | real loc hreal hin =>
    rw [components_render hreal.validLocation] at hp
    induction loc using List.reverseRecOn with
    | nil => cases hp
    | append_singleton d n _ =>
      have hne : fs.node (d ++ [n]) ≠ none := by
        rcases hreal with h | ⟨_, h⟩ <;> rw [h] <;> simp
      rw [parent_of_node hne] at hp
      cases hp
      exact hin
  | absent way n ha =>
    rw [components_render ha.valid] at hp
    obtain ⟨up, hway, hf, -⟩ := parent_norm hp
    obtain ⟨rfl, hn⟩ := List.append_inj' hway rfl
    cases hn
    exact (ha.prefix_of_follow hf).trans (List.prefix_append ..)

end Files
