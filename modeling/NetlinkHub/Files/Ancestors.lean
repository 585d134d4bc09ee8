import NetlinkHub.Files.Resolve
import Mathlib.Logic.Function.Iterate

/-! # Containment and the ancestor walk

`withinRoot` compares clean absolute paths name by name, and the walk up from a missing path comes to an end
with the answer that the nearest ancestor calls for which resolves (`containment_exact`). The walk is stated as
the loop of the source, without a bound on its rounds (`AncestorRun`). -/

namespace Files

open Posix Filepath

variable {fs : FileSystem} {r l c : Location} {root candidate path : Bytes}

/-! ## Clean absolute paths -/

/-- A clean absolute path of Unix. -/
structure CleanAbs (path : Bytes) : Prop where
  abs : isAbs path
  clean : clean path = path
  nul : 0 ∉ path

/-- It spells the list of its components. -/
theorem CleanAbs.spells (h : CleanAbs path) : ValidLocation (components path) ∧ render (components path) = path := by
  obtain ⟨l, hl, heq⟩ := exists_clean_eq_render h.abs h.nul
  rw [h.clean] at heq
  rw [heq, components_render hl]
  exact ⟨hl, rfl⟩

theorem CleanAbs.within_iff (hroot : CleanAbs root) (hpath : CleanAbs path) :
    withinRoot root path = true ↔ components root <+: components path := by
  obtain ⟨hr, hroot'⟩ := hroot.spells
  obtain ⟨hp, hpath'⟩ := hpath.spells
  have hiff := withinRoot_render hr hp
  rwa [hroot', hpath'] at hiff

/-! ## The loop -/

/-- The rounds of `existingAncestorIsInside` from a path, and what they come to. -/
inductive AncestorRun (fs : FileSystem) (root : Bytes) : Bytes → Bool → Prop where
  /-- The path resolves. -/
  | resolves {current resolved : Bytes} : evalSymlinks fs current = .ok resolved →
      AncestorRun fs root current (withinRoot root resolved)
  /-- Something else is wrong with it. -/
  | fails {current : Bytes} {e : Errno} : evalSymlinks fs current = .error e → ¬ Os.isNotExist e →
      AncestorRun fs root current false
  /-- There is nothing above it. -/
  | top {current : Bytes} {e : Errno} : evalSymlinks fs current = .error e → Os.isNotExist e →
      dir current = current → AncestorRun fs root current false
  /-- What is above it is no longer within the root. -/
  | leaves {current : Bytes} {e : Errno} : evalSymlinks fs current = .error e → Os.isNotExist e →
      dir current ≠ current → ¬ withinRoot root (dir current) → dir current ≠ root →
      AncestorRun fs root current false
  /-- The walk goes on there. -/
  | climbs {current : Bytes} {e : Errno} {answer : Bool} : evalSymlinks fs current = .error e → Os.isNotExist e →
      dir current ≠ current → withinRoot root (dir current) ∨ dir current = root →
      AncestorRun fs root (dir current) answer → AncestorRun fs root current answer

/-- The root directory resolves. -/
theorem evalSymlinks_root (fs : FileSystem) : evalSymlinks fs (render []) = .ok (render []) := by
  rw [evalSymlinks, components_render validLocation_nil, walk_nil]

/-- Above any other location is a shorter one. -/
theorem dir_ne (hl : ValidLocation l) (hne : l ≠ []) : dir (render l) ≠ render l := by
  rw [dir_render hl]
  intro heq
  have hdrop := congrArg List.length
    (render_injective (fun n hn => hl n (List.mem_of_mem_dropLast hn)) hl heq)
  have hpos := List.length_pos_iff.mpr hne
  rw [List.length_dropLast] at hdrop
  omega

/-- **The walk comes to an end** with the answer of the bounded one, where there are more rounds than names. -/
theorem ancestorRun_loop {rounds : ℕ} (hl : ValidLocation l) (hrounds : l.length < rounds) :
    AncestorRun fs root (render l) (ancestorLoop fs root rounds (render l)) := by
  induction rounds generalizing l with
  | zero => omega
  | succ rounds ih =>
    rw [ancestorLoop]
    cases he : evalSymlinks fs (render l) with
    | ok resolved => exact .resolves he
    | error e =>
      dsimp only
      split
      · rename_i hother
        exact .fails he hother
      rename_i hmissing
      rw [not_not] at hmissing
      have hne : l ≠ [] := by
        rintro rfl
        rw [evalSymlinks_root] at he
        cases he
      rw [if_neg (dir_ne hl hne)]
      split
      · rename_i hout
        exact .leaves he hmissing (dir_ne hl hne) hout.1 hout.2
      · rename_i hin
        refine .climbs he hmissing (dir_ne hl hne) ?_ ?_
        · by_cases hwithin : withinRoot root (dir (render l)) = true
          · exact .inl hwithin
          · exact .inr (by_contra fun hroot => hin ⟨hwithin, hroot⟩)
        · rw [dir_render hl]
          have hpos := List.length_pos_iff.mpr hne
          refine ih (fun n hn => hl n (List.mem_of_mem_dropLast hn)) ?_
          rw [List.length_dropLast]
          omega

/-! ## Ancestors -/

/-- The ancestors of a path, the nearest one first. -/
def ancestor (k : ℕ) (path : Bytes) : Bytes := dir^[k + 1] path

/-- The nearest ancestor that resolves is at or below the root, and its real path is inside the root. -/
def NearestInside (fs : FileSystem) (root candidate : Bytes) : Prop :=
  ∃ k resolved, (∀ j < k, ∀ r, evalSymlinks fs (ancestor j candidate) ≠ .ok r) ∧
    withinRoot root (ancestor k candidate) ∧ evalSymlinks fs (ancestor k candidate) = .ok resolved ∧
      withinRoot root resolved

/-- Up to the nearest ancestor that resolves, nothing within the root is wrong but that it does not exist. -/
def OnlyMissing (fs : FileSystem) (root candidate : Bytes) : Prop :=
  ∀ k e, (∀ j < k, ∀ r, evalSymlinks fs (ancestor j candidate) ≠ .ok r) →
    withinRoot root (ancestor k candidate) → evalSymlinks fs (ancestor k candidate) = .error e → Os.isNotExist e

theorem dir_iterate_render (hl : ValidLocation l) (k : ℕ) :
    ValidLocation (List.dropLast^[k] l) ∧ dir^[k] (render l) = render (List.dropLast^[k] l) := by
  induction k generalizing l with
  | zero => exact ⟨hl, rfl⟩
  | succ k ih =>
    have hdrop : ValidLocation l.dropLast := fun n hn => hl n (List.mem_of_mem_dropLast hn)
    rw [Function.iterate_succ_apply, Function.iterate_succ_apply, dir_render hl]
    exact ih hdrop

/-- What the walk passes from a location on, to one that resolves. -/
structure Passes (fs : FileSystem) (r l : Location) (k : ℕ) : Prop where
  missing : ∀ j < k, evalSymlinks fs (render (List.dropLast^[j] l)) = .error .ENOENT
  within : ∀ j < k, r <+: List.dropLast^[j + 1] l
  inside : ∃ resolved, evalSymlinks fs (render (List.dropLast^[k] l)) = .ok resolved ∧ withinRoot (render r) resolved

/-- **What the walk answers.** -/
theorem ancestorLoop_iff {rounds : ℕ} (hr : ValidLocation r) (hl : ValidLocation l) (hrounds : l.length < rounds) :
    ancestorLoop fs (render r) rounds (render l) = true ↔ ∃ k, Passes fs r l k := by
  induction rounds generalizing l with
  | zero => omega
  | succ rounds ih =>
    rw [ancestorLoop]
    cases he : evalSymlinks fs (render l) with
    | ok resolved =>
      constructor
      · intro hwithin
        exact ⟨0, by simp, by simp, resolved, he, hwithin⟩
      · rintro ⟨k, hmissing, -, resolved', heq, hwithin⟩
        cases k with
        | zero =>
          obtain rfl := Except.ok.inj (he.symm.trans heq)
          exact hwithin
        | succ k =>
          have hzero : evalSymlinks fs (render l) = .error .ENOENT := hmissing 0 (by omega)
          rw [he] at hzero
          cases hzero
    | error e =>
      have hpassed : ∀ k, Passes fs r l k → 0 < k := by
        rintro k ⟨-, -, resolved, heq, -⟩
        rcases Nat.eq_zero_or_pos k with rfl | hpos
        · have hzero : evalSymlinks fs (render l) = .ok resolved := heq
          rw [he] at hzero
          cases hzero
        · exact hpos
      dsimp only
      split
      · rename_i hother
        refine iff_of_false Bool.false_ne_true ?_
        rintro ⟨k, hk⟩
        have hzero : evalSymlinks fs (render l) = .error .ENOENT := hk.missing 0 (hpassed k hk)
        obtain rfl := Except.error.inj (he.symm.trans hzero)
        exact hother rfl
      rename_i hmissing
      obtain rfl : e = .ENOENT := by simpa [Os.isNotExist] using hmissing
      have hne : l ≠ [] := by
        rintro rfl
        rw [evalSymlinks_root] at he
        cases he
      have hdrop : ValidLocation l.dropLast := fun n hn => hl n (List.mem_of_mem_dropLast hn)
      have hpos := List.length_pos_iff.mpr hne
      rw [if_neg (dir_ne hl hne), dir_render hl]
      have hbelow := withinRoot_render hr hdrop
      split
      · rename_i hout
        refine iff_of_false Bool.false_ne_true ?_
        rintro ⟨k, hk⟩
        exact hout.1 (hbelow.mpr (hk.within 0 (hpassed k hk)))
      rename_i hin
      have hwithin : r <+: l.dropLast := by
        by_contra hnot
        refine hin ⟨fun h => hnot (hbelow.mp h), fun heq => hnot ?_⟩
        rw [render_injective hdrop hr heq]
      rw [ih hdrop (by rw [List.length_dropLast]; omega)]
      constructor
      · rintro ⟨k, hk⟩
        refine ⟨k + 1, fun j hj => ?_, fun j hj => ?_, hk.inside⟩
        · cases j with
          | zero => exact he
          | succ j => exact hk.missing j (by omega)
        · cases j with
          | zero => exact hwithin
          | succ j => exact hk.within j (by omega)
      · rintro ⟨k, hk⟩
        obtain ⟨k, rfl⟩ := Nat.exists_eq_add_one.mpr (hpassed k hk)
        exact ⟨k, fun j hj => hk.missing (j + 1) (by omega), fun j hj => hk.within (j + 1) (by omega), hk.inside⟩

/-! ## The answer -/

theorem iterate_dropLast_le {i j : ℕ} (h : i ≤ j) : List.dropLast^[j] l <+: List.dropLast^[i] l := by
  induction j, h using Nat.le_induction with
  | base => exact List.prefix_rfl
  | succ j _ ih =>
    rw [Function.iterate_succ_apply']
    exact (List.dropLast_prefix _).trans ih

theorem eq_or_prefix_dropLast (h : r <+: c) : r = c ∨ r <+: c.dropLast := by
  induction c using List.reverseRecOn with
  | nil => exact .inl (List.prefix_nil.mp h)
  | append_singleton c n _ =>
    rw [List.dropLast_concat]
    exact List.prefix_concat_iff.mp h

theorem length_le_render (hl : ValidLocation l) : l.length ≤ (render l).length := by
  have hspell : ∀ k : Location, ValidLocation k → k.length ≤ (spell k).length := by
    intro k hk
    induction k with
    | nil => exact le_rfl
    | cons n k ih =>
      rw [validLocation_cons] at hk
      have hrest := ih hk.2
      simp only [spell_cons, List.length_cons, List.length_append]
      omega
  by_cases hne : l = []
  · simp [hne]
  · rw [render_of_ne_nil hne]
    exact hspell l hl

/-- The directory above the root does not lead into the root. -/
theorem eq_nil_of_above_inside (hr : ValidLocation r) {resolved : Bytes}
    (he : evalSymlinks fs (render r.dropLast) = .ok resolved) (hwithin : withinRoot (render r) resolved) : r = [] := by
  induction r using List.reverseRecOn with
  | nil => rfl
  | append_singleton r n _ =>
    exfalso
    obtain ⟨loc, rfl, hloc, hreal⟩ := node_of_evalSymlinks he
    obtain ⟨rest, rfl⟩ := (withinRoot_render hr hloc).mp hwithin
    have hr' : ValidLocation r := (validLocation_append.mp hr).1
    -- A real path in the root runs through the directory above it, which then is its own real path.
    have hnode : fs.node (r ++ ([n] ++ rest)) ≠ none := by
      rw [← List.append_assoc]
      rcases hreal with h | ⟨_, h⟩ <;> rw [h] <;> simp
    have hdir := FileSystem.node_of_node_below hnode (by simp)
    have hwalk := walk_of_node (b := maxLinksWalked) hdir fun t ht => nomatch ht
    rw [List.dropLast_concat, evalSymlinks, components_render hr', hwalk] at he
    have heq := render_injective hr' hloc (Except.ok.inj he)
    have hlen := congrArg List.length heq
    simp only [List.length_append, List.length_singleton] at hlen
    omega

theorem ancestor_render (hc : ValidLocation c) (k : ℕ) :
    ValidLocation (List.dropLast^[k] c.dropLast) ∧ ancestor k (render c) = render (List.dropLast^[k] c.dropLast) := by
  have hdrop : ValidLocation c.dropLast := fun n hn => hc n (List.mem_of_mem_dropLast hn)
  rw [ancestor, Function.iterate_succ_apply, dir_render hc]
  exact dir_iterate_render hdrop k

/-- **The answer of the walk**, when nothing is wrong on the way but that something does not exist. -/
theorem existingAncestorIsInside_iff (hr : ValidLocation r) (hc : ValidLocation c) (hin : r <+: c)
    (hmissing : OnlyMissing fs (render r) (render c)) :
    existingAncestorIsInside fs (render r) (render c) = true ↔ NearestInside fs (render r) (render c) := by
  have hdrop : ValidLocation c.dropLast := fun n hn => hc n (List.mem_of_mem_dropLast hn)
  have hrounds : c.dropLast.length < (render c).length + 1 := by
    have := length_le_render hc
    rw [List.length_dropLast]
    omega
  rw [existingAncestorIsInside, dir_render hc, ancestorLoop_iff hr hdrop hrounds]
  have hwithin : ∀ k, withinRoot (render r) (ancestor k (render c)) = true ↔ r <+: List.dropLast^[k] c.dropLast := by
    intro k
    obtain ⟨hvalid, heq⟩ := ancestor_render hc k
    rw [heq, withinRoot_render hr hvalid]
  constructor
  · rintro ⟨k, hpassed, hinside, resolved, he, hresolved⟩
    refine ⟨k, resolved, fun j hj x hx => ?_, (hwithin k).mpr ?_, ?_, hresolved⟩
    · rw [(ancestor_render hc j).2, hpassed j hj] at hx
      cases hx
    · rcases Nat.eq_zero_or_pos k with rfl | hpos
      · -- The nearest ancestor is within the root unless the candidate is the root itself.
        rcases eq_or_prefix_dropLast hin with rfl | hbelow
        swap
        · exact hbelow
        · have hroot := eq_nil_of_above_inside hr he hresolved
          rw [hroot]
          exact List.nil_prefix
      · obtain ⟨j, rfl⟩ := Nat.exists_eq_add_one.mpr hpos
        exact hinside j (by omega)
    · rw [(ancestor_render hc k).2]
      exact he
  · rintro ⟨k, resolved, hnearer, hroot, he, hresolved⟩
    have hbelow := (hwithin k).mp hroot
    refine ⟨k, fun j hj => ?_, fun j hj => hbelow.trans (iterate_dropLast_le hj), resolved, ?_, hresolved⟩
    · rw [← (ancestor_render hc j).2]
      cases hj' : evalSymlinks fs (ancestor j (render c)) with
      | ok x => exact absurd hj' (hnearer j hj x)
      | error e =>
        have hwithin' := (hwithin j).mpr (hbelow.trans (iterate_dropLast_le hj.le))
        have hne := hmissing j e (fun i hi => hnearer i (hi.trans hj)) hwithin' hj'
        obtain rfl : e = .ENOENT := by simpa [Os.isNotExist] using hne
        rfl
    · rw [← (ancestor_render hc k).2]
      exact he

/-- **Containment is exact**: name by name for clean absolute paths, and for a candidate inside the root the
walk up comes to an end, with the answer that the nearest ancestor calls for that resolves. -/
theorem containment_exact (hroot : CleanAbs root) :
    (∀ path, CleanAbs path → (withinRoot root path = true ↔ components root <+: components path)) ∧
      ∀ fs candidate, CleanAbs candidate → withinRoot root candidate →
        AncestorRun fs root (dir candidate) (existingAncestorIsInside fs root candidate) ∧
          (OnlyMissing fs root candidate →
            (existingAncestorIsInside fs root candidate = true ↔ NearestInside fs root candidate)) := by
  refine ⟨fun path hpath => hroot.within_iff hpath, fun fs candidate hcandidate hwithin => ?_⟩
  have hin := (hroot.within_iff hcandidate).mp hwithin
  obtain ⟨hr, hroot'⟩ := hroot.spells
  obtain ⟨hc, hcandidate'⟩ := hcandidate.spells
  have hdrop : ValidLocation (components candidate).dropLast := fun n hn => hc n (List.mem_of_mem_dropLast hn)
  have hrounds : (components candidate).dropLast.length < candidate.length + 1 := by
    have := length_le_render hc
    rw [hcandidate'] at this
    rw [List.length_dropLast]
    omega
  constructor
  · have hrun : AncestorRun fs root (render (components candidate).dropLast)
        (ancestorLoop fs root (candidate.length + 1) (render (components candidate).dropLast)) :=
      ancestorRun_loop hdrop hrounds
    rwa [← dir_render hc, hcandidate'] at hrun
  · intro hmissing
    rw [← hroot', ← hcandidate'] at hmissing ⊢
    exact existingAncestorIsInside_iff hr hc hin hmissing

/-- The folder `/r`, and nothing else. -/
def oneFolder : FileSystem := FileSystem.empty.insert [] [114] .dir

/-- In it `/r/a/b` has the nearest ancestor `/r`, which is inside the root. -/
theorem containment_exact_missing :
    AncestorRun oneFolder (render [[114]]) (render [[114], [97]]) true ∧
      NearestInside oneFolder (render [[114]]) (render [[114], [97], [98]]) := by
  have hroot : CleanAbs (render [[114]]) := ⟨by decide, by decide, by decide⟩
  have hcandidate : CleanAbs (render [[114], [97], [98]]) := ⟨by decide, by decide, by decide⟩
  obtain ⟨hrun, hanswer⟩ := (containment_exact hroot).2 oneFolder _ hcandidate (by decide)
  have hinside : existingAncestorIsInside oneFolder (render [[114]]) (render [[114], [97], [98]]) = true := by
    decide +kernel
  have hfirst : evalSymlinks oneFolder (ancestor 0 (render [[114], [97], [98]])) = .error .ENOENT := by
    decide +kernel
  have hsecond : evalSymlinks oneFolder (ancestor 1 (render [[114], [97], [98]])) = .ok (render [[114]]) := by
    decide +kernel
  have hmissing : OnlyMissing oneFolder (render [[114]]) (render [[114], [97], [98]]) := by
    intro k e hnearer _ he
    match k with
    | 0 =>
      rw [hfirst] at he
      obtain rfl := Except.error.inj he
      rfl
    | 1 =>
      rw [hsecond] at he
      cases he
    | k + 2 => exact absurd hsecond (hnearer 1 (by omega) _)
  rw [hinside] at hrun
  exact ⟨hrun, (hanswer hmissing).mp hinside⟩

end Files
