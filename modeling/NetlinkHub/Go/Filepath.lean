import NetlinkHub.Posix.Resolve

/-! # Go's `path/filepath` on Unix

The functions of the standard library that work on path strings, by their documented rules, and
`EvalSymlinks`, which asks the tree. On absolute strings free of NUL all of them go through
locations: `clean` yields the spelling of a valid location (`exists_clean_eq_render`), and `dir`
drops its last name (`dir_render`). -/

namespace Filepath

open Posix

/-- `IsAbs`. -/
def isAbs (path : Bytes) : Bool := path.head? = some slash

/-- What one piece between slashes does to the cleaned path so far: an empty piece and `.` nothing,
`..` takes the name before it back, or is kept where there is none and the path is not rooted. -/
def cleanStep (rooted : Bool) (out : List Name) (piece : Name) : List Name :=
  if piece = [] ∨ piece = dot then out
  else if piece = dotDot then
    match out.getLast? with
    | some last => if last = dotDot then out ++ [dotDot] else out.dropLast
    | none => if rooted then [] else [dotDot]
  else out ++ [piece]

/-- The names left by the lexical rules. -/
def cleanNames (path : Bytes) : List Name :=
  (path.splitOn slash).foldl (cleanStep (isAbs path)) []

/-- `Clean`. -/
def clean (path : Bytes) : Bytes :=
  if isAbs path then render (cleanNames path)
  else if cleanNames path = [] then dot
  else [slash].intercalate (cleanNames path)

/-- `Join`: leading empty elements are dropped, the rest is joined and cleaned. -/
def join (elems : List Bytes) : Bytes :=
  match elems.dropWhile (· = []) with
  | [] => []
  | rest => clean ([slash].intercalate rest)

/-- `Dir`: all but the last element, cleaned. -/
def dir (path : Bytes) : Bytes := clean (path.reverse.dropWhile (· ≠ slash)).reverse

/-- `Abs`, where the working directory may be unknown. -/
def abs (cwd : Except Errno Bytes) (path : Bytes) : Except Errno Bytes :=
  if isAbs path then .ok (clean path) else cwd.map fun wd => join [wd, path]

/-- Leave out what two lists of names begin with in common. -/
def stripCommon : List Name → List Name → List Name × List Name
  | x :: xs, y :: ys => if x = y then stripCommon xs ys else (x :: xs, y :: ys)
  | xs, ys => (xs, ys)

/-- The nonempty pieces between the slashes of a path. -/
def pieces (path : Bytes) : List Name := (path.splitOn slash).filter (· ≠ [])

/-- `Rel`: the path that leads lexically from `base` to `targ`, or nothing where there is none. -/
def rel (base targ : Bytes) : Option Bytes :=
  let b := clean base
  let t := clean targ
  if b = t then some dot
  else
    let b := if b = dot then [] else b
    if isAbs b ≠ isAbs t then none
    else
      let (up, down) := stripCommon (pieces b) (pieces t)
      if up.head? = some dotDot then none
      else some ([slash].intercalate (up.map (fun _ => dotDot) ++ down))

/-- How many symbolic links `EvalSymlinks` follows. -/
def maxLinksWalked : Nat := 255

/-- `EvalSymlinks` of an absolute path. -/
def evalSymlinks (fs : FileSystem) (path : Bytes) : Except Errno Bytes :=
  match walk fs maxLinksWalked [] (components path) with
  | .error e => .error e
  | .ok (.missing ..) => .error .ENOENT
  | .ok (.found loc) => .ok (render loc)

variable {fs : FileSystem} {path : Bytes} {l m : Location}

/-! ## Cleaning -/

/-- A step keeps a rooted result a valid location. -/
theorem validLocation_cleanStep {piece : Name} (hl : ValidLocation l) (hslash : slash ∉ piece)
    (hnul : 0 ∉ piece) : ValidLocation (cleanStep true l piece) := by
  unfold cleanStep
  split
  · exact hl
  · rename_i hpiece
    rw [not_or] at hpiece
    split
    · split
      · rename_i last hlast
        have hmem : last ∈ l := List.mem_of_getLast? hlast
        rw [if_neg (hl last hmem).ne_dotDot]
        exact fun n hn => hl n (List.mem_of_mem_dropLast hn)
      · simp
    · rename_i hdotDot
      rw [validLocation_append]
      exact ⟨hl, by simpa using ⟨⟨hpiece.1, hslash, hnul⟩, hpiece.2, hdotDot⟩⟩

theorem validLocation_foldl_cleanStep {ps : List Name} (hl : ValidLocation l)
    (hps : ∀ p ∈ ps, slash ∉ p ∧ 0 ∉ p) : ValidLocation (ps.foldl (cleanStep true) l) := by
  induction ps generalizing l with
  | nil => exact hl
  | cons p ps ih =>
    rw [List.forall_mem_cons] at hps
    exact ih (validLocation_cleanStep hl hps.1.1 hps.1.2) hps.2

/-- The names left of a rooted path without NUL are a valid location. -/
theorem validLocation_cleanNames (habs : isAbs path) (hnul : 0 ∉ path) :
    ValidLocation (cleanNames path) := by
  rw [cleanNames, habs]
  refine validLocation_foldl_cleanStep validLocation_nil fun p hp => ⟨fun hs => ?_, fun hz => ?_⟩
  · exact (Delimited.mem_and_ne_of_mem_splitOn hp _ hs).2 rfl
  · exact hnul (Delimited.mem_and_ne_of_mem_splitOn hp _ hz).1

/-- **A cleaned rooted path spells a valid location.** -/
theorem exists_clean_eq_render (habs : isAbs path) (hnul : 0 ∉ path) :
    ∃ l, ValidLocation l ∧ clean path = render l :=
  ⟨cleanNames path, validLocation_cleanNames habs hnul, by rw [clean, if_pos habs]⟩

/-- Valid names are kept by cleaning. -/
theorem foldl_cleanStep_of_valid {rooted : Bool} {k : Location} (hl : ValidLocation l) :
    l.foldl (cleanStep rooted) k = k ++ l := by
  induction l generalizing k with
  | nil => simp
  | cons n l ih =>
    rw [validLocation_cons] at hl
    have hstep : cleanStep rooted k n = k ++ [n] := by
      simp [cleanStep, hl.1.ne_nil, hl.1.ne_dot, hl.1.ne_dotDot]
    rw [List.foldl_cons, hstep, ih hl.2, List.append_assoc, List.singleton_append]

theorem zero_notMem_render (hl : ValidLocation l) : 0 ∉ render l := by
  have hspell : 0 ∉ spell l := by
    rw [spell, List.mem_flatMap]
    rintro ⟨n, hn, h0⟩
    rcases List.mem_cons.mp h0 with h | h
    · exact absurd h (by decide)
    · exact (hl n hn).nul_notMem h
  cases l with
  | nil => decide
  | cons n l => rwa [render_of_ne_nil (by simp)]

/-- The names left by cleaning are pieces of the path or `..`. -/
theorem mem_of_mem_foldl_cleanStep {rooted : Bool} {ps out : List Name} {n : Name}
    (h : n ∈ ps.foldl (cleanStep rooted) out) : n ∈ out ∨ n ∈ ps ∨ n = dotDot := by
  induction ps generalizing out with
  | nil => exact .inl h
  | cons p ps ih =>
    rcases ih h with h | h | h
    · unfold cleanStep at h
      split at h
      · exact .inl h
      · split at h
        · split at h
          · split at h
            · rcases List.mem_append.mp h with h | h
              · exact .inl h
              · exact .inr (.inr (by simpa using h))
            · exact .inl (List.mem_of_mem_dropLast h)
          · split at h
            · cases h
            · exact .inr (.inr (by simpa using h))
        · rcases List.mem_append.mp h with h | h
          · exact .inl h
          · exact .inr (.inl (by simp [List.mem_singleton.mp h]))
    · exact .inr (.inl (List.mem_cons_of_mem _ h))
    · exact .inr (.inr h)

/-- Cleaning brings in no NUL. -/
theorem zero_notMem_clean (hnul : 0 ∉ path) : 0 ∉ clean path := by
  have hnames : ∀ n ∈ cleanNames path, 0 ∉ n := by
    intro n hn h0
    rcases mem_of_mem_foldl_cleanStep hn with h | h | rfl
    · cases h
    · exact hnul (Delimited.mem_and_ne_of_mem_splitOn h _ h0).1
    · revert h0; decide
  unfold clean
  split
  · rename_i habs
    exact zero_notMem_render (validLocation_cleanNames habs hnul)
  · split
    · decide
    · intro h0
      rcases Delimited.mem_of_mem_intercalate h0 with h | ⟨n, hn, h⟩
      · revert h; decide
      · exact hnames n hn h

theorem isAbs_render (l : Location) : isAbs (render l) := by
  cases l with
  | nil => rfl
  | cons n l => rw [render_of_ne_nil (by simp), spell_cons]; rfl

/-- The spelling of a location, followed by a slash, is cleaned to the location. -/
theorem clean_spell_slash (hl : ValidLocation l) : clean (spell l ++ [slash]) = render l := by
  have habs : isAbs (spell l ++ [slash]) := by cases l <;> simp [isAbs]
  have hsplit : (spell l ++ [slash]).splitOn slash = [] :: (l ++ [[]]) := by
    have hjoin : spell l ++ [slash] = [slash].intercalate ([] :: (l ++ [[]])) := by
      rcases spell_eq_intercalate (l ++ [[]]) with h | h
      · rw [← h]; simp
      · simp at h
    rw [hjoin]
    refine List.splitOn_intercalate slash (fun m hm => ?_) (by simp)
    simp only [List.mem_cons, List.mem_append, List.not_mem_nil, or_false] at hm
    rcases hm with rfl | hm | rfl
    · simp
    · exact (hl m hm).slash_notMem
    · simp
  have hnames : cleanNames (spell l ++ [slash]) = l := by
    rw [cleanNames, hsplit, List.foldl_cons, List.foldl_append,
      foldl_cleanStep_of_valid hl]
    simp [cleanStep]
  rw [clean, if_pos habs, hnames]

/-- **`Dir` drops the last name.** -/
theorem dir_render (hl : ValidLocation l) : dir (render l) = render l.dropLast := by
  induction l using List.reverseRecOn with
  | nil => decide
  | append_singleton l n _ =>
    rw [validLocation_append, validLocation_cons] at hl
    have hcut : ((spell (l ++ [n])).reverse.dropWhile (· ≠ slash)).reverse = spell l ++ [slash] := by
      rw [spell_append, spell_cons, spell_nil, List.append_nil, List.reverse_append,
        List.reverse_cons, List.append_assoc, List.dropWhile_append_of_pos]
      · simp
      · intro c hc
        have : c ≠ slash := fun h => hl.2.1.slash_notMem (by simpa [h] using hc)
        simpa using this
    rw [dir, render_of_ne_nil (by simp), hcut, clean_spell_slash hl.1, List.dropLast_concat]

/-- Joining a relative path to a rooted one gives the spelling of a valid location. -/
theorem exists_join_eq_render {base tail : Bytes} (habs : isAbs base) (hb : 0 ∉ base)
    (ht : 0 ∉ tail) : ∃ l, ValidLocation l ∧ join [base, tail] = render l := by
  have hne : base ≠ [] := by rintro rfl; simp [isAbs] at habs
  have hjoin : join [base, tail] = clean (base ++ slash :: tail) := by
    simp [join, List.dropWhile, hne, List.intercalate_cons_cons]
  rw [hjoin]
  apply exists_clean_eq_render
  · cases base with
    | nil => exact absurd rfl hne
    | cons c cs => simpa [isAbs] using habs
  · simp only [List.mem_append, List.mem_cons, not_or]
    exact ⟨hb, by decide, ht⟩

/-- A location's path string is clean. -/
theorem clean_render (hl : ValidLocation l) : clean (render l) = render l := by
  have hnames : cleanNames (render l) = l := by
    cases l with
    | nil => decide
    | cons n l =>
      rw [render_of_ne_nil (by simp), cleanNames, splitOn_spell hl, List.foldl_cons,
        foldl_cleanStep_of_valid hl]
      simp [cleanStep]
  rw [clean, if_pos (isAbs_render l), hnames]

/-- Valid names joined by slashes are cut into these names again. -/
theorem splitOn_intercalate_slash (hm : ValidLocation m) (hne : m ≠ []) :
    ([slash].intercalate m).splitOn slash = m :=
  List.splitOn_intercalate slash (fun n hn => (hm n hn).slash_notMem) hne

theorem isAbs_intercalate (hm : ValidLocation m) : isAbs ([slash].intercalate m) = false := by
  cases m with
  | nil => rfl
  | cons n m =>
    rw [validLocation_cons] at hm
    obtain ⟨c, n', rfl⟩ := List.exists_cons_of_ne_nil hm.1.ne_nil
    have hc : c ≠ slash := fun h => hm.1.slash_notMem (by simp [h])
    cases m with
    | nil => simpa [isAbs] using hc
    | cons k m => simpa [isAbs, List.intercalate_cons_cons] using hc

/-- Valid names joined by slashes are a clean path. -/
theorem clean_intercalate (hm : ValidLocation m) (hne : m ≠ []) :
    clean ([slash].intercalate m) = [slash].intercalate m := by
  have hnames : cleanNames ([slash].intercalate m) = m := by
    rw [cleanNames, splitOn_intercalate_slash hm hne, foldl_cleanStep_of_valid hm, List.nil_append]
  rw [clean, isAbs_intercalate hm, if_neg Bool.false_ne_true, hnames, if_neg hne]

/-- Joining valid names to a location's path string. -/
theorem join_render_intercalate (hl : ValidLocation l) (hm : ValidLocation m) (hne : m ≠ []) :
    join [render l, [slash].intercalate m] = render (l ++ m) := by
  have hjoin : join [render l, [slash].intercalate m] = clean (render l ++ slash :: [slash].intercalate m) := by
    have hrender : render l ≠ [] := by
      intro h
      have := isAbs_render l
      rw [h] at this
      cases this
    simp [join, List.dropWhile, hrender, List.intercalate_cons_cons]
  have hspell : slash :: [slash].intercalate m = spell m := by
    rcases spell_eq_intercalate m with h | h
    · obtain ⟨n, m', rfl⟩ := List.exists_cons_of_ne_nil hne
      rw [h, List.intercalate_cons_cons, List.nil_append, List.singleton_append]
    · exact absurd h hne
  rw [hjoin, hspell]
  cases l with
  | nil =>
    -- In the root directory there is one slash more.
    have hpath : render [] ++ spell m = [slash].intercalate ([] :: [] :: m) := by
      rw [← hspell, render_nil, List.intercalate_cons_cons, List.nil_append]
      obtain ⟨n, m', rfl⟩ := List.exists_cons_of_ne_nil hne
      rw [List.intercalate_cons_cons, List.nil_append]
      rfl
    have hsplit : (render [] ++ spell m).splitOn slash = [] :: [] :: m := by
      rw [hpath]
      refine List.splitOn_intercalate slash (fun n hn => ?_) (by simp)
      simp only [List.mem_cons] at hn
      rcases hn with rfl | rfl | hn
      · simp
      · simp
      · exact (hm n hn).slash_notMem
    have hnames : cleanNames (render [] ++ spell m) = m := by
      rw [cleanNames, hsplit, List.foldl_cons, List.foldl_cons, foldl_cleanStep_of_valid]
      · simp [cleanStep]
      · exact hm
    rw [clean, if_pos (by simp [isAbs]), hnames, List.nil_append]
  | cons n l =>
    rw [render_of_ne_nil (by simp), ← spell_append, ← render_of_ne_nil (by simp)]
    exact clean_render (validLocation_append.mpr ⟨hl, hm⟩)
/-- Joining one more name to a location's path string. -/
theorem join_render {n : Name} (hl : ValidLocation l) (hn : ValidName n) :
    join [render l, n] = render (l ++ [n]) := by
  have hjoin := join_render_intercalate hl (validLocation_cons.mpr ⟨hn, validLocation_nil⟩) (by simp)
  rwa [List.intercalate_singleton] at hjoin

/-- The nonempty pieces of a location's path string are its names. -/
theorem pieces_render (hl : ValidLocation l) : pieces (render l) = l := by
  cases l with
  | nil => decide
  | cons n l =>
    rw [render_of_ne_nil (by simp), pieces, splitOn_spell hl, List.filter_cons_of_neg (by simp),
      List.filter_eq_self]
    exact fun m hm => by simpa using (hl m hm).ne_nil

theorem stripCommon_append (k m : List Name) : stripCommon k (k ++ m) = ([], m) := by
  induction k with
  | nil => cases m <;> rfl
  | cons n k ih => simpa [stripCommon] using ih

/-- **`Rel` from a location to one below it** is the names in between. -/
theorem rel_render (hl : ValidLocation (l ++ m)) (hm : m ≠ []) :
    rel (render l) (render (l ++ m)) = some ([slash].intercalate m) := by
  have hl' := (validLocation_append.mp hl).1
  have hne : render l ≠ render (l ++ m) := by
    intro h
    exact hm (by simpa using render_injective hl' hl h)
  have hdot : render l ≠ dot := by
    intro h
    have := isAbs_render l
    rw [h] at this
    exact absurd this (by decide)
  simp [rel, clean_render hl', clean_render hl, hne, hdot, isAbs_render, pieces_render hl',
    pieces_render hl, stripCommon_append]

/-! ## `EvalSymlinks` -/

theorem evalSymlinks_ok {resolved : Bytes} (h : evalSymlinks fs path = .ok resolved) :
    ∃ loc, walk fs maxLinksWalked [] (components path) = .ok (.found loc) ∧
      resolved = render loc := by
  unfold evalSymlinks at h
  split at h
  · cases h
  · cases h
  · rename_i loc hw
    cases h
    exact ⟨loc, hw, rfl⟩

/-- Where `EvalSymlinks` says that a path does not exist, no walk leads to a node. -/
theorem not_found_of_evalSymlinks (h : evalSymlinks fs path = .error .ENOENT) {b : Nat}
    {loc : Location} : walk fs b [] (components path) ≠ .ok (.found loc) := by
  intro hfound
  have hw : walk fs maxLinksWalked [] (components path) ≠ .error .ELOOP := by
    intro he
    rw [evalSymlinks, he] at h
    cases h
  have := walk_unique hw (by rw [hfound]; simp)
  rw [evalSymlinks, this, hfound] at h
  cases h

/-- `EvalSymlinks` resolves to a real location. -/
theorem node_of_evalSymlinks {resolved : Bytes} (h : evalSymlinks fs path = .ok resolved) :
    ∃ loc, resolved = render loc ∧ ValidLocation loc ∧
      (fs.node loc = some .dir ∨ ∃ content, fs.node loc = some (.file content)) := by
  obtain ⟨loc, hw, rfl⟩ := evalSymlinks_ok h
  have hs := walk_sound fs.node_root hw
  exact ⟨loc, rfl, FileSystem.validLocation (node_ne_none_of_found fs.node_root hw), hs⟩

end Filepath
