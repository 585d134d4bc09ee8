import NetlinkHub.Text.Delimited

/-! # Path strings

Byte strings as the names of files. A *location* is the list of names on the way down from the root
directory, a path string is its spelling with slashes (`render`), and `components` reads a spelling
back. Absolute strings in the normal form of `render` are compared by their lists of names. -/

namespace Posix

/-- A byte string. -/
abbrev Bytes := List UInt8

/-- The path separator `/`. -/
def slash : UInt8 := 47

/-- The byte `.`. -/
def period : UInt8 := 46

/-- The name `.`, which stays where it is. -/
def dot : Bytes := [period]

/-- The name `..`, which goes up. -/
def dotDot : Bytes := [period, period]

/-- The name of a directory entry. -/
abbrev Name := Bytes

/-- The names on the way down from the root directory to a node. -/
abbrev Location := List Name

/-- What can stand between two slashes of a path without a NUL byte. -/
structure IsComponent (n : Name) : Prop where
  ne_nil : n ≠ []
  slash_notMem : slash ∉ n
  nul_notMem : 0 ∉ n

/-- A name that a directory can hold: a component other than `.` and `..`. -/
structure ValidName (n : Name) : Prop extends IsComponent n where
  ne_dot : n ≠ dot
  ne_dotDot : n ≠ dotDot

instance (n : Name) : Decidable (IsComponent n) :=
  decidable_of_iff (n ≠ [] ∧ slash ∉ n ∧ 0 ∉ n)
    ⟨fun h => ⟨h.1, h.2.1, h.2.2⟩, fun h => ⟨h.1, h.2, h.3⟩⟩

instance (n : Name) : Decidable (ValidName n) :=
  decidable_of_iff (IsComponent n ∧ n ≠ dot ∧ n ≠ dotDot)
    ⟨fun h => ⟨h.1, h.2.1, h.2.2⟩, fun h => ⟨h.1, h.2, h.3⟩⟩

/-- Every name on the way is one that a directory can hold. -/
def ValidLocation (l : Location) : Prop := ∀ n ∈ l, ValidName n

instance (l : Location) : Decidable (ValidLocation l) :=
  inferInstanceAs (Decidable (∀ n ∈ l, ValidName n))

@[simp] theorem validLocation_nil : ValidLocation [] := fun _ h => by cases h

@[simp] theorem validLocation_cons {n : Name} {l : Location} :
    ValidLocation (n :: l) ↔ ValidName n ∧ ValidLocation l := by
  simp [ValidLocation]

@[simp] theorem validLocation_append {l k : Location} :
    ValidLocation (l ++ k) ↔ ValidLocation l ∧ ValidLocation k := by
  simp only [ValidLocation, List.mem_append]
  exact ⟨fun h => ⟨fun n hn => h n (.inl hn), fun n hn => h n (.inr hn)⟩,
    fun h n hn => hn.elim (h.1 n) (h.2 n)⟩

/-! ## Spelling a location -/

/-- The names of a location, each with a slash before it. -/
def spell (l : Location) : Bytes := l.flatMap (slash :: ·)

/-- The absolute path string of a location, in normal form. -/
def render (l : Location) : Bytes := if l = [] then [slash] else spell l

@[simp] theorem spell_nil : spell [] = [] := rfl

@[simp] theorem spell_cons (n : Name) (l : Location) : spell (n :: l) = slash :: (n ++ spell l) := by
  simp [spell]

@[simp] theorem spell_append (l k : Location) : spell (l ++ k) = spell l ++ spell k := by
  simp [spell]

@[simp] theorem render_nil : render [] = [slash] := rfl

theorem render_of_ne_nil {l : Location} (h : l ≠ []) : render l = spell l := if_neg h

/-- A spelling ends at a boundary: it is empty or starts with a slash. -/
theorem atBoundary_spell (l : Location) : Delimited.AtBoundary slash (spell l) := by
  cases l <;> simp

/-- What follows the last slash of a rooted string is joined on like a name. -/
theorem spell_eq_intercalate (l : Location) : spell l = [slash].intercalate ([] :: l) ∨ l = [] := by
  induction l with
  | nil => exact .inr rfl
  | cons n l ih =>
    left
    rw [List.intercalate_cons_cons, spell_cons]
    rcases ih with h | rfl
    · cases l with
      | nil => simp
      | cons m l =>
        rw [List.intercalate_cons_cons]
        rw [List.intercalate_cons_cons] at h
        simpa using h
    · simp

/-- **Prefixes of spellings are prefixes of locations**, provided the prefix ends at a boundary. -/
theorem spell_prefix_iff {l k : Location} (hl : ValidLocation l) (hk : ValidLocation k) {t : Bytes}
    (ht : Delimited.AtBoundary slash t) :
    spell k = spell l ++ t ↔ ∃ m, k = l ++ m ∧ t = spell m := by
  induction l generalizing k with
  | nil => exact ⟨fun h => ⟨k, by simp, by simpa using h.symm⟩, fun ⟨m, hm, h⟩ => by simp [hm, h]⟩
  | cons n l ih =>
    rw [validLocation_cons] at hl
    constructor
    · intro h
      cases k with
      | nil => simp at h
      | cons p k =>
        rw [validLocation_cons] at hk
        rw [spell_cons, spell_cons, List.cons_append, List.cons.injEq, List.append_assoc] at h
        have hb : Delimited.AtBoundary slash (spell l ++ t) := by
          cases l <;> simp [ht]
        obtain ⟨rfl, hrest⟩ := Delimited.append_inj_of_notMem (atBoundary_spell k) hb
          hk.1.slash_notMem hl.1.slash_notMem h.2
        obtain ⟨m, rfl, rfl⟩ := (ih hl.2 hk.2).mp hrest
        exact ⟨m, rfl, rfl⟩
    · rintro ⟨m, rfl, rfl⟩
      simp

theorem spell_injective {l k : Location} (hl : ValidLocation l) (hk : ValidLocation k)
    (h : spell l = spell k) : l = k := by
  obtain ⟨m, rfl, hm⟩ := (spell_prefix_iff hk hl Delimited.atBoundary_nil).mp (by simpa using h)
  cases m with
  | nil => simp
  | cons n m => simp at hm

/-- The spelling of a nonempty valid location is not the root's. -/
theorem spell_ne_root {n : Name} {l : Location} (h : ValidName n) : spell (n :: l) ≠ [slash] := by
  rw [spell_cons]
  intro he
  have := h.ne_nil
  simp_all

/-- Locations are determined by their path strings. -/
theorem render_injective {l k : Location} (hl : ValidLocation l) (hk : ValidLocation k)
    (h : render l = render k) : l = k := by
  cases l with
  | nil =>
    cases k with
    | nil => rfl
    | cons n k => exact absurd h.symm (spell_ne_root (validLocation_cons.mp hk).1)
  | cons n l =>
    cases k with
    | nil => exact absurd h (spell_ne_root (validLocation_cons.mp hl).1)
    | cons m k => exact spell_injective hl hk h

/-! ## Reading a path string -/

/-- The components of a path string: what stands between its slashes, empty pieces skipped. A slash
at the end of a nonempty path asks for a directory, which is what a final `.` asks for. -/
def components (path : Bytes) : List Name :=
  let names := (path.splitOn slash).filter (· ≠ [])
  if path.getLast? = some slash ∧ names ≠ [] then names ++ [dot] else names

theorem splitOn_spell {n : Name} {l : Location} (h : ValidLocation (n :: l)) :
    (spell (n :: l)).splitOn slash = [] :: n :: l := by
  rcases spell_eq_intercalate (n :: l) with he | he
  · rw [he]
    refine List.splitOn_intercalate slash (fun m hm => ?_) (by simp)
    rcases List.mem_cons.mp hm with rfl | hm
    · simp
    · exact (h m hm).slash_notMem
  · cases he

/-- A location's path string, a slash and one more name, cut at the slashes. -/
theorem splitOn_render_slash {l : Location} {n : Name} (hl : ValidLocation l) (hn : ValidName n) :
    ∃ pre, (render l ++ slash :: n).splitOn slash = pre ++ l ++ [n] ∧ ∀ p ∈ pre, p = [] := by
  cases l with
  | nil =>
    refine ⟨[[], []], ?_, by simp⟩
    have hjoin : render [] ++ slash :: n = [slash].intercalate [[], [], n] := by simp
    rw [hjoin]
    exact List.splitOn_intercalate slash (by simp [hn.slash_notMem]) (by simp)
  | cons m l =>
    refine ⟨[[]], ?_, by simp⟩
    have hjoin : render (m :: l) ++ slash :: n = spell (m :: (l ++ [n])) := by
      rw [render_of_ne_nil (by simp), ← List.cons_append, spell_append]
      simp
    rw [validLocation_cons] at hl
    rw [hjoin, splitOn_spell (by simp [hl.1, hl.2, hn])]
    rfl

/-- A spelling does not end in a slash. -/
theorem getLast?_spell {l : Location} (h : ValidLocation l) : (spell l).getLast? ≠ some slash := by
  induction l with
  | nil => simp
  | cons n l ih =>
    rw [validLocation_cons] at h
    rw [spell_cons]
    cases l with
    | nil =>
      obtain ⟨c, n', rfl⟩ := List.exists_cons_of_ne_nil h.1.ne_nil
      intro he
      have hm := List.mem_of_getLast? (by simpa using he)
      exact h.1.slash_notMem hm
    | cons m l =>
      have := ih h.2
      rw [spell_cons] at this ⊢
      rw [List.getLast?_cons, List.getLast?_append]
      rw [List.getLast?_cons] at this ⊢
      simpa using this

/-- **Reading back.** The components of a location's path string are its names. -/
@[simp] theorem components_render {l : Location} (h : ValidLocation l) :
    components (render l) = l := by
  cases l with
  | nil => decide
  | cons n l =>
    have hnames : ((spell (n :: l)).splitOn slash).filter (· ≠ []) = n :: l := by
      rw [splitOn_spell h]
      rw [List.filter_cons_of_neg (by simp), List.filter_eq_self]
      intro m hm
      simpa using (h m hm).ne_nil
    rw [render_of_ne_nil (by simp), components]
    simp only [hnames]
    rw [if_neg (fun hc => getLast?_spell h hc.1)]

/-- Reading back a location's path string with one more name after a slash. -/
theorem components_render_slash {l : Location} {n : Name} (hl : ValidLocation l)
    (hn : ValidName n) : components (render l ++ slash :: n) = l ++ [n] := by
  obtain ⟨pre, hsplit, hpre⟩ := splitOn_render_slash hl hn
  have hnames : ((render l ++ slash :: n).splitOn slash).filter (· ≠ []) = l ++ [n] := by
    rw [hsplit, List.append_assoc, List.filter_append, List.filter_eq_nil_iff.mpr (by simpa using hpre),
      List.nil_append, List.filter_eq_self]
    intro m hm
    rcases List.mem_append.mp hm with hm | hm
    · simpa using (hl m hm).ne_nil
    · simpa [List.mem_singleton.mp hm] using hn.ne_nil
  have hlast : (render l ++ slash :: n).getLast? ≠ some slash := by
    obtain ⟨c, n', rfl⟩ := List.exists_cons_of_ne_nil hn.ne_nil
    rw [List.getLast?_append_cons, List.getLast?_cons_cons]
    exact fun h => hn.slash_notMem (List.mem_of_getLast? h)
  rw [components]
  simp only [hnames]
  rw [if_neg (fun hc => hlast hc.1)]

/-- The components of a string without a NUL byte are components. -/
theorem isComponent_of_mem_components {path : Bytes} (h : 0 ∉ path) {n : Name}
    (hn : n ∈ components path) : IsComponent n := by
  have hpiece : ∀ m ∈ (path.splitOn slash).filter (· ≠ []), IsComponent m := by
    intro m hm
    rw [List.mem_filter] at hm
    refine ⟨by simpa using hm.2, ?_, ?_⟩
    · exact fun hs => (Delimited.mem_and_ne_of_mem_splitOn hm.1 _ hs).2 rfl
    · exact fun hz => h (Delimited.mem_and_ne_of_mem_splitOn hm.1 _ hz).1
  unfold components at hn
  simp only at hn
  split at hn
  · rcases List.mem_append.mp hn with hn | hn
    · exact hpiece n hn
    · rw [List.mem_singleton.mp hn]
      decide
  · exact hpiece n hn

end Posix
