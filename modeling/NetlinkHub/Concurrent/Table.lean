import Mathlib.Algebra.GroupWithZero.Nat
import Mathlib.Data.List.Basic
import Mathlib.Data.List.Nodup

/-! # Tables

A table is a list of rows with distinct keys. One write inserts a row, updates or deletes all rows
that meet a condition. `Evolves` relates a table to a later one in which every row is still there, as a
row it may have become; updates keep it when they do, row by row. -/

namespace Table

/-- One write to a table of rows `R`. -/
inductive Op (R : Type) where
  /-- Insert a row unless it clashes with one that is there. -/
  | insert (clash : R → Bool) (row : R)
  | update (sel : R → Bool) (data : R → R)
  | delete (sel : R → Bool)

variable {R K : Type}

/-- The table after a write. -/
def Op.apply : Op R → List R → List R
  | .insert clash row, rows => if rows.any clash then rows else rows ++ [row]
  | .update sel data, rows => rows.map fun r => if sel r then data r else r
  | .delete sel, rows => rows.filter fun r => ¬ sel r

/-- Every row is still there, as a row it may have become. -/
def Evolves (rel : R → R → Prop) (rows rows' : List R) : Prop := ∀ r ∈ rows, ∃ r' ∈ rows', rel r r'

variable {rel : R → R → Prop} {rows rows' rows'' : List R} {sel clash : R → Bool} {data : R → R}
  {row r : R}

theorem Evolves.refl (hrel : ∀ r, rel r r) (rows : List R) : Evolves rel rows rows :=
  fun r hr => ⟨r, hr, hrel r⟩

theorem Evolves.trans (hrel : ∀ {a b c}, rel a b → rel b c → rel a c) (h : Evolves rel rows rows')
    (h' : Evolves rel rows' rows'') : Evolves rel rows rows'' := by
  intro r hr
  obtain ⟨r', hr', hrr'⟩ := h r hr
  obtain ⟨r'', hr'', hrr''⟩ := h' r' hr'
  exact ⟨r'', hr'', hrel hrr' hrr''⟩

/-- The row that became of a row, by its key. -/
theorem Evolves.of_key {key : R → K} (h : Evolves rel rows rows') (hkey : ∀ {a b}, rel a b → key b = key a)
    (hnodup : (rows'.map key).Nodup) {r r' : R} (hr : r ∈ rows) (hr' : r' ∈ rows')
    (heq : key r' = key r) : rel r r' := by
  obtain ⟨r'', hr'', hrel⟩ := h r hr
  have hsame : r'' = r' :=
    List.inj_on_of_nodup_map hnodup hr'' hr' ((hkey hrel).trans heq.symm)
  exact hsame ▸ hrel

/-- Rows with one key are one row. -/
theorem eq_of_key {key : R → K} (hnodup : (rows.map key).Nodup) {r r' : R} (hr : r ∈ rows)
    (hr' : r' ∈ rows) (heq : key r = key r') : r = r' :=
  List.inj_on_of_nodup_map hnodup hr hr' heq

/-- A row is found by its key. -/
theorem find?_key [DecidableEq K] {key : R → K} (hnodup : (rows.map key).Nodup) (hr : r ∈ rows) :
    rows.find? (key · = key r) = some r := by
  rcases Option.eq_none_or_eq_some (rows.find? (key · = key r)) with hnone | ⟨r', hsome⟩
  · exact absurd (decide_eq_true rfl) (List.find?_eq_none.mp hnone r hr)
  · have hkey : key r' = key r := by simpa using List.find?_some hsome
    rw [hsome, eq_of_key hnodup (List.mem_of_find?_eq_some hsome) hr hkey]

theorem apply_insert :
    (Op.insert clash row).apply rows = if rows.any clash then rows else rows ++ [row] := rfl

theorem mem_update : r ∈ (Op.update sel data).apply rows ↔
    ∃ r₀ ∈ rows, r = if sel r₀ then data r₀ else r₀ := by
  simp only [Op.apply, List.mem_map, eq_comm]

theorem mem_insert (h : r ∈ (Op.insert clash row).apply rows) : r ∈ rows ∨ r = row := by
  rw [apply_insert] at h
  split at h
  · exact .inl h
  · simpa using h

/-- A row that is new was inserted, and clashes with none. -/
theorem new_of_mem_insert (h : r ∈ (Op.insert clash row).apply rows) (hnew : r ∉ rows) :
    r = row ∧ ¬ rows.any clash := by
  rw [apply_insert] at h
  split at h
  · exact absurd h hnew
  · rename_i hfree
    exact ⟨List.mem_singleton.mp ((List.mem_append.mp h).resolve_left hnew), hfree⟩

/-- An update that keeps each selected row related keeps the table. -/
theorem evolves_update (hrel : ∀ r, rel r r) (h : ∀ r ∈ rows, sel r → rel r (data r)) :
    Evolves rel rows ((Op.update sel data).apply rows) := by
  intro r hr
  refine ⟨_, mem_update.mpr ⟨r, hr, rfl⟩, ?_⟩
  split
  · rename_i hsel
    exact h r hr hsel
  · exact hrel r

theorem evolves_insert (hrel : ∀ r, rel r r) :
    Evolves rel rows ((Op.insert clash row).apply rows) := by
  intro r hr
  refine ⟨r, ?_, hrel r⟩
  rw [apply_insert]
  split
  · exact hr
  · exact List.mem_append_left _ hr

/-- An update that leaves the keys alone leaves them distinct. -/
theorem map_update {key : R → K} (hkey : ∀ r, key (data r) = key r) :
    ((Op.update sel data).apply rows).map key = rows.map key := by
  simp only [Op.apply, List.map_map]
  refine List.map_congr_left fun r _ => ?_
  simp only [Function.comp_apply]
  split
  · exact hkey r
  · rfl

/-- A row is found by its key after an update that leaves the keys alone. -/
theorem find?_update [DecidableEq K] {key : R → K} (hkey : ∀ r, key (data r) = key r) (k : K) :
    ((Op.update sel data).apply rows).find? (key · = k) =
      (rows.find? (key · = k)).map fun r => if sel r then data r else r := by
  unfold Op.apply
  rw [List.find?_map]
  congr 2
  funext r
  simp only [Function.comp_apply]
  split
  · rw [hkey]
  · rfl

/-- A row is inserted under a new key. -/
theorem nodup_insert {key : R → K} (hclash : ∀ r, key r = key row → clash r)
    (h : (rows.map key).Nodup) : (((Op.insert clash row).apply rows).map key).Nodup := by
  rw [apply_insert]
  split
  · exact h
  · rename_i hnone
    rw [List.map_append, List.map_singleton]
    refine List.Nodup.append h (by simp) fun k hk hrow => ?_
    obtain ⟨r, hr, rfl⟩ := List.mem_map.mp hk
    exact hnone (List.any_eq_true.mpr ⟨r, hr, hclash r (by simpa using hrow)⟩)

/-- An update that selects no more rows for a count, and takes one out of it if there is one to take. -/
theorem countP_update_add {p : R → Bool} (hkeep : ∀ r ∈ rows, sel r → p (data r) → p r)
    {taken : Prop} [Decidable taken]
    (htaken : taken → ∃ r ∈ rows, p r ∧ sel r ∧ ¬ p (data r)) :
    ((Op.update sel data).apply rows).countP p + (if taken then 1 else 0) ≤ rows.countP p := by
  have hle : ∀ rows : List R, (∀ r ∈ rows, sel r → p (data r) → p r) →
      (rows.map fun r => if sel r then data r else r).countP p ≤ rows.countP p ∧
        ((∃ r ∈ rows, p r ∧ sel r ∧ ¬ p (data r)) →
          (rows.map fun r => if sel r then data r else r).countP p < rows.countP p) := by
    intro rows
    induction rows with
    | nil => simp
    | cons r rows ih =>
      intro hkeep
      obtain ⟨ihle, ihlt⟩ := ih fun r hr => hkeep r (List.mem_cons_of_mem _ hr)
      have hhead := hkeep r List.mem_cons_self
      have hone : (if p (if sel r then data r else r) then 1 else 0) ≤ if p r then 1 else 0 := by
        by_cases hsel : sel r
        · by_cases hp : p (data r)
          · simp [hsel, hp, hhead hsel hp]
          · simp [hsel, hp]
        · simp [hsel]
      simp only [List.map_cons, List.countP_cons, List.exists_mem_cons_iff]
      refine ⟨by omega, ?_⟩
      rintro (⟨hp, hsel, hnot⟩ | hrest)
      · simp only [hsel, hnot, hp, if_true, if_false, Bool.false_eq_true]
        omega
      · have := ihlt hrest
        omega
  obtain ⟨hle', hlt⟩ := hle rows hkeep
  show (rows.map fun r => if sel r then data r else r).countP p + _ ≤ _
  split
  · rename_i h
    have := hlt (htaken h)
    omega
  · exact hle'

/-- A row is inserted. -/
theorem countP_insert_le {p : R → Bool} :
    ((Op.insert clash row).apply rows).countP p ≤
      rows.countP p + if p row ∧ ¬ rows.any clash then 1 else 0 := by
  rw [apply_insert]
  split
  · exact Nat.le_add_right _ _
  · rename_i hfree
    rw [List.countP_append, List.countP_singleton]
    simp [hfree]

/-- An update of the row of one key adds to a sum what it adds to that row. -/
theorem sum_update_le {key : R → K} {k : K} {f : R → Nat} {n : Nat} (hnodup : (rows.map key).Nodup)
    (hsel : ∀ r, sel r → key r = k) (h : ∀ r ∈ rows, sel r → f (data r) ≤ f r + n) :
    (((Op.update sel data).apply rows).map f).sum ≤ (rows.map f).sum + n := by
  show ((rows.map fun r => if sel r then data r else r).map f).sum ≤ _
  induction rows with
  | nil => exact Nat.zero_le _
  | cons r rows ih =>
    obtain ⟨hnot, hrest⟩ := List.nodup_cons.mp hnodup
    simp only [List.map_cons, List.sum_cons]
    by_cases hr : sel r
    · -- No other row has the key of this one.
      have hsame : rows.map (fun r => if sel r then data r else r) = rows := by
        refine (List.map_congr_left fun r' hr' => if_neg fun hsel' => hnot ?_).trans (List.map_id rows)
        exact ((hsel r hr).trans (hsel r' hsel').symm) ▸ List.mem_map_of_mem hr'
      have hone := h r List.mem_cons_self hr
      rw [if_pos hr, hsame]
      omega
    · have hothers := ih hrest fun r' hr' => h r' (List.mem_cons_of_mem _ hr')
      rw [if_neg hr]
      omega

theorem sum_insert_le {f : R → Nat} :
    (((Op.insert clash row).apply rows).map f).sum ≤ (rows.map f).sum + f row := by
  rw [apply_insert]
  split
  · exact Nat.le_add_right _ _
  · simp

end Table
