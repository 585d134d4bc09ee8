import Mathlib.Algebra.GroupWithZero.Nat
import Mathlib.Data.List.Infix
import Mathlib.Data.List.Basic

/-! # Delimited text

A list of fields joined by one separator, with no length prefixes. This file collects when such a
text can be cut back into its fields: a field is determined by the text once the number of
separators it contains is known (`append_inj_of_count`), a whole list of fields once their number is
known and one side is separator-free (`intercalate_inj_of_length`). -/

namespace Delimited

variable {α : Type*} {sep : α}

/-- A remainder that a field can be cut from: the end of the text, or a separator. -/
def AtBoundary (sep : α) (x : List α) : Prop := x = [] ∨ ∃ t, x = sep :: t

@[simp] theorem atBoundary_nil : AtBoundary sep ([] : List α) := Or.inl rfl

@[simp] theorem atBoundary_cons (t : List α) : AtBoundary sep (sep :: t) := Or.inr ⟨t, rfl⟩

variable [DecidableEq α]

/-- A nonempty prefix of a remainder at a boundary starts with the separator. -/
theorem AtBoundary.count_pos {d y : List α} (h : AtBoundary sep (d ++ y)) (hd : d ≠ []) :
    0 < d.count sep := by
  obtain ⟨c, d', rfl⟩ := List.exists_cons_of_ne_nil hd
  rcases h with h | ⟨t, h⟩
  · simp at h
  · rw [List.cons_append, List.cons.injEq] at h
    rw [h.1, List.count_cons_self]
    omega

/-- **Cutting by count.** Two texts that agree, each a field followed by a boundary, agree field by
field as soon as the two fields contain equally many separators. -/
theorem append_inj_of_count {a b x y : List α} (hx : AtBoundary sep x) (hy : AtBoundary sep y)
    (hc : a.count sep = b.count sep) (h : a ++ x = b ++ y) : a = b ∧ x = y := by
  rcases List.append_eq_append_iff.mp h with ⟨d, rfl, rfl⟩ | ⟨d, rfl, rfl⟩
  · by_cases hd : d = []
    · simp [hd]
    · have := hx.count_pos hd
      rw [List.count_append] at hc
      omega
  · by_cases hd : d = []
    · simp [hd]
    · have := hy.count_pos hd
      rw [List.count_append] at hc
      omega

/-- Separator-free fields are cut at the first separator. -/
theorem append_inj_of_notMem {a b x y : List α} (hx : AtBoundary sep x) (hy : AtBoundary sep y)
    (ha : sep ∉ a) (hb : sep ∉ b) (h : a ++ x = b ++ y) : a = b ∧ x = y :=
  append_inj_of_count hx hy (by rw [List.count_eq_zero.mpr ha, List.count_eq_zero.mpr hb]) h

/-- Two texts that agree and whose first fields contain equally many separators agree on the first
field and on what follows the separator after it. -/
theorem cons_inj_of_count {a b x y : List α} (hc : a.count sep = b.count sep)
    (h : a ++ sep :: x = b ++ sep :: y) : a = b ∧ x = y := by
  obtain ⟨hab, hxy⟩ := append_inj_of_count (atBoundary_cons x) (atBoundary_cons y) hc h
  exact ⟨hab, (List.cons.injEq .. ▸ hxy).2⟩

/-! ## Whole lists of fields -/

/-- A joined text has the separators of its fields and one more between each two fields. -/
theorem count_intercalate (a : List α) (l : List (List α)) :
    ([sep].intercalate (a :: l)).count sep
      = l.length + ((a :: l).map (List.count sep)).sum := by
  induction l generalizing a with
  | nil => simp
  | cons b l ih =>
      rw [List.intercalate_cons_cons, List.count_append, List.count_append, ih,
        List.count_singleton_self]
      simp only [List.length_cons, List.map_cons, List.sum_cons]
      omega

/-- **A separator-free list of fields is the only list of its length with its text.** The other side
is arbitrary: it is shown to be separator-free too, by counting. -/
theorem intercalate_inj_of_length {xs ys : List (List α)} (hlen : xs.length = ys.length)
    (hys : ∀ y ∈ ys, sep ∉ y) (h : [sep].intercalate xs = [sep].intercalate ys) : xs = ys := by
  cases xs with
  | nil => exact (List.length_eq_zero_iff.mp hlen.symm).symm
  | cons a l =>
    cases ys with
    | nil => simp at hlen
    | cons b k =>
      have hk : ((b :: k).map (List.count sep)).sum = 0 := by
        rw [List.sum_eq_zero_iff_forall_eq_nat]
        intro n hn
        obtain ⟨y, hy, rfl⟩ := List.mem_map.mp hn
        exact List.count_eq_zero.mpr (hys y hy)
      have hc := congrArg (List.count sep) h
      rw [count_intercalate, count_intercalate, hk] at hc
      have hl : ((a :: l).map (List.count sep)).sum = 0 := by
        simp only [List.length_cons] at hlen
        omega
      have hxs : ∀ x ∈ a :: l, sep ∉ x := fun x hx =>
        List.count_eq_zero.mp (List.sum_eq_zero_iff_forall_eq_nat.mp hl _ (List.mem_map_of_mem hx))
      rw [← List.splitOn_intercalate sep hxs (by simp), h,
        List.splitOn_intercalate sep hys (by simp)]

omit [DecidableEq α] in
/-- A joined text of two groups of fields: the second group comes with a separator before each. -/
theorem intercalate_append {xs : List (List α)} (hxs : xs ≠ []) (ys : List (List α)) :
    [sep].intercalate (xs ++ ys) = [sep].intercalate xs ++ ys.flatMap (sep :: ·) := by
  have htail : ∀ (a : List α) (ys : List (List α)),
      [sep].intercalate (a :: ys) = a ++ ys.flatMap (sep :: ·) := by
    intro a ys
    induction ys generalizing a with
    | nil => simp
    | cons b ys ih => rw [List.intercalate_cons_cons, ih, List.flatMap_cons]; simp
  obtain ⟨a, xs, rfl⟩ := List.exists_cons_of_ne_nil hxs
  rw [List.cons_append, htail, htail, List.flatMap_append, List.append_assoc]

omit [DecidableEq α] in
/-- Fields that each come with a separator before them start at a boundary. -/
theorem atBoundary_flatMap (ys : List (List α)) : AtBoundary sep (ys.flatMap (sep :: ·)) := by
  cases ys <;> simp

/-- **Lists of fields with equal counts are equal**: field by field, what follows at a boundary. -/
theorem intercalate_inj_of_counts {xs ys : List (List α)} {s t : List α} (hs : AtBoundary sep s)
    (ht : AtBoundary sep t) (hxs : xs ≠ [])
    (hc : List.Forall₂ (fun x y => x.count sep = y.count sep) xs ys)
    (h : [sep].intercalate xs ++ s = [sep].intercalate ys ++ t) : xs = ys ∧ s = t := by
  induction hc with
  | nil => exact absurd rfl hxs
  | @cons a b xs ys hab hc ih =>
    cases hc with
    | nil =>
      rw [List.intercalate_singleton, List.intercalate_singleton] at h
      obtain ⟨rfl, rfl⟩ := append_inj_of_count hs ht hab h
      exact ⟨rfl, rfl⟩
    | cons hcd hc =>
      simp only [List.intercalate_cons_cons, List.append_assoc, List.singleton_append] at h
      obtain ⟨rfl, hrest⟩ := cons_inj_of_count hab h
      obtain ⟨htails, rfl⟩ := ih (by simp) hrest
      exact ⟨by rw [htails], rfl⟩

/-! ## Cutting at every separator -/

/-- The pieces of a text consist of its letters and contain no separator. -/
theorem mem_and_ne_of_mem_splitOn {l p : List α} (hp : p ∈ l.splitOn sep) :
    ∀ c ∈ p, c ∈ l ∧ c ≠ sep := by
  induction l generalizing p with
  | nil =>
    rw [List.splitOn_nil, List.mem_singleton] at hp
    simp [hp]
  | cons d l ih =>
    rw [List.splitOn_cons_eq_if_modifyHead] at hp
    split at hp
    · rcases List.mem_cons.mp hp with rfl | hp
      · simp
      · exact fun c hc => ⟨List.mem_cons_of_mem d (ih hp c hc).1, (ih hp c hc).2⟩
    · rename_i hd
      obtain ⟨q, qs, hq⟩ := List.exists_cons_of_ne_nil (List.splitOn_ne_nil sep l)
      rw [hq, List.modifyHead_cons] at hp
      rcases List.mem_cons.mp hp with rfl | hp
      · intro c hc
        rcases List.mem_cons.mp hc with rfl | hc
        · exact ⟨List.mem_cons_self, by simpa using hd⟩
        · have := ih (p := q) (by simp [hq]) c hc
          exact ⟨List.mem_cons_of_mem d this.1, this.2⟩
      · have := ih (p := p) (by simp [hq, hp])
        exact fun c hc => ⟨List.mem_cons_of_mem d (this c hc).1, (this c hc).2⟩

/-- What occurs in a joined text occurs in the separator or in a field. -/
theorem mem_of_mem_intercalate {α : Type*} {c : α} {seps : List α} {fields : List (List α)}
    (h : c ∈ seps.intercalate fields) : c ∈ seps ∨ ∃ x ∈ fields, c ∈ x := by
  induction fields with
  | nil => cases h
  | cons x fields ih =>
    cases fields with
    | nil => exact .inr ⟨x, by simp, by simpa using h⟩
    | cons y fields =>
      rw [List.intercalate_cons_cons, List.mem_append, List.mem_append] at h
      rcases h with (h | h) | h
      · exact .inr ⟨x, by simp, h⟩
      · exact .inl h
      · exact (ih h).imp_right fun ⟨z, hz, hc⟩ => ⟨z, by simp [hz], hc⟩

end Delimited
