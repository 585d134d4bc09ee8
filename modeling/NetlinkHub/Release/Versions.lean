import NetlinkHub.Release.Manifest
import Mathlib.Data.Char
import Mathlib.Data.List.Lex
import Mathlib.Data.Prod.Lex
import Mathlib.Order.WithBot

/-! # The order of versions

Whatever two strings are, `CompareVersions` compares their ranks: three numbers, the first one deciding
first, and then the suffix, with no suffix above all others (`compareVersions_eq`). Ranks are linearly
ordered, so the comparison is a total preorder (`compareVersions_preorder`). -/

namespace Release

/-! ## Comparison of ranks -/

section ThreeWay

variable {α : Type} [LinearOrder α] {a b : α}

/-- -1, 0 or 1, as the first is the lesser, neither is, or the second is. -/
def threeWay (a b : α) : Int := if a < b then -1 else if b < a then 1 else 0

theorem threeWay_of_lt (h : a < b) : threeWay a b = -1 := if_pos h

theorem threeWay_of_gt (h : b < a) : threeWay a b = 1 := by
  rw [threeWay, if_neg (lt_asymm h), if_pos h]

@[simp] theorem threeWay_self (a : α) : threeWay a a = 0 := by
  rw [threeWay, if_neg (lt_irrefl a), if_neg (lt_irrefl a)]

theorem threeWay_swap (a b : α) : threeWay a b = -threeWay b a := by
  rcases lt_trichotomy a b with h | rfl | h
  · rw [threeWay_of_lt h, threeWay_of_gt h]
  · rw [threeWay_self, Int.neg_zero]
  · rw [threeWay_of_gt h, threeWay_of_lt h, Int.neg_neg]

theorem threeWay_nonneg : 0 ≤ threeWay a b ↔ b ≤ a := by
  rcases lt_trichotomy a b with h | rfl | h
  · simp [threeWay_of_lt h, h]
  · simp
  · simp [threeWay_of_gt h, h.le]

theorem threeWay_pos : 0 < threeWay a b ↔ b < a := by
  rcases lt_trichotomy a b with h | rfl | h
  · simp [threeWay_of_lt h, h.le]
  · simp
  · simp [threeWay_of_gt h, h]

/-- Pairs are compared by their first parts, and then by their second ones. -/
theorem threeWay_toLex {β : Type} [LinearOrder β] (a a' : α) (b b' : β) :
    threeWay (toLex (a, b)) (toLex (a', b')) = if threeWay a a' ≠ 0 then threeWay a a' else threeWay b b' := by
  rcases lt_trichotomy a a' with h | rfl | h
  · rw [threeWay_of_lt h, threeWay_of_lt (Prod.Lex.toLex_lt_toLex.mpr (.inl h)), if_pos (by decide)]
  · rw [threeWay_self, if_neg (not_not.mpr rfl)]
    simp [threeWay, Prod.Lex.toLex_lt_toLex]
  · rw [threeWay_of_gt h, threeWay_of_gt (Prod.Lex.toLex_lt_toLex.mpr (.inl h)), if_pos (by decide)]

end ThreeWay

/-! ## The rank of a version -/

/-- The place of a suffix: no suffix comes after all others. -/
def suffixRank (pre : List Char) : WithTop (List Char) := if pre = [] then ⊤ else (pre : WithTop (List Char))

/-- The rank of any string as a version. -/
def versionRank (version : String) : List Int ×ₗ WithTop (List Char) :=
  toLex ((splitVersion version).1, suffixRank (splitVersion version).2)

theorem length_splitVersion (version : String) : (splitVersion version).1.length = 3 := by
  simp [splitVersion]

/-- As many numbers are compared as lists. -/
theorem compareCore_eq {as bs : List Int} (h : as.length = bs.length) : compareCore as bs = threeWay as bs := by
  induction as generalizing bs with
  | nil =>
    obtain rfl := List.eq_nil_of_length_eq_zero h.symm
    rfl
  | cons a as ih =>
    obtain ⟨b, bs, rfl⟩ := List.exists_cons_of_length_eq_add_one h.symm
    rw [compareCore]
    rcases lt_trichotomy a b with hlt | rfl | hgt
    · rw [if_pos hlt.ne, if_pos hlt, threeWay_of_lt (List.cons_lt_cons_iff.mpr (.inl hlt))]
    · rw [if_neg (not_not.mpr rfl), ih (Nat.succ.inj h)]
      have hcons : ∀ {xs ys : List Int}, a :: xs < a :: ys ↔ xs < ys := by simp
      rcases lt_trichotomy as bs with hlt | rfl | hgt
      · rw [threeWay_of_lt hlt, threeWay_of_lt (hcons.mpr hlt)]
      · rw [threeWay_self, threeWay_self]
      · rw [threeWay_of_gt hgt, threeWay_of_gt (hcons.mpr hgt)]
    · rw [if_pos hgt.ne', if_neg (lt_asymm hgt), threeWay_of_gt (List.cons_lt_cons_iff.mpr (.inl hgt))]

theorem comparePre_eq (a b : List Char) : comparePre a b = threeWay (suffixRank a) (suffixRank b) := by
  unfold comparePre suffixRank
  by_cases ha : a = []
  · by_cases hb : b = []
    · simp [ha, hb]
    · simp [ha, hb, threeWay]
  · by_cases hb : b = []
    · simp [ha, hb, threeWay]
    · simp [ha, hb, threeWay]

/-- **What is compared** is the rank. -/
theorem compareVersions_eq (a b : String) : compareVersions a b = threeWay (versionRank a) (versionRank b) := by
  have hlength := (length_splitVersion a).trans (length_splitVersion b).symm
  rw [versionRank, versionRank, threeWay_toLex, ← comparePre_eq, ← compareCore_eq hlength]
  rfl

/-- **The comparison of versions is a total preorder**, on well-formed and malformed strings alike. -/
theorem compareVersions_preorder (a b c : String) :
    compareVersions a a = 0 ∧ compareVersions a b = -compareVersions b a ∧
      (0 ≤ compareVersions a b → 0 ≤ compareVersions b c → 0 ≤ compareVersions a c ∧
        (0 < compareVersions a b ∨ 0 < compareVersions b c → 0 < compareVersions a c)) := by
  simp only [compareVersions_eq, threeWay_nonneg, threeWay_pos]
  refine ⟨threeWay_self _, threeWay_swap _ _, fun hab hbc => ⟨hbc.trans hab, fun hstrict => ?_⟩⟩
  rcases hstrict with hstrict | hstrict
  · exact hbc.trans_lt hstrict
  · exact hstrict.trans_le hab

end Release
