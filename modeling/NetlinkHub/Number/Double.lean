import Mathlib.Algebra.Order.Field.Power
import Mathlib.Data.Rat.Cast.Order
import Mathlib.Tactic.FieldSimp
import Mathlib.Tactic.Linarith
import Mathlib.Tactic.Positivity
import Mathlib.Tactic.Ring

/-! # Doubles

The finite numbers of the format binary64. What rounds to such a number is an interval around it, whose
ends belong to it when the significand is even (`Double.Rounds`). -/

/-- A finite number of 64 bits. -/
structure Double where
  negative : Bool
  significand : ℕ
  exponent : ℤ
  significand_lt : significand < 2 ^ 53
  exponent_le : exponent ≤ 971
  /-- Only the least exponent has significands without the leading bit. -/
  canonical : 2 ^ 52 ≤ significand ∧ -1074 ≤ exponent ∨ exponent = -1074

namespace Double

variable {d : Double} {v w : ℚ}

/-! ## Magnitudes -/

/-- The number without its sign. -/
def magnitude (d : Double) : ℚ := d.significand * 2 ^ d.exponent

/-- It has no fraction. -/
def IsInteger (d : Double) : Prop := 0 ≤ d.exponent ∨ 2 ^ (-d.exponent).toNat ∣ d.significand

instance : DecidablePred IsInteger := fun _ => inferInstanceAs (Decidable (_ ∨ _))

/-- The number without its sign and its fraction. -/
def natAbs (d : Double) : ℕ :=
  if 0 ≤ d.exponent then d.significand * 2 ^ d.exponent.toNat else d.significand / 2 ^ (-d.exponent).toNat

theorem natAbs_cast (h : d.IsInteger) : (d.natAbs : ℚ) = d.magnitude := by
  unfold natAbs magnitude
  by_cases he : 0 ≤ d.exponent
  · obtain ⟨n, hn⟩ := Int.eq_ofNat_of_zero_le he
    simp [hn]
  · obtain ⟨n, hn⟩ := Int.eq_ofNat_of_zero_le (a := -d.exponent) (by omega)
    obtain ⟨m, hm⟩ := h.resolve_left he
    have hexp : d.exponent = -(n : ℤ) := by omega
    have htwo : (2 : ℚ) ^ n ≠ 0 := by positivity
    rw [if_neg he, hm, Nat.mul_div_cancel_left _ (by positivity), hexp]
    simp only [neg_neg, Int.toNat_natCast, Nat.cast_mul, Nat.cast_pow, Nat.cast_ofNat, zpow_neg, zpow_natCast]
    field_simp

/-! ## Rounding -/

/-- A quarter of the distance to the next number. -/
def quarter (d : Double) : ℚ := 2 ^ (d.exponent - 2)

/-- Half-way to the number below, which is half as far away where the exponent changes. -/
def lower (d : Double) : ℚ :=
  (4 * d.significand - if d.significand = 2 ^ 52 ∧ d.exponent ≠ -1074 then 1 else 2) * d.quarter

/-- Half-way to the number above. -/
def upper (d : Double) : ℚ := (4 * d.significand + 2) * d.quarter

/-- A magnitude rounds to that of the number: to the nearest, and half-way to the even one. -/
def Rounds (d : Double) (v : ℚ) : Prop :=
  if d.significand % 2 = 0 then d.lower ≤ v ∧ v ≤ d.upper else d.lower < v ∧ v < d.upper

instance (d : Double) : DecidablePred d.Rounds := fun _ => by
  unfold Rounds
  infer_instance

theorem quarter_pos (d : Double) : 0 < d.quarter := by
  unfold quarter
  positivity

theorem magnitude_eq (d : Double) : d.magnitude = 4 * d.significand * d.quarter := by
  rw [magnitude, quarter, zpow_sub₀ two_ne_zero]
  ring

theorem Rounds.bounds (h : d.Rounds v) : d.lower ≤ v ∧ v ≤ d.upper := by
  unfold Rounds at h
  split at h
  · exact h
  · exact ⟨h.1.le, h.2.le⟩

theorem rounds_magnitude (d : Double) : d.Rounds d.magnitude := by
  have hlower : d.lower < d.magnitude := by
    rw [magnitude_eq, lower]
    refine mul_lt_mul_of_pos_right ?_ d.quarter_pos
    split <;> linarith
  have hupper : d.magnitude < d.upper := by
    rw [magnitude_eq, upper]
    exact mul_lt_mul_of_pos_right (by linarith) d.quarter_pos
  unfold Rounds
  split
  · exact ⟨hlower.le, hupper.le⟩
  · exact ⟨hlower, hupper⟩

/-- Whatever is between two magnitudes that round to the number rounds to it. -/
theorem Rounds.between {u : ℚ} (h : d.Rounds v) (h' : d.Rounds w) (hle : v ≤ u) (hle' : u ≤ w) : d.Rounds u := by
  unfold Rounds at h h' ⊢
  split at h
  · rename_i heven
    rw [if_pos heven] at h' ⊢
    exact ⟨h.1.trans hle, hle'.trans h'.2⟩
  · rename_i hodd
    rw [if_neg hodd] at h' ⊢
    exact ⟨h.1.trans_le hle, hle'.trans_lt h'.2⟩

/-! ## Integers -/

/-- A number from one on has all its bits. -/
theorem significand_ge (h : 1 ≤ d.magnitude) : 2 ^ 52 ≤ d.significand := by
  rcases d.canonical with hcanonical | hleast
  · exact hcanonical.1
  · exfalso
    have hlt : (d.significand : ℚ) < 2 ^ 53 := by exact_mod_cast d.significand_lt
    have hsmall : (2 : ℚ) ^ (-1074 : ℤ) < 2 ^ (-53 : ℤ) := zpow_lt_zpow_right₀ (by norm_num) (by norm_num)
    have hprod : (d.significand : ℚ) * 2 ^ (-1074 : ℤ) < 2 ^ 53 * 2 ^ (-53 : ℤ) :=
      mul_lt_mul'' hlt hsmall (by positivity) (by positivity)
    have hone : (2 : ℚ) ^ 53 * 2 ^ (-53 : ℤ) = 1 := by norm_num
    rw [magnitude, hleast] at h
    exact absurd (h.trans_lt hprod) (by rw [hone]; exact lt_irrefl 1)

/-- What rounds to a number from one on is about as large. -/
theorem Rounds.near (h : d.Rounds v) (hone : 1 ≤ d.magnitude) :
    99 / 100 * d.magnitude < v ∧ v < 101 / 100 * d.magnitude := by
  obtain ⟨hlower, hupper⟩ := h.bounds
  have hm : (100 : ℚ) ≤ d.significand := by exact_mod_cast le_trans (by norm_num) (significand_ge hone)
  have hquarter := d.quarter_pos
  rw [magnitude_eq]
  constructor
  · refine lt_of_lt_of_le ?_ hlower
    rw [lower, ← mul_assoc]
    refine mul_lt_mul_of_pos_right ?_ hquarter
    split <;> linarith
  · refine lt_of_le_of_lt hupper ?_
    rw [upper, ← mul_assoc]
    refine mul_lt_mul_of_pos_right ?_ hquarter
    linarith

/-- No other integer rounds to a number whose last bit stands for one at most. -/
theorem Rounds.eq_natAbs {n : ℕ} (h : d.Rounds n) (hinteger : d.IsInteger) (he : d.exponent ≤ 0) : n = d.natAbs := by
  obtain ⟨hlower, hupper⟩ := h.bounds
  have hquarter : d.quarter ≤ 2 ^ (-2 : ℤ) := zpow_le_zpow_right₀ (by norm_num) (by omega)
  norm_num at hquarter
  have hmagnitude := (natAbs_cast hinteger).trans d.magnitude_eq
  have hlow : (4 * d.significand - 2) * d.quarter ≤ d.lower := by
    unfold lower
    refine mul_le_mul_of_nonneg_right ?_ d.quarter_pos.le
    split <;> linarith
  rw [upper] at hupper
  have habove : (n : ℚ) < d.natAbs + 1 := by linarith
  have hbelow : (d.natAbs : ℚ) < n + 1 := by linarith
  have habove' : n < d.natAbs + 1 := by exact_mod_cast habove
  have hbelow' : d.natAbs < n + 1 := by exact_mod_cast hbelow
  omega

end Double
