import Mathlib.Algebra.Order.Ring.Nat
import Mathlib.Tactic.Ring

/-! # The shortest digits

A number is to be written with as few digits as possible, where whole numbers in some range around it may
stand for it. Exponents are tried from the greatest downwards, and at each one the multiples of the power of
ten next to the number (`digitsFrom`). What is found stands for the number, no other choice has more zeros
at its end, and none with as many is closer (`digitsFrom_spec`). -/

namespace Shortest

variable (R : ℕ → Prop) [DecidablePred R] (x : ℕ)

/-- The multiple of `p` that stands for the number and is closest to it, as its factor; of two, the even one. -/
def multiple (p : ℕ) : Option ℕ :=
  let below := x / p
  let rest := x % p
  if R (below * p) then
    if R ((below + 1) * p) ∧ (p < 2 * rest ∨ p = 2 * rest ∧ below % 2 = 1) then some (below + 1) else some below
  else if R ((below + 1) * p) then some (below + 1)
  else none

/-- Digits and an exponent, from an exponent downwards. -/
def digitsFrom : ℕ → ℕ × ℕ
  | 0 => (x, 0)
  | e + 1 => match multiple R x (10 ^ (e + 1)) with
    | some s => (s, e + 1)
    | none => digitsFrom e

variable {R x}

/-- What stands for the number is a range around it. -/
structure Around (R : ℕ → Prop) (x : ℕ) : Prop where
  self : R x
  between : ∀ {a b v}, R a → R b → a ≤ v → v ≤ b → R v

/-- How far a number is from another. -/
def distance (v x : ℕ) : ℕ := ((v : ℤ) - x).natAbs

theorem distance_self (x : ℕ) : distance x x = 0 := by simp [distance]

theorem distance_eq_zero {v x : ℕ} : distance v x = 0 ↔ v = x := by
  unfold distance
  omega

/-- Multiples are at most the one below, or at least the one above. -/
theorem multiple_le_or_ge {p : ℕ} (t : ℕ) : t * p ≤ x / p * p ∨ (x / p + 1) * p ≤ t * p := by
  rcases Nat.lt_or_ge (x / p) t with h | h
  · exact .inr (Nat.mul_le_mul_right p h)
  · exact .inl (Nat.mul_le_mul_right p h)

theorem multiple_eq {p : ℕ} (hp : 0 < p) : x = x / p * p + x % p ∧ x % p < p ∧ (x / p + 1) * p = x / p * p + p :=
  ⟨(Nat.div_add_mod' x p).symm, Nat.mod_lt x hp, Nat.succ_mul _ _⟩

variable {s p e j : ℕ}

/-- When nothing is found, no multiple stands for the number. -/
theorem not_of_multiple_eq_none (h : Around R x) (hp : 0 < p) (hnone : multiple R x p = none) (t : ℕ) :
    ¬ R (t * p) := by
  intro ht
  obtain ⟨hx, hrest, habove⟩ := multiple_eq (x := x) hp
  simp only [multiple] at hnone
  split at hnone
  · split at hnone <;> cases hnone
  rename_i hbelow
  split at hnone
  · cases hnone
  rename_i hnot
  rcases multiple_le_or_ge (x := x) (p := p) t with hle | hge
  · exact hbelow (h.between ht h.self hle (by omega))
  · exact hnot (h.between h.self ht (by omega) hge)

/-- What is found stands for the number, and is as close as any other multiple that does. -/
theorem of_multiple_eq_some (h : Around R x) (hp : 0 < p) (hsome : multiple R x p = some s) :
    R (s * p) ∧ ∀ t, R (t * p) → distance (s * p) x ≤ distance (t * p) x := by
  obtain ⟨hx, hrest, habove⟩ := multiple_eq (x := x) hp
  simp only [multiple] at hsome
  split at hsome
  · rename_i hbelow
    split at hsome
    · rename_i hup
      obtain rfl := Option.some.inj hsome
      refine ⟨hup.1, fun t _ => ?_⟩
      rcases multiple_le_or_ge (x := x) (p := p) t with hle | hge <;> unfold distance <;> omega
    · rename_i hdown
      obtain rfl := Option.some.inj hsome
      refine ⟨hbelow, fun t ht => ?_⟩
      rcases multiple_le_or_ge (x := x) (p := p) t with hle | hge
      · unfold distance
        omega
      · -- The one above would have been taken if it were closer.
        have hnext : R ((x / p + 1) * p) := h.between h.self ht (by omega) hge
        have hclose : ¬ p < 2 * (x % p) := fun hlt => hdown ⟨hnext, .inl hlt⟩
        unfold distance
        omega
  · rename_i hbelow
    split at hsome
    · rename_i hup
      obtain rfl := Option.some.inj hsome
      refine ⟨hup, fun t ht => ?_⟩
      rcases multiple_le_or_ge (x := x) (p := p) t with hle | hge
      · exact absurd (h.between ht h.self hle (by omega)) hbelow
      · unfold distance
        omega
    · cases hsome

/-- What the digits and the exponent stand for. -/
def value (r : ℕ × ℕ) : ℕ := r.1 * 10 ^ r.2

/-- **The digits** stand for the number; nothing with more zeros does; and nothing with as many is closer. -/
theorem digitsFrom_spec (h : Around R x) (e : ℕ) :
    R (value (digitsFrom R x e)) ∧
      (∀ j, (digitsFrom R x e).2 < j → j ≤ e → ∀ t, ¬ R (t * 10 ^ j)) ∧
      ∀ t, R (t * 10 ^ (digitsFrom R x e).2) →
        distance (value (digitsFrom R x e)) x ≤ distance (t * 10 ^ (digitsFrom R x e).2) x := by
  induction e with
  | zero =>
    refine ⟨by simpa [digitsFrom, value] using h.self, fun j hlt hle => ?_, fun t _ => ?_⟩
    · have : (digitsFrom R x 0).2 = 0 := rfl
      omega
    · simp [digitsFrom, value, distance_self]
  | succ e ih =>
    have hpow : 0 < 10 ^ (e + 1) := Nat.pow_pos (by decide)
    cases hmultiple : multiple R x (10 ^ (e + 1)) with
    | some s =>
      have heq : digitsFrom R x (e + 1) = (s, e + 1) := by rw [digitsFrom, hmultiple]
      obtain ⟨hstands, hclosest⟩ := of_multiple_eq_some h hpow hmultiple
      rw [heq]
      exact ⟨hstands, fun j hlt hle => absurd hlt (not_lt.mpr hle), hclosest⟩
    | none =>
      have heq : digitsFrom R x (e + 1) = digitsFrom R x e := by rw [digitsFrom, hmultiple]
      obtain ⟨hstands, hzeros, hclosest⟩ := ih
      rw [heq]
      refine ⟨hstands, fun j hlt hle t => ?_, hclosest⟩
      rcases Nat.lt_or_ge e j with hlast | hbefore
      · obtain rfl : j = e + 1 := by omega
        exact not_of_multiple_eq_none h hpow hmultiple t
      · exact hzeros j hlt hbefore t

/-- No whole number with more zeros at its end stands for the number. -/
def Plain (R : ℕ → Prop) (x : ℕ) : Prop := ∀ v j, R v → 10 ^ j ∣ v → 10 ^ j ∣ x

/-- **When the digits are those of the number itself.** -/
theorem value_eq_iff (h : Around R x) (hsmall : ∀ v, R v → 0 < v ∧ v < 10 ^ (e + 1)) :
    value (digitsFrom R x e) = x ↔ Plain R x := by
  obtain ⟨hstands, hzeros, hclosest⟩ := digitsFrom_spec h e
  constructor
  · intro heq v j hv hdvd
    obtain ⟨t, rfl⟩ := hdvd
    rw [Nat.mul_comm] at hv
    by_cases hle : j ≤ (digitsFrom R x e).2
    · rw [← heq]
      exact (pow_dvd_pow 10 hle).mul_left _
    · -- The exponent is one of those that were tried in vain.
      obtain ⟨hpos, hlt⟩ := hsmall _ hv
      have hpow : 10 ^ j < 10 ^ (e + 1) := lt_of_le_of_lt (Nat.le_mul_of_pos_left _ (Nat.pos_of_mul_pos_right hpos)) hlt
      have hj : j < e + 1 := (Nat.pow_lt_pow_iff_right (by decide)).mp hpow
      exact absurd hv (hzeros j (by omega) (by omega) t)
  · intro hplain
    obtain ⟨t, ht⟩ := hplain _ (digitsFrom R x e).2 hstands (Dvd.intro_left _ rfl)
    have hself := h.self
    rw [ht, Nat.mul_comm] at hself
    have hle := hclosest t hself
    rw [Nat.mul_comm, ← ht, distance_self, Nat.le_zero, distance_eq_zero] at hle
    exact hle

end Shortest
