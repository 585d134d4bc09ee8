import NetlinkHub.Go.Time
import Mathlib.Tactic.NormNum.DivMod

/-! # The calendar

Days counted from 1970 and dates of the Gregorian calendar. A day is taken apart into its 400-year cycle
and the century, four years and year in it (`CycleDay`); from there its date is a valid one
(`validDate_civil`), and the day is the day of this date (`dayNumber_civil`). -/

namespace Time

/-- Leap years. -/
def isLeap (year : Int) : Bool := year % 4 = 0 ∧ (year % 100 ≠ 0 ∨ year % 400 = 0)

/-- `daysIn`. -/
def daysIn (month year : Int) : Int :=
  if month = 2 then (if isLeap year then 29 else 28) else 30 + (month + month / 8) % 2

/-- The day of a date, counted from 1970. -/
def dayNumber (year month day : Int) : Int :=
  let y := if month ≤ 2 then year - 1 else year
  let march := if month ≤ 2 then month + 9 else month - 3
  365 * y + y / 4 - y / 100 + y / 400 + (153 * march + 2) / 5 + day - 1 - 719468

/-- A date of the calendar. -/
structure ValidDate (year month day : Int) : Prop where
  ofYear : 1 ≤ month ∧ month ≤ 12
  ofMonth : 1 ≤ day ∧ day ≤ daysIn month year

/-- A day of the 400-year cycle that starts in March, by its century, the four years in it, the year of
these and the day of the year. -/
structure CycleDay (c f y r : Int) : Prop where
  century : 0 ≤ c ∧ c ≤ 3
  fours : 0 ≤ f ∧ f ≤ 24
  year : 0 ≤ y ∧ y ≤ 3
  day : 0 ≤ r ∧ r ≤ 365
  leap : r = 365 → y = 3 ∧ (f = 24 → c = 3)

variable {c f y r d : Int}

theorem exists_cycleDay (h : 0 ≤ d) (h' : d < 146097) :
    ∃ c f y r, CycleDay c f y r ∧ d = 36524 * c + 1461 * f + 365 * y + r := by
  have hcentury : ∃ c, (0 ≤ c ∧ c ≤ 3) ∧ 0 ≤ d - 36524 * c ∧ d - 36524 * c ≤ 36524 ∧
      (d - 36524 * c = 36524 → c = 3) :=
    ⟨if d = 146096 then 3 else d / 36524, by omega⟩
  obtain ⟨c, hc, hrest, hrest', hlast⟩ := hcentury
  have hyear : ∃ y, (0 ≤ y ∧ y ≤ 3) ∧ 0 ≤ (d - 36524 * c) % 1461 - 365 * y ∧
      (d - 36524 * c) % 1461 - 365 * y ≤ 365 ∧ ((d - 36524 * c) % 1461 - 365 * y = 365 → y = 3) :=
    ⟨if (d - 36524 * c) % 1461 = 1460 then 3 else (d - 36524 * c) % 1461 / 365, by omega⟩
  obtain ⟨y, hy, hday, hday', hleap⟩ := hyear
  exact ⟨c, (d - 36524 * c) / 1461, y, (d - 36524 * c) % 1461 - 365 * y,
    ⟨hc, by omega, hy, ⟨hday, hday'⟩, by omega⟩, by omega⟩

/-- The year of the cycle. -/
theorem CycleDay.yearOfCycle (h : CycleDay c f y r) (hd : d = 36524 * c + 1461 * f + 365 * y + r) :
    (d - d / 1460 + d / 36524 - d / 146096) / 365 = 100 * c + 4 * f + y := by
  obtain ⟨hc, hf, hy, hr, hleap⟩ := h
  have hquarter : d / 1460 = 25 * c + f ∧ r < 365 ∨ d / 1460 = 25 * c + f + 1 ∧ 1 ≤ r := by
    omega
  have hcentury : d / 36524 - d / 146096 = c := by
    have hrest : d - 36524 * c ≤ 36524 ∧ (d - 36524 * c = 36524 → c = 3) := by omega
    -- Only the last day of the cycle is outside the four centuries.
    by_cases hlast : d = 146096
    · omega
    · have hzero : d / 146096 = 0 := by omega
      omega
  omega

/-- The day of the year. -/
theorem CycleDay.dayOfYear (h : CycleDay c f y r) (hd : d = 36524 * c + 1461 * f + 365 * y + r) :
    d - (365 * (100 * c + 4 * f + y) + (100 * c + 4 * f + y) / 4 - (100 * c + 4 * f + y) / 100) = r := by
  obtain ⟨hc, hf, hy, hr, -⟩ := h
  have hfours : (100 * c + 4 * f + y) / 4 = 25 * c + f := by omega
  have hcentury : (100 * c + 4 * f + y) / 100 = c := by omega
  omega

/-- A year of a cycle that has a last day of February is a leap year. -/
theorem CycleDay.isLeap (h : CycleDay c f y 365) (k : Int) :
    isLeap (400 * k + 100 * c + 4 * f + y + 1) := by
  obtain ⟨hc, hf, -, -, hleap⟩ := h
  obtain ⟨rfl, hlast⟩ := hleap rfl
  have hfour : (400 * k + 100 * c + 4 * f + 3 + 1) % 4 = 0 := by omega
  have hcentury : (400 * k + 100 * c + 4 * f + 3 + 1) % 100 ≠ 0 ∨
      (400 * k + 100 * c + 4 * f + 3 + 1) % 400 = 0 := by
    by_cases h24 : f = 24
    · have := hlast h24
      right
      omega
    · left
      omega
  exact decide_eq_true ⟨hfour, hcentury⟩

/-- The month that many months after March. -/
def monthOf (march : Int) : Int := if march < 10 then march + 3 else march - 9

/-- A day of a cycle as a date. -/
theorem civil_cycleDay (h : CycleDay c f y r) (k : Int) :
    civil (146097 * k + (36524 * c + 1461 * f + 365 * y + r) - 719468) =
      (400 * k + 100 * c + 4 * f + y + (if monthOf ((5 * r + 2) / 153) ≤ 2 then 1 else 0),
        monthOf ((5 * r + 2) / 153), r - (153 * ((5 * r + 2) / 153) + 2) / 5 + 1) := by
  obtain ⟨d, hd⟩ : ∃ d, d = 36524 * c + 1461 * f + 365 * y + r := ⟨_, rfl⟩
  have hbounds : 0 ≤ d ∧ d < 146097 := by
    obtain ⟨hc, hf, hy, hr, -⟩ := h
    omega
  have hcycle : (146097 * k + d - 719468 + 719468) / 146097 = k := by omega
  have hrest : (146097 * k + d - 719468 + 719468) % 146097 = d := by omega
  have hsum : 100 * c + 4 * f + y + k * 400 = 400 * k + 100 * c + 4 * f + y := by omega
  rw [← hd]
  unfold civil monthOf
  simp only [hcycle, hrest, h.yearOfCycle hd, h.dayOfYear hd, hsum]

theorem exists_split (days : Int) : ∃ k c f y r, CycleDay c f y r ∧
    days = 146097 * k + (36524 * c + 1461 * f + 365 * y + r) - 719468 := by
  have hlow : 0 ≤ (days + 719468) % 146097 := by omega
  have hhigh : (days + 719468) % 146097 < 146097 := by omega
  obtain ⟨c, f, y, r, h, hd⟩ := exists_cycleDay hlow hhigh
  exact ⟨(days + 719468) / 146097, c, f, y, r, h, by omega⟩

/-- **A day is a valid date.** -/
theorem validDate_civil (days : Int) :
    ValidDate (civil days).1 (civil days).2.1 (civil days).2.2 := by
  obtain ⟨k, c, f, y, r, h, rfl⟩ := exists_split days
  rw [civil_cycleDay h k]
  obtain ⟨hr, hr'⟩ := h.day
  obtain ⟨march, hm⟩ : ∃ march, march = (5 * r + 2) / 153 := ⟨_, rfl⟩
  rw [← hm]
  have hcases : march = 0 ∨ march = 1 ∨ march = 2 ∨ march = 3 ∨ march = 4 ∨ march = 5 ∨ march = 6 ∨
      march = 7 ∨ march = 8 ∨ march = 9 ∨ march = 10 ∨ march = 11 := by omega
  by_cases hfeb : march = 11
  · subst hfeb
    refine ⟨by simp [monthOf], ?_⟩
    show 1 ≤ r - 337 + 1 ∧ r - 337 + 1 ≤ if isLeap (400 * k + 100 * c + 4 * f + y + 1) then 29 else 28
    by_cases hlast : r = 365
    · subst hlast
      rw [if_pos (h.isLeap k)]
      omega
    · split <;> omega
  · rcases hcases with rfl | rfl | rfl | rfl | rfl | rfl | rfl | rfl | rfl | rfl | rfl | rfl
    all_goals
      refine ⟨by simp [monthOf], ?_⟩
      simp only [monthOf, daysIn]
      norm_num
      omega

/-- **A day is the day of its date.** -/
theorem dayNumber_civil (days : Int) :
    dayNumber (civil days).1 (civil days).2.1 (civil days).2.2 = days := by
  obtain ⟨k, c, f, y, r, h, rfl⟩ := exists_split days
  rw [civil_cycleDay h k]
  obtain ⟨hc, hf, hy, hr, -⟩ := h
  obtain ⟨march, hm⟩ : ∃ march, march = (5 * r + 2) / 153 := ⟨_, rfl⟩
  have hle : 0 ≤ march ∧ march ≤ 11 := by omega
  rw [← hm]
  obtain ⟨w, hw⟩ : ∃ w, w = 400 * k + 100 * c + 4 * f + y := ⟨_, rfl⟩
  have hfours : w / 4 = 100 * k + 25 * c + f := by omega
  have hcentury : w / 100 = 4 * k + c := by omega
  have hcycle : w / 400 = k := by omega
  rw [← hw]
  have hback : (if monthOf march ≤ 2 then monthOf march + 9 else monthOf march - 3) = march := by
    unfold monthOf
    split <;> split <;> omega
  have hyear : (if monthOf march ≤ 2 then w + (if monthOf march ≤ 2 then 1 else 0) - 1
      else w + if monthOf march ≤ 2 then 1 else 0) = w := by
    split <;> omega
  simp only [dayNumber, hback, hyear, hfours, hcentury, hcycle]
  omega

end Time
