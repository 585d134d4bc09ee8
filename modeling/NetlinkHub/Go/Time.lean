import Mathlib.Order.Lattice
import Mathlib.Data.Int.Order.Basic

/-! # Go's `time.Time`

An instant in nanoseconds, and the one layout every signing input uses,
`2006-01-02T15:04:05.000Z`. Formatting cuts an instant to milliseconds, and its text is one line
(`newline_notMem_format`). -/

/-- An instant: nanoseconds since 1970 UTC. -/
structure Time where
  unixNano : Int
  deriving DecidableEq, Repr

namespace Time

instance : LinearOrder Time :=
  LinearOrder.lift' unixNano fun ⟨_⟩ ⟨_⟩ h => congrArg Time.mk h

theorem le_def {t u : Time} : t ≤ u ↔ t.unixNano ≤ u.unixNano := Iff.rfl

/-- A span of time in nanoseconds. -/
abbrev Duration := Int

/-- `time.Second`. -/
def second : Duration := 1000000000

/-- `Before`. -/
def before (t u : Time) : Bool := t < u

/-- `After`. -/
def after (t u : Time) : Bool := u < t

/-- `Add`. -/
def add (t : Time) (d : Duration) : Time := ⟨t.unixNano + d⟩

/-- `IsZero`: the first instant of the year 1. -/
def isZero (t : Time) : Bool := t.unixNano = -62135596800 * 1000000000

/-- The instant of a JavaScript `Date`. -/
def ofMilli (ms : Int) : Time := ⟨ms * 1000000⟩

/-- Whole milliseconds since 1970. -/
def unixMilli (t : Time) : Int := t.unixNano / 1000000

/-- Year, month and day of a day counted from 1970. Years are counted from March within the 400-year
cycle, so that the leap day is the last of its year. -/
def civil (days : Int) : Int × Int × Int :=
  let z := days + 719468
  let cycle := z / 146097
  let dayOfCycle := z % 146097
  let yearOfCycle := (dayOfCycle - dayOfCycle / 1460 + dayOfCycle / 36524 - dayOfCycle / 146096) / 365
  let dayOfYear := dayOfCycle - (365 * yearOfCycle + yearOfCycle / 4 - yearOfCycle / 100)
  let march := (5 * dayOfYear + 2) / 153
  let day := dayOfYear - (153 * march + 2) / 5 + 1
  let month := if march < 10 then march + 3 else march - 9
  (yearOfCycle + cycle * 400 + (if month ≤ 2 then 1 else 0), month, day)

/-- `appendInt`: decimal digits, with zeros in front up to a width. -/
def appendInt (x : Int) (width : ℕ) : List Char :=
  let digits := Nat.toDigits 10 x.natAbs
  (if x < 0 then ['-'] else []) ++ List.replicate (width - digits.length) '0' ++ digits

/-- `t.UTC().Format("2006-01-02T15:04:05.000Z")`. -/
def format (t : Time) : List Char :=
  let ms := t.unixMilli
  let (year, month, day) := civil (ms / 86400000)
  let ofDay := ms % 86400000
  appendInt year 4 ++ '-' :: appendInt month 2 ++ '-' :: appendInt day 2 ++
    'T' :: appendInt (ofDay / 3600000) 2 ++ ':' :: appendInt (ofDay / 60000 % 60) 2 ++
    ':' :: appendInt (ofDay / 1000 % 60) 2 ++ '.' :: appendInt (ofDay % 1000) 3 ++ ['Z']

/-- `t.UTC().Format(time.RFC3339Nano)`: the fraction is cut after its last nonzero digit. -/
def rfc3339Nano (t : Time) : List Char :=
  let seconds := t.unixNano / 1000000000
  let (year, month, day) := civil (seconds / 86400)
  let ofDay := seconds % 86400
  let digits := ((appendInt (t.unixNano % 1000000000) 9).reverse.dropWhile (· = '0')).reverse
  appendInt year 4 ++ '-' :: appendInt month 2 ++ '-' :: appendInt day 2 ++
    'T' :: appendInt (ofDay / 3600) 2 ++ ':' :: appendInt (ofDay / 60 % 60) 2 ++
    ':' :: appendInt (ofDay % 60) 2 ++ (if digits = [] then [] else '.' :: digits) ++ ['Z']

theorem newline_notMem_appendInt (x : Int) (width : ℕ) : '\n' ∉ appendInt x width := by
  have hdigits : '\n' ∉ Nat.toDigits 10 x.natAbs := by
    intro h
    have := Nat.isDigit_of_mem_toDigits (by decide) (by decide) h
    revert this
    decide
  unfold appendInt
  simp only [List.mem_append, List.mem_replicate, not_or]
  refine ⟨⟨?_, ?_⟩, hdigits⟩
  · split <;> simp
  · simp

/-- **A timestamp is one line.** -/
theorem newline_notMem_format (t : Time) : '\n' ∉ t.format := by
  simp [format, newline_notMem_appendInt]

end Time

example : (Time.ofMilli 1709164800123).format = "2024-02-29T00:00:00.123Z".toList := by decide

example : (Time.ofMilli (-1)).format = "1969-12-31T23:59:59.999Z".toList := by decide

example : (Time.mk 1709164800120000000).rfc3339Nano = "2024-02-29T00:00:00.12Z".toList := by decide
