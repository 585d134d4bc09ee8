import NetlinkHub.Go.Calendar
import Mathlib.Data.List.Basic
import Mathlib.Data.List.TakeWhile

/-! # Reading timestamps

The layout of the signing inputs keeps all of an instant down to the millisecond (`format_inj`), and
within four-digit years `time.Time` reads it back from RFC 3339 (`parseRFC3339_format`), as it does the
layout with nanoseconds (`parseRFC3339_rfc3339Nano`). -/

namespace Time

/-! ## Numbers of a fixed width -/

variable {x : Int} {width : ℕ}

/-- A number below a bound has the width of the bound. -/
theorem length_appendInt (h : 0 ≤ x) (h' : x < 10 ^ width) (hpos : 0 < width) :
    (appendInt x width).length = width := by
  have hnat : x.natAbs < 10 ^ width := by
    have hcast : (x.natAbs : Int) < ((10 ^ width : ℕ) : Int) := by
      rw [Int.natAbs_of_nonneg h]
      exact_mod_cast h'
    exact_mod_cast hcast
  have hdigits := (Nat.length_toDigits_le_iff (by decide) hpos).mpr hnat
  simp only [appendInt, if_neg (not_lt.mpr h), List.nil_append, List.length_append,
    List.length_replicate]
  omega

/-- The digits of a number, with zeros in front, have its value. -/
theorem ofDigitChars_padded (n zeros : ℕ) :
    Nat.ofDigitChars 10 (List.replicate zeros '0' ++ Nat.toDigits 10 n) 0 = n := by
  rw [Nat.ofDigitChars_append, Nat.ofDigitChars_replicate_zero, Nat.mul_zero,
    Nat.ofDigitChars_ten_toDigits]

theorem isDigit_padded (n zeros : ℕ) :
    ∀ c ∈ List.replicate zeros '0' ++ Nat.toDigits 10 n, c.isDigit := by
  intro c hc
  rcases List.mem_append.mp hc with hc | hc
  · rw [(List.mem_replicate.mp hc).2]
    decide
  · exact Nat.isDigit_of_mem_toDigits (by decide) (by decide) hc

theorem isDigit_appendInt (h : 0 ≤ x) : ∀ c ∈ appendInt x width, c.isDigit := by
  rw [appendInt, if_neg (not_lt.mpr h), List.nil_append]
  exact isDigit_padded _ _

theorem ofDigitChars_appendInt (h : 0 ≤ x) : ((Nat.ofDigitChars 10 (appendInt x width) 0 : ℕ) : Int) = x := by
  rw [appendInt, if_neg (not_lt.mpr h), List.nil_append, ofDigitChars_padded, Int.natAbs_of_nonneg h]

/-- **The text of a number determines it.** -/
theorem appendInt_inj {y : Int} (h : appendInt x width = appendInt y width) : x = y := by
  have hminus : ∀ n zeros : ℕ, '-' ∉ List.replicate zeros '0' ++ Nat.toDigits 10 n :=
    fun n zeros hmem => absurd (isDigit_padded n zeros _ hmem) (by decide)
  have hvalue : ∀ n m zeros zeros' : ℕ, List.replicate zeros '0' ++ Nat.toDigits 10 n =
      List.replicate zeros' '0' ++ Nat.toDigits 10 m → n = m := by
    intro n m zeros zeros' heq
    rw [← ofDigitChars_padded n zeros, heq, ofDigitChars_padded]
  unfold appendInt at h
  simp only [List.append_assoc] at h
  by_cases hx : x < 0
  · by_cases hy : y < 0
    · rw [if_pos hx, if_pos hy] at h
      have := hvalue _ _ _ _ (List.cons.inj h).2
      omega
    · rw [if_pos hx, if_neg hy, List.nil_append] at h
      exact absurd (h ▸ List.mem_append_left _ (List.mem_singleton.mpr rfl)) (hminus _ _)
  · by_cases hy : y < 0
    · rw [if_neg hx, if_pos hy, List.nil_append] at h
      exact absurd (h.symm ▸ List.mem_append_left _ (List.mem_singleton.mpr rfl)) (hminus _ _)
    · rw [if_neg hx, if_neg hy, List.nil_append, List.nil_append] at h
      have := hvalue _ _ _ _ h
      omega

/-! ## The layout keeps the instant -/

/-- The fields of an instant of the day are within their widths. -/
structure DayFields (month day ofDay : Int) : Prop where
  month : 0 ≤ month ∧ month < 100
  day : 0 ≤ day ∧ day < 100
  hour : 0 ≤ ofDay / 3600000 ∧ ofDay / 3600000 < 24
  minute : 0 ≤ ofDay / 60000 % 60 ∧ ofDay / 60000 % 60 < 60
  second : 0 ≤ ofDay / 1000 % 60 ∧ ofDay / 1000 % 60 < 60
  milli : 0 ≤ ofDay % 1000 ∧ ofDay % 1000 < 1000

theorem daysIn_le (month year : Int) : daysIn month year ≤ 31 := by
  unfold daysIn
  split
  · split <;> omega
  · omega

theorem dayFields (ms : Int) :
    DayFields (civil (ms / 86400000)).2.1 (civil (ms / 86400000)).2.2 (ms % 86400000) := by
  obtain ⟨hmonth, hday⟩ := validDate_civil (ms / 86400000)
  have := daysIn_le (civil (ms / 86400000)).2.1 (civil (ms / 86400000)).1
  exact ⟨by omega, by omega, by omega, by omega, by omega, by omega⟩

/-- A number of milliseconds by its day and the fields of the time of day. -/
theorem eq_of_fields {ms ms' : Int} (hday : ms / 86400000 = ms' / 86400000)
    (hhour : ms % 86400000 / 3600000 = ms' % 86400000 / 3600000)
    (hminute : ms % 86400000 / 60000 % 60 = ms' % 86400000 / 60000 % 60)
    (hsecond : ms % 86400000 / 1000 % 60 = ms' % 86400000 / 1000 % 60)
    (hmilli : ms % 86400000 % 1000 = ms' % 86400000 % 1000) : ms = ms' := by
  omega

/-- A number of fixed width is cut off the end of a text. -/
theorem cut_appendInt {a b : List Char} {c : Char} {y : Int} (hx : 0 ≤ x ∧ x < 10 ^ width)
    (hy : 0 ≤ y ∧ y < 10 ^ width) (hpos : 0 < width)
    (h : a ++ c :: appendInt x width = b ++ c :: appendInt y width) : a = b ∧ x = y := by
  have hlen : (c :: appendInt x width).length = (c :: appendInt y width).length := by
    rw [List.length_cons, List.length_cons, length_appendInt hx.1 hx.2 hpos,
      length_appendInt hy.1 hy.2 hpos]
  obtain ⟨hab, hnumber⟩ := List.append_inj' h hlen
  exact ⟨hab, appendInt_inj (List.cons.inj hnumber).2⟩

/-- **The layout determines the instant** to the millisecond. -/
theorem format_inj {t u : Time} (h : t.format = u.format) : t.unixMilli = u.unixMilli := by
  have ht := dayFields t.unixMilli
  have hu := dayFields u.unixMilli
  have hwide : ∀ {n b : Int}, b ≤ 100 → 0 ≤ n ∧ n < b → 0 ≤ n ∧ n < 10 ^ 2 := by
    intro n b hb hn
    omega
  unfold format at h
  simp only at h
  obtain ⟨h, -⟩ := List.append_inj' h rfl
  obtain ⟨h, hmilli⟩ := cut_appendInt ht.milli hu.milli (by decide) h
  obtain ⟨h, hsecond⟩ := cut_appendInt (hwide (by decide) ht.second) (hwide (by decide) hu.second)
    (by decide) h
  obtain ⟨h, hminute⟩ := cut_appendInt (hwide (by decide) ht.minute) (hwide (by decide) hu.minute)
    (by decide) h
  obtain ⟨h, hhour⟩ := cut_appendInt (hwide (by decide) ht.hour) (hwide (by decide) hu.hour)
    (by decide) h
  obtain ⟨h, hday⟩ := cut_appendInt ht.day hu.day (by decide) h
  obtain ⟨h, hmonth⟩ := cut_appendInt ht.month hu.month (by decide) h
  have hyear := appendInt_inj h
  refine eq_of_fields ?_ hhour hminute hsecond hmilli
  rw [← dayNumber_civil (t.unixMilli / 86400000), hyear, hmonth, hday, dayNumber_civil]

/-! ## Reading RFC 3339 -/

/-- The zero value: the first instant of the year 1. -/
def zero : Time := ⟨-62135596800 * 1000000000⟩

/-- `parseUint` of `parseRFC3339`: a number within a range. -/
def parseUint (s : List Char) (min max : Int) : Option Int :=
  if s.all Char.isDigit then
    let x : Int := Nat.ofDigitChars 10 s 0
    if x < min ∨ max < x then none else some x
  else none

/-- The fraction of a second in nanoseconds; digits beyond the ninth are dropped. -/
def nanoseconds (digits : List Char) : Int :=
  let digits := digits.take 9
  Nat.ofDigitChars 10 digits 0 * 10 ^ (9 - digits.length)

/-- The fraction of a second at the front of a text, if there is one, and what follows. -/
def parseFraction : List Char → Int × List Char
  | '.' :: rest =>
    let digits := rest.takeWhile Char.isDigit
    if digits = [] then (0, '.' :: rest) else (nanoseconds digits, rest.dropWhile Char.isDigit)
  | s => (0, s)

/-- The offset of a time zone from UTC, in seconds. -/
def parseZone : List Char → Option Int
  | ['Z'] => some 0
  | [sign, h, h', colon, m, m'] => do
    let hours ← parseUint [h, h'] 0 23
    let minutes ← parseUint [m, m'] 0 59
    if (sign = '-' ∨ sign = '+') ∧ colon = ':' then
      some (if sign = '-' then -((hours * 60 + minutes) * 60) else (hours * 60 + minutes) * 60)
    else none
  | _ => none

/-- `parseRFC3339`. -/
def parseRFC3339 (s : List Char) : Option Time :=
  if s.length < 19 then none
  else do
    let year ← parseUint (s.take 4) 0 9999
    let month ← parseUint ((s.drop 5).take 2) 1 12
    let day ← parseUint ((s.drop 8).take 2) 1 (daysIn month year)
    let hour ← parseUint ((s.drop 11).take 2) 0 23
    let minute ← parseUint ((s.drop 14).take 2) 0 59
    let second ← parseUint ((s.drop 17).take 2) 0 59
    if s[4]? = some '-' ∧ s[7]? = some '-' ∧ s[10]? = some 'T' ∧ s[13]? = some ':' ∧
        s[16]? = some ':' then do
      let (nsec, rest) := parseFraction (s.drop 19)
      let offset ← parseZone rest
      let seconds := dayNumber year month day * 86400 + hour * 3600 + minute * 60 + second
      some ⟨(seconds - offset) * 1000000000 + nsec⟩
    else none

theorem parseUint_appendInt {min max : Int} (h : 0 ≤ x) (hmin : min ≤ x) (hmax : x ≤ max) :
    parseUint (appendInt x width) min max = some x := by
  have hdigits : (appendInt x width).all Char.isDigit := List.all_eq_true.mpr (isDigit_appendInt h)
  rw [parseUint, if_pos hdigits]
  simp only [ofDigitChars_appendInt h]
  rw [if_neg]
  omega

/-- A number of two digits. -/
theorem appendInt_two (h : 0 ≤ x ∧ x < 100) : ∃ a b, appendInt x 2 = [a, b] :=
  List.length_eq_two.mp (length_appendInt h.1 h.2 (by decide))

/-- A fraction of three digits, and the end of the text. -/
theorem parseFraction_milli (h : 0 ≤ x ∧ x < 1000) :
    parseFraction ('.' :: appendInt x 3 ++ ['Z']) = (x * 1000000, ['Z']) := by
  have hlen : (appendInt x 3).length = 3 := length_appendInt h.1 h.2 (by decide)
  have hdigits : ∀ c ∈ appendInt x 3, c.isDigit := isDigit_appendInt h.1
  have htake : (appendInt x 3 ++ ['Z']).takeWhile Char.isDigit = appendInt x 3 := by
    rw [List.takeWhile_append_of_pos hdigits]
    simp
  have hdrop : (appendInt x 3 ++ ['Z']).dropWhile Char.isDigit = ['Z'] := by
    rw [List.dropWhile_append_of_pos hdigits]
    rfl
  have hsome : appendInt x 3 ≠ [] := by
    rw [← List.length_pos_iff, hlen]
    decide
  have hshort : (appendInt x 3).take 9 = appendInt x 3 := List.take_of_length_le (by omega)
  simp only [parseFraction, List.cons_append, htake, hdrop, if_neg hsome, nanoseconds, hshort,
    ofDigitChars_appendInt h.1, hlen]
  rfl

/-- An instant from its fields, with the fraction of its second and its zone as texts. -/
def stamp (year month day hour minute second : Int) (fraction zone : List Char) : List Char :=
  appendInt year 4 ++ '-' :: appendInt month 2 ++ '-' :: appendInt day 2 ++
    'T' :: appendInt hour 2 ++ ':' :: appendInt minute 2 ++ ':' :: appendInt second 2 ++
    fraction ++ zone

/-- The layout of the signing inputs, from its fields. -/
def layout (year month day hour minute second milli : Int) : List Char :=
  appendInt year 4 ++ '-' :: appendInt month 2 ++ '-' :: appendInt day 2 ++
    'T' :: appendInt hour 2 ++ ':' :: appendInt minute 2 ++ ':' :: appendInt second 2 ++
    '.' :: appendInt milli 3 ++ ['Z']

/-- **Fields that are in range are read back**, with any fraction and zone that are. -/
theorem parseRFC3339_stamp {year month day hour minute second nsec offset : Int} {fraction zone : List Char}
    (hyear : 0 ≤ year ∧ year ≤ 9999) (hmonth : 1 ≤ month ∧ month ≤ 12)
    (hday : 1 ≤ day ∧ day ≤ daysIn month year) (hhour : 0 ≤ hour ∧ hour ≤ 23)
    (hminute : 0 ≤ minute ∧ minute ≤ 59) (hsecond : 0 ≤ second ∧ second ≤ 59)
    (hfraction : parseFraction (fraction ++ zone) = (nsec, zone)) (hzone : parseZone zone = some offset) :
    parseRFC3339 (stamp year month day hour minute second fraction zone) = some
      ⟨(dayNumber year month day * 86400 + hour * 3600 + minute * 60 + second - offset) * 1000000000 + nsec⟩ := by
  have hparse : ∀ {n low high : Int} {w : ℕ}, 0 ≤ low → low ≤ n ∧ n ≤ high →
      parseUint (appendInt n w) low high = some n :=
    fun hlow hn => parseUint_appendInt (by omega) hn.1 hn.2
  have := daysIn_le month year
  have hyearParse := hparse (w := 4) (by decide) hyear
  have hmonthParse := hparse (w := 2) (by decide) hmonth
  have hdayParse := hparse (w := 2) (by decide) hday
  have hhourParse := hparse (w := 2) (by decide) hhour
  have hminuteParse := hparse (w := 2) (by decide) hminute
  have hsecondParse := hparse (w := 2) (by decide) hsecond
  have hyearLen : (appendInt year 4).length = 4 := length_appendInt hyear.1 (by omega) (by decide)
  obtain ⟨y1, y2, y3, y4, hy⟩ := List.length_eq_four.mp hyearLen
  obtain ⟨m1, m2, hm⟩ := appendInt_two (x := month) (by omega)
  obtain ⟨d1, d2, hd⟩ := appendInt_two (x := day) (by omega)
  obtain ⟨h1, h2, hh⟩ := appendInt_two (x := hour) (by omega)
  obtain ⟨i1, i2, hi⟩ := appendInt_two (x := minute) (by omega)
  obtain ⟨s1, s2, hs⟩ := appendInt_two (x := second) (by omega)
  rw [hy] at hyearParse
  rw [hm] at hmonthParse
  rw [hd] at hdayParse
  rw [hh] at hhourParse
  rw [hi] at hminuteParse
  rw [hs] at hsecondParse
  -- The text, letter by letter up to the fraction of the second.
  have htext : stamp year month day hour minute second fraction zone =
      y1 :: y2 :: y3 :: y4 :: '-' :: m1 :: m2 :: '-' :: d1 :: d2 :: 'T' :: h1 :: h2 :: ':' :: i1 :: i2 ::
        ':' :: s1 :: s2 :: (fraction ++ zone) := by
    rw [stamp, hy, hm, hd, hh, hi, hs]
    simp
  have hlong : ¬ (y1 :: y2 :: y3 :: y4 :: '-' :: m1 :: m2 :: '-' :: d1 :: d2 :: 'T' :: h1 :: h2 :: ':' ::
      i1 :: i2 :: ':' :: s1 :: s2 :: (fraction ++ zone)).length < 19 := by
    simp only [List.length_cons, not_lt]
    omega
  rw [htext, parseRFC3339, if_neg hlong]
  simp only [List.take, List.drop, hyearParse, hmonthParse, hdayParse, hhourParse, hminuteParse,
    hsecondParse, Option.bind_eq_bind, Option.bind_some]
  rw [if_pos (by simp), hfraction]
  simp only [hzone, Option.bind_some]

/-- **Fields that are in range are read back.** -/
theorem parseRFC3339_layout {year month day hour minute second milli : Int}
    (hyear : 0 ≤ year ∧ year ≤ 9999) (hmonth : 1 ≤ month ∧ month ≤ 12)
    (hday : 1 ≤ day ∧ day ≤ daysIn month year) (hhour : 0 ≤ hour ∧ hour ≤ 23)
    (hminute : 0 ≤ minute ∧ minute ≤ 59) (hsecond : 0 ≤ second ∧ second ≤ 59)
    (hmilli : 0 ≤ milli ∧ milli < 1000) :
    parseRFC3339 (layout year month day hour minute second milli) =
      some ⟨(dayNumber year month day * 86400 + hour * 3600 + minute * 60 + second) * 1000000000 +
        milli * 1000000⟩ := by
  have hparse := parseRFC3339_stamp hyear hmonth hday hhour hminute hsecond (parseFraction_milli hmilli) rfl
  rwa [Int.sub_zero] at hparse

/-- **Reading a timestamp back.** -/
theorem parseRFC3339_format {t : Time} (hlow : 0 ≤ (civil (t.unixMilli / 86400000)).1)
    (hhigh : (civil (t.unixMilli / 86400000)).1 ≤ 9999) :
    parseRFC3339 t.format = some (ofMilli t.unixMilli) := by
  obtain ⟨hmonth, hday⟩ := validDate_civil (t.unixMilli / 86400000)
  obtain ⟨-, -, hhour, hminute, hsecond, hmilli⟩ := dayFields t.unixMilli
  have htext : t.format = layout (civil (t.unixMilli / 86400000)).1 (civil (t.unixMilli / 86400000)).2.1
      (civil (t.unixMilli / 86400000)).2.2 (t.unixMilli % 86400000 / 3600000)
      (t.unixMilli % 86400000 / 60000 % 60) (t.unixMilli % 86400000 / 1000 % 60)
      (t.unixMilli % 86400000 % 1000) := rfl
  have hparse := parseRFC3339_layout ⟨hlow, hhigh⟩ hmonth hday ⟨hhour.1, by omega⟩
    ⟨hminute.1, by omega⟩ ⟨hsecond.1, by omega⟩ hmilli
  rw [htext, hparse, dayNumber_civil, ofMilli, Option.some.injEq, Time.mk.injEq]
  omega

/-! ## Nanoseconds -/

/-- Digits without the zeros at their end. -/
theorem exists_zeros (digits : List Char) : ∃ zeros, digits =
    (digits.reverse.dropWhile (· = '0')).reverse ++ List.replicate zeros '0' := by
  refine ⟨(digits.reverse.takeWhile (· = '0')).length, ?_⟩
  have htake : digits.reverse.takeWhile (· = '0') =
      List.replicate (digits.reverse.takeWhile (· = '0')).length '0' :=
    List.eq_replicate_of_mem fun c hc => by simpa using List.mem_takeWhile_imp hc
  have hsplit := List.takeWhile_append_dropWhile (p := (· = '0')) (l := digits.reverse)
  rw [← List.reverse_inj, List.reverse_append, List.reverse_reverse, List.reverse_replicate, ← htake, hsplit]

/-- What follows the fraction of a second: no digit, and no point. -/
def EndsFraction (rest : List Char) : Prop := ∀ c ∈ rest.head?, c.isDigit = false ∧ c ≠ '.'

/-- A fraction of nine digits is read back when the zeros at its end are cut off. -/
theorem parseFraction_trimmed (h : 0 ≤ x ∧ x < 1000000000) {rest : List Char} (hrest : EndsFraction rest) :
    parseFraction ((if ((appendInt x 9).reverse.dropWhile (· = '0')).reverse = [] then []
      else '.' :: ((appendInt x 9).reverse.dropWhile (· = '0')).reverse) ++ rest) = (x, rest) := by
  obtain ⟨zeros, hzeros⟩ := exists_zeros (appendInt x 9)
  generalize ((appendInt x 9).reverse.dropWhile (· = '0')).reverse = digits at hzeros ⊢
  have hlen : (appendInt x 9).length = 9 := length_appendInt h.1 h.2 (by decide)
  have hdigits : ∀ c ∈ digits, c.isDigit := fun c hc =>
    isDigit_appendInt h.1 c (hzeros ▸ List.mem_append_left _ hc)
  have hvalue : ((Nat.ofDigitChars 10 (appendInt x 9) 0 : ℕ) : Int) = x := ofDigitChars_appendInt h.1
  rw [hzeros, List.length_append, List.length_replicate] at hlen
  rw [hzeros, Nat.ofDigitChars_append, Nat.ofDigitChars_replicate_zero] at hvalue
  have htake : (digits ++ rest).takeWhile Char.isDigit = digits := by
    rw [List.takeWhile_append_of_pos hdigits]
    cases rest with
    | nil => simp
    | cons c rest => simp [(hrest c rfl).1]
  have hdrop : (digits ++ rest).dropWhile Char.isDigit = rest := by
    rw [List.dropWhile_append_of_pos hdigits]
    cases rest with
    | nil => rfl
    | cons c rest => simp [(hrest c rfl).1]
  have hshort : digits.take 9 = digits := List.take_of_length_le (by omega)
  have hcount : 9 - digits.length = zeros := by omega
  split
  · rename_i hnil
    subst hnil
    have hzero : x = 0 := by
      rw [← hvalue, Nat.ofDigitChars_nil, Nat.mul_zero]
      rfl
    rw [List.nil_append, hzero]
    unfold parseFraction
    split
    · exact absurd rfl (hrest '.' rfl).2
    · rfl
  · rename_i hsome
    simp only [parseFraction, List.cons_append, htake, hdrop, if_neg hsome, nanoseconds, hshort, hcount]
    rw [← hvalue]
    push_cast
    rw [mul_comm]

/-- How a zone is written, from its minutes east of UTC. -/
def zoneText (zone : Int) : List Char :=
  if zone = 0 then ['Z']
  else (if zone < 0 then '-' else '+') :: appendInt (zone.natAbs / 60) 2 ++ ':' :: appendInt (zone.natAbs % 60) 2

/-- `t.In(zone).Format(time.RFC3339Nano)`: the fraction is cut after its last nonzero digit. -/
def rfc3339NanoIn (zone : Int) (t : Time) : List Char :=
  let seconds := t.unixNano / 1000000000 + zone * 60
  let (year, month, day) := civil (seconds / 86400)
  let ofDay := seconds % 86400
  let digits := ((appendInt (t.unixNano % 1000000000) 9).reverse.dropWhile (· = '0')).reverse
  stamp year month day (ofDay / 3600) (ofDay / 60 % 60) (ofDay % 60) (if digits = [] then [] else '.' :: digits)
    (zoneText zone)

theorem rfc3339NanoIn_zero (t : Time) : t.rfc3339NanoIn 0 = t.rfc3339Nano := by
  rw [rfc3339NanoIn, Int.zero_mul, Int.add_zero]
  rfl

/-- A zone of less than a day is read back. -/
theorem parseZone_zoneText {zone : Int} (h : zone.natAbs < 1440) : parseZone (zoneText zone) = some (zone * 60) := by
  unfold zoneText
  split
  · rename_i hzero
    rw [hzero]
    rfl
  · have hhours : 0 ≤ (zone.natAbs : Int) / 60 ∧ (zone.natAbs : Int) / 60 ≤ 23 := by omega
    have hminutes : 0 ≤ (zone.natAbs : Int) % 60 ∧ (zone.natAbs : Int) % 60 ≤ 59 := by omega
    have hparseHours : parseUint (appendInt ((zone.natAbs : Int) / 60) 2) 0 23 = some ((zone.natAbs : Int) / 60) :=
      parseUint_appendInt hhours.1 hhours.1 hhours.2
    have hparseMinutes : parseUint (appendInt ((zone.natAbs : Int) % 60) 2) 0 59 = some ((zone.natAbs : Int) % 60) :=
      parseUint_appendInt hminutes.1 hminutes.1 hminutes.2
    obtain ⟨h1, h2, hh⟩ := appendInt_two (x := (zone.natAbs : Int) / 60) (by omega)
    obtain ⟨m1, m2, hm⟩ := appendInt_two (x := (zone.natAbs : Int) % 60) (by omega)
    rw [hh] at hparseHours
    rw [hm] at hparseMinutes
    rw [hh, hm]
    simp only [List.cons_append, List.nil_append, parseZone, hparseHours, hparseMinutes, Option.bind_eq_bind,
      Option.bind_some]
    split
    · rename_i hnegative
      simp only [true_or, true_and, if_true, Option.some.injEq]
      omega
    · rename_i hpositive
      simp only [or_true, true_and, if_true, show ('+' : Char) ≠ '-' by decide, if_false, Option.some.injEq]
      omega

theorem endsFraction_zoneText (zone : Int) : EndsFraction (zoneText zone) := by
  unfold zoneText
  split
  · rintro c ⟨⟩
    decide
  · rintro c ⟨⟩
    split <;> decide

/-- **Reading a timestamp with nanoseconds back**, in a zone of less than a day. -/
theorem parseRFC3339_rfc3339NanoIn {t : Time} {zone : Int} (hzone : zone.natAbs < 1440)
    (hlow : 0 ≤ (civil ((t.unixNano / 1000000000 + zone * 60) / 86400)).1)
    (hhigh : (civil ((t.unixNano / 1000000000 + zone * 60) / 86400)).1 ≤ 9999) :
    parseRFC3339 (t.rfc3339NanoIn zone) = some t := by
  obtain ⟨hmonth, hday⟩ := validDate_civil ((t.unixNano / 1000000000 + zone * 60) / 86400)
  have hparse := fun hhour hminute hsecond => @parseRFC3339_stamp _ _ _
    ((t.unixNano / 1000000000 + zone * 60) % 86400 / 3600)
    ((t.unixNano / 1000000000 + zone * 60) % 86400 / 60 % 60)
    ((t.unixNano / 1000000000 + zone * 60) % 86400 % 60) _ _ _ _ ⟨hlow, hhigh⟩ hmonth hday hhour hminute hsecond
    (parseFraction_trimmed (x := t.unixNano % 1000000000) (by omega) (endsFraction_zoneText zone))
    (parseZone_zoneText hzone)
  refine (hparse (by omega) (by omega) (by omega)).trans ?_
  rw [dayNumber_civil, Option.some.injEq]
  obtain ⟨nano⟩ := t
  rw [Time.mk.injEq]
  show _ = nano
  dsimp only
  omega

/-- **Reading a timestamp with nanoseconds back.** -/
theorem parseRFC3339_rfc3339Nano {t : Time} (hlow : 0 ≤ (civil (t.unixNano / 1000000000 / 86400)).1)
    (hhigh : (civil (t.unixNano / 1000000000 / 86400)).1 ≤ 9999) : parseRFC3339 t.rfc3339Nano = some t := by
  rw [← rfc3339NanoIn_zero]
  exact parseRFC3339_rfc3339NanoIn (by decide) (by simpa using hlow) (by simpa using hhigh)

end Time

example : (Time.mk 1709164800120000000).rfc3339NanoIn (-90) = "2024-02-28T22:30:00.12-01:30".toList := by decide
