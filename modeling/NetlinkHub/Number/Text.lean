import NetlinkHub.Number.Double
import NetlinkHub.Number.Shortest

/-! # Numbers as text

`Number::toString` of ECMAScript for integers, and `StringToBigInt`. The digits of a number are the fewest
that round to it, and of these the closest (`shortest_spec`). They are followed by zeros while the text has at
most 21 digits, and have an exponent from there on, so the text denotes the number only below `10 ^ 21` and
when the fewest digits are its own (`toText_iff`). -/

namespace Double

/-! ## `Number::toString` -/

/-- A whole number that rounds to the number. -/
def Stands (d : Double) (n : ℕ) : Prop := d.Rounds n

instance (d : Double) : DecidablePred d.Stands := fun n => inferInstanceAs (Decidable (d.Rounds n))

/-- The digits and the exponent that stand for a whole number. -/
def shortest (d : Double) : ℕ × ℕ :=
  Shortest.digitsFrom d.Stands d.natAbs (Nat.toDigits 10 d.natAbs).length

/-- Digits with an exponent as they are written. -/
def layout (r : ℕ × ℕ) : List Char :=
  let digits := Nat.toDigits 10 r.1
  let n := digits.length + r.2
  if n ≤ 21 then digits ++ List.replicate r.2 '0'
  else if digits.length = 1 then digits ++ 'e' :: '+' :: Nat.toDigits 10 (n - 1)
  else digits.take 1 ++ '.' :: digits.drop 1 ++ 'e' :: '+' :: Nat.toDigits 10 (n - 1)

/-- `Number::toString` of a whole number that is not negative. -/
def toText (d : Double) : List Char := if d.natAbs = 0 then ['0'] else layout d.shortest

variable {d : Double}

/-! ### Digits -/

theorem length_toDigits_le {n k : ℕ} (hk : 0 < k) : (Nat.toDigits 10 n).length ≤ k ↔ n < 10 ^ k :=
  Nat.length_toDigits_le_iff (by decide) hk

theorem lt_pow_length (n : ℕ) : n < 10 ^ (Nat.toDigits 10 n).length :=
  (length_toDigits_le Nat.length_toDigits_pos).mp le_rfl

theorem pow_le_of_lt_length {n k : ℕ} (h : k < (Nat.toDigits 10 n).length) (hn : 0 < n) : 10 ^ k ≤ n := by
  rcases Nat.eq_zero_or_pos k with rfl | hk
  · exact hn
  · by_contra hlt
    exact absurd ((length_toDigits_le hk).mpr (not_le.mp hlt)) (not_le.mpr h)

/-- Zeros at the end add to the length. -/
theorem length_toDigits_mul_pow {s : ℕ} (hs : 0 < s) (e : ℕ) :
    (Nat.toDigits 10 (s * 10 ^ e)).length = (Nat.toDigits 10 s).length + e := by
  have hlen := Nat.length_toDigits_pos (b := 10) (n := s)
  have hpow : 0 < 10 ^ e := Nat.pow_pos (by decide)
  refine le_antisymm ?_ ?_
  · rw [length_toDigits_le (by omega), pow_add]
    exact Nat.mul_lt_mul_of_pos_right (lt_pow_length s) hpow
  · by_contra hlt
    have hle : 10 ^ ((Nat.toDigits 10 s).length - 1) ≤ s := pow_le_of_lt_length (by omega) hs
    have hsmall := (length_toDigits_le (n := s * 10 ^ e) (k := (Nat.toDigits 10 s).length - 1 + e)
      (Nat.pos_of_ne_zero fun h => ?_)).mp (by omega)
    · rw [pow_add] at hsmall
      exact absurd hsmall (not_lt.mpr (Nat.mul_le_mul_right _ hle))
    · have := Nat.length_toDigits_pos (b := 10) (n := s * 10 ^ e)
      omega

/-! ### Which whole numbers stand for a number -/

theorem one_le_magnitude (hinteger : d.IsInteger) (h : d.natAbs ≠ 0) : 1 ≤ d.magnitude := by
  rw [← natAbs_cast hinteger]
  exact_mod_cast Nat.pos_of_ne_zero h

theorem around (hinteger : d.IsInteger) : Shortest.Around d.Stands d.natAbs where
  self := by
    rw [Stands, natAbs_cast hinteger]
    exact d.rounds_magnitude
  between h h' hle hle' := Rounds.between h h' (by exact_mod_cast hle) (by exact_mod_cast hle')

/-- They are positive, and hardly longer. -/
theorem stands_bounds (hinteger : d.IsInteger) (hne : d.natAbs ≠ 0) {n : ℕ} (h : d.Stands n) :
    0 < n ∧ n < 10 ^ ((Nat.toDigits 10 d.natAbs).length + 1) := by
  obtain ⟨hlow, hhigh⟩ := Rounds.near h (one_le_magnitude hinteger hne)
  have hone := one_le_magnitude hinteger hne
  rw [← natAbs_cast hinteger] at hlow hhigh hone
  have hpos : (0 : ℚ) < n := by linarith
  have hlt : (n : ℚ) < 10 * d.natAbs := by linarith
  have hlt' : n < 10 * d.natAbs := by exact_mod_cast hlt
  refine ⟨by exact_mod_cast hpos, ?_⟩
  have := lt_pow_length d.natAbs
  rw [pow_succ]
  omega

/-! ### As few digits as possible -/

/-- Whole digits times a power of ten, which need not be whole. -/
def scaled (s : ℕ) (e : ℤ) : ℚ := s * 10 ^ e

theorem scaled_natCast (s e : ℕ) : scaled s e = (s * 10 ^ e : ℕ) := by
  simp [scaled]

/-- Where two choices are on either side of a power of ten, that power is the choice. -/
theorem shortest_of_crossing (hinteger : d.IsInteger) (hne : d.natAbs ≠ 0) {n k : ℕ} (hn : d.Stands n)
    (hk : 0 < k) (hbelow : n < 10 ^ k) (habove : 10 ^ k ≤ Shortest.value d.shortest) :
    d.Stands (10 ^ k) ∧ k ≤ d.shortest.2 ∧ (Nat.toDigits 10 d.shortest.1).length + d.shortest.2 ≤ k + 1 := by
  obtain ⟨hstands, hzeros, -⟩ := Shortest.digitsFrom_spec (around hinteger) (Nat.toDigits 10 d.natAbs).length
  have hpow : d.Stands (10 ^ k) := (around hinteger).between hn hstands hbelow.le habove
  have hpos : 0 < d.shortest.1 := Nat.pos_of_mul_pos_right (stands_bounds hinteger hne hstands).1
  have hbound := (stands_bounds hinteger hne hpow).2
  have hk' : k < (Nat.toDigits 10 d.natAbs).length + 1 := (Nat.pow_lt_pow_iff_right (by decide)).mp hbound
  refine ⟨hpow, ?_, ?_⟩
  · by_contra hlt
    exact hzeros k (not_le.mp hlt) (by omega) 1 (by rwa [Nat.one_mul])
  · -- What stands for one number is of about the same size.
    have hone := one_le_magnitude hinteger hne
    obtain ⟨-, hhigh⟩ := Rounds.near hstands hone
    obtain ⟨hlow, -⟩ := Rounds.near hn hone
    have hlt : (Shortest.value d.shortest : ℚ) < 10 * n := by
      rw [shortest]
      linarith
    have hlt' : Shortest.value d.shortest < 10 * n := by exact_mod_cast hlt
    rw [← length_toDigits_mul_pow hpos, length_toDigits_le (by omega), pow_succ]
    exact hlt'.trans (by omega)

/-- Among whole numbers no digits are fewer, and none of as many are closer. -/
theorem shortest_whole (hinteger : d.IsInteger) (hne : d.natAbs ≠ 0) {s j : ℕ} (hs : 0 < s)
    (h : d.Stands (s * 10 ^ j)) :
    (Nat.toDigits 10 d.shortest.1).length ≤ (Nat.toDigits 10 s).length ∧
      ((Nat.toDigits 10 s).length = (Nat.toDigits 10 d.shortest.1).length →
        Shortest.distance (Shortest.value d.shortest) d.natAbs ≤ Shortest.distance (s * 10 ^ j) d.natAbs) := by
  obtain ⟨hstands, hzeros, hclosest⟩ :=
    Shortest.digitsFrom_spec (around hinteger) (Nat.toDigits 10 d.natAbs).length
  have hpos : 0 < d.shortest.1 := Nat.pos_of_mul_pos_right (stands_bounds hinteger hne hstands).1
  have hsome : 0 < (Nat.toDigits 10 s).length := Nat.length_toDigits_pos
  have hj : j ≤ d.shortest.2 := by
    by_contra hlt
    have hle : 10 ^ j ≤ s * 10 ^ j := Nat.le_mul_of_pos_left _ hs
    have hpow := hle.trans_lt (stands_bounds hinteger hne h).2
    have hbound := (Nat.pow_lt_pow_iff_right (by decide)).mp hpow
    exact hzeros j (not_le.mp hlt) (by omega) s h
  by_cases hcross : (Nat.toDigits 10 s).length + j < (Nat.toDigits 10 d.shortest.1).length + d.shortest.2
  · have hbelow : s * 10 ^ j < 10 ^ ((Nat.toDigits 10 s).length + j) := by
      rw [← length_toDigits_mul_pow hs]
      exact lt_pow_length _
    have habove : 10 ^ ((Nat.toDigits 10 s).length + j) ≤ Shortest.value d.shortest := by
      refine pow_le_of_lt_length ?_ (stands_bounds hinteger hne hstands).1
      rwa [Shortest.value, length_toDigits_mul_pow hpos]
    obtain ⟨-, hle, hlen⟩ := shortest_of_crossing hinteger hne h (by omega) hbelow habove
    refine ⟨by omega, fun hsame => ?_⟩
    -- One digit below a power of ten that stands for the number is too far away.
    exfalso
    have hone := one_le_magnitude hinteger hne
    obtain ⟨-, hhigh⟩ := Rounds.near hstands hone
    obtain ⟨hlow, -⟩ := Rounds.near h hone
    have hdigit : s < 10 ^ 1 := (length_toDigits_le (by decide)).mp (by omega)
    have hk : (Nat.toDigits 10 s).length = 1 := by omega
    rw [hk, Nat.add_comm, pow_succ] at habove
    have hfar : 10 * (s * 10 ^ j) ≤ 9 * Shortest.value d.shortest := by
      have := Nat.mul_le_mul_right (10 ^ j) (show s ≤ 9 by omega)
      omega
    have hfar' : (10 : ℚ) * (s * 10 ^ j : ℕ) ≤ 9 * (Shortest.value d.shortest : ℕ) := by exact_mod_cast hfar
    rw [← shortest] at hhigh
    linarith
  · refine ⟨by omega, fun hsame => ?_⟩
    obtain rfl : j = d.shortest.2 := by omega
    exact hclosest s h

/-- **The digits of `Number::toString`**: they stand for the number, no others that do are fewer, and none of
as many are closer. -/
theorem shortest_spec (hinteger : d.IsInteger) (hne : d.natAbs ≠ 0) :
    d.Rounds (scaled d.shortest.1 d.shortest.2) ∧ ∀ (s : ℕ) (e : ℤ), 0 < s → d.Rounds (scaled s e) →
      (Nat.toDigits 10 d.shortest.1).length ≤ (Nat.toDigits 10 s).length ∧
        ((Nat.toDigits 10 s).length = (Nat.toDigits 10 d.shortest.1).length →
          |scaled d.shortest.1 d.shortest.2 - d.magnitude| ≤ |scaled s e - d.magnitude|) := by
  have hstands := (Shortest.digitsFrom_spec (around hinteger) (Nat.toDigits 10 d.natAbs).length).1
  have hpos : 0 < d.shortest.1 := Nat.pos_of_mul_pos_right (stands_bounds hinteger hne hstands).1
  rw [scaled_natCast]
  refine ⟨hstands, fun s e hs h => ?_⟩
  rcases lt_or_ge e 0 with hneg | hwhole
  · -- A fraction with as few digits would be less than a power of ten that has one digit.
    by_contra hmany
    have hle : (Nat.toDigits 10 s).length ≤ (Nat.toDigits 10 d.shortest.1).length := by
      by_contra hlt
      exact hmany ⟨by omega, fun hsame => by omega⟩
    obtain ⟨k, hk⟩ : ∃ k, (Nat.toDigits 10 d.shortest.1).length = k + 1 :=
      Nat.exists_eq_add_one.mpr Nat.length_toDigits_pos
    have hlt : scaled s e < (10 ^ k : ℕ) := by
      have hs' : (s : ℚ) < 10 ^ (k + 1) := by exact_mod_cast (length_toDigits_le (by omega)).mp (hle.trans hk.le)
      have hpow : (10 : ℚ) ^ e ≤ 10 ^ (-1 : ℤ) := zpow_le_zpow_right₀ (by norm_num) (by omega)
      have hmul : scaled s e ≤ s * 10 ^ (-1 : ℤ) := mul_le_mul_of_nonneg_left hpow (by positivity)
      push_cast
      rw [pow_succ] at hs'
      norm_num at hmul
      linarith
    have hvalue : 10 ^ k ≤ Shortest.value d.shortest :=
      (pow_le_of_lt_length (by omega) hpos).trans (Nat.le_mul_of_pos_right _ (Nat.pow_pos (by decide)))
    have hten : d.Stands (1 * 10 ^ k) := by
      rw [Nat.one_mul]
      exact Rounds.between h hstands hlt.le (by exact_mod_cast hvalue)
    have hone := (shortest_whole hinteger hne one_pos hten).1
    have hzero : k = 0 := by
      have : (Nat.toDigits 10 1).length = 1 := rfl
      omega
    obtain ⟨hlow, -⟩ := Rounds.near h (one_le_magnitude hinteger hne)
    have hmagnitude := one_le_magnitude hinteger hne
    have hdigit : (s : ℚ) ≤ 9 := by
      have := (length_toDigits_le (n := s) (k := 1) (by decide)).mp (by omega)
      exact_mod_cast (show s ≤ 9 by omega)
    have hpow : (10 : ℚ) ^ e ≤ 10 ^ (-1 : ℤ) := zpow_le_zpow_right₀ (by norm_num) (by omega)
    have hmul : scaled s e ≤ 9 * 10 ^ (-1 : ℤ) := mul_le_mul hdigit hpow (by positivity) (by norm_num)
    norm_num at hmul
    linarith
  · obtain ⟨j, rfl⟩ := Int.eq_ofNat_of_zero_le hwhole
    rw [scaled_natCast] at h ⊢
    obtain ⟨hlen, hclose⟩ := shortest_whole hinteger hne hs h
    refine ⟨hlen, fun hsame => ?_⟩
    rw [← natAbs_cast hinteger]
    have hdistance := hclose hsame
    unfold Shortest.distance at hdistance
    have habs : |((Shortest.value d.shortest : ℕ) : ℤ) - d.natAbs| ≤ |((s * 10 ^ j : ℕ) : ℤ) - d.natAbs| := by
      rw [Int.abs_eq_natAbs, Int.abs_eq_natAbs]
      exact_mod_cast hdistance
    exact_mod_cast habs

/-! ### The text -/

theorem isDigit_toDigits {n : ℕ} {c : Char} (h : c ∈ Nat.toDigits 10 n) : c.isDigit :=
  Nat.isDigit_of_mem_toDigits (by decide) (by decide) h

/-- **A layout is digits only** up to 21 of them, and then denotes what the digits stand for. -/
theorem layout_iff {r : ℕ × ℕ} (hr : 0 < r.1) :
    (∀ c ∈ layout r, c.isDigit) ↔ Shortest.value r < 10 ^ 21 := by
  have hlen := length_toDigits_mul_pow hr r.2
  rw [← length_toDigits_le (by decide), Shortest.value, hlen]
  unfold layout
  by_cases hshort : (Nat.toDigits 10 r.1).length + r.2 ≤ 21
  · simp only [hshort, if_true, iff_true]
    intro c hc
    rcases List.mem_append.mp hc with hc | hc
    · exact isDigit_toDigits hc
    · rw [List.eq_of_mem_replicate hc]
      rfl
  · simp only [hshort, if_false, iff_false]
    intro hall
    have he := hall 'e' (by split <;> simp)
    cases he

theorem ofDigitChars_layout {r : ℕ × ℕ} (hr : 0 < r.1) (h : Shortest.value r < 10 ^ 21) :
    Nat.ofDigitChars 10 (layout r) 0 = Shortest.value r := by
  have hlen := length_toDigits_mul_pow hr r.2
  rw [← length_toDigits_le (by decide), Shortest.value, hlen] at h
  unfold layout
  simp only [h, if_true]
  rw [Nat.ofDigitChars_append, Nat.ofDigitChars_ten_toDigits, Nat.ofDigitChars_replicate_zero, Nat.mul_comm]
  rfl

theorem toText_ne_nil (d : Double) : d.toText ≠ [] := by
  have hdigits : ∀ n : ℕ, Nat.toDigits 10 n ≠ [] := fun n => Nat.toDigits_ne_nil
  unfold toText
  split
  · exact List.cons_ne_nil _ _
  · unfold layout
    dsimp only
    split
    · exact List.append_ne_nil_of_left_ne_nil (hdigits _) _
    · split <;> simp

/-- A whole number whose text is its own digits. -/
def Plain (d : Double) : Prop := d.natAbs < 10 ^ 21 ∧ Shortest.Plain d.Stands d.natAbs

/-- **When the text denotes the number.** -/
theorem toText_iff (hinteger : d.IsInteger) :
    ((∀ c ∈ d.toText, c.isDigit) ∧ Nat.ofDigitChars 10 d.toText 0 = d.natAbs) ↔ d.Plain := by
  unfold toText Plain
  by_cases hzero : d.natAbs = 0
  · rw [if_pos hzero, hzero]
    refine iff_of_true ⟨?_, rfl⟩ ⟨by decide, fun v j _ _ => dvd_zero _⟩
    intro c hc
    rw [List.mem_singleton.mp hc]
    rfl
  rw [if_neg hzero]
  have hstands := (Shortest.digitsFrom_spec (around hinteger) (Nat.toDigits 10 d.natAbs).length).1
  have hr : 0 < d.shortest.1 := Nat.pos_of_mul_pos_right (stands_bounds hinteger hzero hstands).1
  have hvalue : Shortest.value d.shortest = d.natAbs ↔ Shortest.Plain d.Stands d.natAbs :=
    Shortest.value_eq_iff (around hinteger) fun v hv => stands_bounds hinteger hzero hv
  rw [layout_iff hr, ← hvalue]
  constructor
  · rintro ⟨hlt, hdenotes⟩
    rw [ofDigitChars_layout hr hlt] at hdenotes
    exact ⟨hdenotes ▸ hlt, hdenotes⟩
  · rintro ⟨hlt, heq⟩
    rw [← heq] at hlt
    exact ⟨hlt, (ofDigitChars_layout hr hlt).trans heq⟩

/-- Below `2 ^ 53` every whole number is. -/
theorem plain_of_exponent_le (hinteger : d.IsInteger) (he : d.exponent ≤ 0) : d.Plain := by
  refine ⟨?_, fun v j hv hdvd => ?_⟩
  · have hle : d.natAbs ≤ d.significand := by
      unfold natAbs
      split
      · have : d.exponent.toNat = 0 := by omega
        simp [this]
      · exact Nat.div_le_self _ _
    exact lt_of_le_of_lt hle (d.significand_lt.trans (by decide))
  · rwa [← Rounds.eq_natAbs hv hinteger he]

end Double

/-! ## `StringToBigInt` -/

namespace BigInt

/-- White space and line ends. -/
def isStrWhiteSpace (c : Char) : Bool :=
  c.toNat ∈ [9, 10, 11, 12, 13, 32, 0xA0, 0x1680, 0x2028, 0x2029, 0x202F, 0x205F, 0x3000, 0xFEFF] ∨
    0x2000 ≤ c.toNat ∧ c.toNat ≤ 0x200A

/-- A text without white space at its ends. -/
def trimmed (s : List Char) : List Char :=
  ((s.dropWhile (isStrWhiteSpace ·)).reverse.dropWhile (isStrWhiteSpace ·)).reverse

/-- The value of a letter as a digit. -/
def digitValue (c : Char) : ℕ :=
  if c.isDigit then c.toNat - 48
  else if 'a' ≤ c ∧ c ≤ 'z' then c.toNat - 87
  else if 'A' ≤ c ∧ c ≤ 'Z' then c.toNat - 55
  else 36

/-- `DecimalDigits`. -/
def decimalDigits (s : List Char) : Option ℕ :=
  if s ≠ [] ∧ s.all Char.isDigit then some (Nat.ofDigitChars 10 s 0) else none

/-- The digits of a literal with another base. -/
def baseDigits (base : ℕ) (s : List Char) : Option ℕ :=
  if s ≠ [] ∧ s.all (digitValue · < base) then some (s.foldl (fun n c => base * n + digitValue c) 0) else none

/-- `StringToBigInt`: nothing where `BigInt` throws a `SyntaxError`. -/
def ofText (s : List Char) : Option ℤ :=
  match trimmed s with
  | [] => some 0
  | '+' :: s => (decimalDigits s).map Int.ofNat
  | '-' :: s => (decimalDigits s).map fun n => -Int.ofNat n
  | '0' :: c :: s =>
    if c = 'x' ∨ c = 'X' then (baseDigits 16 s).map Int.ofNat
    else if c = 'o' ∨ c = 'O' then (baseDigits 8 s).map Int.ofNat
    else if c = 'b' ∨ c = 'B' then (baseDigits 2 s).map Int.ofNat
    else (decimalDigits ('0' :: c :: s)).map Int.ofNat
  | s => (decimalDigits s).map Int.ofNat

theorem not_isStrWhiteSpace {c : Char} (h : c.isDigit) : isStrWhiteSpace c = false := by
  obtain ⟨hlow, hhigh⟩ : 48 ≤ c.toNat ∧ c.toNat ≤ 57 := by
    simpa [Char.isDigit, Char.le_def, UInt32.le_iff_toNat_le] using h
  simp only [isStrWhiteSpace, List.mem_cons, List.not_mem_nil, or_false, decide_eq_false_iff_not]
  omega

theorem trimmed_of_digits {s : List Char} (h : ∀ c ∈ s, c.isDigit) : trimmed s = s := by
  have hkeep : ∀ t : List Char, (∀ c ∈ t, c.isDigit) → t.dropWhile (isStrWhiteSpace ·) = t := by
    intro t ht
    cases t with
    | nil => rfl
    | cons c t => rw [List.dropWhile_cons_of_neg (by simp [not_isStrWhiteSpace (ht c List.mem_cons_self)])]
  rw [trimmed, hkeep s h, hkeep _ fun c hc => h c (List.mem_reverse.mp hc), List.reverse_reverse]

/-- **Digits** are read as what they denote. -/
theorem ofText_of_digits {s : List Char} (hsome : s ≠ []) (h : ∀ c ∈ s, c.isDigit) :
    ofText s = some (Int.ofNat (Nat.ofDigitChars 10 s 0)) := by
  have hdecimal : decimalDigits s = some (Nat.ofDigitChars 10 s 0) := by
    rw [decimalDigits, if_pos ⟨hsome, List.all_eq_true.mpr h⟩]
  have hnot : ∀ {c d : Char}, c ∈ s → d.isDigit = false → c ≠ d := by
    rintro c d hc hd rfl
    rw [h c hc] at hd
    cases hd
  unfold ofText
  rw [trimmed_of_digits h]
  split
  · exact absurd rfl hsome
  · exact absurd rfl (hnot List.mem_cons_self (by decide))
  · exact absurd rfl (hnot List.mem_cons_self (by decide))
  · rename_i c s
    have hc : c ∈ '0' :: c :: s := List.mem_cons_of_mem _ List.mem_cons_self
    rw [if_neg (not_or.mpr ⟨hnot hc (by decide), hnot hc (by decide)⟩),
      if_neg (not_or.mpr ⟨hnot hc (by decide), hnot hc (by decide)⟩),
      if_neg (not_or.mpr ⟨hnot hc (by decide), hnot hc (by decide)⟩), hdecimal]
    rfl
  · rw [hdecimal]
    rfl

end BigInt
