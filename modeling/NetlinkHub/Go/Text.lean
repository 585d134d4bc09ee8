import Mathlib.Algebra.Group.Int.Defs
import NetlinkHub.Posix.Path

/-! # Go's `strings`, `strconv` and `encoding`

The functions on text that the agent's packages use. A Go string is a `String`; a byte slice is a
list of bytes. `strings.ToLower` beyond ASCII is a parameter. -/

namespace Text

open Posix (Bytes)

/-- `strings.ToLower`, with the lower case of letters beyond ASCII given. -/
def toLower (beyond : Char → Char) (s : List Char) : List Char :=
  s.map fun c => if c.toNat < 128 then c.toLower else beyond c

/-- `unicode.IsSpace`. -/
def isSpace (c : Char) : Bool :=
  c.toNat ∈ [9, 10, 11, 12, 13, 32, 0x85, 0xA0, 0x1680, 0x2028, 0x2029, 0x202F, 0x205F, 0x3000] ∨
    0x2000 ≤ c.toNat ∧ c.toNat ≤ 0x200A

/-- `strings.TrimSpace`. -/
def trimSpace (s : List Char) : List Char :=
  ((s.dropWhile (isSpace ·)).reverse.dropWhile (isSpace ·)).reverse

/-- `strings.TrimPrefix` with a prefix of one character. -/
def trimPrefix (c : Char) : List Char → List Char
  | d :: s => if d = c then s else d :: s
  | [] => []

/-- `strings.SplitN`: at most `n` fields, the last one whole. -/
def splitN (sep : Char) : Nat → List Char → List (List Char)
  | 0, _ => []
  | 1, s => [s]
  | n + 2, s =>
    if sep ∈ s then
      s.takeWhile (· ≠ sep) :: splitN sep (n + 1) ((s.dropWhile (· ≠ sep)).drop 1)
    else [s]

/-- The value of a nonempty run of decimal digits. -/
def digits : List Char → Option Nat
  | [] => none
  | s => if s.all Char.isDigit then some (s.foldl (fun n c => 10 * n + (c.toNat - 48)) 0) else none

/-- `strconv.Atoi` with 64-bit integers. -/
def atoi (s : List Char) : Option Int :=
  match s with
  | '-' :: s => (digits s).bind fun n => if n ≤ 2 ^ 63 then some (-(n : Int)) else none
  | '+' :: s => (digits s).bind fun n => if n < 2 ^ 63 then some n else none
  | s => (digits s).bind fun n => if n < 2 ^ 63 then some n else none

/-- A digit `hex.DecodeString` accepts. -/
def isHexDigit (c : Char) : Bool :=
  c.isDigit || ('a' ≤ c && c ≤ 'f') || ('A' ≤ c && c ≤ 'F')

/-! ## `base64.RawURLEncoding` -/

/-- The six bits of a character of the URL alphabet. -/
def sextet (c : Char) : Option Nat :=
  if c.isUpper then some (c.toNat - 65)
  else if c.isLower then some (c.toNat - 71)
  else if c.isDigit then some (c.toNat + 4)
  else if c = '-' then some 62
  else if c = '_' then some 63
  else none

/-- The bytes of a list of sextets, four at a time. Bits left over at the end are dropped. -/
def quanta : List Nat → Option Bytes
  | [] => some []
  | [_] => none
  | [a, b] => some [.ofNat (a * 4 + b / 16)]
  | [a, b, c] => some [.ofNat (a * 4 + b / 16), .ofNat (b % 16 * 16 + c / 4)]
  | a :: b :: c :: d :: rest => (quanta rest).map fun bytes =>
      .ofNat (a * 4 + b / 16) :: .ofNat (b % 16 * 16 + c / 4) :: .ofNat (c % 4 * 64 + d) :: bytes

/-- `base64.RawURLEncoding.DecodeString`: line ends are skipped. -/
def rawURLDecode (s : String) : Option Bytes :=
  ((s.toList.filter fun c => c ≠ '\r' ∧ c ≠ '\n').mapM sextet).bind quanta

/-- Hexadecimal digits are ASCII. -/
theorem toNat_lt_of_isHexDigit {c : Char} (h : isHexDigit c) : c.toNat < 128 := by
  simp only [isHexDigit, Char.isDigit, Bool.or_eq_true, Bool.and_eq_true, decide_eq_true_eq,
    ge_iff_le, Char.le_def, UInt32.le_iff_toNat_le] at h
  have hA : ('A').val.toNat = 65 := rfl
  have hF : ('F').val.toNat = 70 := rfl
  have ha : ('a').val.toNat = 97 := rfl
  have hf : ('f').val.toNat = 102 := rfl
  have h9 : ('9').val.toNat = 57 := rfl
  have hc : c.toNat = c.val.toNat := rfl
  omega

/-- Lower-casing a hexadecimal text makes no line end. -/
theorem newline_notMem_toLower_of_hex {beyond : Char → Char} {s : List Char}
    (h : ∀ c ∈ s, isHexDigit c) : '\n' ∉ toLower beyond s := by
  intro hmem
  obtain ⟨c, hc, hlow⟩ := List.mem_map.mp hmem
  have hlt := toNat_lt_of_isHexDigit (h c hc)
  have hall : ∀ n : Fin 128, isHexDigit (Char.ofNat n) → (Char.ofNat n).toLower ≠ '\n' := by decide
  rw [if_pos hlt] at hlow
  refine hall ⟨c.toNat, hlt⟩ ?_ ?_
  · simpa using h c hc
  · simpa using hlow

/-! ## `encoding/hex` -/

/-- `hex.EncodeToString`. -/
def hexEncode (bytes : Bytes) : List Char :=
  bytes.flatMap fun x => [Nat.digitChar (x.toNat / 16), Nat.digitChar (x.toNat % 16)]

/-- A digit below sixteen is a lower-case one. -/
theorem digitChar_hex : ∀ n : Fin 16, isHexDigit (Nat.digitChar n) ∧ (Nat.digitChar n).toNat < 128 ∧
    (Nat.digitChar n).toLower = Nat.digitChar n ∧ (Nat.digitChar n).utf8Size = 1 := by
  decide

theorem digitChar_inj : ∀ n m : Fin 16, Nat.digitChar n = Nat.digitChar m → n = m := by decide

/-- A letter of a hexadecimal text is a digit below sixteen. -/
theorem exists_of_mem_hexEncode {bytes : Bytes} {c : Char} (h : c ∈ hexEncode bytes) :
    ∃ n : Fin 16, c = Nat.digitChar n := by
  obtain ⟨x, -, hc⟩ := List.mem_flatMap.mp h
  have := x.toNat_lt
  rcases List.mem_cons.mp hc with rfl | hc
  · exact ⟨⟨x.toNat / 16, by omega⟩, rfl⟩
  · exact ⟨⟨x.toNat % 16, by omega⟩, List.mem_singleton.mp hc⟩

theorem isHexDigit_hexEncode (bytes : Bytes) : (hexEncode bytes).all isHexDigit := by
  refine List.all_eq_true.mpr fun c hc => ?_
  obtain ⟨n, rfl⟩ := exists_of_mem_hexEncode hc
  exact (digitChar_hex n).1

/-- A hexadecimal text is written in lower case. -/
theorem toLower_hexEncode (beyond : Char → Char) (bytes : Bytes) :
    toLower beyond (hexEncode bytes) = hexEncode bytes := by
  refine (List.map_congr_left fun c hc => ?_).trans (List.map_id _)
  obtain ⟨n, rfl⟩ := exists_of_mem_hexEncode hc
  rw [if_pos (digitChar_hex n).2.1, (digitChar_hex n).2.2.1]
  rfl

/-- **A hexadecimal text determines the bytes.** -/
theorem hexEncode_inj {bytes other : Bytes} (h : hexEncode bytes = hexEncode other) : bytes = other := by
  induction bytes generalizing other with
  | nil =>
    cases other with
    | nil => rfl
    | cons y other => cases h
  | cons x bytes ih =>
    cases other with
    | nil => cases h
    | cons y other =>
      have := x.toNat_lt
      have := y.toNat_lt
      simp only [hexEncode, List.flatMap_cons, List.cons_append, List.nil_append, List.cons.injEq] at h
      obtain ⟨hhigh, hlow, hrest⟩ := h
      have hhigh' := digitChar_inj ⟨x.toNat / 16, by omega⟩ ⟨y.toNat / 16, by omega⟩ hhigh
      have hlow' := digitChar_inj ⟨x.toNat % 16, by omega⟩ ⟨y.toNat % 16, by omega⟩ hlow
      simp only [Fin.mk.injEq] at hhigh' hlow'
      rw [ih hrest, UInt8.toNat_inj.mp (show x.toNat = y.toNat by omega)]

/-! ## Decimal numbers -/

/-- The digits of a number are read as it. -/
theorem digits_toDigits (n : ℕ) : digits (Nat.toDigits 10 n) = some n := by
  have hall : (Nat.toDigits 10 n).all Char.isDigit :=
    List.all_eq_true.mpr fun c hc => Nat.isDigit_of_mem_toDigits (by decide) (by decide) hc
  have hvalue : (Nat.toDigits 10 n).foldl (fun n c => 10 * n + (c.toNat - 48)) 0 = n := by
    have := Nat.ofDigitChars_ten_toDigits (n := n)
    rwa [Nat.ofDigitChars_eq_foldl] at this
  obtain ⟨c, letters, htext⟩ := List.exists_cons_of_ne_nil (Nat.toDigits_ne_nil (n := n) (b := 10))
  rw [htext] at hall hvalue ⊢
  rw [digits, if_pos hall, hvalue]
  simp

/-- `strconv.FormatInt` with base ten. -/
def formatInt (x : Int) : List Char := (if x < 0 then ['-'] else []) ++ Nat.toDigits 10 x.natAbs

/-- **A number of 64 bits is read back.** -/
theorem atoi_formatInt {x : Int} (hlow : -2 ^ 63 ≤ x) (hhigh : x < 2 ^ 63) : atoi (formatInt x) = some x := by
  have hdigits := digits_toDigits x.natAbs
  rw [formatInt]
  split
  · simp only [List.singleton_append, atoi, hdigits, Option.bind_some]
    rw [if_pos (by omega), Option.some.injEq]
    omega
  · obtain ⟨c, letters, htext⟩ := List.exists_cons_of_ne_nil (Nat.toDigits_ne_nil (n := x.natAbs) (b := 10))
    have hc : c.isDigit := Nat.isDigit_of_mem_toDigits (b := 10) (by decide) (by decide)
      (htext ▸ List.mem_cons_self)
    rw [htext] at hdigits ⊢
    rw [List.nil_append]
    unfold atoi
    split
    · rename_i heq
      rw [(List.cons.inj heq).1] at hc
      exact absurd hc (by decide)
    · rename_i heq
      rw [(List.cons.inj heq).1] at hc
      exact absurd hc (by decide)
    · rw [hdigits, Option.bind_some, if_pos (by omega), Option.some.injEq]
      omega

/-- What is read has 64 bits. -/
theorem atoi_range {s : List Char} {x : Int} (h : atoi s = some x) : -2 ^ 63 ≤ x ∧ x < 2 ^ 63 := by
  unfold atoi at h
  split at h
  all_goals
    obtain ⟨n, -, hn⟩ := Option.bind_eq_some_iff.mp h
    split at hn <;> cases hn
    omega

end Text

example : Text.rawURLDecode "TWFu_w" = some [77, 97, 110, 255] := by decide
